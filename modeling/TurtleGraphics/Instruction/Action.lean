import TurtleGraphics.Instruction.Basic
import TurtleGraphics.Machine.Language
/-!
What the instructions of the language do.

The operands of an instruction are evaluated first, and the first variable without a value stops it.
Nothing else can: every instruction makes sense, so no misuse is possible.
-/
set_option autoImplicit false

namespace TurtleGraphics.Instruction

open Machine (Action Failure Language)

/-- An evaluation as a machine reports it. -/
def evaluated {α : Type} : Except Unbound α → Except (Failure Empty) α
  | .ok a => .ok a
  | .error u => .error (.unbound u.name)

/-- What an instruction does under these values of the variables. -/
def action (env : Env) : Instruction → Except (Failure Empty) (Action Env Empty)
  | move length => (evaluated (length.eval env)).map .move
  | rotate angle => (evaluated (angle.eval env)).map .rotate
  | lift => .ok (.pen false)
  | place => .ok (.pen true)
  | set name value => (evaluated (value.eval env)).map fun n => .assign (env.set name n)
  | conditional condition => (evaluated (condition.eval env)).map (.enter · false)
  | loop condition => (evaluated (condition.eval env)).map (.enter · true)
  | close => .ok .close
  | blank => .ok .skip

/-- The language of the instructions that a script can hold. -/
def language : Language Instruction Env Empty where
  blank := .empty
  role := fun i => .ok i.role
  text := text
  action := action

end TurtleGraphics.Instruction
