import TurtleGraphics.Machine.Language
import TurtleGraphics.Tree.Eval
/-!
What trees do when a machine executes them as instructions.

Any tree may stand in a program. One that is no instruction has no role and does nothing, which is a
misuse, and so is an instruction whose operands have values of the wrong sort. A condition holds if
its value is true.
-/
set_option autoImplicit false

namespace TurtleGraphics.Tree

open Machine (Action Failure Language)

/-- What a tree means to the block structure of a program. -/
def role : Tree → Except Misuse Block.Role
  | node (.instruction k) _ =>
    match k with
    | .conditional | .loop => .ok .opens
    | .close => .ok .closes
    | _ => .ok .neutral
  | t => .error (.lacks t.sortName "kind")

/-- What a move by a value does. The length is multiplied with the directions of the heading, so it
has to be a number. -/
def moveBy (length : Value) : Action Env Misuse :=
  match length.toInt? with
  | some n => .move n
  | none =>
    .stray <|
      match length with
      | .text _ => .repeatedBy "float"
      | _ => .operands "*" length.sortName "float"

def rotateBy (angle : Value) : Except (Failure Misuse) (Action Env Misuse) :=
  match angle.toInt? with
  | some n => .ok (.rotate n)
  | none => .error (.misuse (.notReal angle.sortName))

/-- A value as a machine gets it. -/
def evaluated (env : Env) (t : Tree) : Except (Failure Misuse) Value :=
  match t.eval env with
  | .ok v => .ok v
  | .error (.unbound name) => .error (.unbound name.write)
  | .error (.misuse m) => .error (.misuse m)

/-- What a tree does under these values of the variables. -/
def action (env : Env) : Tree → Except (Failure Misuse) (Action Env Misuse)
  | node (.instruction .move) [length] => (evaluated env length).map moveBy
  | node (.instruction .rotate) [angle] => (evaluated env angle).bind rotateBy
  | node (.instruction .lift) [] => .ok (.pen false)
  | node (.instruction .place) [] => .ok (.pen true)
  | node (.instruction .set) [name, value] =>
    (evaluated env value).map fun v => .assign (env.set name v)
  | node (.instruction .conditional) [condition] =>
    (evaluated env condition).map fun v => .enter v.truth false
  | node (.instruction .loop) [condition] =>
    (evaluated env condition).map fun v => .enter v.truth true
  | node (.instruction .close) [] => .ok .close
  | node (.instruction .blank) [] => .ok .skip
  | t => .error (.misuse (.lacks t.sortName "execute"))

/-- What names no variable with a value, if that is why an instruction stands for no action. The
operand of an instruction comes last. -/
def unboundName? (env : Env) : Tree → Option Tree
  | node (.instruction _) parts =>
    match parts.getLast?.map (eval env) with
    | some (.error (.unbound name)) => some name
    | _ => none
  | _ => none

/-- The language of trees. -/
def language : Language Tree Env Misuse where
  blank := .empty
  role := role
  text := write
  action := action

end TurtleGraphics.Tree
