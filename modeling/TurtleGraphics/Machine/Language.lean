import TurtleGraphics.Block
/-!
What a machine has to know of the instructions that it executes.

A machine works with any instructions `ι` that keep their variables in an `E`. A language tells what
an instruction means to the block structure, how it is written, and which action it stands for once
its operands are evaluated. Something that is no instruction, or operands that make no sense for
one, are a misuse `ε`. A language in which everything makes sense has the empty type there.
-/
set_option autoImplicit false

namespace TurtleGraphics.Machine

/-- What an instruction does, its operands evaluated. -/
inductive Action (E ε : Type) where
  | move (length : Int)
  /-- A move by something that is no length. -/
  | stray (misuse : ε)
  | rotate (degrees : Int)
  | pen (down : Bool)
  /-- Gives the variables these values. -/
  | assign (env : E)
  /-- Enters the block that begins here if its condition `holds`, and skips it if not. A block that
  `repeats` goes back to its condition at its end. -/
  | enter (holds repeats : Bool)
  | close
  | skip
  deriving DecidableEq, Repr

/-- Why an instruction stands for no action. -/
inductive Failure (ε : Type) where
  /-- A variable of this name has no value. -/
  | unbound (name : String)
  | misuse (m : ε)
  deriving DecidableEq, Repr

structure Language (ι E ε : Type) where
  /-- No variable has a value. -/
  blank : E
  role : ι → Except ε Block.Role
  text : ι → String
  action : E → ι → Except (Failure ε) (Action E ε)

end TurtleGraphics.Machine
