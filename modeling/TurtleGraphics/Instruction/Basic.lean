import TurtleGraphics.Expr.Basic
import TurtleGraphics.Block
/-!
Instructions, one per line of a program, and their canonical text.

An instruction draws, changes the pen, sets a variable, opens or ends a block, or does nothing. Each
kind but the last has a long keyword, most also a short one; the canonical text is the long keyword
followed by the operands.
-/
set_option autoImplicit false

namespace TurtleGraphics

inductive Instruction where
  | move (length : Expr)
  /-- Turns the heading counterclockwise, by an angle in degrees. -/
  | rotate (angle : Expr)
  /-- Takes the pen off the paper. -/
  | lift
  /-- Puts the pen on the paper. -/
  | place
  | set (name : String) (value : Expr)
  /-- Opens a block that is entered once if the condition holds. -/
  | conditional (condition : Cond)
  /-- Opens a block that is repeated as long as the condition holds. -/
  | loop (condition : Cond)
  /-- Closes the innermost open block. -/
  | close
  | blank
  deriving DecidableEq, Repr

namespace Instruction

inductive Kind where
  | move | rotate | lift | place | set | conditional | loop | close | blank
  deriving DecidableEq, Repr

def kind : Instruction → Kind
  | move _ => .move
  | rotate _ => .rotate
  | lift => .lift
  | place => .place
  | set .. => .set
  | conditional _ => .conditional
  | loop _ => .loop
  | close => .close
  | blank => .blank

namespace Kind

/-- The kinds, in the order in which a line is tried against them. -/
def all : List Kind := [move, rotate, lift, place, set, close, conditional, loop, blank]

/-- The keywords that introduce a kind, the long one first. -/
def keywords : Kind → List String
  | move => ["MOVE", "M"]
  | rotate => ["ROTATE", "R"]
  | lift => ["LIFT", "L"]
  | place => ["PLACE", "P"]
  | set => ["SET", "S"]
  | conditional => ["IF"]
  | loop => ["WHILE"]
  | close => ["END", "E"]
  | blank => []

end Kind

/-- What an instruction means to the block structure of a program. -/
def role : Instruction → Block.Role
  | conditional _ | loop _ => .opens
  | close => .closes
  | _ => .neutral

/-- The canonical text of an instruction. -/
def write : Instruction → List Char
  | move length => "MOVE ".toList ++ length.write
  | rotate angle => "ROTATE ".toList ++ angle.write
  | lift => "LIFT".toList
  | place => "PLACE".toList
  | set name value => "SET ".toList ++ name.toList ++ ' ' :: value.write
  | conditional condition => "IF ".toList ++ condition.write
  | loop condition => "WHILE ".toList ++ condition.write
  | close => "END".toList
  | blank => []

def text (i : Instruction) : String := String.ofList i.write

end Instruction

end TurtleGraphics
