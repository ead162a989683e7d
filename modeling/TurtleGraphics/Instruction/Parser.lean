import TurtleGraphics.Instruction.Basic
import TurtleGraphics.Expr.Parser
/-!
Matchers for instructions.

A line is tried against the kinds in turn, and against the keywords of a kind from the long to the
short. After the keyword and the operands nothing but a comment may follow.
-/
set_option autoImplicit false

namespace TurtleGraphics.Instruction

open Lexeme

/-- The operands that follow a keyword of kind `k`. -/
def operands : Kind → Matcher Instruction
  | .move => Matcher.map .move Expr.expression
  | .rotate => Matcher.map .rotate Expr.expression
  | .lift => .succeed .lift
  | .place => .succeed .place
  | .set => word.andThen fun name => Matcher.map (.set name) Expr.expression
  | .conditional => Matcher.map .conditional Cond.logic
  | .loop => Matcher.map .loop Cond.logic
  | .close => .succeed .close
  | .blank => .succeed .blank

/-- The operands of kind `k` and then the end of the line. -/
def tail (k : Kind) : Matcher Instruction :=
  (operands k).andThen fun i => endOfLine.map fun _ => i

/-- An instruction of kind `k` introduced by the keyword `name`. -/
def form (strict : Bool) (k : Kind) (name : String) : Matcher Instruction :=
  (keyword strict name.toList).andThen fun _ => tail k

/-- An instruction of kind `k`, up to the end of the line. A kind without keywords is all operands.
-/
def ofKind (strict : Bool) (k : Kind) : Matcher Instruction :=
  match k.keywords with
  | [] => tail k
  | names => .firstOf (names.map (form strict k))

/-- An instruction of the first of `kinds` that matches. -/
def among (strict : Bool) (kinds : List Kind) : Matcher Instruction :=
  .firstOf (kinds.map (ofKind strict))

/-- An instruction of any kind, up to the end of the line. -/
def any (strict : Bool) : Matcher Instruction := among strict Kind.all

/-- The failure to read a line: a numeral in it has too many digits. -/
structure Overlong where
  digits : Nat
  deriving DecidableEq, Repr

/-- The instruction that a line holds, if it holds one. -/
def parse? (strict : Bool) (line : String) : Except Overlong (Option Instruction) :=
  match any strict line.toList with
  | .matched i _ => .ok (some i)
  | .refused => .ok none
  | .overlong digits => .error ⟨digits⟩

end TurtleGraphics.Instruction
