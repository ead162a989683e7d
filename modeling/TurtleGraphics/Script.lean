import TurtleGraphics.Error
import TurtleGraphics.Instruction.Parser
import TurtleGraphics.Log
import TurtleGraphics.Program
import TurtleGraphics.Text.Lines
/-!
Scripts: the texts of programs, one instruction per line.
-/
set_option autoImplicit false

namespace TurtleGraphics.Script

/-- Why a script cannot be read. -/
inductive Fault where
  | badLine (e : BadLine)
  /-- A numeral has `digits` digits, more than can be read. -/
  | overlong (digits : Nat)
  deriving DecidableEq, Repr

/-- The instructions of `lines`, the first of which has the number `number`. -/
def parseLines (strict : Bool) (number : Nat) : List String → Except Fault (List Instruction)
  | [] => .ok []
  | line :: rest =>
    match Instruction.parse? strict line with
    | .error e => .error (.overlong e.digits)
    | .ok none => .error (.badLine ⟨number, line⟩)
    | .ok (some i) =>
      match parseLines strict (number + 1) rest with
      | .ok is => .ok (i :: is)
      | .error e => .error e

/-- The program that a script stands for, or the first line that stops it from being read. -/
def parse (strict : Bool) (text : String) : Except Fault (Program Instruction) :=
  let lines := Text.lines text
  match parseLines strict 1 lines with
  | .ok is => .ok ⟨is, lines⟩
  | .error e => .error e

/-- What the log says of a script that was read. -/
def readRecord (p : Program Instruction) : Log.Record :=
  Log.debug ("Parsed " ++ Numeral.text p.size ++ " lines")

end TurtleGraphics.Script
