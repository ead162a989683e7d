import TurtleGraphics.Instruction.Action
import TurtleGraphics.Machine.Run
import TurtleGraphics.Options
import TurtleGraphics.Script
import TurtleGraphics.Text.Blank
/-!
Turtles: reading and running scripts under a set of options, with a log.

Reading a script logs one record. A run that fails with an error of the language logs one more at
its end, which names the line and quotes its source; a numeral that is too long and a heading
without direction are not errors of the language and are not logged.
-/
set_option autoImplicit false

namespace TurtleGraphics.Turtle

variable {ι E ε P H : Type}

/-- The program that a script stands for, and the log of reading it. -/
def parse (strict : Bool) (script : String) :
    Except Script.Fault (Program Instruction) × List Log.Record :=
  match Script.parse strict script with
  | .ok p => (.ok p, [Script.readRecord p])
  | .error e => (.error e, [])

/-- What the log says at the end of a run that failed in the program `p`. -/
def failureRecords (lang : Machine.Language ι E ε) (p : Program ι) :
    Machine.Fault ε → List Log.Record
  | .run e =>
    match e.line with
    | some line =>
      let source := (p.sourceLine? lang.text (line - 1)).getD ""
      [Log.info ("Run failed at line " ++ Numeral.text line ++ " (" ++ Text.trim source ++ "): " ++
        e.cause.report.message)]
    | none => [Log.info ("Run failed: " ++ e.cause.report.message)]
  | _ => []

/-- What the log says of a script that could not be read for a run. -/
def unreadRecords : Script.Fault → List Log.Record
  | .badLine e => [Log.info ("Run failed: " ++ e.message)]
  | .overlong _ => []

/-- The drawing of a program, and the log of its run. -/
def runProgram (lang : Machine.Language ι E ε) (plane : Plane P H) (o : Options) (p : Program ι) :
    Except (Machine.Fault ε) (Drawing P H) × List Log.Record :=
  match Machine.trace lang plane p o.maxSteps o.debug (Machine.start lang plane) [] with
  | (.finished s, log) => (.ok (Machine.drawing s), log.reverse)
  | (.failed e _, log) => (.error e, log.reverse ++ failureRecords lang p e)

/-- Why a script gives no drawing. -/
inductive Fault where
  | script (e : Script.Fault)
  | machine (e : Machine.Fault Empty)
  deriving DecidableEq, Repr

/-- The drawing of a script, and the log of reading and running it. -/
def run (plane : Plane P H) (o : Options) (script : String) :
    Except Fault (Drawing P H) × List Log.Record :=
  match parse o.strictKeywords script with
  | (.error e, log) => (.error (.script e), log ++ unreadRecords e)
  | (.ok p, log) =>
    match runProgram Instruction.language plane o p with
    | (.ok d, more) => (.ok d, log ++ more)
    | (.error e, more) => (.error (.machine e), log ++ more)

end TurtleGraphics.Turtle
