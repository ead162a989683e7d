import TurtleGraphics.Signature
import TurtleGraphics.Text.Column
/-!
The errors of the language and their wording.

A line that holds no instruction is reported with its number and its text. An error of a run has a
cause and, once it is known, the line of the instruction that failed; the first line given to an
error stays.
-/
set_option autoImplicit false

namespace TurtleGraphics

/-- The kinds of error that a caller can tell apart. -/
inductive ErrorKind where
  | failure
  | invalidValue
  | turtle
  | configuration
  | parsing
  | scriptSyntax
  | run
  | evaluation
  | structural
  | resourceLimit
  deriving DecidableEq, Repr

namespace ErrorKind

def name : ErrorKind → String
  | failure => "Exception"
  | invalidValue => "ValueError"
  | turtle => "TurtleError"
  | configuration => "ConfigurationError"
  | parsing => "ParseError"
  | scriptSyntax => "ScriptSyntaxError"
  | run => "RunError"
  | evaluation => "EvaluationError"
  | structural => "StructuralError"
  | resourceLimit => "ResourceLimitError"

/-- A kind and the more general kinds that it belongs to, from the particular to the general. -/
def lineage : ErrorKind → List ErrorKind
  | failure => [failure]
  | invalidValue => [invalidValue, failure]
  | turtle => [turtle, failure]
  | configuration => [configuration, turtle, invalidValue, failure]
  | parsing => [parsing, turtle, failure]
  | scriptSyntax => [scriptSyntax, parsing, turtle, failure]
  | run => [run, turtle, failure]
  | evaluation => [evaluation, run, turtle, failure]
  | structural => [structural, run, turtle, failure]
  | resourceLimit => [resourceLimit, run, turtle, failure]

/-- What an error of a kind is made from; none for the kinds that are made from anything. -/
def signature? : ErrorKind → Option Signature
  | run | structural => some (.constructor run.name ["message"] ["line"] false)
  | evaluation => some (.constructor evaluation.name ["message"] ["name", "line"] false)
  | resourceLimit => some (.constructor resourceLimit.name ["message", "limit"] ["line"] false)
  | scriptSyntax => some (.constructor scriptSyntax.name ["line", "text"] [] false)
  | _ => none

/-- All kinds there are. -/
def all : List ErrorKind :=
  [failure, invalidValue, turtle, configuration, parsing, scriptSyntax, run, evaluation, structural,
    resourceLimit]

end ErrorKind

/-- A line that holds no instruction. Lines are counted from one. -/
structure BadLine where
  line : Int
  text : String
  deriving DecidableEq, Repr

namespace BadLine

/-- The line with a caret below its first character that is no blank. -/
def context (e : BadLine) : String := Text.withCaret e.text

def message (e : BadLine) : String :=
  "Parser Error: line " ++ Numeral.text e.line ++ "\n\n" ++ e.context

end BadLine

/-- A failure and, once it is known, the line at which it happened. -/
structure Located (α : Type) where
  cause : α
  line : Option Int
  deriving DecidableEq, Repr

/-- Gives a line to a failure that has none yet. -/
def Located.atLine {α : Type} (e : Located α) (line : Int) : Located α :=
  match e.line with
  | some _ => e
  | none => { e with line := some line }

/-- What an error of a run tells: a message, and for some kinds a detail. -/
inductive Report where
  | plain (message : String)
  | evaluation (message : String) (name : Option String)
  | structural (message : String)
  | resourceLimit (message : String) (limit : Int)
  deriving DecidableEq, Repr

namespace Report

def kind : Report → ErrorKind
  | plain _ => .run
  | evaluation .. => .evaluation
  | structural _ => .structural
  | resourceLimit .. => .resourceLimit

def message : Report → String
  | plain m => m
  | evaluation m _ => m
  | structural m => m
  | resourceLimit m _ => m

end Report

/-- The message of a report, with its line if that is known. -/
def Located.text (e : Located Report) : String :=
  match e.line with
  | none => e.cause.message
  | some n => e.cause.message ++ " (line " ++ Numeral.text n ++ ")"

/-- Why a run fails. -/
inductive Cause where
  | unknownVariable (name : String)
  | lengthTooLarge
  | angleTooLarge
  /-- The block opened at `line` has no end. -/
  | unclosedBlock (line : Int)
  /-- An end was reached while no block is open. -/
  | strayClose
  | stepLimit (limit : Int)
  deriving DecidableEq, Repr

def Cause.report : Cause → Report
  | unknownVariable name => .evaluation ("Unknown variable: " ++ name) (some name)
  | lengthTooLarge => .evaluation "Length is too large to move by" none
  | angleTooLarge => .evaluation "Angle is too large to rotate by" none
  | unclosedBlock line =>
    .structural ("No matching END for the block opened at line " ++ Numeral.text line)
  | strayClose => .structural "END with no matching IF or WHILE"
  | stepLimit limit =>
    .resourceLimit ("Too many instructions (more than " ++ Numeral.text limit ++ " executed)") limit

def Cause.kind (c : Cause) : ErrorKind := c.report.kind

abbrev RunError := Located Cause

def RunError.report (e : RunError) : Located Report := ⟨e.cause.report, e.line⟩

end TurtleGraphics
