import TurtleGraphics.Error
import TurtleGraphics.Log
import TurtleGraphics.Template.Filling
/-!
Errors that a caller makes.

A caller may make an error of any kind from values of any sort. What it is made from is kept as it
is, and only a message shows whether it makes sense: a line has to count as a number there, and the
text of a line that holds no instruction has to be a text.
-/
set_option autoImplicit false

namespace TurtleGraphics

inductive CustomError where
  /-- An error of a kind that is made from anything. -/
  | plain (kind : ErrorKind) (arguments : List Setting)
  | badLine (line text : Setting)
  /-- An error of a run. For some kinds it tells a detail besides its message. -/
  | run (kind : ErrorKind) (message detail line : Setting)

namespace CustomError

/-- Why an error cannot be made, told or given a line. -/
inductive Fault where
  | signature (e : Signature.Fault)
  /-- Arguments were given by name to a kind that is made from anything. -/
  | named (kind : ErrorKind)
  /-- A message of this sort has no line that makes it a text. -/
  | noText (sort : String)
  /-- A line does not count as a number. -/
  | line (e : Template.Fault)
  /-- This is asked of something that does not have it. -/
  | lacks (sort member : String)

def Fault.message : Fault → String
  | signature e => e.message
  | named kind => kind.name ++ "() takes no keyword arguments"
  | noText sort => "__str__ returned non-string (type " ++ sort ++ ")"
  | line e => e.message
  | lacks sort member => "'" ++ sort ++ "' object has no attribute '" ++ member ++ "'"

def kind : CustomError → ErrorKind
  | plain kind _ => kind
  | badLine .. => .scriptSyntax
  | run kind .. => kind

/-- The error of a kind that has a signature, from the arguments of its parameters. A detail comes
before the line. -/
def ofArguments (kind : ErrorKind) : List Setting → CustomError
  | [first, second] =>
    if kind = .scriptSyntax then badLine first second else run kind first .null second
  | [message, detail, line] => run kind message detail line
  | arguments => plain kind arguments

/-- The error of a kind that is made from these arguments. A parameter without an argument gets
nothing. -/
def make (kind : ErrorKind) (positional : List Setting) (named : List (String × Setting)) :
    Except Fault CustomError :=
  match kind.signature? with
  | none => if named.isEmpty then .ok (plain kind positional) else .error (.named kind)
  | some signature =>
    match signature.bind positional named with
    | .ok arguments => .ok (ofArguments kind (arguments.map fun a => a.getD .null))
    | .error e => .error (.signature e)

/-- The number that a line counts as. -/
def lineNumber (line : Setting) : Except Fault Int :=
  (Template.integerFor 'd' line).mapError .line

/-- The text of an error that is made from anything. -/
def plainText : List Setting → String
  | [] => ""
  | [message] => message.plain
  | arguments => "(" ++ Text.commaSeparated (arguments.map Setting.display) ++ ")"

def text : CustomError → Except Fault String
  | plain _ arguments => .ok (plainText arguments)
  | badLine line (.text text) => do return BadLine.message ⟨← lineNumber line, text⟩
  | badLine _ other => .error (.lacks other.sortName "lstrip")
  | run _ (.text message) _ .null => .ok message
  | run _ message _ .null => .error (.noText message.sortName)
  | run _ message _ line => do
    return Located.text ⟨.plain message.plain, some (← lineNumber line)⟩

/-- Gives a line to an error of a run that has none yet, and what the log says of it. -/
def atLine (line : Setting) : CustomError → Except Fault (CustomError × List Log.Record)
  | run kind message detail .null =>
    match line with
    | .null => .ok (run kind message detail .null, [])
    | _ => do
      return (run kind message detail line, [Log.attributed kind.name (← lineNumber line)])
  | run kind message detail known => .ok (run kind message detail known, [])
  | e => .error (.lacks e.kind.name "at_line")

end CustomError

end TurtleGraphics
