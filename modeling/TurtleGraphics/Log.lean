import TurtleGraphics.Numeral
/-!
Log records, and the threshold that decides which of them are kept.
-/
set_option autoImplicit false

namespace TurtleGraphics.Log

inductive Level where
  | debug | info | warning | error
  deriving DecidableEq, Repr

namespace Level

def name : Level → String
  | debug => "DEBUG"
  | info => "INFO"
  | warning => "WARNING"
  | error => "ERROR"

def rank : Level → Nat
  | debug => 0
  | info => 1
  | warning => 2
  | error => 3

end Level

structure Record where
  level : Level
  message : String
  deriving DecidableEq, Repr

def debug (message : String) : Record := ⟨.debug, message⟩

def info (message : String) : Record := ⟨.info, message⟩

/-- What is said of an error of the kind called `kind` when it is given the line that it had
lacked. -/
def attributed (kind : String) (line : Int) : Record :=
  debug ("Attributed " ++ kind ++ " to line " ++ Numeral.text line)

/-- The records at `threshold` or above. -/
def atLeast (threshold : Level) (records : List Record) : List Record :=
  records.filter fun r => threshold.rank ≤ r.level.rank

def Record.text (r : Record) : String := r.level.name ++ ": " ++ r.message

end TurtleGraphics.Log
