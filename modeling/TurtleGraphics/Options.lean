import TurtleGraphics.Setting
import TurtleGraphics.Signature
/-!
The options of a turtle.

Options are made from named settings or changed one by one. Either way a setting is checked first,
and a setting that is refused changes nothing. The step limit has to be a positive integer; the two
switches take the truth of any value.
-/
set_option autoImplicit false

namespace TurtleGraphics

structure Options where
  maxSteps : Int
  strictKeywords : Bool
  debug : Bool
  deriving DecidableEq, Repr

namespace Options

def default : Options := ⟨10000, false, false⟩

def names : List String := ["max_steps", "strict_keywords", "debug"]

/-- How turtles are made. -/
def creation : Signature := .constructor "Turtle" [] [] true

/-- What settings are given for. They are given by name, to functions that have arguments of their
own. -/
inductive Use where
  | create | parse | run
  deriving DecidableEq, Repr

/-- The functions that the settings are given to, one after the other. -/
def Use.functions : Use → List Signature
  | create => [creation]
  | parse => [⟨"parse", ["text"], [], [], true⟩, creation]
  | run => [⟨"run", ["program", "sink"], [], [], true⟩, creation]

/-- Why options cannot be made or changed as asked. -/
inductive Fault where
  /-- A setting has the name of an argument of its own. -/
  | clash (e : Signature.Fault)
  | notPositive (value : Setting)
  /-- Names that no option has, in the order in which they were given. -/
  | unknownNames (names : List String)
  | unknownName (name : String)

/-- The display of a collection of names. -/
def displayNames (names : List String) : String :=
  "dict_keys([" ++ Text.commaSeparated (names.map Text.quoted) ++ "])"

def Fault.message : Fault → String
  | clash e => e.message
  | notPositive value => "max_steps must be a positive integer, got " ++ value.display
  | unknownNames unknown => "Unknown options: " ++ displayNames unknown
  | unknownName name =>
    Text.quoted name ++ " isn't a valid option. Expected one of: " ++ displayNames names

/-- The step limit that a setting stands for. Truth values are not taken for numbers here. -/
def stepLimit : Setting → Except Fault Int
  | .int n => if 1 ≤ n then .ok n else .error (.notPositive (.int n))
  | value => .error (.notPositive value)

/-- Checks a setting and puts it in the place of the option of that name. -/
def set (o : Options) (name : String) (value : Setting) : Except Fault Options :=
  if name = "max_steps" then
    match stepLimit value with
    | .ok n => .ok { o with maxSteps := n }
    | .error e => .error e
  else if name = "strict_keywords" then .ok { o with strictKeywords := value.truth }
  else if name = "debug" then .ok { o with debug := value.truth }
  else .error (.unknownName name)

/-- All options by name. -/
def record (o : Options) : Setting :=
  .record [("max_steps", .int o.maxSteps), ("strict_keywords", .bool o.strictKeywords),
    ("debug", .bool o.debug)]

/-- What the options are for. -/
def documentation : String :=
  "\n    max_steps\n" ++
  "            How many instructions a run may execute before it is aborted with\n" ++
  "            ``ResourceLimitError``. Guards against endless loops (Default: 10000)\n" ++
  "    strict_keywords\n" ++
  "            When True, keywords must not be directly followed by a letter, so that\n" ++
  "            ``ENDLESS`` is not read as ``END`` followed by ``LESS``.\n" ++
  "            When False, keywords are matched as plain prefixes (Default: False)\n" ++
  "    debug\n            Log every executed instruction, at DEBUG level (Default: False)\n    "

/-- The value of an option. Three more names can be read, but not set: all options at once, as they
are and as they are by default, and what they are for. -/
def get? (o : Options) (name : String) : Option Setting :=
  if name = "max_steps" then some (.int o.maxSteps)
  else if name = "strict_keywords" then some (.bool o.strictKeywords)
  else if name = "debug" then some (.bool o.debug)
  else if name = "options" then some o.record
  else if name = "_defaults" then some default.record
  else if name = "OPTIONS_DOC" then some (.text documentation)
  else none

/-- The options in `names` as the settings ask for them, the others as in `o`. -/
def setGiven (settings : List (String × Setting)) (o : Options) :
    List String → Except Fault Options
  | [] => .ok o
  | name :: rest =>
    match settings.lookup name with
    | none => setGiven settings o rest
    | some value =>
      match o.set name value with
      | .ok o' => setGiven settings o' rest
      | .error e => .error e

/-- The default options, changed as the settings ask. Names that clash are refused first, then the
known settings are checked, then unknown names are refused. -/
def ofSettings (use : Use) (settings : List (String × Setting)) : Except Fault Options :=
  match use.functions.findSome? fun f => f.misnamed? 0 (settings.map Prod.fst) with
  | some e => .error (.clash e)
  | none =>
    match setGiven settings default names with
    | .error e => .error e
    | .ok o =>
      match (settings.map Prod.fst).filter fun name => !names.contains name with
      | [] => .ok o
      | unknown => .error (.unknownNames unknown)

/-- The display of a turtle with these options. -/
def display (o : Options) : String :=
  "Turtle(max_steps=" ++ Numeral.text o.maxSteps ++ ", strict_keywords=" ++
    Text.displayBool o.strictKeywords ++ ", ...)"

end Options

end TurtleGraphics
