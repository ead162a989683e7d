import TurtleGraphics.Numeral
/-!
How arguments are given to the parameters of a function.

Some parameters have their argument from the start. Further arguments come by position or by name.
A name has to belong to a parameter that has no argument yet, unless any other name is taken too,
there may not be more arguments by position than parameters, and each required parameter needs an
argument; these are checked in this order.
-/
set_option autoImplicit false

namespace TurtleGraphics

structure Signature where
  /-- The name of the function. -/
  function : String
  /-- The parameters that have their argument from the start, before all others. -/
  given : List String
  required : List String
  /-- The parameters after the required ones, which may go without an argument. -/
  optional : List String
  /-- Arguments with any other names are taken too. -/
  takesAny : Bool
  deriving DecidableEq, Repr

namespace Signature

/-- Why arguments do not fit. -/
inductive Fault where
  | unexpected (function name : String)
  | repeated (function name : String)
  /-- Arguments by position, against the least and the greatest number that fit. -/
  | surplus (function : String) (least greatest given : Nat)
  /-- Required parameters that got no argument; there is at least one. -/
  | missing (function : String) (names : List String)
  deriving DecidableEq, Repr

/-- The names in quotes, the last after an `and`. -/
def enumerate (names : List String) : String :=
  let quoted := names.map fun name => "'" ++ name ++ "'"
  match quoted.reverse with
  | [] => ""
  | [name] => name
  | [second, first] => first ++ " and " ++ second
  | last :: others => ", ".intercalate others.reverse ++ ", and " ++ last

def Fault.message : Fault → String
  | unexpected function name =>
    function ++ "() got an unexpected keyword argument '" ++ name ++ "'"
  | repeated function name => function ++ "() got multiple values for argument '" ++ name ++ "'"
  | surplus function least greatest given =>
    let range :=
      if least = greatest then Numeral.text greatest
      else "from " ++ Numeral.text least ++ " to " ++ Numeral.text greatest
    let noun := if greatest = 1 then " positional argument" else " positional arguments"
    function ++ "() takes " ++ range ++ noun ++ " but " ++ Numeral.text given ++ " were given"
  | missing function names =>
    let noun := if names.length = 1 then " argument: " else " arguments: "
    function ++ "() missing " ++ Numeral.text names.length ++ " required positional" ++ noun ++
      enumerate names

/-- The parameters that an argument can be given to. -/
def parameters (s : Signature) : List String := s.required ++ s.optional

/-- The first argument by name that does not fit, after `count` arguments by position. -/
def misnamed? (s : Signature) (count : Nat) (names : List String) : Option Fault :=
  names.findSome? fun name =>
    match (s.given ++ s.parameters).findIdx? (· == name) with
    | none => if s.takesAny then none else some (.unexpected s.function name)
    | some i => if i < s.given.length + count then some (.repeated s.function name) else none

/-- The argument of each parameter in order, none for an optional one that was left out. -/
def bind {α : Type} (s : Signature) (positional : List α) (named : List (String × α)) :
    Except Fault (List (Option α)) :=
  let count := positional.length
  let missing := (s.required.drop count).filter fun name => !named.any fun a => a.1 == name
  match s.misnamed? count (named.map Prod.fst) with
  | some fault => .error fault
  | none =>
    if s.parameters.length < count then
      let before := s.given.length
      .error (.surplus s.function (before + s.required.length) (before + s.parameters.length)
        (before + count))
    else if !missing.isEmpty then .error (.missing s.function missing)
    else
      .ok (positional.map some ++ (s.parameters.drop count).map fun name => named.lookup name)

/-- The signature by which objects called `name` are made, the new object being given. -/
def constructor (name : String) (required optional : List String) (takesAny : Bool) : Signature :=
  ⟨name ++ ".__init__", ["self"], required, optional, takesAny⟩

end Signature

end TurtleGraphics
