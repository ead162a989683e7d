import TurtleGraphics.Matcher.Choice
import TurtleGraphics.Tree.Eval
/-!
Bundles: what a choice over trees produces.

A bundle is a tree or a sequence of bundles. A sequence can be summed, counted, reversed and taken
apart, and so can a text, which counts as the sequence of its characters. For anything else this is
a misuse.
-/
set_option autoImplicit false

namespace TurtleGraphics

inductive Bundle where
  | tree (t : Tree)
  | sequence (items : List Bundle)

namespace Bundle

def ofText (text : List Char) : Bundle := tree (.text (String.ofList text))

/-- What an alternative has produced as one bundle. -/
def ofYield : Yield Bundle Bundle → Bundle
  | .values items => sequence items
  | .shaped b => b

mutual

def same : Bundle → Bundle → Bool
  | tree t, tree u => t.same u
  | sequence items, sequence others => sameItems items others
  | _, _ => false

def sameItems : List Bundle → List Bundle → Bool
  | [], [] => true
  | a :: items, b :: others => a.same b && sameItems items others
  | _, _ => false

end

mutual

/-- The display of a bundle. A sequence of one is followed by a comma. -/
def display : Bundle → String
  | tree t => t.display
  | sequence items =>
    match displayItems items with
    | [item] => "(" ++ item ++ ",)"
    | shown => "(" ++ Text.commaSeparated shown ++ ")"

def displayItems : List Bundle → List String
  | [] => []
  | a :: items => a.display :: displayItems items

end

def sortName : Bundle → String
  | tree t => t.sortName
  | sequence _ => "tuple"

/-- Why a bundle cannot be used as asked. -/
inductive Fault where
  | misuse (m : Tree.Misuse)
  | notIterable (sort : String)
  | noLength (sort : String)
  | notSubscriptable (sort : String)
  /-- An item was asked of a sequence that has none. -/
  | emptySequence
  | emptyText
  deriving DecidableEq, Repr

def Fault.message : Fault → String
  | misuse m => m.message
  | notIterable sort => "'" ++ sort ++ "' object is not iterable"
  | noLength sort => "object of type '" ++ sort ++ "' has no len()"
  | notSubscriptable sort => "'" ++ sort ++ "' object is not subscriptable"
  | emptySequence => Program.missingMessage "tuple" 0
  | emptyText => Program.missingMessage "string" 0

/-- The functions that a choice can be reshaped with. -/
inductive Reshaping where
  | sum | count | first | last | reverse | identity
  deriving DecidableEq, Repr

/-- The items of a bundle, if it is a sequence or a text. -/
def items? : Bundle → Option (List Bundle)
  | sequence items => some items
  | tree (.text s) => some (s.toList.map fun c => ofText [c])
  | tree _ => none

/-- The sum of a number and the numbers in `items`. -/
def sumFrom (total : Int) : List Bundle → Except Fault Bundle
  | [] => .ok (tree (.int total))
  | a :: items =>
    let number? := match a with
      | tree t => t.toInt?
      | sequence _ => none
    match number? with
    | some n => sumFrom (total + n) items
    | none => .error (.misuse (.operands "+" "int" a.sortName))

/-- One of the items of a bundle. -/
def pick (choose : List Bundle → Option Bundle) (b : Bundle) : Except Fault Bundle :=
  match b.items? with
  | none => .error (.notSubscriptable b.sortName)
  | some items =>
    match choose items, b with
    | some a, _ => .ok a
    | none, sequence _ => .error .emptySequence
    | none, tree _ => .error .emptyText

def reversed : Bundle → Except Fault Bundle
  | sequence items => .ok (sequence items.reverse)
  | tree (.text s) => .ok (ofText s.toList.reverse)
  | b => .error (.notSubscriptable b.sortName)

def Reshaping.apply (f : Reshaping) (b : Bundle) : Except Fault Bundle :=
  match f with
  | sum =>
    match b.items? with
    | some items => sumFrom 0 items
    | none => .error (.notIterable b.sortName)
  | count =>
    match b.items? with
    | some items => .ok (tree (.int items.length))
    | none => .error (.noLength b.sortName)
  | first => pick List.head? b
  | last => pick List.getLast? b
  | reverse => reversed b
  | identity => .ok b

end Bundle

end TurtleGraphics
