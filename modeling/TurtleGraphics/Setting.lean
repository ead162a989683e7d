import TurtleGraphics.Binary64
import TurtleGraphics.Decimal.Layout
import TurtleGraphics.Numeral
import TurtleGraphics.Text.Quoted
/-!
Values that a caller may offer for an option.

Any structured value can be offered, and a check or an error message needs three things of it: its
truth, its equality with another, and its display. A truth value counts as the number one or zero,
and an integer equals a double of the same value.
-/
set_option autoImplicit false

namespace TurtleGraphics

inductive Setting where
  | null
  | bool (b : Bool)
  | int (n : Int)
  | float (x : Float)
  | text (s : String)
  | list (items : List Setting)
  /-- Fields by name, each name once, in the order in which they were given. -/
  | record (fields : List (String × Setting))

namespace Setting

instance : Inhabited Setting := ⟨.null⟩

/-- The sort of a value, as messages name it. -/
def sortName : Setting → String
  | null => "NoneType"
  | bool _ => "bool"
  | int _ => "int"
  | float _ => "float"
  | text _ => "str"
  | list _ => "list"
  | record _ => "dict"

/-- The empty and the zero values are false, all others true. -/
def truth : Setting → Bool
  | null => false
  | bool b => b
  | int n => n ≠ 0
  | float x => x != 0
  | text s => !s.isEmpty
  | list items => !items.isEmpty
  | record fields => !fields.isEmpty

/-- The number that a value counts as, if it is one and a whole one. -/
def toInt? : Setting → Option Int
  | bool b => some (if b then 1 else 0)
  | int n => some n
  | float x => Binary64.toInt? x
  | _ => none

mutual

def same : Setting → Setting → Bool
  | null, null => true
  | float x, float y => x == y
  | text s, text t => s == t
  | list items, list others => sameItems items others
  | record fields, record others => fields.length == others.length && sameFields fields others
  | a, b =>
    match a.toInt?, b.toInt? with
    | some m, some n => m == n
    | _, _ => false

def sameItems : List Setting → List Setting → Bool
  | [], [] => true
  | a :: items, b :: others => a.same b && sameItems items others
  | _, _ => false

/-- Whether `others` has each of the fields with the same value, in any order. -/
def sameFields : List (String × Setting) → List (String × Setting) → Bool
  | [], _ => true
  | (name, a) :: fields, others =>
    (match others.lookup name with
      | some b => a.same b
      | none => false) && sameFields fields others

end

mutual

def display : Setting → String
  | null => "None"
  | bool b => Text.displayBool b
  | int n => Numeral.text n
  | float x => Decimal.display.write x
  | text s => Text.quoted s
  | list items => "[" ++ Text.commaSeparated (displayItems items) ++ "]"
  | record fields => "\x7b" ++ Text.commaSeparated (displayFields fields) ++ "\x7d"

def displayItems : List Setting → List String
  | [] => []
  | a :: items => a.display :: displayItems items

def displayFields : List (String × Setting) → List String
  | [] => []
  | (name, a) :: fields => (Text.quoted name ++ ": " ++ a.display) :: displayFields fields

end

/-- The text of a value in running text: a text stands for itself, all else is displayed. -/
def plain : Setting → String
  | text s => s
  | a => a.display

/-- Whether `part` stands somewhere in a text. -/
def occursIn (part : List Char) : List Char → Bool
  | [] => part.isEmpty
  | c :: rest => part.isPrefixOf (c :: rest) || occursIn part rest

/-- Why a value cannot be looked for. -/
inductive Unfit where
  /-- A value of this sort cannot be compared with names. -/
  | unhashable (sort : String)
  /-- A value of this sort cannot be part of a text. -/
  | notText (sort : String)
  /-- Nothing is offered by a value of this sort. -/
  | notIterable (sort : String)
  deriving DecidableEq, Repr

def Unfit.message : Unfit → String
  | unhashable sort => "unhashable type: '" ++ sort ++ "'"
  | notText sort => "'in <string>' requires string as left operand, not " ++ sort
  | notIterable sort => "argument of type '" ++ sort ++ "' is not iterable"

/-- Whether `options` offers a value: a list its items, a record its names, a text its parts. -/
def offers (options value : Setting) : Except Unfit Bool :=
  match options, value with
  | list items, v => .ok (items.any v.same)
  | record _, list items => .error (.unhashable (list items).sortName)
  | record _, record fields => .error (.unhashable (record fields).sortName)
  | record fields, v => .ok (fields.any fun field => (text field.1).same v)
  | text whole, text part => .ok (occursIn part.toList whole.toList)
  | text _, v => .error (.notText v.sortName)
  | other, _ => .error (.notIterable other.sortName)

end Setting

end TurtleGraphics
