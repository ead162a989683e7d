import TurtleGraphics.Bindings
import TurtleGraphics.Program
import TurtleGraphics.Tree.Value
/-!
The value of a tree that was put together from any parts.

An operation is defined on the sorts of values for which it has a meaning: numbers are added,
subtracted, multiplied and compared, texts are joined, repeated and compared, and anything can be
tested for truth and for equality. All else is a misuse, which names the sorts involved. As in the
language, operands are evaluated from left to right, and all of them.
-/
set_option autoImplicit false

namespace TurtleGraphics.Tree

/-- A use of a tree, or of a value, that makes no sense. Sorts are given by their names. -/
inductive Misuse where
  /-- An operation on operands of these sorts. -/
  | operands (operation left right : String)
  /-- Something that is no text was to be joined to a text. -/
  | joined (sort : String)
  /-- A sequence was to be repeated by something that is no whole number. -/
  | repeatedBy (sort : String)
  | unordered (comparator left right : String)
  /-- Something that is no number stood for an angle. -/
  | notReal (sort : String)
  /-- This is asked of something that does not have it. -/
  | lacks (sort member : String)
  /-- The value of a node that stands for nothing in particular. -/
  | abstract
  /-- A text was to be repeated more often than can be counted. -/
  | countTooLarge
  | textTooLong
  /-- There is no room for a text of that length. -/
  | noRoom
  deriving DecidableEq, Repr

def Misuse.message : Misuse → String
  | operands operation left right =>
    "unsupported operand type(s) for " ++ operation ++ ": '" ++ left ++ "' and '" ++ right ++ "'"
  | joined sort => "can only concatenate str (not \"" ++ sort ++ "\") to str"
  | repeatedBy sort => "can't multiply sequence by non-int of type '" ++ sort ++ "'"
  | unordered comparator left right =>
    "'" ++ comparator ++ "' not supported between instances of '" ++ left ++ "' and '" ++ right ++
      "'"
  | notReal sort => "must be real number, not " ++ sort
  | lacks sort member => "'" ++ sort ++ "' object has no attribute '" ++ member ++ "'"
  | abstract => ""
  | countTooLarge => "cannot fit 'int' into an index-sized integer"
  | textTooLong => "repeated string is too long"
  | noRoom => ""

/-- The values of variables. Any tree can name a variable. -/
abbrev Env := Bindings Tree Value

/-- Why a tree has no value. -/
inductive EvalFault where
  /-- This names no variable that has a value. -/
  | unbound (name : Tree)
  | misuse (m : Misuse)

/-- The operation between two values that has no meaning for their sorts. -/
def refusal (o : Operator) (a b : Value) : Misuse :=
  .operands (String.ofList o.spelling) a.sortName b.sortName

/-- The text that a value is, if there is room for it. -/
def housed (t : LongText) : Except Misuse Value :=
  if LongText.maxLength < t.length then .error .noRoom else .ok (.text t)

/-- The text `t` written `n` times, and not at all if `n` is below zero. -/
def repeatText (t : LongText) (n : Int) : Except Misuse Value :=
  if n < Program.positionBounds.1 || Program.positionBounds.2 < n then .error .countTooLarge
  else if Program.positionBounds.2 < t.length * n.toNat then .error .textTooLong
  else if LongText.maxLength < t.length * n.toNat then .error .noRoom
  else .ok (.text (t.repeated n.toNat))

/-- The text `t` repeated by a value. -/
def repeatedBy (t : LongText) (count : Value) : Except Misuse Value :=
  match count.toInt? with
  | some n => repeatText t n
  | none => .error (.repeatedBy count.sortName)

def operate (o : Operator) (a b : Value) : Except Misuse Value :=
  match a.toInt?, b.toInt? with
  | some m, some n => .ok (.int (o.apply m n))
  | _, _ =>
    match o, a, b with
    | .add, .text t, .text u => housed (t.append u)
    | .add, .text _, _ => .error (.joined b.sortName)
    | .mul, .text t, _ => repeatedBy t b
    | .mul, _, .text u => repeatedBy u a
    | _, _, _ => .error (refusal o a b)

/-- The order of two values of one sort. -/
def ordering? : Value → Value → Option Ordering
  | .text t, .text u => some (t.compare u)
  | a, b =>
    match a.toInt?, b.toInt? with
    | some m, some n => some (compare m n)
    | _, _ => none

def compareValues (c : Comparator) (a b : Value) : Except Misuse Bool :=
  match c, ordering? a b with
  | .eq, _ => .ok (a.same b)
  | .le, some order => .ok order.isLE
  | .ge, some order => .ok order.isGE
  | .lt, some order => .ok order.isLT
  | .gt, some order => .ok order.isGT
  | _, none => .error (.unordered (String.ofList c.spelling) a.sortName b.sortName)

/-- The operator among `all` with the spelling `s`. -/
def ofSpelling? {α : Type} (spelling : α → List Char) (all : List α) (s : String) : Option α :=
  all.find? fun a => spelling a == s.toList

/-- The value of a node that joins two values by an operator. -/
def joinValues (label : Label) (op : String) (a b : Value) : Except Misuse Value :=
  let unknown : Except Misuse Value := .error (.operands op a.sortName b.sortName)
  match label with
  | .arithmetic =>
    match ofSpelling? Operator.spelling Operator.all op with
    | some o => operate o a b
    | none => unknown
  | .comparison =>
    match ofSpelling? Comparator.spelling Comparator.all op with
    | some c => (compareValues c a b).map .bool
    | none => unknown
  | .combination =>
    match ofSpelling? Combiner.spelling Combiner.all op with
    | some c => .ok (.bool (c.apply a.truth b.truth))
    | none => unknown
  | _ => unknown

/-- The outcome of an operation as that of an evaluation. -/
def reported {α : Type} : Except Misuse α → Except EvalFault α
  | .ok a => .ok a
  | .error m => .error (.misuse m)

/-- Why a tree that stands for no expression has no value. -/
def noValue (t : Tree) : EvalFault := .misuse (.lacks t.sortName "evaluate")

/-- The value of a tree. A leaf stands for a value only inside a value node. -/
def eval (env : Env) : Tree → Except EvalFault Value
  | node .value [v, isVariable] =>
    if (Value.ofTree isVariable).truth then
      match env.get? v with
      | some a => .ok a
      | none => .error (.unbound v)
    else .ok (.ofTree v)
  | node .abstract _ => .error (.misuse .abstract)
  | node .negation [operand] => do
    let a ← operand.eval env
    return .bool (!a.truth)
  | node (.instruction k) parts => .error (noValue (node (.instruction k) parts))
  | node label [left, text op, right] => do
    let a ← left.eval env
    let b ← right.eval env
    reported (joinValues label op a b)
  | t => .error (noValue t)

end TurtleGraphics.Tree
