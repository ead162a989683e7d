import TurtleGraphics.Tree.Eval
/-!
Trees and what they stand for: every expression, condition and instruction is a tree, and a tree
with parts of the right sorts is one of these.

The main statement is that reading a tree back gives the instruction that it was made from.
-/
set_option autoImplicit false

namespace TurtleGraphics.Tree

def ofSpelling (spelling : List Char) : Tree := text (String.ofList spelling)

def ofExpr : Expr → Tree
  | .int n => node .value [int n, bool false]
  | .var name => node .value [text name, bool true]
  | .binary left op right => node .arithmetic [ofExpr left, ofSpelling op.spelling, ofExpr right]

def ofCond : Cond → Tree
  | .compare left c right => node .comparison [ofExpr left, ofSpelling c.spelling, ofExpr right]
  | .not operand => node .negation [ofCond operand]
  | .combine left c right => node .combination [ofCond left, ofSpelling c.spelling, ofCond right]

def ofInstruction (i : Instruction) : Tree :=
  node (.instruction i.kind) <|
    match i with
    | .move e | .rotate e => [ofExpr e]
    | .set name e => [text name, ofExpr e]
    | .conditional c | .loop c => [ofCond c]
    | .lift | .place | .close | .blank => []

def toExpr? : Tree → Option Expr
  | node .value [int n, bool false] => some (.int n)
  | node .value [text name, bool true] => some (.var name)
  | node .arithmetic [left, text op, right] => do
    let l ← toExpr? left
    let o ← ofSpelling? Operator.spelling Operator.all op
    let r ← toExpr? right
    return .binary l o r
  | _ => none

def toCond? : Tree → Option Cond
  | node .comparison [left, text c, right] => do
    let l ← toExpr? left
    let o ← ofSpelling? Comparator.spelling Comparator.all c
    let r ← toExpr? right
    return .compare l o r
  | node .negation [operand] => do return .not (← toCond? operand)
  | node .combination [left, text c, right] => do
    let l ← toCond? left
    let o ← ofSpelling? Combiner.spelling Combiner.all c
    let r ← toCond? right
    return .combine l o r
  | _ => none

def toInstruction? : Tree → Option Instruction
  | node (.instruction .move) [e] => (toExpr? e).map .move
  | node (.instruction .rotate) [e] => (toExpr? e).map .rotate
  | node (.instruction .lift) [] => some .lift
  | node (.instruction .place) [] => some .place
  | node (.instruction .set) [text name, e] => (toExpr? e).map (.set name)
  | node (.instruction .conditional) [c] => (toCond? c).map .conditional
  | node (.instruction .loop) [c] => (toCond? c).map .loop
  | node (.instruction .close) [] => some .close
  | node (.instruction .blank) [] => some .blank
  | _ => none

@[simp] theorem toExpr?_ofExpr (e : Expr) : toExpr? (ofExpr e) = some e := by
  induction e with
  | int n => rfl
  | var name => rfl
  | binary left op right ihl ihr =>
    cases op <;> simp [ofExpr, ofSpelling, toExpr?, ihl, ihr] <;> rfl

@[simp] theorem toCond?_ofCond (c : Cond) : toCond? (ofCond c) = some c := by
  induction c with
  | compare left c right => cases c <;> simp [ofCond, ofSpelling, toCond?] <;> rfl
  | not operand ih => simp [ofCond, toCond?, ih]
  | combine left c right ihl ihr =>
    cases c <;> simp [ofCond, ofSpelling, toCond?, ihl, ihr] <;> rfl

theorem toInstruction?_ofInstruction (i : Instruction) :
    toInstruction? (ofInstruction i) = some i := by
  cases i <;> simp [ofInstruction, Instruction.kind, toInstruction?]

end TurtleGraphics.Tree
