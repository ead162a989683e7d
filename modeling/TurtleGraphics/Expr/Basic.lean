import TurtleGraphics.Bindings
import TurtleGraphics.Numeral
/-!
Arithmetic expressions and conditions, their values and their canonical text.

Evaluation is exact and eager: operands are evaluated from left to right, both sides of a combined
condition always, and the first variable without a value is reported. The canonical text puts every
operand between parentheses.
-/
set_option autoImplicit false

namespace TurtleGraphics

inductive Operator where
  | add | sub | mul
  deriving DecidableEq, Repr

inductive Comparator where
  | le | ge | lt | gt | eq
  deriving DecidableEq, Repr

inductive Combiner where
  | and | or
  deriving DecidableEq, Repr

/-- An arithmetic expression: a literal, a variable, or an operation on two operands. -/
inductive Expr where
  | int (n : Int)
  | var (name : String)
  | binary (left : Expr) (op : Operator) (right : Expr)
  deriving DecidableEq, Repr

/-- A condition. -/
inductive Cond where
  | compare (left : Expr) (c : Comparator) (right : Expr)
  | not (operand : Cond)
  | combine (left : Cond) (c : Combiner) (right : Cond)
  deriving DecidableEq, Repr

namespace Operator

def spelling : Operator → List Char
  | add => ['+']
  | sub => ['-']
  | mul => ['*']

def all : List Operator := [add, sub, mul]

def apply : Operator → Int → Int → Int
  | add, a, b => a + b
  | sub, a, b => a - b
  | mul, a, b => a * b

end Operator

namespace Comparator

def spelling : Comparator → List Char
  | le => ['<', '=']
  | ge => ['>', '=']
  | lt => ['<']
  | gt => ['>']
  | eq => ['=']

/-- The comparators, longer spellings before their beginnings. -/
def all : List Comparator := [le, ge, lt, gt, eq]

def holds : Comparator → Int → Int → Bool
  | le, a, b => a ≤ b
  | ge, a, b => a ≥ b
  | lt, a, b => a < b
  | gt, a, b => a > b
  | eq, a, b => a == b

end Comparator

namespace Combiner

def spelling : Combiner → List Char
  | and => ['&', '&']
  | or => ['|', '|']

def all : List Combiner := [and, or]

def apply : Combiner → Bool → Bool → Bool
  | and, a, b => a && b
  | or, a, b => a || b

end Combiner

/-- The values of variables. -/
abbrev Env := Bindings String Int

/-- The failure to find a value for a variable. -/
structure Unbound where
  name : String
  deriving DecidableEq, Repr

def Expr.eval (env : Env) : Expr → Except Unbound Int
  | int n => .ok n
  | var name =>
    match env.get? name with
    | some n => .ok n
    | none => .error ⟨name⟩
  | binary left op right => do
    let a ← left.eval env
    let b ← right.eval env
    return op.apply a b

def Cond.eval (env : Env) : Cond → Except Unbound Bool
  | compare left c right => do
    let a ← left.eval env
    let b ← right.eval env
    return c.holds a b
  | not operand => do
    let a ← operand.eval env
    return !a
  | combine left c right => do
    let a ← left.eval env
    let b ← right.eval env
    return c.apply a b

/-- `inside` between parentheses. -/
def parenthesized (inside : List Char) : List Char := '(' :: inside ++ [')']

/-- The canonical text of an expression. -/
def Expr.write : Expr → List Char
  | int n => Numeral.write n
  | var name => name.toList
  | binary left op right => parenthesized left.write ++ op.spelling ++ parenthesized right.write

/-- The canonical text of a condition. -/
def Cond.write : Cond → List Char
  | compare left c right =>
    parenthesized left.write ++ ' ' :: c.spelling ++ ' ' :: parenthesized right.write
  | not operand => '!' :: parenthesized operand.write
  | combine left c right =>
    parenthesized left.write ++ ' ' :: c.spelling ++ ' ' :: parenthesized right.write

/-- The names of the variables, from left to right. -/
def Expr.variables : Expr → List String
  | int _ => []
  | var name => [name]
  | binary left _ right => left.variables ++ right.variables

def Cond.variables : Cond → List String
  | compare left _ right => left.variables ++ right.variables
  | not operand => operand.variables
  | combine left _ right => left.variables ++ right.variables

end TurtleGraphics
