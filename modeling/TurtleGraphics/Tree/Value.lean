import TurtleGraphics.LongText
import TurtleGraphics.Tree.Basic
/-!
Values of trees.

A value is a tree, but a text may be too long to be written out. Anything can be tested for truth
and for equality.
-/
set_option autoImplicit false

namespace TurtleGraphics.Tree

inductive Value where
  | int (n : Int)
  | text (t : LongText)
  | bool (b : Bool)
  | node (label : Label) (parts : List Tree)

namespace Value

/-- The value that a tree stands for by itself. -/
def ofTree : Tree → Value
  | .int n => int n
  | .text s => text (.ofString s)
  | .bool b => bool b
  | .node label parts => node label parts

/-- A value written out. -/
def toTree : Value → Tree
  | int n => .int n
  | text t => .text t.toString
  | bool b => .bool b
  | node label parts => .node label parts

/-- The number that a value counts as. -/
def toInt? : Value → Option Int
  | int n => some n
  | bool b => some (if b then 1 else 0)
  | _ => none

/-- The sort of a value, as messages name it. -/
def sortName : Value → String
  | int n => (Tree.int n).sortName
  | text _ => (Tree.text "").sortName
  | bool b => (Tree.bool b).sortName
  | node label parts => (Tree.node label parts).sortName

def truth : Value → Bool
  | int n => n ≠ 0
  | text t => !t.isEmpty
  | bool b => b
  | node .. => true

def same : Value → Value → Bool
  | text t, text u => t.same u
  | node label parts, node other others => label == other && sameParts parts others
  | a, b =>
    match a.toInt?, b.toInt? with
    | some m, some n => m == n
    | _, _ => false

theorem toTree_ofTree (t : Tree) : (ofTree t).toTree = t := by
  cases t with
  | int n => rfl
  | text s => simp [ofTree, toTree, LongText.toString, LongText.chars, LongText.ofString,
      LongText.Stretch.chars]
  | bool b => rfl
  | node label parts => rfl

end Value

end TurtleGraphics.Tree
