import TurtleGraphics.Tree.Basic
/-!
Trees are equal if they only differ in writing a truth value or the number that it counts as.

So comparing two trees is comparing the trees with numbers for all truth values, and the comparison
is an equivalence.
-/
set_option autoImplicit false

namespace TurtleGraphics.Tree

mutual

/-- The tree with numbers for its truth values. -/
def canonical : Tree → Tree
  | int n => int n
  | text s => text s
  | bool b => int (if b then 1 else 0)
  | node label parts => node label (canonicalParts parts)

def canonicalParts : List Tree → List Tree
  | [] => []
  | a :: parts => a.canonical :: canonicalParts parts

end

mutual

theorem same_iff (a b : Tree) : a.same b = true ↔ a.canonical = b.canonical := by
  cases a with
  | int | text | bool => cases b <;> simp [same, canonical, toInt?]
  | node label parts =>
    cases b with
    | int | text | bool => simp [same, canonical, toInt?]
    | node other others =>
      have inner := sameParts_iff parts others
      simp [same, canonical, inner]

theorem sameParts_iff (parts others : List Tree) :
    sameParts parts others = true ↔ canonicalParts parts = canonicalParts others := by
  cases parts with
  | nil => cases others <;> simp [sameParts, canonicalParts]
  | cons a rest =>
    cases others with
    | nil => simp [sameParts, canonicalParts]
    | cons b more =>
      have head := same_iff a b
      have tail := sameParts_iff rest more
      simp [sameParts, canonicalParts, head, tail]

end

theorem beq_iff {a b : Tree} : (a == b) = true ↔ a.canonical = b.canonical := same_iff a b

instance : EquivBEq Tree where
  rfl := beq_iff.mpr rfl
  symm same := beq_iff.mpr (beq_iff.mp same).symm
  trans first second := beq_iff.mpr ((beq_iff.mp first).trans (beq_iff.mp second))

/-- A variable called by the number one is the variable called by the true value. -/
example : (node .value [int 1, bool true] == node .value [bool true, int 1]) = true := by rfl

end TurtleGraphics.Tree
