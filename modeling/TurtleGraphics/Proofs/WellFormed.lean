import Mathlib.Algebra.Group.Nat.Defs
import TurtleGraphics.Instruction.Basic
/-!
Well-formed expressions, conditions and instructions: those that have a text.

A tree of any shape may be built, but a text names a variable by letters alone and holds no numeral
with too many digits.
-/
set_option autoImplicit false

namespace TurtleGraphics

/-- The number has no more digits than a numeral may have. -/
def Numeral.Fits (n : Int) : Prop := (digits n.natAbs).length ≤ maxDigits

/-- One or more letters. -/
def IsWord (name : String) : Prop := name.toList ≠ [] ∧ ∀ c ∈ name.toList, c.isAlpha = true

def Expr.WellFormed : Expr → Prop
  | int n => Numeral.Fits n
  | var name => IsWord name
  | binary left _ right => left.WellFormed ∧ right.WellFormed

def Cond.WellFormed : Cond → Prop
  | compare left _ right => left.WellFormed ∧ right.WellFormed
  | not operand => operand.WellFormed
  | combine left _ right => left.WellFormed ∧ right.WellFormed

def Instruction.WellFormed : Instruction → Prop
  | move length => length.WellFormed
  | rotate angle => angle.WellFormed
  | set name value => IsWord name ∧ value.WellFormed
  | conditional condition | loop condition => condition.WellFormed
  | lift | place | close | blank => True

instance (n : Int) : Decidable (Numeral.Fits n) := inferInstanceAs (Decidable (_ ≤ _))

instance (name : String) : Decidable (IsWord name) :=
  decidable_of_iff (name.toList ≠ [] ∧ name.toList.all Char.isAlpha = true) (by simp [IsWord])

instance Expr.decidableWellFormed : (e : Expr) → Decidable e.WellFormed
  | int n => inferInstanceAs (Decidable (Numeral.Fits n))
  | var name => inferInstanceAs (Decidable (IsWord name))
  | binary left _ right =>
    have := decidableWellFormed left
    have := decidableWellFormed right
    inferInstanceAs (Decidable (left.WellFormed ∧ right.WellFormed))

instance Cond.decidableWellFormed : (c : Cond) → Decidable c.WellFormed
  | compare left _ right => inferInstanceAs (Decidable (left.WellFormed ∧ right.WellFormed))
  | not operand => decidableWellFormed operand
  | combine left _ right =>
    have := decidableWellFormed left
    have := decidableWellFormed right
    inferInstanceAs (Decidable (left.WellFormed ∧ right.WellFormed))

instance : (i : Instruction) → Decidable i.WellFormed
  | .move length => inferInstanceAs (Decidable length.WellFormed)
  | .rotate angle => inferInstanceAs (Decidable angle.WellFormed)
  | .set name value => inferInstanceAs (Decidable (IsWord name ∧ value.WellFormed))
  | .conditional condition | .loop condition => inferInstanceAs (Decidable condition.WellFormed)
  | .lift | .place | .close | .blank => inferInstanceAs (Decidable True)

namespace Text

theorem isDigit_iff {c : Char} : c.isDigit = true ↔ 48 ≤ c.toNat ∧ c.toNat ≤ 57 := by
  delta Char.isDigit
  simp only [Bool.and_eq_true, decide_eq_true_eq, ge_iff_le, UInt32.le_iff_toNat_le,
    Char.reduceVal, UInt32.reduceToNat, Char.toNat]

end Text

namespace Numeral

theorem ofDigitChars_lt {ds : List Char} (decimal : ∀ c ∈ ds, c.isDigit = true) (init : Nat) :
    Nat.ofDigitChars 10 ds init < 10 ^ ds.length * (init + 1) := by
  induction ds generalizing init with
  | nil => simp
  | cons c cs ih =>
    have digit := decimal c List.mem_cons_self
    have small : c.toNat - '0'.toNat ≤ 9 := by
      rw [Text.isDigit_iff] at digit
      simp only [Char.reduceToNat]
      omega
    have rest := ih (fun d inside => decimal d (List.mem_cons_of_mem c inside))
      (10 * init + (c.toNat - '0'.toNat))
    rw [Nat.ofDigitChars_cons]
    calc Nat.ofDigitChars 10 cs (10 * init + (c.toNat - '0'.toNat))
        < 10 ^ cs.length * (10 * init + (c.toNat - '0'.toNat) + 1) := rest
      _ ≤ 10 ^ cs.length * (10 * (init + 1)) := Nat.mul_le_mul_left _ (by omega)
      _ = 10 ^ (c :: cs).length * (init + 1) := by
        rw [List.length_cons, Nat.pow_succ, Nat.mul_assoc]

theorem value_lt {ds : List Char} (decimal : ∀ c ∈ ds, c.isDigit = true) :
    value ds < 10 ^ ds.length := by
  have bound := ofDigitChars_lt decimal 0
  rwa [Nat.zero_add, Nat.mul_one] at bound

/-- A numeral that may be read has a value that may be written. -/
theorem length_digits_value_le {ds : List Char} (some : ds ≠ [])
    (decimal : ∀ c ∈ ds, c.isDigit = true) : (digits (value ds)).length ≤ ds.length :=
  (Nat.length_toDigits_le_iff (by decide) (List.length_pos_iff.mpr some)).mpr (value_lt decimal)

end Numeral

end TurtleGraphics
