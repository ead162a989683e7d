import Mathlib.Order.Bounds.Basic
import TurtleGraphics.Lexeme
/-!
Where a keyword is found.

A keyword and the blanks before it may compete for the same characters: its spelling may start with
blanks or be empty, and in strict mode a letter behind it rules a place out. So the place behind all
blanks may fail where one before some of them will do. The search comes to the last place that will
do, and fails only if there is none.
-/
set_option autoImplicit false

namespace TurtleGraphics

open Text

namespace Lexeme

/-- The keyword `literal` stands in `text` behind `k` blanks. -/
structure StandsAt (strict : Bool) (literal text : List Char) (k : Nat) : Prop where
  within : k ≤ text.length
  blanks : ∀ c ∈ text.take k, isBlank c = true
  occurs : literal <+: text.drop k
  ends : strict = true → ∀ c ∈ (text.drop (k + literal.length)).head?, c.isAlpha = false

/-- What was found is the greatest number with the property, or there is none. -/
def IsLast (P : Nat → Prop) : Option Nat → Prop
  | some k => IsGreatest {j | P j} k
  | none => ∀ k, ¬P k

section Places
variable {P Q : Nat → Prop} {found : Option Nat}

theorem isLast_zero (here : P 0) (later : ∀ k, ¬P (k + 1)) : IsLast P (some 0) := by
  refine ⟨here, ?_⟩
  intro k holds
  cases k with
  | zero => exact Nat.le_refl 0
  | succ k => exact absurd holds (later k)

theorem isLast_none (here : ¬P 0) (later : ∀ k, ¬P (k + 1)) : IsLast P none := by
  intro k
  cases k with
  | zero => exact here
  | succ k => exact later k

theorem IsLast.succ {k : Nat} (last : IsLast Q (some k)) (shift : ∀ j, P (j + 1) ↔ Q j) :
    IsLast P (some (k + 1)) := by
  refine ⟨(shift k).mpr last.1, ?_⟩
  intro j holds
  cases j with
  | zero => exact Nat.zero_le _
  | succ j => exact Nat.succ_le_succ (last.2 ((shift j).mp holds))

theorem IsLast.eq_some_iff (last : IsLast P found) {k : Nat} :
    found = some k ↔ IsGreatest {j | P j} k := by
  cases found with
  | none =>
    have nowhere : ∀ j, ¬P j := last
    simp [IsGreatest, nowhere]
  | some j =>
    have greatest : IsGreatest {j | P j} j := last
    rw [Option.some.injEq]
    constructor
    · rintro rfl
      exact greatest
    · exact greatest.unique

theorem IsLast.eq_none_iff (last : IsLast P found) : found = none ↔ ∀ k, ¬P k := by
  cases found with
  | none => exact iff_of_true rfl last
  | some j => simpa using ⟨j, last.1⟩

end Places

section Search
variable {strict : Bool} {literal rest text : List Char} {c : Char} {k : Nat}

theorem standsAt_zero_iff :
    StandsAt strict literal text 0 ↔ opensWith strict literal text = true := by
  have free : ∀ next : Option Char, (strict && next.any Char.isAlpha) = false ↔
      (strict = true → ∀ c ∈ next, c.isAlpha = false) := by
    intro next
    cases strict <;> cases next <;> simp
  rw [opensWith, Bool.and_eq_true, Bool.not_eq_true', free, List.isPrefixOf_iff_prefix]
  constructor
  · rintro ⟨-, -, occurs, ends⟩
    exact ⟨occurs, by simpa using ends⟩
  · rintro ⟨occurs, ends⟩
    exact ⟨Nat.zero_le _, by simp, occurs, by simpa using ends⟩

theorem standsAt_cons_iff : StandsAt strict literal (c :: rest) (k + 1) ↔
    isBlank c = true ∧ StandsAt strict literal rest k := by
  have behind : k + 1 + literal.length = k + literal.length + 1 := Nat.add_right_comm ..
  constructor
  · rintro ⟨within, blanks, occurs, ends⟩
    rw [List.take_succ_cons, List.forall_mem_cons] at blanks
    rw [behind, List.drop_succ_cons] at ends
    exact ⟨blanks.1, Nat.le_of_succ_le_succ within, blanks.2, occurs, ends⟩
  · rintro ⟨blank, within, blanks, occurs, ends⟩
    refine ⟨Nat.succ_le_succ within, ?_, occurs, ?_⟩
    · rw [List.take_succ_cons, List.forall_mem_cons]
      exact ⟨blank, blanks⟩
    · rwa [behind, List.drop_succ_cons]

/-- The search tries a place only after all places behind it have failed. -/
theorem keywordOffset?_isLast (strict : Bool) (literal text : List Char) :
    IsLast (StandsAt strict literal text) (keywordOffset? strict literal text) := by
  have here : ∀ text, (∀ k, ¬StandsAt strict literal text (k + 1)) →
      IsLast (StandsAt strict literal text)
        (if opensWith strict literal text then some 0 else none) := by
    intro text later
    by_cases opens : opensWith strict literal text = true
    · rw [if_pos opens]
      exact isLast_zero (standsAt_zero_iff.mpr opens) later
    · rw [if_neg opens]
      exact isLast_none (standsAt_zero_iff.not.mpr opens) later
  induction text with
  | nil => exact here [] fun k stands => absurd stands.within (Nat.not_succ_le_zero k)
  | cons c rest ih =>
    rw [keywordOffset?]
    by_cases blank : isBlank c = true
    · have shift : ∀ k, StandsAt strict literal (c :: rest) (k + 1) ↔
          StandsAt strict literal rest k := by
        intro k
        rw [standsAt_cons_iff, and_iff_right blank]
      rw [if_pos blank]
      cases later : keywordOffset? strict literal rest with
      | none =>
        rw [later] at ih
        exact here _ fun k => (shift k).not.mpr (ih k)
      | some k =>
        rw [later] at ih
        exact ih.succ shift
    · rw [if_neg blank]
      exact here _ fun k stands => blank (standsAt_cons_iff.mp stands).1

end Search

end Lexeme

open Lexeme (StandsAt keyword)

/-- A keyword is matched if it stands behind some number of blanks. Of these numbers the greatest is
taken, and then the keyword itself. Otherwise the text is refused. -/
theorem keyword_behind_most_blanks (strict : Bool) (literal text : List Char) :
    ((∃ v n, keyword strict literal text = .matched v n) ↔ ∃ k, StandsAt strict literal text k) ∧
    (∀ v n, keyword strict literal text = .matched v n ↔
      v = literal ∧
        ∃ k, IsGreatest {j | StandsAt strict literal text j} k ∧ n = k + literal.length) ∧
    (keyword strict literal text = .refused ↔ ∀ k, ¬StandsAt strict literal text k) := by
  have last := Lexeme.keywordOffset?_isLast strict literal text
  rw [keyword]
  cases found : Lexeme.keywordOffset? strict literal text with
  | none =>
    have nowhere := last.eq_none_iff.mp found
    simp [IsGreatest, nowhere]
  | some k =>
    have greatest := last.eq_some_iff.mp found
    refine ⟨iff_of_true ⟨_, _, rfl⟩ ⟨k, greatest.1⟩, ?_, ?_⟩
    · intro v n
      rw [Outcome.matched.injEq]
      constructor
      · rintro ⟨rfl, rfl⟩
        exact ⟨rfl, k, greatest, rfl⟩
      · rintro ⟨rfl, j, other, rfl⟩
        exact ⟨rfl, by rw [greatest.unique other]⟩
    · simpa using ⟨k, greatest.1⟩

-- the place behind all blanks is not free, and the one before it is
example : keyword true [] [' ', ' ', 'a'] = .matched [] 1 := by decide

example : keyword false [' ', 'a'] [' ', ' ', 'a'] = .matched [' ', 'a'] 3 := by decide

end TurtleGraphics
