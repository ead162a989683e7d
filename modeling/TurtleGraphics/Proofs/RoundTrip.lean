import Mathlib.Data.List.Forall2
import TurtleGraphics.Proofs.Listing
import TurtleGraphics.Script
/-!
Scripts that are written and read back.

The listing of a program has the canonical text of one instruction on each line. In both modes it is
read as the program it was written from, and every program that was read has a listing.
-/
set_option autoImplicit false

namespace TurtleGraphics

namespace Text

/-- Line endings are found in two texts on their own, unless one begins in the first and ends in the
second. -/
theorem unifyEndings_append {first rest : List Char}
    (apart : first.getLast? = some '\r' → rest.head? ≠ some '\n') :
    unifyEndings (first ++ rest) = unifyEndings first ++ unifyEndings rest := by
  fun_induction unifyEndings first with
  | case1 more ih =>
    have later : more.getLast? = some '\r' → rest.head? ≠ some '\n' := by
      intro last
      apply apart
      rw [List.getLast?_cons_cons, List.getLast?_cons, last]
      rfl
    rw [List.cons_append, List.cons_append, unifyEndings, ih later, List.cons_append]
  | case2 c more single ih =>
    have later : more.getLast? = some '\r' → rest.head? ≠ some '\n' := by
      intro last
      apply apart
      rw [List.getLast?_cons, last]
      rfl
    have single' : ∀ tail, c = '\r' → more ++ rest = '\n' :: tail → False := by
      intro tail return' feed
      cases more with
      | nil =>
        have last : [c].getLast? = some '\r' := by rw [return', List.getLast?_singleton]
        have head : rest.head? = some '\n' := by
          rw [List.nil_append] at feed
          rw [feed, List.head?_cons]
        exact apart last head
      | cons d others =>
        rw [List.cons_append, List.cons.injEq] at feed
        exact single others return' (by rw [feed.1])
    rw [List.cons_append, unifyEndings, ih later, List.cons_append]
    exact single'
  | case3 => rfl

theorem splitFeeds_append_feed (first rest : List Char) :
    splitFeeds (first ++ '\n' :: rest) = splitFeeds first ++ splitFeeds rest := by
  fun_induction splitFeeds first with
  | case1 => rfl
  | case2 more ih => rw [List.cons_append, splitFeeds, ih, List.cons_append]
  | case3 c more plain line lines split ih =>
    rw [List.cons_append, splitFeeds, ih, split]
    · rfl
    · exact plain
  | case4 c more plain none ih => exact absurd none (splitFeeds_ne_nil more)

theorem lines_append_feed {a : String} (apart : a.toList.getLast? ≠ some '\r') (b : String) :
    lines (a ++ "\n" ++ b) = lines a ++ lines b := by
  have text : (a ++ "\n" ++ b).toList = a.toList ++ '\n' :: b.toList := by
    rw [String.toList_append, String.toList_append, List.append_assoc]
    rfl
  have feed : unifyEndings ('\n' :: b.toList) = '\n' :: unifyEndings b.toList := rfl
  rw [lines, text, unifyEndings_append fun last => absurd last apart, feed,
    splitFeeds_append_feed, List.map_append, lines, lines]

variable {line : List Char}

theorem Unbroken.tail {c : Char} (unbroken : Unbroken (c :: line)) : Unbroken line :=
  fun d inside => unbroken d (List.mem_cons_of_mem c inside)

theorem unifyEndings_of_unbroken (unbroken : Unbroken line) : unifyEndings line = line := by
  induction line with
  | nil => rfl
  | cons c more ih =>
    have plain := (unbroken c List.mem_cons_self).2
    rw [unifyEndings, ih unbroken.tail]
    intro _ same
    exact absurd same plain

theorem splitFeeds_of_unbroken (unbroken : Unbroken line) : splitFeeds line = [line] := by
  induction line with
  | nil => rfl
  | cons c more ih =>
    have plain := (unbroken c List.mem_cons_self).1
    rw [splitFeeds, ih unbroken.tail]
    exact plain

theorem lines_of_unbroken {line : String} (unbroken : Unbroken line.toList) :
    lines line = [line] := by
  rw [lines, unifyEndings_of_unbroken unbroken, splitFeeds_of_unbroken unbroken, List.map_singleton,
    String.ofList_toList]

/-- Lines that hold no line ending are the lines of the text that joins them. -/
theorem lines_intercalate {ls : List String} (nonempty : ls ≠ [])
    (unbroken : ∀ line ∈ ls, Unbroken line.toList) : lines ("\n".intercalate ls) = ls := by
  induction ls with
  | nil => exact absurd rfl nonempty
  | cons line rest ih =>
    have here := unbroken line List.mem_cons_self
    cases rest with
    | nil => rw [String.intercalate_singleton, lines_of_unbroken here]
    | cons second others =>
      have later := ih (List.cons_ne_nil _ _)
        fun l inside => unbroken l (List.mem_cons_of_mem line inside)
      have apart : line.toList.getLast? ≠ some '\r' := by
        intro last
        exact (here _ (List.mem_of_getLast? last)).2 rfl
      rw [String.intercalate_cons_cons, lines_append_feed apart, lines_of_unbroken here, later]
      rfl

end Text

namespace Script

/-- The canonical texts of instructions, one on each line. -/
def listing (is : List Instruction) : String := "\n".intercalate (is.map Instruction.text)

theorem parseLines_ok_iff {strict : Bool} {number : Nat} {lines : List String}
    {is : List Instruction} :
    parseLines strict number lines = .ok is ↔
      List.Forall₂ (fun line i => Instruction.parse? strict line = .ok (some i)) lines is := by
  induction lines generalizing number is with
  | nil => rw [parseLines, List.forall₂_nil_left_iff, Except.ok.injEq, eq_comm]
  | cons line rest ih =>
    rw [parseLines, List.forall₂_cons_left_iff]
    cases read : Instruction.parse? strict line with
    | error e => simp
    | ok found =>
      cases found with
      | none => simp
      | some i =>
        have later : ∀ js, parseLines strict (number + 1) rest = .ok js ↔
            List.Forall₂ (fun line i => Instruction.parse? strict line = .ok (some i)) rest js :=
          fun _ => ih
        simp only [Except.ok.injEq, Option.some.injEq, ← later]
        cases parseLines strict (number + 1) rest <;> simp [eq_comm]

/-- A script is read if each of its lines is. -/
theorem parse_ok_iff {strict : Bool} {text : String} {p : Program Instruction} :
    parse strict text = .ok p ↔ p.lines = Text.lines text ∧
      List.Forall₂ (fun line i => Instruction.parse? strict line = .ok (some i))
        (Text.lines text) p.instructions := by
  rw [← parseLines_ok_iff, parse]
  obtain ⟨is, lines⟩ := p
  cases parseLines strict 1 (Text.lines text) <;> simp [and_comm, eq_comm]

theorem parseLines_text {is : List Instruction} (well : ∀ i ∈ is, i.WellFormed) (strict : Bool)
    (number : Nat) : parseLines strict number (is.map Instruction.text) = .ok is := by
  rw [parseLines_ok_iff, List.forall₂_map_left_iff, List.forall₂_same]
  intro i inside
  exact Instruction.parse?_text (well i inside) strict

theorem parse_listing {is : List Instruction} (some : is ≠ []) (well : ∀ i ∈ is, i.WellFormed)
    (strict : Bool) : parse strict (listing is) = .ok ⟨is, is.map Instruction.text⟩ := by
  have unbroken : ∀ line ∈ is.map Instruction.text, Text.Unbroken line.toList := by
    intro line inside
    obtain ⟨i, listed, rfl⟩ := List.mem_map.mp inside
    rw [Instruction.text, String.toList_ofList]
    exact (Instruction.legible_write (well i listed)).unbroken
  have nonempty : is.map Instruction.text ≠ [] := by simpa using some
  rw [parse, listing, Text.lines_intercalate nonempty unbroken, parseLines_text well]

theorem wellFormed_of_forall₂ {strict : Bool} {lines : List String} {is : List Instruction}
    (each : List.Forall₂ (fun line i => Instruction.parse? strict line = .ok (some i)) lines is) :
    ∀ i ∈ is, i.WellFormed := by
  induction each with
  | nil =>
    intro i absent
    cases absent
  | cons read _ ih =>
    intro i inside
    rcases List.mem_cons.mp inside with rfl | inside
    · exact Instruction.wellFormed_of_parse? read
    · exact ih i inside

theorem wellFormed_of_parse {strict : Bool} {text : String} {p : Program Instruction}
    (success : parse strict text = .ok p) :
    p.instructions ≠ [] ∧ ∀ i ∈ p.instructions, i.WellFormed := by
  obtain ⟨_, each⟩ := parse_ok_iff.mp success
  refine ⟨?_, wellFormed_of_forall₂ each⟩
  intro empty
  rw [empty, List.forall₂_nil_right_iff] at each
  exact Text.lines_ne_nil text each

/-- Printing and then reading is the identity on well-formed instructions, and only such
instructions are read. -/
theorem parse_listing_eq :
    (∀ (is : List Instruction), is ≠ [] → (∀ i ∈ is, i.WellFormed) → ∀ strict,
      ∃ p, parse strict (listing is) = .ok p ∧ p.instructions = is) ∧
    (∀ strict line i, Instruction.parse? strict line = .ok (some i) → i.WellFormed) ∧
    (∀ strict text p, parse strict text = .ok p → ∀ strict',
      ∃ q, parse strict' (listing p.instructions) = .ok q ∧ q.instructions = p.instructions) := by
  refine ⟨?_, ?_, ?_⟩
  · intro is some well strict
    exact ⟨_, parse_listing some well strict, rfl⟩
  · intro strict line i success
    exact Instruction.wellFormed_of_parse? success
  · intro strict text p success strict'
    obtain ⟨some, well⟩ := wellFormed_of_parse success
    exact ⟨_, parse_listing some well strict', rfl⟩

/-- A negative numeral, a nested condition, an operation and an empty line. -/
def countdown : List Instruction :=
  [.set "x" (.int (-5)), .loop (.not (.compare (.var "x") .eq (.int 0))),
    .set "x" (.binary (.var "x") .add (.int 1)), .close, .blank]

theorem parse_listing_countdown_eq :
    (∃ p, parse true (listing countdown) = .ok p ∧ p.instructions = countdown ∧
      ∃ q, parse false (listing p.instructions) = .ok q ∧ q.instructions = p.instructions) ∧
    ∃ i, Instruction.parse? false "LIFT # up" = .ok (some i) ∧ i.WellFormed := by
  refine ⟨?_, .lift, rfl, parse_listing_eq.2.1 false "LIFT # up" .lift rfl⟩
  obtain ⟨p, success, same⟩ := parse_listing_eq.1 countdown (by decide) (by decide) true
  exact ⟨p, success, same, parse_listing_eq.2.2 _ _ p success false⟩

end Script

end TurtleGraphics
