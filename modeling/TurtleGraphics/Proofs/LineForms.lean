import TurtleGraphics.Proofs.LineLayout
/-!
A line has one reading.

All keywords of a kind start with its letter, and no other kind has that letter, so in both modes
all kinds but one refuse a line and their order does not matter. Within a kind the long keyword
begins with the short one. In strict mode only one of the two can stand before the operands, and it
makes no difference which of them does. In the default mode both may be found, and then the long
one, which is tried first, is the one that counts.
-/
set_option autoImplicit false

namespace TurtleGraphics

open Text Lexeme

namespace Instruction

variable {strict : Bool} {text rest : List Char} {k k' : Kind} {name name' : String}

theorem eq_leadingKind (found : ofKind strict k text ≠ .refused) : k = leadingKind text := by
  by_contra differs
  exact found (ofKind_refuses_of_ne differs)

theorem leadingKind_of_prefix (listed : name ∈ k.keywords)
    (starts : name.toList <+: skipBlanks text) : leadingKind text = k := by
  obtain ⟨c, tail, letters, initial, -⟩ := Kind.initial_of_mem listed
  apply leadingKind_eq
  · rintro rfl
    cases listed
  · obtain ⟨more, whole⟩ := starts
    rw [first?, ← whole, letters, initial]
    rfl

section Strict

/-- In strict mode a form that does not refuse has no letter behind its keyword. -/
theorem ends_of_form (listed : name ∈ k.keywords) (found : form true k name text ≠ .refused) :
    runsOn name.toList text = false := by
  cases follows : runsOn name.toList text with
  | false => rfl
  | true => exact absurd (form_strict_refuses listed follows) found

theorem eq_of_forms (listed : name ∈ k.keywords) (listed' : name' ∈ k.keywords)
    (found : form true k name text ≠ .refused) (found' : form true k name' text ≠ .refused) :
    name = name' := by
  obtain ⟨before, after, split⟩ := List.append_of_mem listed
  rw [split, List.mem_append, List.mem_cons] at listed'
  rcases listed' with longer | same | shorter
  · exact absurd (form_refuses_of_ends split (ends_of_form listed found) name' longer) found'
  · exact same.symm
  · have follows := runsOn_of_form split found name' shorter
    rw [ends_of_form (by simp [split, shorter]) found'] at follows
    cases follows

/-- Behind any keyword of a kind the operands are read, if no letter follows it. -/
theorem reading_keyword (listed : name ∈ k.keywords) (ends : rest.head?.any Char.isAlpha = false) :
    (any true (name.toList ++ rest)).reading = (tail k rest).reading := by
  obtain ⟨c, letters, spelled, -, visible⟩ := Kind.initial_of_mem listed
  obtain ⟨before, after, split⟩ := List.append_of_mem listed
  have solid : skipBlanks (name.toList ++ rest) = name.toList ++ rest := by
    rw [spelled, List.cons_append, skipBlanks, List.dropWhile_cons_of_neg (by simp [visible])]
  have starts : name.toList <+: skipBlanks (name.toList ++ rest) := by
    rw [solid]
    exact List.prefix_append _ _
  have stops : runsOn name.toList (name.toList ++ rest) = false := by
    rw [runsOn, solid, List.drop_left, ends]
  have shorter : ∀ short ∈ after, form true k short (name.toList ++ rest) = .refused := by
    intro short inside
    apply form_strict_refuses (by simp [split, inside])
    exact runsOn_of_prefix split starts short inside
  have word : keyword true name.toList (name.toList ++ rest) =
      .matched name.toList name.toList.length := by
    rw [spelled]
    apply keyword_append visible
    intro d head
    rw [head] at ends
    exact ends
  rw [any_eq, leadingKind_of_prefix listed starts,
    ofKind_eq_form split (form_refuses_of_ends split stops) shorter, form, Matcher.andThen, word,
    reading_andThen, List.drop_left]

end Strict

theorem parse?_of_first_form {others : List String} {line : String} {i : Instruction} {n : Nat}
    (first : k.keywords = name :: others)
    (success : form strict k name line.toList = .matched i n) :
    parse? strict line = .ok (some i) := by
  have listed : name ∈ k.keywords := by simp [first]
  have found : form strict k name line.toList ≠ .refused := by
    rw [success]
    nofun
  have worded : k.keywords ≠ [] := by simp [first]
  rw [parse?, any_eq, leadingKind_of_prefix listed (prefix_of_form listed found),
    ofKind_eq_firstOf worded, first, List.map_cons, firstOf_cons, success]
  rfl

end Instruction

open Instruction (Kind among form ofKind parse?)

/-- In both modes all kinds but one refuse a line, so every order of the kinds reads it alike. In
strict mode all keywords but one of that kind refuse it as well, and a keyword can be exchanged for
another one of its kind. In each mode the long keyword decides wherever it is followed by a whole
line, even if the short one is too. -/
theorem lines_never_ambiguous :
    (∀ (strict : Bool) (text : List Char) (k k' : Kind),
      ofKind strict k text ≠ .refused → ofKind strict k' text ≠ .refused → k = k') ∧
    (∀ (strict : Bool) (line : String) (kinds : List Kind), kinds.Perm Kind.all →
      (among strict kinds line.toList).reading = parse? strict line) ∧
    (∀ (text : List Char) (k k' : Kind) (name name' : String),
      name ∈ k.keywords → name' ∈ k'.keywords → form true k name text ≠ .refused →
      form true k' name' text ≠ .refused → k = k' ∧ name = name') ∧
    (∀ (k : Kind) (name name' rest : String), name ∈ k.keywords → name' ∈ k.keywords →
      rest.toList.head?.any Char.isAlpha = false →
      parse? true (name ++ rest) = parse? true (name' ++ rest)) ∧
    ∀ (strict : Bool) (k : Kind) (long : String) (others : List String) (line : String)
      (i : Instruction) (n : Nat), k.keywords = long :: others →
      form strict k long line.toList = .matched i n → parse? strict line = .ok (some i) := by
  refine ⟨?_, ?_, ?_, ?_, ?_⟩
  · intro strict text k k' found found'
    rw [Instruction.eq_leadingKind found, Instruction.eq_leadingKind found']
  · intro strict line kinds order
    have distinct : kinds.Nodup := order.nodup_iff.mpr (by decide)
    have listed := order.mem_iff.mpr (Kind.mem_all (Instruction.leadingKind line.toList))
    rw [Instruction.among_eq distinct listed, ← Instruction.any_eq,
      Instruction.parse?_eq_reading]
  · intro text k k' name name' listed listed' found found'
    have kind := Instruction.leadingKind_of_prefix listed
      (Instruction.prefix_of_form listed found)
    have kind' := Instruction.leadingKind_of_prefix listed'
      (Instruction.prefix_of_form listed' found')
    obtain rfl : k = k' := kind.symm.trans kind'
    exact ⟨rfl, Instruction.eq_of_forms listed listed' found found'⟩
  · intro k name name' rest listed listed' ends
    rw [Instruction.parse?_eq_reading, Instruction.parse?_eq_reading, String.toList_append,
      String.toList_append, Instruction.reading_keyword listed ends,
      Instruction.reading_keyword listed' ends]
  · intro strict k long others line i n first success
    exact Instruction.parse?_of_first_form first success

/-- A move by minus one, and with the short keyword a move by one less than `OVE`. -/
theorem negative_move_read :
    form false .move "MOVE" "MOVE -1".toList = .matched (.move (.int (-1))) 7 ∧
      form false .move "M" "MOVE -1".toList =
        .matched (.move (.binary (.var "OVE") .sub (.int 1))) 7 ∧
      parse? false "MOVE -1" = .ok (some (.move (.int (-1)))) ∧
      (among false Kind.all.reverse "MOVE -1".toList).reading = .ok (some (.move (.int (-1)))) ∧
      (∀ k, ofKind false k "MOVE -1".toList ≠ .refused → k = .move) ∧
      (∀ k, ∀ name ∈ k.keywords, form true k name "MOVE -1".toList ≠ .refused →
        k = .move ∧ name = "MOVE") ∧
      parse? true ("M" ++ " -1") = parse? true ("MOVE" ++ " -1") := by
  have text : "MOVE -1".toList = ['M', 'O', 'V', 'E', ' ', '-', '1'] := by decide
  have numeral : (Expr.int (-1)).write = ['-', '1'] := by decide
  have operand : Expr.expression (' ' :: (Expr.int (-1)).write) = .matched (.int (-1)) 3 :=
    Expr.expression_write (by decide)
  have word : ∀ strict, keyword strict "MOVE".toList ['M', 'O', 'V', 'E', ' ', '-', '1'] =
      .matched ['M', 'O', 'V', 'E'] 4 := by decide
  have long : ∀ strict, form strict .move "MOVE" "MOVE -1".toList =
      .matched (.move (.int (-1))) 7 := by
    intro strict
    rw [numeral] at operand
    rw [form, Matcher.andThen, text, word, Outcome.andThen, List.drop_succ_cons,
      List.drop_succ_cons, List.drop_succ_cons, List.drop_succ_cons, List.drop_zero,
      Instruction.tail, Matcher.andThen, Instruction.operands, Matcher.map, operand]
    rfl
  have short : form false .move "M" "MOVE -1".toList =
      .matched (.move (.binary (.var "OVE") .sub (.int 1))) 7 := by
    have letter : keyword false "M".toList ['M', 'O', 'V', 'E', ' ', '-', '1'] =
        .matched ['M'] 1 := by decide
    have left : Expr.atom ['O', 'V', 'E', ' ', '-', '1'] = .matched (.var "OVE") 3 := by
      rw [Expr.atom_eq]
      decide
    have sign : operator [' ', '-', '1'] = .matched .sub 2 := by decide
    have right : Expr.atom ['1'] = .matched (.int 1) 1 := by
      rw [Expr.atom_eq]
      decide
    have difference : Expr.expression ['O', 'V', 'E', ' ', '-', '1'] =
        .matched (.binary (.var "OVE") .sub (.int 1)) 6 := by
      rw [Expr.expression_eq, left]
      simp only [List.drop_succ_cons, List.drop_zero, sign, right]
    rw [form, Matcher.andThen, text, letter, Outcome.andThen, List.drop_succ_cons,
      List.drop_zero, Instruction.tail, Matcher.andThen, Instruction.operands, Matcher.map,
      difference]
    rfl
  have found : ofKind false .move "MOVE -1".toList ≠ .refused := by
    rw [Instruction.ofKind_eq_firstOf (by decide), Kind.keywords, List.map_cons, firstOf_cons,
      long]
    intro refused
    cases refused
  have strictly : form true .move "MOVE" "MOVE -1".toList ≠ .refused := by
    rw [long]
    intro refused
    cases refused
  obtain ⟨oneKind, anyOrder, oneForm, exchange, first⟩ := lines_never_ambiguous
  have read := first false .move "MOVE" ["M"] "MOVE -1" _ _ rfl (long false)
  refine ⟨long false, short, read, ?_, ?_, ?_, ?_⟩
  · rw [anyOrder false "MOVE -1" _ (List.reverse_perm _), read]
  · exact fun k other => oneKind false _ k .move other found
  · exact fun k name listed other => oneForm _ k .move name "MOVE" listed (by decide) other strictly
  · exact exchange .move "M" "MOVE" " -1" (by decide) (by decide) (by decide)

end TurtleGraphics
