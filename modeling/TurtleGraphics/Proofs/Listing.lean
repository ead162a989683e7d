import TurtleGraphics.Instruction.Parser
import TurtleGraphics.Proofs.Canonical
/-!
A line that holds the canonical text of an instruction is read as that instruction, and whatever is
read from a line is well formed.

The kinds are tried in a fixed order, but their keywords start with different letters, so the text
of an instruction is refused by every kind before its own. There the long keyword is tried first,
and in both modes it ends where the operands begin.
-/
set_option autoImplicit false

namespace TurtleGraphics

open Text Lexeme

section Matchers

variable {α β : Type} {text : List Char} {before after : List (Matcher α)} {m : Matcher α}

theorem firstOf_cons (m : Matcher α) (ms : List (Matcher α)) :
    Matcher.firstOf (m :: ms) text = (m text).orElse fun _ => Matcher.firstOf ms text := rfl

/-- Alternatives that refuse are passed over. -/
theorem firstOf_append (refuses : ∀ m ∈ before, m text = .refused) :
    Matcher.firstOf (before ++ after) text = Matcher.firstOf after text := by
  induction before with
  | nil => rfl
  | cons first others ih =>
    have rest := ih fun m inside => refuses m (List.mem_cons_of_mem first inside)
    rw [List.cons_append, firstOf_cons, refuses first List.mem_cons_self]
    exact rest

theorem firstOf_of_matched {a : α} {n : Nat} (refuses : ∀ m ∈ before, m text = .refused)
    (success : m text = .matched a n) :
    Matcher.firstOf (before ++ m :: after) text = .matched a n := by
  rw [firstOf_append refuses, firstOf_cons, success]
  rfl

theorem firstOf_refused {ms : List (Matcher α)} (refuses : ∀ m ∈ ms, m text = .refused) :
    Matcher.firstOf ms text = .refused := by
  have passed : Matcher.firstOf (ms ++ []) text = .refused := firstOf_append refuses
  rwa [List.append_nil] at passed

/-- A choice matches by the first alternative that does, behind alternatives that refuse. -/
theorem exists_split_of_firstOf {ms : List (Matcher α)} {a : α} {n : Nat}
    (success : Matcher.firstOf ms text = .matched a n) :
    ∃ before m after, ms = before ++ m :: after ∧ (∀ m ∈ before, m text = .refused) ∧
      m text = .matched a n := by
  induction ms with
  | nil => cases success
  | cons first others ih =>
    rw [firstOf_cons] at success
    cases result : first text with
    | matched b k =>
      rw [result] at success
      exact ⟨[], first, others, rfl, by simp, result.trans success⟩
    | refused =>
      rw [result] at success
      obtain ⟨before, m, after, rfl, refuses, found⟩ := ih success
      refine ⟨first :: before, m, after, rfl, ?_, found⟩
      intro other inside
      rcases List.mem_cons.mp inside with rfl | inside
      · exact result
      · exact refuses other inside
    | overlong d =>
      rw [result] at success
      cases success

theorem exists_of_firstOf {ms : List (Matcher α)} {a : α} {n : Nat}
    (success : Matcher.firstOf ms text = .matched a n) : ∃ m ∈ ms, m text = .matched a n := by
  obtain ⟨before, m, after, rfl, _, found⟩ := exists_split_of_firstOf success
  exact ⟨m, by simp, found⟩

theorem exists_of_andThen {first : Outcome α} {next : α → Matcher β} {b : β} {n : Nat}
    (success : first.andThen text next = .matched b n) :
    ∃ a k m, first = .matched a k ∧ next a (text.drop k) = .matched b m := by
  cases first with
  | matched a k =>
    rw [Outcome.andThen] at success
    cases result : next a (text.drop k) with
    | matched c m =>
      rw [result] at success
      cases success
      exact ⟨a, k, m, rfl, result⟩
    | refused =>
      rw [result] at success
      cases success
    | overlong d =>
      rw [result] at success
      cases success
  | refused => cases success
  | overlong d => cases success

theorem exists_of_map {outcome : Outcome α} {f : α → β} {b : β} {n : Nat}
    (success : outcome.map f = .matched b n) : ∃ a, outcome = .matched a n ∧ f a = b := by
  cases outcome with
  | matched a k =>
    cases success
    exact ⟨a, rfl, rfl⟩
  | refused => cases success
  | overlong d => cases success

end Matchers

namespace Lexeme

variable {c : Char} {literal tail text rest : List Char} {strict : Bool}

theorem opensWith_cons {d : Char} (opens : opensWith strict (c :: tail) (d :: text) = true) :
    c = d := by
  simp only [opensWith, Bool.and_eq_true] at opens
  obtain ⟨rest, whole⟩ := List.isPrefixOf_iff_prefix.mp opens.1
  injection whole

/-- A keyword is no beginning of a text whose first solid character differs. -/
theorem keywordOffset?_eq_none (visible : isBlank c = false) (differs : first? text ≠ some c) :
    keywordOffset? strict (c :: tail) text = none := by
  induction text with
  | nil => simp [keywordOffset?, opensWith, List.isPrefixOf]
  | cons d more ih =>
    have closed : opensWith strict (c :: tail) (d :: more) ≠ true := by
      intro opens
      obtain rfl := opensWith_cons opens
      exact differs (first?_of_head? rfl visible)
    rw [keywordOffset?, if_neg closed]
    split
    · rename_i blank
      have later : first? more ≠ some c := by
        simpa [first?, skipBlanks, blank] using differs
      rw [ih later]
    · rfl

theorem keyword_refuses (visible : isBlank c = false) (differs : first? text ≠ some c) :
    keyword strict (c :: tail) text = .refused := by
  rw [keyword, keywordOffset?_eq_none visible differs]

/-- A keyword at the start of a text is found there unless a letter follows. -/
theorem keyword_append (visible : isBlank c = false)
    (free : ∀ d ∈ rest.head?, d.isAlpha = false) :
    keyword strict (c :: tail) (c :: tail ++ rest) = .matched (c :: tail) (c :: tail).length := by
  have stops : rest.head?.any Char.isAlpha = false := by
    cases rest with
    | nil => rfl
    | cons d more => exact free d rfl
  have opens : opensWith strict (c :: tail) (c :: tail ++ rest) = true := by
    rw [opensWith, List.drop_left, stops, Bool.and_false, Bool.not_false, Bool.and_true]
    exact List.isPrefixOf_iff_prefix.mpr (List.prefix_append _ _)
  have offset : keywordOffset? strict (c :: tail) (c :: tail ++ rest) = some 0 := by
    rw [List.cons_append] at opens ⊢
    rw [keywordOffset?, if_pos opens, if_neg (by simp [visible])]
  rw [keyword, offset]
  exact congrArg _ (Nat.zero_add _)

end Lexeme

namespace Instruction

variable {strict : Bool} {text : List Char}

/-- The letter that the keywords of a kind start with. -/
def Kind.initial? : Kind → Option Char
  | .move => some 'M'
  | .rotate => some 'R'
  | .lift => some 'L'
  | .place => some 'P'
  | .set => some 'S'
  | .conditional => some 'I'
  | .loop => some 'W'
  | .close => some 'E'
  | .blank => none

theorem Kind.initial_of_mem {k : Kind} {name : String} (inside : name ∈ k.keywords) :
    ∃ c tail, name.toList = c :: tail ∧ k.initial? = some c ∧ isBlank c = false := by
  cases k <;> simp only [keywords, List.mem_cons, List.not_mem_nil, or_false] at inside <;>
    rcases inside with rfl | rfl <;> exact ⟨_, _, rfl, rfl, by decide⟩

/-- No kind that is tried before `k` has a keyword that starts like those of `k`. -/
theorem Kind.exists_split (k : Kind) :
    ∃ before after, all = before ++ k :: after ∧
      ∀ other ∈ before, other.keywords ≠ [] ∧ other.initial? ≠ k.initial? := by
  refine ⟨all.takeWhile (· ≠ k), (all.dropWhile (· ≠ k)).tail, ?_, ?_⟩
  · cases k <;> rfl
  · cases k <;> decide

theorem ofKind_eq_firstOf {k : Kind} (some : k.keywords ≠ []) :
    ofKind strict k = .firstOf (k.keywords.map (form strict k)) := by
  unfold ofKind
  split
  · rename_i none
    exact absurd none some
  · rfl

theorem ofKind_refuses {k : Kind} (some : k.keywords ≠ []) (differs : first? text ≠ k.initial?) :
    ofKind strict k text = .refused := by
  rw [ofKind_eq_firstOf some]
  refine firstOf_refused fun m inside => ?_
  obtain ⟨name, listed, rfl⟩ := List.mem_map.mp inside
  obtain ⟨c, tail, letters, initial, visible⟩ := Kind.initial_of_mem listed
  rw [initial] at differs
  rw [form, Matcher.andThen, letters, keyword_refuses visible differs]
  rfl

/-- What follows the keyword in the canonical text of an instruction. -/
def arguments : Instruction → List Char
  | move length => ' ' :: length.write
  | rotate angle => ' ' :: angle.write
  | set name value => ' ' :: name.toList ++ ' ' :: value.write
  | conditional condition | loop condition => ' ' :: condition.write
  | lift | place | close | blank => []

theorem operands_arguments {i : Instruction} (well : i.WellFormed) :
    operands i.kind i.arguments = .matched i i.arguments.length := by
  cases i with
  | move length =>
    rw [kind, operands, arguments, Matcher.map, Expr.expression_write well]
    rfl
  | rotate angle =>
    rw [kind, operands, arguments, Matcher.map, Expr.expression_write well]
    rfl
  | set name value =>
    have read := (wordText_of_isWord well.1).spaced
    have breaks : Breaks (' ' :: value.write) := by
      intro c head
      cases head
      decide
    have named := matched_of_reaches (word_reaches read) breaks (word_answers _)
      WordText.unambiguous read
    rw [kind, operands, arguments, Matcher.andThen, named, Outcome.andThen, List.drop_left,
      Matcher.map, Expr.expression_write well.2, List.length_append]
    rfl
  | conditional condition =>
    rw [kind, operands, arguments, Matcher.map, Cond.logic_write well]
    rfl
  | loop condition =>
    rw [kind, operands, arguments, Matcher.map, Cond.logic_write well]
    rfl
  | lift => rfl
  | place => rfl
  | close => rfl
  | blank => rfl

theorem tail_arguments {i : Instruction} (well : i.WellFormed) :
    tail i.kind i.arguments = .matched i i.arguments.length := by
  rw [tail, Matcher.andThen, operands_arguments well, Outcome.andThen, List.drop_length]
  rfl

theorem write_eq {i : Instruction} {name : String} {short : List String}
    (keywords : i.kind.keywords = name :: short) : i.write = name.toList ++ i.arguments := by
  cases i <;> cases keywords <;> rfl

theorem arguments_free (i : Instruction) : ∀ c ∈ i.arguments.head?, c.isAlpha = false := by
  intro c head
  cases i <;> cases head <;> decide

theorem ofKind_write {i : Instruction} (well : i.WellFormed) :
    ofKind strict i.kind i.write = .matched i i.write.length := by
  cases listed : i.kind.keywords with
  | nil =>
    cases i <;> cases listed
    exact tail_arguments (i := blank) trivial
  | cons name short =>
    have inside : name ∈ i.kind.keywords := listed ▸ List.mem_cons_self
    obtain ⟨c, rest, letters, _, visible⟩ := Kind.initial_of_mem inside
    have long : form strict i.kind name i.write = .matched i i.write.length := by
      rw [write_eq listed, form, Matcher.andThen, letters,
        keyword_append visible i.arguments_free, Outcome.andThen, List.drop_left,
        tail_arguments well, List.length_append]
    rw [ofKind_eq_firstOf (by rw [listed]; exact List.cons_ne_nil _ _), listed, List.map_cons]
    have none : ∀ m ∈ ([] : List (Matcher Instruction)), m i.write = .refused :=
      fun _ absent => absurd absent List.not_mem_nil
    exact firstOf_of_matched none long

theorem first?_write (i : Instruction) : first? i.write = i.kind.initial? := by
  cases i <;> rfl

/-- The canonical text of an instruction is read as that instruction, to its end. -/
theorem any_write {i : Instruction} (well : i.WellFormed) (strict : Bool) :
    any strict i.write = .matched i i.write.length := by
  obtain ⟨before, after, split, earlier⟩ := i.kind.exists_split
  rw [any, among, split, List.map_append, List.map_cons]
  refine firstOf_of_matched ?_ (ofKind_write well)
  intro m inside
  obtain ⟨other, listed, rfl⟩ := List.mem_map.mp inside
  obtain ⟨some, differs⟩ := earlier other listed
  refine ofKind_refuses some ?_
  rw [first?_write]
  exact differs.symm

theorem legible_write {i : Instruction} (well : i.WellFormed) : Legible i.write := by
  cases i with
  | move length => exact (Expr.legible_write well).marks (by decide)
  | rotate angle => exact (Expr.legible_write well).marks (by decide)
  | set name value =>
    have operand := (Expr.legible_write well.2).spaced
    have letters := all_isMark_of_isAlpha well.1.2
    have shape : (set name value).write = "SET ".toList ++ (name.toList ++ ' ' :: value.write) :=
      List.append_assoc _ _ _
    rw [shape]
    exact (operand.marks letters).marks (by decide)
  | conditional condition => exact (Cond.legible_write well).marks (by decide)
  | loop condition => exact (Cond.legible_write well).marks (by decide)
  | lift | place | close | blank => exact legible_marks (by decide)

theorem parse?_text {i : Instruction} (well : i.WellFormed) (strict : Bool) :
    parse? strict i.text = .ok (some i) := by
  rw [parse?, text, String.toList_ofList, any_write well]

/-- Whatever the operands are read from, the instruction that they make is well formed. -/
theorem wellFormed_of_operands {k : Kind} {i : Instruction} {n : Nat}
    (success : operands k text = .matched i n) : i.WellFormed := by
  have expressions : ∀ {e text n}, Expr.expression text = .matched e n → e.WellFormed := by
    intro e text n found
    obtain ⟨_, _, _, _, reads⟩ := (Expr.reads text).2.exists_of_matched found
    exact reads.2
  have conditions : ∀ {c text n}, Cond.logic text = .matched c n → c.WellFormed := by
    intro c text n found
    obtain ⟨_, _, _, _, reads⟩ := (Cond.logic_reads text).exists_of_matched found
    exact reads.2
  cases k with
  | move | rotate =>
    obtain ⟨e, found, rfl⟩ := exists_of_map success
    exact expressions found
  | conditional | loop =>
    obtain ⟨c, found, rfl⟩ := exists_of_map success
    exact conditions found
  | set =>
    obtain ⟨name, _, _, named, rest⟩ := exists_of_andThen success
    obtain ⟨e, found, rfl⟩ := exists_of_map rest
    obtain ⟨_, _, _, _, read⟩ := (word_answers text).exists_of_matched named
    exact ⟨read.isWord, expressions found⟩
  | lift | place | close | blank =>
    cases success
    trivial

theorem kind_of_operands {k : Kind} {i : Instruction} {n : Nat}
    (success : operands k text = .matched i n) : i.kind = k := by
  cases k with
  | move | rotate | conditional | loop =>
    obtain ⟨_, _, rfl⟩ := exists_of_map success
    rfl
  | set =>
    obtain ⟨_, _, _, _, rest⟩ := exists_of_andThen success
    obtain ⟨_, _, rfl⟩ := exists_of_map rest
    rfl
  | lift | place | close | blank =>
    cases success
    rfl

theorem wellFormed_of_tail {k : Kind} {i : Instruction} {n : Nat}
    (success : tail k text = .matched i n) : i.WellFormed := by
  obtain ⟨j, _, _, found, ending⟩ := exists_of_andThen success
  obtain ⟨_, _, rfl⟩ := exists_of_map ending
  exact wellFormed_of_operands found

theorem wellFormed_of_any {i : Instruction} {n : Nat} (success : any strict text = .matched i n) :
    i.WellFormed := by
  obtain ⟨m, inside, found⟩ := exists_of_firstOf success
  obtain ⟨k, _, rfl⟩ := List.mem_map.mp inside
  by_cases bare : k.keywords = []
  · rw [ofKind, bare] at found
    exact wellFormed_of_tail found
  · rw [ofKind_eq_firstOf bare] at found
    obtain ⟨m, inside, found⟩ := exists_of_firstOf found
    obtain ⟨name, _, rfl⟩ := List.mem_map.mp inside
    obtain ⟨_, _, _, _, rest⟩ := exists_of_andThen found
    exact wellFormed_of_tail rest

theorem matched_of_parse? {line : String} {i : Instruction}
    (success : parse? strict line = .ok (some i)) : ∃ n, any strict line.toList = .matched i n := by
  rw [parse?] at success
  cases result : any strict line.toList with
  | matched j n =>
    rw [result] at success
    cases success
    exact ⟨n, rfl⟩
  | refused =>
    rw [result] at success
    cases success
  | overlong d =>
    rw [result] at success
    cases success

theorem wellFormed_of_parse? {line : String} {i : Instruction}
    (success : parse? strict line = .ok (some i)) : i.WellFormed := by
  obtain ⟨n, found⟩ := matched_of_parse? success
  exact wellFormed_of_any found

end Instruction

end TurtleGraphics
