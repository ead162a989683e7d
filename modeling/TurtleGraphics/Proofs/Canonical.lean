import TurtleGraphics.Proofs.Recognition
/-!
The canonical text of a well-formed expression or condition derives it, and nothing else.

The text puts every operand between parentheses, so it is derivable whatever the operands are. It is
legible as well: its numerals are those of the tree, and it stands on one line.
-/
set_option autoImplicit false

namespace TurtleGraphics

open Text Lexeme

namespace Text

theorem Padded.spaced {core text : List Char} (token : Padded core text) :
    Padded core (' ' :: text) := by
  obtain ⟨blanks, white, rfl⟩ := token
  refine ⟨' ' :: blanks, ?_, rfl⟩
  intro c inside
  rcases List.mem_cons.mp inside with rfl | later
  · decide
  · exact white c later

/-- `text` holds no line ending and no part of one. -/
def Unbroken (text : List Char) : Prop := ∀ c ∈ text, c ≠ '\n' ∧ c ≠ '\r'

/-- No numeral in `text` is too long, and no line ends in it. -/
structure Legible (text : List Char) : Prop where
  readable : Readable text
  unbroken : Unbroken text

/-- A character that may stand anywhere in a line and is no part of a numeral. -/
def isMark (c : Char) : Bool := !c.isDigit && c != '\n' && c != '\r'

theorem isMark_iff {c : Char} :
    isMark c = true ↔ c.isDigit = false ∧ c ≠ '\n' ∧ c ≠ '\r' := by
  simp [isMark, and_assoc]

/-- A run that avoids `c` lies on one side of it. -/
theorem infix_of_infix_append_cons {run left right : List Char} {c : Char} (absent : c ∉ run)
    (inside : run <:+: left ++ c :: right) : run <:+: left ∨ run <:+: right := by
  obtain ⟨before, after, whole⟩ := inside
  rw [List.append_assoc] at whole
  rcases List.append_eq_append_iff.mp whole with ⟨more, rfl, rest⟩ | ⟨more, rfl, rest⟩
  · rcases List.append_eq_append_iff.mp rest with ⟨last, rfl, _⟩ | ⟨last, rfl, rest'⟩
    · exact .inl ⟨before, last, List.append_assoc _ _ _⟩
    · cases last with
      | nil => exact .inl ⟨before, [], by simp⟩
      | cons d tail =>
        injection rest' with same _
        exact absurd (by simp [same]) absent
  · cases more with
    | nil =>
      cases run with
      | nil => exact .inr (List.nil_infix)
      | cons d tail =>
        injection rest with same _
        exact absurd (by simp [same]) absent
    | cons d tail =>
      injection rest with _ rest'
      refine .inr ⟨tail, after, ?_⟩
      rw [rest', List.append_assoc]
      rfl

theorem Legible.nil : Legible [] := by
  refine ⟨?_, ?_⟩
  · intro run inside _
    rw [List.infix_nil.mp inside]
    exact Nat.zero_le _
  · intro c inside
    cases inside

/-- Texts with a mark between them have no numeral in common. -/
theorem Legible.insert {left right : List Char} {c : Char} (legible : Legible left)
    (mark : isMark c = true) (legible' : Legible right) : Legible (left ++ c :: right) := by
  refine ⟨?_, ?_⟩
  · intro run inside digits
    have absent : c ∉ run := by
      intro present
      have digit := digits c present
      rw [(isMark_iff.mp mark).1] at digit
      cases digit
    rcases infix_of_infix_append_cons absent inside with here | there
    · exact legible.readable run here digits
    · exact legible'.readable run there digits
  · intro d inside
    rcases List.mem_append.mp inside with here | there
    · exact legible.unbroken d here
    · rcases List.mem_cons.mp there with rfl | later
      · exact (isMark_iff.mp mark).2
      · exact legible'.unbroken d later

theorem Legible.marks {marks rest : List Char} (legible : Legible rest)
    (plain : marks.all isMark = true) : Legible (marks ++ rest) := by
  induction marks with
  | nil => exact legible
  | cons c tail ih =>
    rw [List.all_cons, Bool.and_eq_true] at plain
    exact Legible.nil.insert plain.1 (ih plain.2)

theorem legible_marks {marks : List Char} (plain : marks.all isMark = true) : Legible marks := by
  have legible := Legible.nil.marks plain
  rwa [List.append_nil] at legible

theorem Legible.spaced {text : List Char} (legible : Legible text) : Legible (' ' :: text) :=
  Legible.nil.insert (by decide) legible

theorem Legible.parenthesized {inside rest : List Char} (legible : Legible inside)
    (legible' : Legible rest) : Legible (parenthesized inside ++ rest) := by
  have closed := legible.insert (c := ')') (by decide) legible'
  have opened := Legible.nil.insert (c := '(') (by decide) closed
  simpa [TurtleGraphics.parenthesized] using opened

theorem all_isMark_of_isAlpha {letters : List Char} (alphabetic : ∀ c ∈ letters, c.isAlpha = true) :
    letters.all isMark = true := by
  refine List.all_eq_true.mpr fun c inside => isMark_iff.mpr ⟨?_, ?_, ?_⟩
  · exact Bool.eq_false_iff.mpr (not_isDigit_of_isAlpha (alphabetic c inside))
  · rintro rfl
    cases alphabetic _ inside
  · rintro rfl
    cases alphabetic _ inside

end Text

theorem enclosed_parenthesized (inside : List Char) : Enclosed inside (parenthesized inside) :=
  ⟨['('], [')'], .refl _, .refl _, rfl⟩

theorem Enclosed.spaced {inside text : List Char} (enclosed : Enclosed inside text) :
    Enclosed inside (' ' :: text) := by
  obtain ⟨opening, closing, opens, closes, rfl⟩ := enclosed
  exact ⟨' ' :: opening, closing, opens.spaced, closes, rfl⟩

namespace Lexeme

theorem WordText.spaced {text : List Char} {name : String} (read : WordText text name) :
    WordText (' ' :: text) name := by
  obtain ⟨some, alphabetic, token⟩ := read
  exact ⟨some, alphabetic, token.spaced⟩

theorem IntegerText.spaced {text : List Char} {n : Int} (read : IntegerText text n) :
    IntegerText (' ' :: text) n := by
  cases read with
  | plain some decimal token => exact .plain some decimal token.spaced
  | negative some decimal token => exact .negative some decimal token.spaced

theorem wordText_of_isWord {name : String} (word : IsWord name) : WordText name.toList name := by
  have read := WordText.mk word.1 word.2 (.refl _)
  rwa [String.ofList_toList] at read

theorem decimal_digits (n : Nat) : ∀ c ∈ Numeral.digits n, c.isDigit = true :=
  fun _ inside => Nat.isDigit_of_mem_toDigits (by decide) (by decide) inside

theorem integerText_write (n : Int) : IntegerText (Numeral.write n) n := by
  have decimal := decimal_digits n.natAbs
  have some : Numeral.digits n.natAbs ≠ [] := Nat.toDigits_ne_nil
  have value := Numeral.value_digits n.natAbs
  rw [Numeral.write]
  split
  · have read := IntegerText.negative some decimal (.refl _)
    rwa [value, show -(n.natAbs : Int) = n by omega] at read
  · have read := IntegerText.plain some decimal (.refl _)
    rwa [value, show (n.natAbs : Int) = n by omega] at read

end Lexeme

namespace Text

theorem legible_digits {digits : List Char} (decimal : ∀ c ∈ digits, c.isDigit = true)
    (short : digits.length ≤ Numeral.maxDigits) : Legible digits := by
  refine ⟨fun run inside _ => Nat.le_trans inside.length_le short, ?_⟩
  intro c inside
  have digit := decimal c inside
  refine ⟨?_, ?_⟩
  · rintro rfl
    cases digit
  · rintro rfl
    cases digit

theorem legible_write {n : Int} (fits : Numeral.Fits n) : Legible (Numeral.write n) := by
  have legible := legible_digits (decimal_digits n.natAbs) fits
  rw [Numeral.write]
  split
  · exact Legible.nil.insert (c := '-') (by decide) legible
  · exact legible

end Text

namespace Expr

variable {text : List Char} {a : Expr}

theorem ValueText.spaced (read : ValueText text a) : ValueText (' ' :: text) a := by
  cases read with
  | int read => exact .int read.spaced
  | var read => exact .var read.spaced

theorem Derives.spaced {phrase : Phrase} (read : Derives phrase text a) :
    Derives phrase (' ' :: text) a := by
  induction read with
  | parens inner enclosed ih => exact .parens inner enclosed.spaced
  | value read => exact .value read.spaced
  | binary first token second ih ih' => exact .binary ih token second
  | single only ih => exact .single ih

theorem derives_write {a : Expr} (well : a.WellFormed) : Derives .expression a.write a := by
  induction a with
  | int n => exact .single (.value (.int (integerText_write n)))
  | var name => exact .single (.value (.var (wordText_of_isWord well)))
  | binary left op right ih ih' =>
    have first := Derives.parens (ih well.1) (enclosed_parenthesized left.write)
    have second := Derives.parens (ih' well.2) (enclosed_parenthesized right.write)
    rw [Expr.write, List.append_assoc]
    exact .binary first (.refl _) second

theorem legible_write {a : Expr} (well : a.WellFormed) : Legible a.write := by
  induction a with
  | int n => exact Text.legible_write well
  | var name => exact legible_marks (all_isMark_of_isAlpha well.2)
  | binary left op right ih ih' =>
    have last := (ih' well.2).parenthesized Legible.nil
    have sign : op.spelling.all isMark = true := by cases op <;> decide
    have whole := (ih well.1).parenthesized (last.marks sign)
    rwa [List.append_nil, ← List.append_assoc] at whole

/-- After a blank, the canonical text is read to its end. -/
theorem expression_write {a : Expr} (well : a.WellFormed) :
    expression (' ' :: a.write) = .matched a (' ' :: a.write).length := by
  have read := (derives_write well).spaced
  have legible := (legible_write well).spaced
  have whole := matched_of_reaches (read.reaches (r := []) ?_) .nil (expression_answers _)
    (Derives.unambiguous .expression) read
  · rwa [List.append_nil] at whole
  · rw [List.append_nil]
    exact legible.readable

end Expr

namespace Cond

variable {text : List Char} {a : Cond}

theorem Derives.spaced (read : Derives text a) : Derives (' ' :: text) a := by
  cases read with
  | not token inner enclosed => exact .not token.spaced inner enclosed
  | combine first enclosed token second enclosed' =>
    exact .combine first enclosed.spaced token second enclosed'
  | compare only =>
    obtain ⟨first, token, second⟩ := only
    exact .compare (.mk first.spaced token second)
  | group inner enclosed => exact .group inner enclosed.spaced

theorem derives_write {a : Cond} (well : a.WellFormed) : Derives a.write a := by
  induction a with
  | compare left c right =>
    have first := Expr.Derives.parens (Expr.derives_write well.1) (enclosed_parenthesized _)
    have second := Expr.Derives.parens (Expr.derives_write well.2) (enclosed_parenthesized _)
    rw [Cond.write, List.append_assoc]
    exact .compare (.mk first (Padded.refl _).spaced second.spaced)
  | not operand ih => exact .not (.refl ['!']) (ih well) (enclosed_parenthesized _)
  | combine left c right ih ih' =>
    rw [Cond.write, List.append_assoc]
    exact .combine (ih well.1) (enclosed_parenthesized _) (Padded.refl _).spaced (ih' well.2)
      (enclosed_parenthesized _).spaced

theorem legible_write {a : Cond} (well : a.WellFormed) : Legible a.write := by
  induction a with
  | compare left c right =>
    have last := (Expr.legible_write well.2).parenthesized Legible.nil
    have sign : (' ' :: c.spelling ++ [' ']).all isMark = true := by cases c <;> decide
    have whole := (Expr.legible_write well.1).parenthesized (last.marks sign)
    simpa [Cond.write] using whole
  | not operand ih =>
    have group := (ih well).parenthesized Legible.nil
    rw [List.append_nil] at group
    exact Legible.nil.insert (c := '!') (by decide) group
  | combine left c right ih ih' =>
    have last := (ih' well.2).parenthesized Legible.nil
    have sign : (' ' :: c.spelling ++ [' ']).all isMark = true := by cases c <;> decide
    have whole := (ih well.1).parenthesized (last.marks sign)
    simpa [Cond.write] using whole

/-- After a blank, the canonical text is read to its end. -/
theorem logic_write {a : Cond} (well : a.WellFormed) :
    logic (' ' :: a.write) = .matched a (' ' :: a.write).length := by
  have read := (derives_write well).spaced
  have legible := (legible_write well).spaced
  have whole := matched_of_reaches (read.reaches (r := []) ?_) .nil (logic_answers _)
    Derives.unambiguous read
  · rwa [List.append_nil] at whole
  · rw [List.append_nil]
    exact legible.readable

end Cond

end TurtleGraphics
