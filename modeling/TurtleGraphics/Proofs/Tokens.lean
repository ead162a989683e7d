import TurtleGraphics.Lexeme
import TurtleGraphics.Proofs.WellFormed
/-!
What the tokens of the language look like, apart from the matchers that read them.

A token is its core after any number of blanks. What a matcher takes off a text is always such a
token, and a text that starts with a token is never refused: it is taken as a whole, and no more of
the text with it unless the token is a word or a numeral and the text goes on with a letter or a
digit.
-/
set_option autoImplicit false

namespace TurtleGraphics

namespace Text

/-- `core` after any number of blanks. -/
def Padded (core text : List Char) : Prop :=
  ∃ blanks, (∀ c ∈ blanks, isBlank c = true) ∧ text = blanks ++ core

/-- A core that its blanks cannot be confused with. -/
def Solid (core : List Char) : Prop := ∃ c tail, core = c :: tail ∧ isBlank c = false

/-- The first character that is not blank. -/
def first? (text : List Char) : Option Char := (skipBlanks text).head?

/-- A word or a numeral that is followed by `rest` does not go on there. -/
def Breaks (rest : List Char) : Prop := ∀ c ∈ rest.head?, c.isAlphanum = false

/-- No numeral in `text` has too many digits. -/
def Readable (text : List Char) : Prop :=
  ∀ run, run <:+: text → (∀ c ∈ run, c.isDigit = true) → run.length ≤ Numeral.maxDigits

theorem isAlpha_iff {c : Char} : c.isAlpha = true ↔
    (65 ≤ c.toNat ∧ c.toNat ≤ 90) ∨ (97 ≤ c.toNat ∧ c.toNat ≤ 122) := by
  delta Char.isAlpha Char.isUpper Char.isLower
  simp only [Bool.or_eq_true, Bool.and_eq_true, decide_eq_true_eq, ge_iff_le,
    UInt32.le_iff_toNat_le, Char.reduceVal, UInt32.reduceToNat, Char.toNat]

theorem isBlank_of_isAlphanum {c : Char} (plain : c.isAlphanum = true) : isBlank c = false := by
  rw [Char.isAlphanum, Bool.or_eq_true, isAlpha_iff, isDigit_iff] at plain
  simp only [isBlank, Bool.or_eq_false_iff, Bool.and_eq_false_iff, decide_eq_false_iff_not,
    beq_eq_false_iff_ne, ne_eq]
  omega

theorem Readable.of_infix {part text : List Char} (readable : Readable text)
    (inside : part <:+: text) : Readable part :=
  fun run placed digits => readable run (placed.trans inside) digits

theorem Readable.right {start rest : List Char} (readable : Readable (start ++ rest)) :
    Readable rest :=
  readable.of_infix (List.suffix_append start rest).isInfix

theorem Breaks.nil : Breaks [] := by
  intro c head
  cases head

theorem solid_of_alphanum {core : List Char} (some : core ≠ [])
    (plain : ∀ c ∈ core, c.isAlphanum = true) : Solid core := by
  cases core with
  | nil => exact absurd rfl some
  | cons c tail => exact ⟨c, tail, rfl, isBlank_of_isAlphanum (plain c List.mem_cons_self)⟩

variable {c : Char} {core start rest other left : List Char}

theorem Padded.refl (core : List Char) : Padded core core :=
  ⟨[], fun _ absent => absurd absent List.not_mem_nil, rfl⟩

theorem Padded.skipBlanks_append (token : Padded core start) (solid : Solid core) :
    skipBlanks (start ++ rest) = core ++ rest := by
  obtain ⟨blanks, blank, rfl⟩ := token
  obtain ⟨c, tail, rfl, visible⟩ := solid
  rw [skipBlanks, List.append_assoc, List.dropWhile_append_of_pos blank]
  simp [visible]

theorem Padded.indent_append (token : Padded core start) (solid : Solid core)
    (rest : List Char) : indent (start ++ rest) + core.length = start.length := by
  have total := indent_add_length_skipBlanks (start ++ rest)
  rw [token.skipBlanks_append solid, List.length_append, List.length_append] at total
  omega

theorem Padded.first?_append (token : Padded (c :: core) start) (visible : isBlank c = false) :
    first? (start ++ rest) = some c := by
  rw [first?, token.skipBlanks_append ⟨c, core, rfl, visible⟩]
  rfl

theorem first?_of_head? {text : List Char} (head : text.head? = some c)
    (visible : isBlank c = false) : first? text = some c := by
  cases text with
  | nil => cases head
  | cons d tail =>
    cases head
    simp [first?, skipBlanks, visible]

/-- A token that is no word and no numeral ends the word or numeral before it. -/
theorem Padded.breaks (token : Padded (c :: core) start) (plain : c.isAlphanum = false) :
    Breaks (start ++ rest) := by
  obtain ⟨blanks, blank, rfl⟩ := token
  intro d head
  cases blanks with
  | nil =>
    cases head
    exact plain
  | cons b more =>
    cases head
    cases alphanum : d.isAlphanum with
    | false => rfl
    | true =>
      have white := blank d List.mem_cons_self
      rw [isBlank_of_isAlphanum alphanum] at white
      cases white

/-- Two tokens with the same core at the start of one text are the same. -/
theorem Padded.cut (token : Padded core start) (rival : Padded core other) (solid : Solid core)
    (same : start ++ rest = other ++ left) : start = other ∧ rest = left := by
  have length := token.indent_append solid rest
  have length' := rival.indent_append solid left
  rw [same] at length
  exact List.append_inj same (by omega)

/-- A text whose solid part starts with `core` starts with a token. -/
theorem exists_padded {text : List Char} (found : skipBlanks text = core ++ rest) :
    ∃ start, text = start ++ rest ∧ indent text + core.length = start.length ∧
      Padded core start := by
  refine ⟨text.takeWhile isBlank ++ core, ?_, ?_, text.takeWhile isBlank, ?_, rfl⟩
  · rw [List.append_assoc, ← found, takeWhile_append_skipBlanks]
  · rw [List.length_append, indent]
  · intro d inside
    exact List.all_eq_true.mp List.all_takeWhile d inside

theorem takeWhile_of_breaks {p : Char → Bool} (plain : ∀ c, p c = true → c.isAlphanum = true)
    (breaks : Breaks rest) : rest.takeWhile p = [] := by
  cases rest with
  | nil => rfl
  | cons c tail =>
    cases more : p c with
    | false => simp [more]
    | true =>
      have alphanum := plain c more
      rw [breaks c rfl] at alphanum
      cases alphanum

/-- Two runs of characters that satisfy `p` at the start of one text are the same if both end at a
break. -/
theorem run_cut {p : Char → Bool} {rival : List Char}
    (plain : ∀ c, p c = true → c.isAlphanum = true) (run : ∀ c ∈ core, p c = true)
    (run' : ∀ c ∈ rival, p c = true) (breaks : Breaks rest) (breaks' : Breaks left)
    (same : core ++ rest = rival ++ left) : core = rival := by
  have taken := congrArg (List.takeWhile p) same
  rw [List.takeWhile_append_of_pos run, List.takeWhile_append_of_pos run',
    takeWhile_of_breaks plain breaks, takeWhile_of_breaks plain breaks'] at taken
  simpa using taken

end Text

/-- `outcome` is true to `text`: what was taken is a text that stands for the value, and a numeral
that is too long is there. -/
inductive Outcome.Answers {α : Type} (Reads : List Char → α → Prop) (text : List Char) :
    Outcome α → Prop where
  | matched {start rest : List Char} {a : α} (split : text = start ++ rest)
      (reads : Reads start a) : Answers Reads text (.matched a start.length)
  | refused : Answers Reads text .refused
  | overlong {d : Nat} (long : ¬ Text.Readable text) : Answers Reads text (.overlong d)

/-- `outcome` takes at least `start` off the text, and no more if `follow` holds. -/
def Outcome.Reaches {α : Type} (outcome : Outcome α) (start : List Char) (follow : Prop) : Prop :=
  ∃ a n, outcome = .matched a n ∧ start.length ≤ n ∧ (follow → n = start.length)

namespace Lexeme

open Text

/-- `text` is a word with the given letters. -/
inductive WordText : List Char → String → Prop where
  | mk {letters text : List Char} (some : letters ≠ [])
      (alphabetic : ∀ c ∈ letters, c.isAlpha = true) (token : Padded letters text) :
      WordText text (String.ofList letters)

/-- `text` is an integer. -/
inductive IntegerText : List Char → Int → Prop where
  | plain {digits text : List Char} (some : digits ≠ [])
      (decimal : ∀ c ∈ digits, c.isDigit = true) (token : Padded digits text) :
      IntegerText text (Numeral.value digits)
  | negative {digits text : List Char} (some : digits ≠ [])
      (decimal : ∀ c ∈ digits, c.isDigit = true) (token : Padded ('-' :: digits) text) :
      IntegerText text (-Numeral.value digits)

variable {c : Char} {text start rest : List Char}

theorem symbol_answers (c : Char) (text : List Char) :
    (symbol c text).Answers (fun start _ => Padded [c] start) text := by
  unfold symbol
  cases solid : skipBlanks text with
  | nil => exact .refused
  | cons d tail =>
    dsimp only
    split
    · rename_i same
      subst same
      have whole : skipBlanks text = [d] ++ tail := solid
      obtain ⟨start, split, length, token⟩ := exists_padded whole
      rw [List.length_singleton] at length
      rw [length]
      exact .matched split token
    · exact .refused

theorem symbol_append (token : Padded [c] start) (visible : isBlank c = false) :
    symbol c (start ++ rest) = .matched c start.length := by
  have length := token.indent_append ⟨c, [], rfl, visible⟩ rest
  rw [symbol, token.skipBlanks_append ⟨c, [], rfl, visible⟩]
  exact (if_pos rfl).trans (congrArg (Outcome.matched c) length)

theorem symbol_refuses (differs : first? text ≠ some c) : symbol c text = .refused := by
  rw [symbol]
  rw [first?] at differs
  cases solid : skipBlanks text with
  | nil => rfl
  | cons d tail =>
    rw [solid] at differs
    exact if_neg fun same => differs (congrArg some same)

section Spelled

variable {α : Type} {spelling : α → List Char} {choices : List α} {a : α}

theorem spelled_answers (spelling : α → List Char) (choices : List α) (text : List Char) :
    (spelled spelling choices text).Answers (fun start a => Padded (spelling a) start) text := by
  unfold spelled
  split
  · rename_i a found
    have starts := List.find?_some found
    obtain ⟨rest, whole⟩ := List.isPrefixOf_iff_prefix.mp starts
    obtain ⟨start, split, length, token⟩ := exists_padded whole.symm
    rw [length]
    exact .matched split token
  · exact .refused

theorem spelled_append (token : Padded (spelling a) start) (solid : Solid (spelling a))
    (chosen : (choices.find? fun b => (spelling b).isPrefixOf (spelling a ++ rest)) = some a) :
    spelled spelling choices (start ++ rest) = .matched a start.length := by
  rw [spelled, token.skipBlanks_append solid, chosen, ← token.indent_append solid rest]

end Spelled

theorem operator_solid (op : Operator) : Solid op.spelling := by
  cases op <;> exact ⟨_, _, rfl, by decide⟩

theorem comparator_solid (c : Comparator) : Solid c.spelling := by
  cases c <;> exact ⟨_, _, rfl, by decide⟩

theorem combiner_solid (c : Combiner) : Solid c.spelling := by
  cases c <;> exact ⟨_, _, rfl, by decide⟩

theorem operator_append {op : Operator} (token : Padded op.spelling start) (rest : List Char) :
    operator (start ++ rest) = .matched op start.length := by
  refine spelled_append token (operator_solid op) ?_
  cases op <;> simp [Operator.all, Operator.spelling]

/-- The only spellings that others begin with go on with an equals sign. -/
theorem comparator_append {c : Comparator} (token : Padded c.spelling start)
    (ends : rest.head? ≠ some '=') : comparator (start ++ rest) = .matched c start.length := by
  refine spelled_append token (comparator_solid c) ?_
  cases rest with
  | nil => cases c <;> decide
  | cons d tail =>
    have differs : ('=' == d) = false := by
      rw [beq_eq_false_iff_ne]
      intro same
      exact ends (congrArg some same.symm)
    cases c <;> simp [Comparator.all, Comparator.spelling, List.isPrefixOf, differs]

theorem combiner_append {c : Combiner} (token : Padded c.spelling start) (rest : List Char) :
    combiner (start ++ rest) = .matched c start.length := by
  refine spelled_append token (combiner_solid c) ?_
  cases c <;> simp [Combiner.all, Combiner.spelling]

theorem word_answers (text : List Char) : (word text).Answers WordText text := by
  have whole := List.takeWhile_append_dropWhile (p := Char.isAlpha) (l := skipBlanks text)
  have alphabetic : ∀ c ∈ (skipBlanks text).takeWhile Char.isAlpha, c.isAlpha = true :=
    List.all_eq_true.mp List.all_takeWhile
  obtain ⟨start, split, length, token⟩ := exists_padded whole.symm
  rw [word]
  generalize (skipBlanks text).takeWhile Char.isAlpha = letters at *
  cases letters with
  | nil => exact .refused
  | cons c tail =>
    dsimp only
    rw [length]
    exact .matched split ⟨by simp, alphabetic, token⟩

theorem isAlphanum_of_isAlpha (c : Char) (letter : c.isAlpha = true) : c.isAlphanum = true := by
  rw [Char.isAlphanum, letter, Bool.true_or]

theorem isAlphanum_of_isDigit (c : Char) (digit : c.isDigit = true) : c.isAlphanum = true := by
  rw [Char.isAlphanum, digit, Bool.or_true]

theorem not_isDigit_of_isAlpha {c : Char} (letter : c.isAlpha = true) : ¬ c.isDigit = true := by
  rw [isAlpha_iff] at letter
  rw [isDigit_iff]
  omega

theorem solid_letters {letters : List Char} (some : letters ≠ [])
    (alphabetic : ∀ c ∈ letters, c.isAlpha = true) : Solid letters :=
  solid_of_alphanum some fun c inside => isAlphanum_of_isAlpha c (alphabetic c inside)

theorem solid_digits {digits : List Char} (some : digits ≠ [])
    (decimal : ∀ c ∈ digits, c.isDigit = true) : Solid digits :=
  solid_of_alphanum some fun c inside => isAlphanum_of_isDigit c (decimal c inside)

theorem solid_minus (digits : List Char) : Solid ('-' :: digits) :=
  ⟨'-', digits, rfl, by decide⟩

theorem minus_ne_digits {digits body : List Char} (some : digits ≠ [])
    (decimal : ∀ c ∈ digits, c.isDigit = true) : digits ++ rest ≠ '-' :: body := by
  cases digits with
  | nil => exact absurd rfl some
  | cons c tail =>
    intro same
    injection same with head _
    have digit := decimal c List.mem_cons_self
    rw [head] at digit
    cases digit

theorem WordText.isWord {name : String} (read : WordText start name) : IsWord name := by
  obtain ⟨some, alphabetic, token⟩ := read
  rw [IsWord, String.toList_ofList]
  exact ⟨some, alphabetic⟩

theorem word_reaches {name : String} (read : WordText start name) :
    (word (start ++ rest)).Reaches start (Breaks rest) := by
  obtain @⟨letters, _, some, alphabetic, token⟩ := read
  have solid := solid_letters some alphabetic
  have length := token.indent_append solid rest
  have run : (skipBlanks (start ++ rest)).takeWhile Char.isAlpha =
      letters ++ rest.takeWhile Char.isAlpha := by
    rw [token.skipBlanks_append solid, List.takeWhile_append_of_pos alphabetic]
  refine ⟨String.ofList (letters ++ rest.takeWhile Char.isAlpha),
    start.length + (rest.takeWhile Char.isAlpha).length, ?_, Nat.le_add_right _ _, ?_⟩
  · rw [word, run, ← length]
    cases letters with
    | nil => exact absurd rfl some
    | cons c tail =>
      rw [Nat.add_assoc, ← List.length_append]
      rfl
  · intro breaks
    rw [takeWhile_of_breaks isAlphanum_of_isAlpha breaks]
    rfl

theorem WordText.cut {other left : List Char} {name name' : String} (read : WordText start name)
    (rival : WordText other name') (breaks : Breaks rest) (breaks' : Breaks left)
    (same : start ++ rest = other ++ left) : start = other ∧ name = name' := by
  obtain ⟨some, alphabetic, token⟩ := read
  obtain ⟨some', alphabetic', token'⟩ := rival
  have solid := solid_letters some alphabetic
  have cores := congrArg skipBlanks same
  rw [token.skipBlanks_append solid,
    token'.skipBlanks_append (solid_letters some' alphabetic')] at cores
  obtain rfl := run_cut isAlphanum_of_isAlpha alphabetic alphabetic' breaks breaks' cores
  exact ⟨(token.cut token' solid same).1, rfl⟩

/-- The value of a numeral with the given sign. -/
def signed (negative : Bool) (digits : List Char) : Int :=
  if negative then -Numeral.value digits else Numeral.value digits

theorem fits_signed {digits : List Char} {negative : Bool} (some : digits ≠ [])
    (decimal : ∀ c ∈ digits, c.isDigit = true) (short : digits.length ≤ Numeral.maxDigits) :
    Numeral.Fits (signed negative digits) := by
  have size : (signed negative digits).natAbs = Numeral.value digits := by
    cases negative with
    | false => exact Int.natAbs_natCast _
    | true => exact (Int.natAbs_neg _).trans (Int.natAbs_natCast _)
  rw [Numeral.Fits, size]
  exact Nat.le_trans (Numeral.length_digits_value_le some decimal) short

theorem numeral_answers {sign body : List Char} {negative : Bool}
    (solid : skipBlanks text = sign ++ body)
    (reads : ∀ digits start, digits ≠ [] → (∀ c ∈ digits, c.isDigit = true) →
      Padded (sign ++ digits) start → IntegerText start (signed negative digits)) :
    (numeral (indent text + sign.length) negative body).Answers
      (fun start n => IntegerText start n ∧ Numeral.Fits n) text := by
  have decimal : ∀ c ∈ body.takeWhile Char.isDigit, c.isDigit = true :=
    List.all_eq_true.mp List.all_takeWhile
  have whole : skipBlanks text =
      (sign ++ body.takeWhile Char.isDigit) ++ body.dropWhile Char.isDigit := by
    rw [List.append_assoc, List.takeWhile_append_dropWhile, solid]
  obtain ⟨start, split, length, token⟩ := exists_padded whole
  rw [numeral]
  generalize body.takeWhile Char.isDigit = digits at *
  dsimp only
  split
  · exact .refused
  · rename_i nonempty
    have some : digits ≠ [] := by simpa using nonempty
    split
    · rename_i long
      refine .overlong fun readable => Nat.not_le.mpr long (readable digits ?_ decimal)
      rw [skipBlanks_eq_drop, List.append_assoc] at whole
      have inside : digits <:+: text.drop (indent text) :=
        ⟨sign, body.dropWhile Char.isDigit, by rw [List.append_assoc, whole]⟩
      exact inside.trans (List.drop_suffix _ _).isInfix
    · rename_i short
      rw [Nat.add_assoc, ← List.length_append, length]
      refine .matched split ⟨reads digits start some decimal token, ?_⟩
      exact fits_signed some decimal (Nat.not_lt.mp short)

theorem integer_answers (text : List Char) :
    (integer text).Answers (fun start n => IntegerText start n ∧ Numeral.Fits n) text := by
  unfold integer
  split
  · rename_i body solid
    have whole : skipBlanks text = ['-'] ++ body := solid
    exact numeral_answers whole fun _ _ some decimal token => .negative some decimal token
  · have whole : skipBlanks text = [] ++ skipBlanks text := rfl
    exact numeral_answers whole fun _ _ some decimal token => .plain some decimal token

theorem numeral_reaches {digits : List Char} {taken : Nat} {negative : Bool} (some : digits ≠ [])
    (decimal : ∀ c ∈ digits, c.isDigit = true) (readable : Readable (digits ++ rest))
    (length : taken + digits.length = start.length) :
    (numeral taken negative (digits ++ rest)).Reaches start (Breaks rest) := by
  have run : (digits ++ rest).takeWhile Char.isDigit = digits ++ rest.takeWhile Char.isDigit :=
    List.takeWhile_append_of_pos decimal
  have short : (digits ++ rest.takeWhile Char.isDigit).length ≤ Numeral.maxDigits := by
    rw [← run]
    exact readable _ (List.takeWhile_prefix _).isInfix (List.all_eq_true.mp List.all_takeWhile)
  refine ⟨signed negative (digits ++ rest.takeWhile Char.isDigit),
    start.length + (rest.takeWhile Char.isDigit).length, ?_, Nat.le_add_right _ _, ?_⟩
  · rw [numeral, run]
    dsimp only
    rw [if_neg (by simp [some]), if_neg (Nat.not_lt.mpr short), List.length_append,
      ← Nat.add_assoc, length, signed]
  · intro breaks
    rw [takeWhile_of_breaks isAlphanum_of_isDigit breaks]
    rfl

theorem integer_eq_numeral {digits : List Char} (token : Padded digits start) (some : digits ≠ [])
    (decimal : ∀ c ∈ digits, c.isDigit = true) :
    integer (start ++ rest) = numeral (indent (start ++ rest)) false (digits ++ rest) := by
  rw [integer, token.skipBlanks_append (solid_digits some decimal)]
  split
  · rename_i body minus
    exact absurd minus (minus_ne_digits some decimal)
  · rfl

theorem integer_reaches {n : Int} (read : IntegerText start n)
    (readable : Readable (start ++ rest)) :
    (integer (start ++ rest)).Reaches start (Breaks rest) := by
  have solidReadable : Readable (skipBlanks (start ++ rest)) := by
    rw [skipBlanks_eq_drop]
    exact readable.of_infix (List.drop_suffix _ _).isInfix
  cases read with
  | plain some decimal token =>
    rename_i digits
    have solid := solid_digits some decimal
    have length := token.indent_append solid rest
    rw [token.skipBlanks_append solid] at solidReadable
    rw [integer_eq_numeral token some decimal]
    exact numeral_reaches some decimal solidReadable length
  | negative some decimal token =>
    rename_i digits
    have solid := solid_minus digits
    have length := token.indent_append solid rest
    rw [token.skipBlanks_append solid] at solidReadable
    have minus : integer (start ++ rest) =
        numeral (indent (start ++ rest) + 1) true (digits ++ rest) := by
      rw [integer, token.skipBlanks_append solid]
      rfl
    rw [minus]
    have bodyReadable : Readable (digits ++ rest) :=
      solidReadable.of_infix (List.suffix_cons '-' _).isInfix
    refine numeral_reaches some decimal bodyReadable ?_
    rw [Nat.add_assoc, Nat.add_comm 1]
    exact length

theorem WordText.first?_append {name : String} (read : WordText start name) (rest : List Char) :
    ∃ c, first? (start ++ rest) = some c ∧ c.isAlpha = true := by
  obtain @⟨letters, _, some, alphabetic, token⟩ := read
  cases letters with
  | nil => exact absurd rfl some
  | cons c tail =>
    have letter := alphabetic c List.mem_cons_self
    exact ⟨c, token.first?_append (isBlank_of_isAlphanum (isAlphanum_of_isAlpha c letter)), letter⟩

theorem IntegerText.first?_append {n : Int} (read : IntegerText start n) (rest : List Char) :
    ∃ c, first? (start ++ rest) = some c ∧ (c = '-' ∨ c.isDigit = true) := by
  cases read with
  | plain some decimal token =>
    rename_i digits
    cases digits with
    | nil => exact absurd rfl some
    | cons c tail =>
      have digit := decimal c List.mem_cons_self
      exact ⟨c, token.first?_append (isBlank_of_isAlphanum (isAlphanum_of_isDigit c digit)),
        .inr digit⟩
  | negative some decimal token => exact ⟨'-', token.first?_append (by decide), .inl rfl⟩

theorem IntegerText.cut {other left : List Char} {n m : Int} (read : IntegerText start n)
    (rival : IntegerText other m) (breaks : Breaks rest) (breaks' : Breaks left)
    (same : start ++ rest = other ++ left) : start = other ∧ n = m := by
  have cores := congrArg skipBlanks same
  cases read with
  | plain some decimal token =>
    have solid := solid_digits some decimal
    cases rival with
    | plain some' decimal' token' =>
      rw [token.skipBlanks_append solid,
        token'.skipBlanks_append (solid_digits some' decimal')] at cores
      obtain rfl := run_cut isAlphanum_of_isDigit decimal decimal' breaks breaks' cores
      exact ⟨(token.cut token' solid same).1, rfl⟩
    | negative some' decimal' token' =>
      rw [token.skipBlanks_append solid, token'.skipBlanks_append (solid_minus _)] at cores
      exact absurd cores (minus_ne_digits some decimal)
  | negative some decimal token =>
    cases rival with
    | plain some' decimal' token' =>
      rw [token.skipBlanks_append (solid_minus _),
        token'.skipBlanks_append (solid_digits some' decimal')] at cores
      exact absurd cores.symm (minus_ne_digits some' decimal')
    | negative some' decimal' token' =>
      rw [token.skipBlanks_append (solid_minus _),
        token'.skipBlanks_append (solid_minus _)] at cores
      injection cores with _ tails
      obtain rfl := run_cut isAlphanum_of_isDigit decimal decimal' breaks breaks' tails
      exact ⟨(token.cut token' (solid_minus _) same).1, rfl⟩

theorem IntegerText.ne_word {other left : List Char} {n : Int} {name : String}
    (read : IntegerText start n) (rival : WordText other name) : start ++ rest ≠ other ++ left := by
  intro same
  obtain ⟨c, first, starts⟩ := read.first?_append rest
  obtain ⟨d, first', letter⟩ := rival.first?_append left
  rw [same, first'] at first
  cases first
  rcases starts with rfl | digit
  · cases letter
  · exact absurd digit (not_isDigit_of_isAlpha letter)

variable {sign sign' left : List Char}

/-- A matcher that takes two texts off the start of one text takes the same. -/
theorem matched_cut {α : Type} {m : Matcher α} {a b : α}
    (read : m (sign ++ rest) = .matched a sign.length)
    (read' : m (sign' ++ left) = .matched b sign'.length) (same : sign ++ rest = sign' ++ left) :
    a = b ∧ sign = sign' ∧ rest = left := by
  rw [same, read'] at read
  injection read with values lengths
  exact ⟨values.symm, List.append_inj same lengths.symm⟩

theorem operator_first? {op : Operator} (token : Padded op.spelling sign) (rest : List Char) :
    ∃ c ∈ ['+', '-', '*'], first? (sign ++ rest) = some c := by
  cases op with
  | add => exact ⟨'+', by decide, token.first?_append (by decide)⟩
  | sub => exact ⟨'-', by decide, token.first?_append (by decide)⟩
  | mul => exact ⟨'*', by decide, token.first?_append (by decide)⟩

theorem comparator_first? {c : Comparator} (token : Padded c.spelling sign) (rest : List Char) :
    ∃ d ∈ ['<', '>', '='], first? (sign ++ rest) = some d := by
  cases c with
  | le | lt => exact ⟨'<', by decide, token.first?_append (by decide)⟩
  | ge | gt => exact ⟨'>', by decide, token.first?_append (by decide)⟩
  | eq => exact ⟨'=', by decide, token.first?_append (by decide)⟩

theorem combiner_first? {c : Combiner} (token : Padded c.spelling sign) (rest : List Char) :
    ∃ d ∈ ['&', '|'], first? (sign ++ rest) = some d := by
  cases c with
  | and => exact ⟨'&', by decide, token.first?_append (by decide)⟩
  | or => exact ⟨'|', by decide, token.first?_append (by decide)⟩

theorem operator_breaks {op : Operator} (token : Padded op.spelling sign) :
    Breaks (sign ++ rest) := by
  cases op <;> exact token.breaks (by decide)

theorem comparator_breaks {c : Comparator} (token : Padded c.spelling sign) :
    Breaks (sign ++ rest) := by
  cases c <;> exact token.breaks (by decide)

end Lexeme

end TurtleGraphics
