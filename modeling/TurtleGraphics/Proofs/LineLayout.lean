import Mathlib.Data.List.TakeWhile
import TurtleGraphics.Proofs.Alternatives
import TurtleGraphics.Proofs.StrictKeywords
/-!
Blanks around a line, and a comment behind it, make no difference to what is read from it.

No token holds a hash sign, and none holds a blank behind its first solid character. So blanks and
a comment behind a text neither lengthen a token nor make one, and every rule does with the text
what it does without them (`Ignores`). That includes refusals, and numerals that are too long. Only
the end of the line takes them in, which changes how much of the line is taken and nothing else.
Blanks before a line are taken with its first token.
-/
set_option autoImplicit false

namespace TurtleGraphics

open Text Lexeme

namespace Text

/-- There is nothing in `text`, or a comment is the first thing in it. -/
def Vacant (text : List Char) : Prop := first? text = none ∨ first? text = some '#'

/-- What may stand behind the text of a line: blanks, and then perhaps a comment. -/
structure Trailer (trailer : List Char) : Prop where
  oneLine : '\n' ∉ trailer
  vacant : Vacant trailer

/-- Neither blanks nor a comment may stand in `spelling`. -/
def Dense (spelling : List Char) : Prop := ∀ c ∈ spelling, isBlank c = false ∧ c ≠ '#'

instance (spelling : List Char) : Decidable (Dense spelling) :=
  decidable_of_iff (spelling.all (fun c => !isBlank c && c != '#') = true) (by simp [Dense])

variable {blanks remark spelling text trailer : List Char} {c : Char}

theorem skipBlanks_blanks (blank : ∀ c ∈ blanks, isBlank c = true) (text : List Char) :
    skipBlanks (blanks ++ text) = skipBlanks text :=
  List.dropWhile_append_of_pos blank

theorem indent_blanks (blank : ∀ c ∈ blanks, isBlank c = true) (text : List Char) :
    indent (blanks ++ text) = blanks.length + indent text := by
  rw [indent, List.takeWhile_append_of_pos blank, List.length_append, indent]

/-- Behind a solid character everything belongs to the solid part of the text. -/
theorem skipBlanks_append (solid : skipBlanks text ≠ []) (rest : List Char) :
    skipBlanks (text ++ rest) = skipBlanks text ++ rest := by
  rw [skipBlanks, List.dropWhile_append, if_neg (by rwa [List.isEmpty_iff]), skipBlanks]

theorem indent_append (solid : skipBlanks text ≠ []) (rest : List Char) :
    indent (text ++ rest) = indent text := by
  have whole := indent_add_length_skipBlanks (text ++ rest)
  have part := indent_add_length_skipBlanks text
  rw [skipBlanks_append solid, List.length_append, List.length_append] at whole
  omega

theorem Vacant.skipBlanks (vacant : Vacant text) :
    skipBlanks text = [] ∨ ∃ rest, skipBlanks text = '#' :: rest := by
  rcases vacant with nothing | comment
  · exact Or.inl (List.head?_eq_none_iff.mp nothing)
  · exact Or.inr (List.head?_eq_some_iff.mp comment)

theorem Vacant.first?_ne (vacant : Vacant text) (noComment : c ≠ '#') : first? text ≠ some c := by
  intro found
  rcases vacant with nothing | comment
  · rw [nothing] at found
    cases found
  · rw [comment] at found
    exact noComment (Option.some.inj found).symm

theorem vacant_of_skipBlanks (blank : skipBlanks text = []) : Vacant text := by
  rw [Vacant, first?, blank]
  exact Or.inl rfl

namespace Trailer

theorem of_blanks (blank : ∀ c ∈ blanks, isBlank c = true ∧ c ≠ '\n') : Trailer blanks where
  oneLine inside := (blank _ inside).2 rfl
  vacant := by
    have skipped := skipBlanks_blanks (fun c inside => (blank c inside).1) []
    rw [List.append_nil] at skipped
    rw [Vacant, first?, skipped]
    exact Or.inl rfl

theorem of_comment (blank : ∀ c ∈ blanks, isBlank c = true ∧ c ≠ '\n') (oneLine : '\n' ∉ remark) :
    Trailer (blanks ++ '#' :: remark) where
  oneLine inside := by
    rcases List.mem_append.mp inside with inside | inside
    · exact (blank _ inside).2 rfl
    · rcases List.mem_cons.mp inside with same | inside
      · cases same
      · exact oneLine inside
  vacant := by
    rw [Vacant, first?, skipBlanks_blanks fun c inside => (blank c inside).1]
    exact Or.inr rfl

theorem head (trails : Trailer trailer) : ∀ c ∈ trailer.head?, isBlank c = true ∨ c = '#' := by
  intro c head
  cases blank : isBlank c with
  | true => exact Or.inl rfl
  | false =>
    have first := first?_of_head? head blank
    rcases trails.vacant with nothing | comment
    · rw [nothing] at first
      cases first
    · rw [comment] at first
      exact Or.inr (Option.some.inj first).symm

theorem breaks (trails : Trailer trailer) : Breaks trailer := by
  intro c head
  rcases trails.head c head with blank | rfl
  · cases plain : c.isAlphanum with
    | false => rfl
    | true =>
      rw [isBlank_of_isAlphanum plain] at blank
      cases blank
  · decide

theorem vacant_append (trails : Trailer trailer) (blank : skipBlanks text = []) :
    Vacant (text ++ trailer) := by
  have all : ∀ c ∈ text, isBlank c = true := List.dropWhile_eq_nil_iff.mp blank
  rw [Vacant, first?, skipBlanks_blanks all]
  exact trails.vacant

theorem head?_any (trails : Trailer trailer) {p : Char → Bool}
    (plain : ∀ c, p c = true → c.isAlphanum = true) : trailer.head?.any p = false := by
  cases trailer with
  | nil => rfl
  | cons c rest =>
    cases found : p c with
    | false => exact found
    | true =>
      have ends := trails.breaks c rfl
      rw [plain c found] at ends
      cases ends

theorem takeWhile_append (trails : Trailer trailer) {p : Char → Bool}
    (plain : ∀ c, p c = true → c.isAlphanum = true) (text : List Char) :
    (text ++ trailer).takeWhile p = text.takeWhile p := by
  rw [List.takeWhile_append, takeWhile_of_breaks plain trails.breaks, List.append_nil]
  split
  · rename_i all
    exact ((List.takeWhile_prefix p).eq_of_length all).symm
  · rfl

/-- No spelling begins in a text and ends behind it. -/
theorem isPrefixOf_append (trails : Trailer trailer) (dense : Dense spelling) (text : List Char) :
    spelling.isPrefixOf (text ++ trailer) = spelling.isPrefixOf text := by
  induction spelling generalizing text with
  | nil => rfl
  | cons c more ih =>
    have ⟨visible, noComment⟩ := dense c List.mem_cons_self
    cases text with
    | cons d rest =>
      have later := ih (fun e inside => dense e (List.mem_cons_of_mem c inside)) rest
      rw [List.cons_append, List.isPrefixOf, List.isPrefixOf, later]
    | nil =>
      cases trailer with
      | nil => rfl
      | cons d rest =>
        have differs : c ≠ d := by
          rintro rfl
          rcases trails.head c rfl with blank | comment
          · rw [visible] at blank
            cases blank
          · exact noComment comment
        simp [List.isPrefixOf, differs]

end Trailer

end Text

theorem Outcome.Answers.length_le {α : Type} {Reads : List Char → α → Prop} {text : List Char}
    {outcome : Outcome α} (answers : outcome.Answers Reads text) {a : α} {n : Nat}
    (success : outcome = .matched a n) : n ≤ text.length := by
  obtain ⟨start, rest, rfl, rfl, _⟩ := answers.exists_of_matched success
  rw [List.length_append]
  exact Nat.le_add_right _ _

namespace Matcher

variable {α β : Type} {trailer : List Char} {size : Nat} {m other : Matcher α}

/-- With a text of at most `size` characters `m` does the same whether or not `trailer` stands
behind it, and it takes nothing of the trailer. -/
def Ignores (m : Matcher α) (trailer : List Char) (size : Nat) : Prop :=
  ∀ text : List Char, text.length ≤ size →
    m (text ++ trailer) = m text ∧ ∀ a n, m text = .matched a n → n ≤ text.length

theorem Ignores.mono {less : Nat} (ignores : m.Ignores trailer size) (le : less ≤ size) :
    m.Ignores trailer less :=
  fun text short => ignores text (Nat.le_trans short le)

theorem Ignores.map (ignores : m.Ignores trailer size) (f : α → β) :
    (m.map f).Ignores trailer size := by
  intro text short
  obtain ⟨same, within⟩ := ignores text short
  refine ⟨by rw [Matcher.map, Matcher.map, same], ?_⟩
  intro b n success
  obtain ⟨a, found, rfl⟩ := exists_of_map success
  exact within a n found

theorem ignores_succeed (a : α) : (succeed a).Ignores trailer size := by
  intro text _
  refine ⟨rfl, ?_⟩
  intro b n success
  cases success
  exact Nat.zero_le _

theorem Ignores.orElse (ignores : m.Ignores trailer size) (ignores' : other.Ignores trailer size) :
    (m.orElse other).Ignores trailer size := by
  intro text short
  obtain ⟨same, within⟩ := ignores text short
  obtain ⟨same', within'⟩ := ignores' text short
  refine ⟨by rw [Matcher.orElse, Matcher.orElse, same, same'], ?_⟩
  intro a n success
  rw [Matcher.orElse] at success
  cases result : m text with
  | matched b k =>
    rw [result] at success
    cases success
    exact within a n result
  | refused =>
    rw [result] at success
    exact within' a n success
  | overlong d =>
    rw [result] at success
    cases success

theorem ignores_firstOf {ms : List (Matcher α)} (each : ∀ m ∈ ms, m.Ignores trailer size) :
    (firstOf ms).Ignores trailer size := by
  induction ms with
  | nil => exact fun _ _ => ⟨rfl, nofun⟩
  | cons first others ih =>
    have later := ih fun m inside => each m (List.mem_cons_of_mem first inside)
    exact (each first List.mem_cons_self).orElse later

/-- A sequence goes on with a shorter text, and the trailer still stands behind that. -/
theorem ignores_andThen {text : List Char} {next : α → Matcher β}
    (first : m.Ignores trailer text.length)
    (later : ∀ a n, m text = .matched a n → (next a).Ignores trailer (text.length - n)) :
    m.andThen next (text ++ trailer) = m.andThen next text ∧
      ∀ b n, m.andThen next text = .matched b n → n ≤ text.length := by
  obtain ⟨same, within⟩ := first text (Nat.le_refl _)
  rw [Matcher.andThen, Matcher.andThen, same]
  cases result : m text with
  | matched a n =>
    have inside : n ≤ text.length := within a n result
    have rest : (text.drop n).length = text.length - n := List.length_drop
    obtain ⟨same', within'⟩ := later a n result (text.drop n) (Nat.le_of_eq rest)
    rw [Outcome.andThen, Outcome.andThen, List.drop_append_of_le_length inside, same']
    refine ⟨rfl, ?_⟩
    intro b k success
    cases following : next a (text.drop n) with
    | matched c j =>
      rw [following] at success
      cases success
      have := within' b _ following
      omega
    | refused =>
      rw [following] at success
      cases success
    | overlong d =>
      rw [following] at success
      cases success
  | refused => exact ⟨rfl, fun _ _ success => by cases success⟩
  | overlong d => exact ⟨rfl, fun _ _ success => by cases success⟩

theorem Ignores.andThen {next : α → Matcher β} (first : m.Ignores trailer size)
    (later : ∀ a, (next a).Ignores trailer size) : (m.andThen next).Ignores trailer size := by
  intro text short
  exact ignores_andThen (first.mono short) fun a n _ => (later a).mono (by omega)

end Matcher

namespace Lexeme
open Matcher

variable {α : Type} {trailer : List Char} {size : Nat} {strict : Bool}

/-- A token is not made of what may stand behind a text, and does not go on in it. -/
theorem ignores_of_token {m : Matcher α} (trails : Trailer trailer)
    (within : ∀ text a n, m text = .matched a n → n ≤ text.length)
    (refuses : ∀ text, Vacant text → m text = .refused)
    (same : ∀ text, skipBlanks text ≠ [] → m (text ++ trailer) = m text) :
    m.Ignores trailer size := by
  intro text _
  refine ⟨?_, within text⟩
  by_cases blank : skipBlanks text = []
  · -- a token could only be made of the trailer here
    rw [refuses text (vacant_of_skipBlanks blank), refuses _ (trails.vacant_append blank)]
  · exact same text blank

theorem symbol_ignores {c : Char} (trails : Trailer trailer) (noComment : c ≠ '#') :
    (symbol c).Ignores trailer size := by
  refine ignores_of_token trails (fun _ _ _ found => (symbol_bounds found).2) ?_ ?_
  · intro text vacant
    apply symbol_refuses
    exact vacant.first?_ne noComment
  · intro text solid
    rw [symbol, symbol, skipBlanks_append solid, indent_append solid]
    cases body : skipBlanks text with
    | nil => exact absurd body solid
    | cons d rest => rfl

theorem spelled_ignores {spelling : α → List Char} {choices : List α} (trails : Trailer trailer)
    (dense : ∀ a, Dense (spelling a)) (nonempty : ∀ a, spelling a ≠ []) :
    (spelled spelling choices).Ignores trailer size := by
  refine ignores_of_token trails (fun _ _ _ found => (spelled_bounds nonempty found).2) ?_ ?_
  · intro text vacant
    rw [spelled, List.find?_eq_none.mpr]
    intro a _ starts
    cases letters : spelling a with
    | nil => exact nonempty a letters
    | cons c more =>
      rw [letters] at starts
      obtain ⟨rest, whole⟩ := List.isPrefixOf_iff_prefix.mp starts
      apply vacant.first?_ne (dense a c (letters ▸ List.mem_cons_self)).2
      rw [first?, ← whole]
      rfl
  · intro text solid
    have behind : ∀ a, (spelling a).isPrefixOf (skipBlanks text ++ trailer) =
        (spelling a).isPrefixOf (skipBlanks text) :=
      fun a => trails.isPrefixOf_append (dense a) _
    simp only [spelled, skipBlanks_append solid, indent_append solid, behind]

theorem operator_ignores (trails : Trailer trailer) : operator.Ignores trailer size :=
  spelled_ignores trails (by intro op; cases op <;> decide) (by intro op; cases op <;> decide)

theorem comparator_ignores (trails : Trailer trailer) : comparator.Ignores trailer size :=
  spelled_ignores trails (by intro c; cases c <;> decide) (by intro c; cases c <;> decide)

theorem combiner_ignores (trails : Trailer trailer) : combiner.Ignores trailer size :=
  spelled_ignores trails (by intro c; cases c <;> decide) (by intro c; cases c <;> decide)

theorem word_ignores (trails : Trailer trailer) : word.Ignores trailer size := by
  refine ignores_of_token trails (fun text _ _ => (word_answers text).length_le) ?_ ?_
  · intro text vacant
    rw [word]
    rcases vacant.skipBlanks with nothing | ⟨rest, comment⟩
    · rw [nothing]
      rfl
    · rw [comment]
      rfl
  · intro text solid
    rw [word, word, skipBlanks_append solid, indent_append solid,
      trails.takeWhile_append isAlphanum_of_isAlpha]

theorem numeral_append (trails : Trailer trailer) (taken : Nat) (negative : Bool)
    (body : List Char) :
    numeral taken negative (body ++ trailer) = numeral taken negative body := by
  rw [numeral, numeral, trails.takeWhile_append isAlphanum_of_isDigit]

theorem integer_ignores (trails : Trailer trailer) : integer.Ignores trailer size := by
  refine ignores_of_token trails (fun text _ _ => (integer_answers text).length_le) ?_ ?_
  · intro text vacant
    rw [integer]
    rcases vacant.skipBlanks with nothing | ⟨rest, comment⟩
    · rw [nothing]
      rfl
    · rw [comment]
      rfl
  · intro text solid
    rw [integer, integer, skipBlanks_append solid, indent_append solid]
    cases body : skipBlanks text with
    | nil => exact absurd body solid
    | cons d rest =>
      by_cases minus : d = '-'
      · subst minus
        exact numeral_append trails _ _ rest
      · have plain := numeral_append trails (indent text) false (d :: rest)
        rw [List.cons_append] at plain ⊢
        simpa [minus] using plain

theorem opensWith_append {literal : List Char} (trails : Trailer trailer) (dense : Dense literal)
    (text : List Char) :
    opensWith strict literal (text ++ trailer) = opensWith strict literal text := by
  rw [opensWith, opensWith, trails.isPrefixOf_append dense]
  cases found : literal.isPrefixOf text with
  | false => rfl
  | true =>
    have long := (List.isPrefixOf_iff_prefix.mp found).length_le
    rw [List.drop_append_of_le_length long]
    cases text.drop literal.length with
    | cons d rest => rfl
    | nil => rw [List.nil_append, trails.head?_any isAlphanum_of_isAlpha]; rfl

end Lexeme

namespace Matcher

variable {α : Type} {trailer : List Char} {size : Nat} {m : Matcher α}

/-- What is between parentheses is shorter than the text. -/
theorem between_ignores (trails : Trailer trailer)
    (inner : ∀ less < size, m.Ignores trailer less) : (between m).Ignores trailer size := by
  intro text short
  apply ignores_andThen (symbol_ignores trails (by decide))
  intro c n opened
  have bounds := symbol_bounds opened
  have inside : m.Ignores trailer (text.length - n) := inner _ (by omega)
  exact inside.andThen fun a => (symbol_ignores trails (by decide)).map fun _ => a

end Matcher

namespace Expr
open Matcher

variable {trailer : List Char} {size : Nat}

theorem value_ignores (trails : Trailer trailer) : value.Ignores trailer size :=
  ((integer_ignores trails).map _).orElse ((word_ignores trails).map _)

theorem atom_ignores_of (trails : Trailer trailer)
    (inner : ∀ less < size, Matcher.Ignores expression trailer less) :
    Matcher.Ignores atom trailer size := by
  rw [atom_eq_orElse]
  exact (between_ignores trails inner).orElse (value_ignores trails)

theorem expression_ignores_of (trails : Trailer trailer)
    (operand : Matcher.Ignores atom trailer size) : Matcher.Ignores expression trailer size := by
  rw [expression_eq_orElse]
  have operation := operand.andThen fun left =>
    (operator_ignores trails).andThen fun op => operand.map (Expr.binary left op)
  exact operation.orElse operand

/-- By induction on the size of the text, since a parenthesis holds an expression again. -/
theorem expression_ignores (trails : Trailer trailer) (size : Nat) :
    Matcher.Ignores expression trailer size := by
  induction size using Nat.strongRecOn with
  | ind size inner => exact expression_ignores_of trails (atom_ignores_of trails inner)

theorem atom_ignores (trails : Trailer trailer) (size : Nat) :
    Matcher.Ignores atom trailer size :=
  atom_ignores_of trails fun less _ => expression_ignores trails less

end Expr

namespace Cond
open Matcher

variable {trailer : List Char} {size : Nat}

theorem comparison_ignores (trails : Trailer trailer) : comparison.Ignores trailer size := by
  have operand := Expr.atom_ignores trails size
  exact operand.andThen fun left => (comparator_ignores trails).andThen fun c => operand.map _

theorem logic_ignores (trails : Trailer trailer) (size : Nat) :
    Matcher.Ignores logic trailer size := by
  induction size using Nat.strongRecOn with
  | ind size inner =>
    have group : (between logic).Ignores trailer size := between_ignores trails inner
    rw [logic_eq_firstOf]
    apply ignores_firstOf
    simp only [List.forall_mem_cons, List.not_mem_nil, false_implies, implies_true, and_true]
    refine ⟨?_, ?_, comparison_ignores trails, group⟩
    · exact (symbol_ignores trails (by decide)).andThen fun _ => group.map _
    · exact group.andThen fun _ => (combiner_ignores trails).andThen fun _ => group.map _

end Cond

/-- What is read where a matcher makes `outcome` of a line. How much it takes does not matter. -/
def Outcome.reading {α : Type} : Outcome α → Except Instruction.Overlong (Option α)
  | matched a _ => .ok (some a)
  | refused => .ok none
  | overlong digits => .error ⟨digits⟩

section Reading

variable {α β : Type} {text text' : List Char}

theorem reading_orElse {first first' : Outcome α} {other other' : Unit → Outcome α}
    (same : first'.reading = first.reading)
    (same' : (other' ()).reading = (other ()).reading) :
    (first'.orElse other').reading = (first.orElse other).reading := by
  cases first with
  | matched a n =>
    cases first' with
    | matched b k => exact same
    | refused | overlong d => cases same
  | refused =>
    cases first' with
    | refused => exact same'
    | matched b k | overlong d => cases same
  | overlong e =>
    cases first' with
    | overlong d => exact same
    | matched b k | refused => cases same

theorem reading_andThen (a : α) (n : Nat) (text : List Char) (next : α → Matcher β) :
    ((Outcome.matched a n).andThen text next).reading = (next a (text.drop n)).reading := by
  rw [Outcome.andThen]
  cases next a (text.drop n) <;> rfl

theorem reading_append {trailer : List Char} {m : Matcher α} {next : α → Matcher β}
    (first : m.Ignores trailer text.length)
    (later : ∀ a n, (next a (text.drop n ++ trailer)).reading = (next a (text.drop n)).reading) :
    (m.andThen next (text ++ trailer)).reading = (m.andThen next text).reading := by
  obtain ⟨same, within⟩ := first text (Nat.le_refl _)
  rw [Matcher.andThen, Matcher.andThen, same]
  cases found : m text with
  | matched a n =>
    have inside : n ≤ text.length := within a n found
    rw [reading_andThen, reading_andThen, List.drop_append_of_le_length inside, later]
  | refused => rfl
  | overlong d => rfl

theorem reading_firstOf {ms : List (Matcher α)}
    (each : ∀ m ∈ ms, (m text').reading = (m text).reading) :
    (Matcher.firstOf ms text').reading = (Matcher.firstOf ms text).reading := by
  induction ms with
  | nil => rfl
  | cons m others ih =>
    rw [firstOf_cons, firstOf_cons]
    apply reading_orElse (each m List.mem_cons_self)
    exact ih fun m inside => each m (List.mem_cons_of_mem _ inside)

end Reading

namespace Lexeme

variable {text blanks trailer : List Char}

theorem endOfLine_isMatched_iff (oneLine : '\n' ∉ text) :
    (endOfLine text).isMatched = true ↔ Vacant text := by
  constructor
  · intro ends
    cases first : first? text with
    | none => exact Or.inl first
    | some c =>
      by_cases comment : c = '#'
      · rw [comment] at first
        exact Or.inr first
      · rw [endOfLine_refuses first comment] at ends
        cases ends
  · intro vacant
    rw [endOfLine]
    rcases vacant.skipBlanks with nothing | ⟨rest, comment⟩
    · rw [nothing]
      rfl
    · have all : rest.takeWhile (· ≠ '\n') = rest := by
        rw [List.takeWhile_eq_self_iff]
        intro c inside
        rw [decide_eq_true_eq]
        rintro rfl
        apply oneLine
        rw [← takeWhile_append_skipBlanks text, comment]
        exact List.mem_append_right _ (List.mem_cons_of_mem _ inside)
      rw [comment, Lexeme.comment, all, List.drop_length]
      rfl

theorem vacant_append_iff (trails : Trailer trailer) :
    Vacant (text ++ trailer) ↔ Vacant text := by
  by_cases blank : skipBlanks text = []
  · exact iff_of_true (trails.vacant_append blank) (vacant_of_skipBlanks blank)
  · have same : first? (text ++ trailer) = first? text := by
      rw [first?, skipBlanks_append blank, List.head?_append_of_ne_nil _ blank, first?]
    rw [Vacant, Vacant, same]

theorem endOfLine_append (trails : Trailer trailer) (oneLine : '\n' ∉ text) :
    (endOfLine (text ++ trailer)).isMatched = (endOfLine text).isMatched := by
  have whole : '\n' ∉ text ++ trailer := by
    rw [List.mem_append, not_or]
    exact ⟨oneLine, trails.oneLine⟩
  rw [Bool.eq_iff_iff, endOfLine_isMatched_iff whole, endOfLine_isMatched_iff oneLine,
    vacant_append_iff trails]

theorem endOfLine_blanks (blank : ∀ c ∈ blanks, isBlank c = true) (text : List Char) :
    (endOfLine (blanks ++ text)).isMatched = (endOfLine text).isMatched := by
  rw [endOfLine, endOfLine, skipBlanks_blanks blank]
  split <;> rfl

theorem reading_endOfLine {α : Type} (a : α) (text : List Char) :
    (endOfLine.map (fun _ => a) text).reading =
      .ok (if (endOfLine text).isMatched then some a else none) := by
  rw [Matcher.map]
  cases ending : endOfLine text with
  | matched remark n => rfl
  | refused => rfl
  | overlong d =>
    rw [endOfLine] at ending
    split at ending <;> cases ending

end Lexeme

namespace Instruction
open Matcher

variable {strict : Bool} {k : Kind} {name : String} {text text' blanks trailer : List Char}
variable {size : Nat}

theorem operands_ignores (k : Kind) (trails : Trailer trailer) :
    (operands k).Ignores trailer size := by
  cases k with
  | move | rotate => exact (Expr.expression_ignores trails size).map _
  | conditional | loop => exact (Cond.logic_ignores trails size).map _
  | set =>
    exact (word_ignores trails).andThen fun _ => (Expr.expression_ignores trails size).map _
  | lift | place | close | blank => exact ignores_succeed _

theorem tail_append (k : Kind) (trails : Trailer trailer) (oneLine : '\n' ∉ text) :
    (tail k (text ++ trailer)).reading = (tail k text).reading := by
  apply reading_append (operands_ignores k trails)
  intro i n
  have rest : '\n' ∉ text.drop n := fun feed => oneLine (List.mem_of_mem_drop feed)
  rw [reading_endOfLine, reading_endOfLine, endOfLine_append trails rest]

theorem Kind.dense_of_mem (listed : name ∈ k.keywords) : Dense name.toList := by
  have each : ∀ name ∈ k.keywords, Dense name.toList := by cases k <;> decide
  exact each name listed

theorem keyword_ignores (listed : name ∈ k.keywords) (trails : Trailer trailer) :
    (keyword strict name.toList).Ignores trailer size := by
  have dense := Kind.dense_of_mem listed
  obtain ⟨c, rest, letters, -, visible⟩ := Kind.initial_of_mem listed
  rw [letters] at dense ⊢
  refine ignores_of_token trails ?_ ?_ ?_
  · intro text literal n found
    rw [keyword_eq visible] at found
    split at found
    · rename_i opens
      cases found
      rw [opensWith, Bool.and_eq_true] at opens
      have part := (List.isPrefixOf_iff_prefix.mp opens.1).length_le
      have whole := indent_add_length_skipBlanks text
      omega
    · cases found
  · intro text vacant
    exact keyword_refuses visible (vacant.first?_ne (dense c List.mem_cons_self).2)
  · intro text solid
    rw [keyword_eq visible, keyword_eq visible, skipBlanks_append solid, indent_append solid,
      opensWith_append trails dense]

theorem form_append (listed : name ∈ k.keywords) (trails : Trailer trailer)
    (oneLine : '\n' ∉ text) :
    (form strict k name (text ++ trailer)).reading = (form strict k name text).reading := by
  apply reading_append (keyword_ignores listed trails)
  intro _ n
  exact tail_append k trails fun feed => oneLine (List.mem_of_mem_drop feed)

theorem form_blanks (listed : name ∈ k.keywords) (blank : ∀ c ∈ blanks, isBlank c = true)
    (text : List Char) :
    (form strict k name (blanks ++ text)).reading = (form strict k name text).reading := by
  obtain ⟨c, rest, letters, -, visible⟩ := Kind.initial_of_mem listed
  rw [form, Matcher.andThen, Matcher.andThen, letters, keyword_eq visible, keyword_eq visible,
    skipBlanks_blanks blank, indent_blanks blank]
  split
  · rw [reading_andThen, reading_andThen, Nat.add_assoc, List.drop_length_add_append]
  · rfl

theorem tail_blank : tail .blank = endOfLine.map fun _ => .blank := succeed_andThen _ _

theorem Kind.eq_blank (none : k.keywords = []) : k = .blank := by
  cases k with
  | blank => rfl
  | move | rotate | lift | place | set | conditional | loop | close => cases none

/-- Two texts are read alike if every keyword finds the same in them, and so does the blank line. -/
theorem reading_any
    (worded : ∀ k, ∀ name ∈ k.keywords,
      (form strict k name text').reading = (form strict k name text).reading)
    (bare : (tail .blank text').reading = (tail .blank text).reading) :
    (any strict text').reading = (any strict text).reading := by
  apply reading_firstOf
  intro m inside
  obtain ⟨k, -, rfl⟩ := List.mem_map.mp inside
  by_cases none : k.keywords = []
  · rw [ofKind, none]
    rwa [Kind.eq_blank none]
  · rw [ofKind_eq_firstOf none]
    apply reading_firstOf
    intro m inside
    obtain ⟨name, listed, rfl⟩ := List.mem_map.mp inside
    exact worded k name listed

theorem parse?_eq_reading (strict : Bool) (line : String) :
    parse? strict line = (any strict line.toList).reading := by
  rw [parse?]
  cases any strict line.toList <;> rfl

theorem parse?_append {line after : String} (trails : Trailer after.toList)
    (oneLine : '\n' ∉ line.toList) : parse? strict (line ++ after) = parse? strict line := by
  rw [parse?_eq_reading, parse?_eq_reading, String.toList_append]
  apply reading_any
  · intro k name listed
    exact form_append listed trails oneLine
  · exact tail_append .blank trails oneLine

theorem parse?_blanks {before line : String} (blank : ∀ c ∈ before.toList, isBlank c = true) :
    parse? strict (before ++ line) = parse? strict line := by
  rw [parse?_eq_reading, parse?_eq_reading, String.toList_append]
  apply reading_any
  · intro k name listed
    exact form_blanks listed blank line.toList
  · rw [tail_blank, reading_endOfLine, reading_endOfLine, endOfLine_blanks blank]

theorem parse?_annotated {before line after remark : String}
    (blankBefore : ∀ c ∈ before.toList, isBlank c = true) (oneLine : '\n' ∉ line.toList)
    (blankAfter : ∀ c ∈ after.toList, isBlank c = true ∧ c ≠ '\n')
    (oneLineRemark : '\n' ∉ remark.toList) :
    parse? strict (before ++ line ++ after ++ "#" ++ remark) = parse? strict line := by
  have trails : Trailer (after ++ "#" ++ remark).toList := by
    rw [String.toList_append, String.toList_append, List.append_assoc]
    exact .of_comment blankAfter oneLineRemark
  have split : before ++ line ++ after ++ "#" ++ remark =
      before ++ (line ++ (after ++ "#" ++ remark)) := by
    simp only [String.append_assoc]
  rw [split, parse?_blanks blankBefore, parse?_append trails oneLine]

theorem oneLine_text {i : Instruction} (well : i.WellFormed) : '\n' ∉ i.text.toList := by
  rw [text, String.toList_ofList]
  exact fun feed => ((legible_write well).unbroken _ feed).1 rfl

end Instruction

/-- Blanks before and behind a line, and a comment behind it, change nothing: the line holds the
same instruction as without them, or still holds none, or still has the numeral in it that is too
long. So the canonical text of an instruction is read in every layout. -/
theorem layout_ignored (strict : Bool) {before line after remark : String}
    (blankBefore : ∀ c ∈ before.toList, isBlank c = true) (oneLine : '\n' ∉ line.toList)
    (blankAfter : ∀ c ∈ after.toList, isBlank c = true ∧ c ≠ '\n')
    (oneLineRemark : '\n' ∉ remark.toList) :
    Instruction.parse? strict (before ++ line ++ after) = Instruction.parse? strict line ∧
      Instruction.parse? strict (before ++ line ++ after ++ "#" ++ remark) =
        Instruction.parse? strict line ∧
      ∀ i : Instruction, i.WellFormed →
        Instruction.parse? strict (before ++ i.text ++ after ++ "#" ++ remark) = .ok (some i) := by
  refine ⟨?_, Instruction.parse?_annotated blankBefore oneLine blankAfter oneLineRemark, ?_⟩
  · rw [String.append_assoc, Instruction.parse?_blanks blankBefore,
      Instruction.parse?_append (.of_blanks blankAfter) oneLine]
  · intro i well
    have oneLineText := Instruction.oneLine_text well
    rw [Instruction.parse?_annotated blankBefore oneLineText blankAfter oneLineRemark,
      Instruction.parse?_text well]

/-- A move is read between wide blanks, before a carriage return and before a comment that holds
another hash sign. -/
theorem annotated_move_read :
    (∀ c ∈ "\u00a0\t".toList, isBlank c = true) ∧ '\n' ∉ "MOVE (1)+(x)".toList ∧
      (∀ c ∈ "\u2003\r".toList, isBlank c = true ∧ c ≠ '\n') ∧
      '\n' ∉ " there # and back".toList ∧
      Instruction.parse? true ("\u00a0\t" ++ "MOVE (1)+(x)" ++ "\u2003\r") =
        .ok (some (.move (.binary (.int 1) .add (.var "x")))) ∧
      Instruction.parse? true
          ("\u00a0\t" ++ "MOVE (1)+(x)" ++ "\u2003\r" ++ "#" ++ " there # and back") =
        .ok (some (.move (.binary (.int 1) .add (.var "x")))) := by
  have before : ∀ c ∈ "\u00a0\t".toList, isBlank c = true := List.all_eq_true.mp (by decide)
  have line : '\n' ∉ "MOVE (1)+(x)".toList := by decide
  have after : ∀ c ∈ "\u2003\r".toList, isBlank c = true ∧ c ≠ '\n' := by
    have white : "\u2003\r".toList.all isBlank = true := by decide
    have noFeed : '\n' ∉ "\u2003\r".toList := by decide
    exact fun c inside => ⟨List.all_eq_true.mp white c inside, fun feed => noFeed (feed ▸ inside)⟩
  have remark : '\n' ∉ " there # and back".toList := by decide
  have well : (Instruction.move (.binary (.int 1) .add (.var "x"))).WellFormed := by decide
  have text : (Instruction.move (.binary (.int 1) .add (.var "x"))).text = "MOVE (1)+(x)" := by
    decide
  have read := Instruction.parse?_text well true
  rw [text] at read
  obtain ⟨padded, -, annotated⟩ := layout_ignored true before line after remark
  have canonical := annotated _ well
  rw [text] at canonical
  exact ⟨before, line, after, remark, padded.trans read, canonical⟩

end TurtleGraphics
