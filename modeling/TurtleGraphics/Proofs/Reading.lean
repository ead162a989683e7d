import TurtleGraphics.Proofs.RulesByChoice
import TurtleGraphics.Proofs.StrictKeywords
/-!
How the reading of a script ends.

Either every line holds an instruction, and the program has these instructions in order, or the
first line that does not stops the reading. There are two ways to stop. A line that matches no kind
of instruction is reported with its number and its text. A numeral with too many digits is not: the
failure to read it gets through as it is, even from a line that would not match with a shorter
numeral in its place.
-/
set_option autoImplicit false

namespace TurtleGraphics

open Text Lexeme

namespace Text

theorem length_splitFeeds (text : List Char) : (splitFeeds text).length = text.count '\n' + 1 := by
  fun_induction splitFeeds text with
  | case1 => rfl
  | case2 rest ih => rw [List.length_cons, ih, List.count_cons_self]
  | case3 c rest plain line lines split ih =>
    rw [split] at ih
    rw [List.count_cons_of_ne plain, ← ih]
    rfl
  | case4 c rest plain none ih => exact absurd none (splitFeeds_ne_nil rest)

theorem count_unifyEndings (text : List Char) :
    (unifyEndings text).count '\n' = text.count '\n' := by
  fun_induction unifyEndings text with
  | case1 rest ih =>
    rw [List.count_cons_self, ih, List.count_cons_of_ne (by decide), List.count_cons_self]
  | case2 c rest _ ih => rw [List.count_cons, List.count_cons, ih]
  | case3 => rfl

theorem length_lines (text : String) : (lines text).length = text.toList.count '\n' + 1 := by
  rw [lines, List.length_map, length_splitFeeds, count_unifyEndings]

end Text

namespace Matcher

variable {α β : Type} {m : Matcher α}

/-- A numeral that is too long stops `m` only where there is one. -/
def Unstopped (m : Matcher α) : Prop := ∀ text, Readable text → ∀ d, m text ≠ .overlong d

theorem Unstopped.map (unstopped : m.Unstopped) (f : α → β) : (m.map f).Unstopped := by
  intro text readable d stopped
  rw [Matcher.map] at stopped
  cases result : m text with
  | overlong e => exact unstopped text readable e result
  | matched a n =>
    rw [result] at stopped
    cases stopped
  | refused =>
    rw [result] at stopped
    cases stopped

theorem Unstopped.andThen {next : α → Matcher β} (unstopped : m.Unstopped)
    (later : ∀ a, (next a).Unstopped) : (m.andThen next).Unstopped := by
  intro text readable d stopped
  rw [Matcher.andThen] at stopped
  cases result : m text with
  | overlong e => exact unstopped text readable e result
  | matched a n =>
    have rest : Readable (text.drop n) := readable.of_infix (List.drop_suffix n text).isInfix
    rw [result, Outcome.andThen] at stopped
    cases following : next a (text.drop n) with
    | overlong e => exact later a _ rest e following
    | matched b k =>
      rw [following] at stopped
      cases stopped
    | refused =>
      rw [following] at stopped
      cases stopped
  | refused =>
    rw [result] at stopped
    cases stopped

theorem unstopped_firstOf {ms : List (Matcher α)} (each : ∀ m ∈ ms, m.Unstopped) :
    (firstOf ms).Unstopped := by
  induction ms with
  | nil => nofun
  | cons first others ih =>
    intro text readable d stopped
    rw [firstOf_cons] at stopped
    cases result : first text with
    | overlong e => exact each first List.mem_cons_self text readable e result
    | matched a n =>
      rw [result] at stopped
      cases stopped
    | refused =>
      rw [result] at stopped
      exact ih (fun m inside => each m (List.mem_cons_of_mem first inside)) text readable d stopped

theorem unstopped_of_answers {Reads : List Char → α → Prop}
    (answers : ∀ text, (m text).Answers Reads text) : m.Unstopped :=
  fun text readable => (answers text).ne_overlong readable

end Matcher

namespace Lexeme

theorem keyword_unstopped (strict : Bool) (literal : List Char) :
    (keyword strict literal).Unstopped := by
  intro text _ d stopped
  rw [keyword] at stopped
  split at stopped <;> cases stopped

theorem endOfLine_unstopped : endOfLine.Unstopped := by
  intro text _ d stopped
  rw [endOfLine] at stopped
  split at stopped <;> cases stopped

end Lexeme

namespace Instruction

variable {strict : Bool}

theorem operands_unstopped (k : Kind) : (operands k).Unstopped := by
  have expressions : Matcher.Unstopped Expr.expression :=
    Matcher.unstopped_of_answers Expr.expression_answers
  have conditions : Matcher.Unstopped Cond.logic := Matcher.unstopped_of_answers Cond.logic_answers
  cases k with
  | move | rotate => exact expressions.map _
  | conditional | loop => exact conditions.map _
  | set =>
    have names : word.Unstopped := Matcher.unstopped_of_answers word_answers
    exact names.andThen fun _ => expressions.map _
  | lift | place | close | blank => nofun

theorem tail_unstopped (k : Kind) : (tail k).Unstopped :=
  (operands_unstopped k).andThen fun _ => endOfLine_unstopped.map _

theorem ofKind_unstopped (k : Kind) : (ofKind strict k).Unstopped := by
  by_cases bare : k.keywords = []
  · rw [ofKind, bare]
    exact tail_unstopped k
  · rw [ofKind_eq_firstOf bare]
    apply Matcher.unstopped_firstOf
    intro m inside
    obtain ⟨name, _, rfl⟩ := List.mem_map.mp inside
    exact (keyword_unstopped strict _).andThen fun _ => tail_unstopped k

theorem any_unstopped : (any strict).Unstopped := by
  apply Matcher.unstopped_firstOf
  intro m inside
  obtain ⟨k, _, rfl⟩ := List.mem_map.mp inside
  exact ofKind_unstopped k

theorem not_readable_of_parse? {line : String} {d : Nat}
    (stopped : parse? strict line = .error ⟨d⟩) : ¬Readable line.toList := by
  intro readable
  rw [parse?] at stopped
  cases result : any strict line.toList with
  | overlong e => exact any_unstopped _ readable e result
  | matched i n =>
    rw [result] at stopped
    cases stopped
  | refused =>
    rw [result] at stopped
    cases stopped

end Instruction

namespace Script

variable {strict : Bool} {number : Nat} {lines : List String}

/-- Why the reading stops at the line with the number `number`. -/
inductive Stops (strict : Bool) (number : Nat) (line : String) : Fault → Prop where
  | badLine (unread : Instruction.parse? strict line = .ok none) :
      Stops strict number line (.badLine ⟨number, line⟩)
  | overlong {digits : Nat} (long : ¬Readable line.toList)
      (unread : Instruction.parse? strict line = .error ⟨digits⟩) :
      Stops strict number line (.overlong digits)

/-- What becomes of a script: a program of all lines, or a failure at the first line that holds no
instruction. -/
inductive Reading (strict : Bool) (text : String) : Except Fault (Program Instruction) → Prop where
  | complete {p : Program Instruction} (size : p.size = text.toList.count '\n' + 1)
      (source : ∀ k < p.size, p.sourceLine? Instruction.text k = (Text.lines text)[k]?)
      (each : List.Forall₂ (fun line i => Instruction.parse? strict line = .ok (some i))
        (Text.lines text) p.instructions) : Reading strict text (.ok p)
  | stopped {k : Nat} {line : String} {fault : Fault} (here : (Text.lines text)[k]? = some line)
      (before : ∀ earlier ∈ (Text.lines text).take k,
        ∃ i, Instruction.parse? strict earlier = .ok (some i))
      (stops : Stops strict (k + 1) line fault) : Reading strict text (.error fault)

/-- The first line without an instruction is the one that stops the reading. -/
theorem exists_stop_of_parseLines {fault : Fault}
    (failure : parseLines strict number lines = .error fault) :
    ∃ k line, lines[k]? = some line ∧
      (∀ earlier ∈ lines.take k, ∃ i, Instruction.parse? strict earlier = .ok (some i)) ∧
      Stops strict (number + k) line fault := by
  induction lines generalizing number with
  | nil => cases failure
  | cons line rest ih =>
    rw [parseLines] at failure
    split at failure
    · rename_i e unread
      cases failure
      have long := Instruction.not_readable_of_parse? unread
      exact ⟨0, line, rfl, by simp, .overlong long unread⟩
    · rename_i unread
      cases failure
      exact ⟨0, line, rfl, by simp, .badLine unread⟩
    · rename_i i found
      split at failure
      · cases failure
      · rename_i e later
        -- the rest has stopped, with its lines numbered from one more
        cases failure
        obtain ⟨k, stop, here, before, stops⟩ := ih later
        refine ⟨k + 1, stop, here, ?_, ?_⟩
        · intro earlier inside
          rw [List.take_succ_cons] at inside
          rcases List.mem_cons.mp inside with rfl | inside
          · exact ⟨i, found⟩
          · exact before earlier inside
        · rwa [Nat.add_right_comm, Nat.add_assoc] at stops

theorem sourceLine?_of_lt {p : Program Instruction} {k : Nat} (inside : k < p.lines.length) :
    p.sourceLine? Instruction.text k = p.lines[k]? := by
  rw [Program.sourceLine?, if_pos (by omega), Program.at?, if_pos (by omega), Int.toNat_natCast]

theorem reading_of_program {text : String} {p : Program Instruction}
    (success : parse strict text = .ok p) : Reading strict text (.ok p) := by
  obtain ⟨lines, each⟩ := parse_ok_iff.mp success
  have size : p.size = (Text.lines text).length := each.length_eq.symm
  refine .complete (size.trans (length_lines text)) ?_ each
  intro k inside
  rw [← lines]
  apply sourceLine?_of_lt
  rw [lines, ← size]
  exact inside

theorem reading_of_fault {text : String} {fault : Fault}
    (failure : parse strict text = .error fault) : Reading strict text (.error fault) := by
  rw [parse] at failure
  cases result : parseLines strict 1 (Text.lines text) with
  | ok is =>
    rw [result] at failure
    cases failure
  | error e =>
    rw [result] at failure
    cases failure
    obtain ⟨k, line, here, before, stops⟩ := exists_stop_of_parseLines result
    rw [Nat.add_comm] at stops
    exact .stopped here before stops

/-- Reading a script ends in one of the ways of `Reading`, and nothing else goes wrong in it: the
choices of the grammar come to a tree, to nothing or to a numeral that is too long on every text
that they can be tried on. -/
theorem parse_ends_in_reading (strict : Bool) (text : String) :
    Reading strict text (parse strict text) ∧ ∀ rest : List Char, Tree.ByChoice strict rest := by
  refine ⟨?_, Tree.byChoice strict⟩
  cases result : parse strict text with
  | ok p => exact reading_of_program result
  | error fault => exact reading_of_fault result

end Script

section Overlong

variable {digits start rest : List Char}

theorem integer_overlong (token : Padded digits start) (decimal : ∀ c ∈ digits, c.isDigit = true)
    (long : Numeral.maxDigits < digits.length) (breaks : Breaks rest) :
    integer (start ++ rest) = .overlong digits.length := by
  have some : digits ≠ [] := by
    rintro rfl
    cases long
  have run : (digits ++ rest).takeWhile Char.isDigit = digits := by
    rw [List.takeWhile_append_of_pos decimal, takeWhile_of_breaks isAlphanum_of_isDigit breaks,
      List.append_nil]
  rw [integer_eq_numeral token some decimal, numeral, run]
  dsimp only
  rw [if_neg (by simpa using some), if_pos long]

theorem expression_overlong (token : Padded digits start) (decimal : ∀ c ∈ digits, c.isDigit = true)
    (long : Numeral.maxDigits < digits.length) (breaks : Breaks rest) :
    Expr.expression (start ++ rest) = .overlong digits.length := by
  have number := integer_overlong token decimal long breaks
  have value : Expr.value (start ++ rest) = .overlong digits.length := by
    rw [Expr.value, Matcher.orElse, Matcher.map, number]
    rfl
  have closed : openParen (start ++ rest) = .refused := by
    apply symbol_refuses
    cases digits with
    | nil => cases long
    | cons c tail =>
      have digit := decimal c List.mem_cons_self
      rw [token.first?_append (isBlank_of_isAlphanum (isAlphanum_of_isDigit c digit))]
      rintro ⟨⟩
      cases digit
  rw [Expr.expression_eq, Expr.atom_eq, closed, value]

namespace Instruction

/-- What stops an operand of a move stops the line. -/
theorem parse?_move_overlong {strict : Bool} {text : List Char} {d : Nat}
    (stopped : Expr.expression (' ' :: text) = .overlong d) :
    parse? strict (String.ofList ("MOVE".toList ++ ' ' :: text)) = .error ⟨d⟩ := by
  have operand : tail .move (' ' :: text) = .overlong d := by
    rw [tail, Matcher.andThen, operands, Matcher.map, stopped]
    rfl
  have word : keyword strict "MOVE".toList ("MOVE".toList ++ ' ' :: text) =
      .matched "MOVE".toList "MOVE".toList.length := by
    apply keyword_append (by decide)
    rintro c ⟨⟩
    decide
  have long : form strict .move "MOVE" ("MOVE".toList ++ ' ' :: text) = .overlong d := by
    rw [form, Matcher.andThen, word, Outcome.andThen, List.drop_left, operand]
  have kind : leadingKind ("MOVE".toList ++ ' ' :: text) = .move :=
    leadingKind_eq (by decide) rfl
  rw [parse?, String.toList_ofList, any_eq, kind, ofKind_eq_firstOf (by decide), Kind.keywords,
    List.map_cons, firstOf_cons, long]
  rfl

end Instruction

end Overlong

namespace Script

theorem unbroken_append {line more : List Char} (unbroken : Unbroken line)
    (unbroken' : Unbroken more) : Unbroken (line ++ more) := by
  intro c inside
  rcases List.mem_append.mp inside with here | there
  · exact unbroken c here
  · exact unbroken' c there

theorem unbroken_digits {digits : List Char} (decimal : ∀ c ∈ digits, c.isDigit = true) :
    Unbroken digits := by
  intro c inside
  have digit := decimal c inside
  constructor <;>
  · rintro rfl
    cases digit

theorem parse_of_unbroken {strict : Bool} {line : String} {d : Nat}
    (unbroken : Unbroken line.toList) (unread : Instruction.parse? strict line = .error ⟨d⟩) :
    parse strict line = .error (.overlong d) := by
  rw [parse, lines_of_unbroken unbroken, parseLines, unread]

/-- A script of one line, a move by a number with the given digits and whatever follows. -/
def moveBy (digits rest : List Char) : String :=
  String.ofList ("MOVE".toList ++ ' ' :: (digits ++ rest))

/-- A move by a number with too many digits gets past the errors of the language, whether or not
the line could be read with a shorter number. -/
theorem parse_moveBy_overlong (strict : Bool) {digits rest : List Char}
    (decimal : ∀ c ∈ digits, c.isDigit = true) (long : Numeral.maxDigits < digits.length)
    (breaks : Breaks rest) (unbroken : Unbroken rest) :
    parse strict (moveBy digits rest) = .error (.overlong digits.length) := by
  have oneLine : Unbroken (moveBy digits rest).toList := by
    have word : Unbroken "MOVE".toList := (legible_marks (by decide)).unbroken
    have blank : Unbroken [' '] := (legible_marks (by decide)).unbroken
    have letters : (moveBy digits rest).toList = "MOVE".toList ++ ' ' :: (digits ++ rest) :=
      String.toList_ofList
    rw [letters]
    apply unbroken_append word
    exact unbroken_append blank (unbroken_append (unbroken_digits decimal) unbroken)
  have operand : Expr.expression (' ' :: (digits ++ rest)) = .overlong digits.length :=
    expression_overlong (Padded.refl digits).spaced decimal long breaks
  exact parse_of_unbroken oneLine (Instruction.parse?_move_overlong operand)

/-- A move by a number of 4301 digits, and another number behind it, which no instruction takes. -/
def overlongMove : String := moveBy (List.replicate 4301 '1') " 20".toList

theorem parse_overlongMove (strict : Bool) :
    parse strict overlongMove = .error (.overlong 4301) := by
  have digits : ∀ c ∈ List.replicate 4301 '1', c.isDigit = true := by
    intro c inside
    rw [List.eq_of_mem_replicate inside]
    rfl
  have long : Numeral.maxDigits < (List.replicate 4301 '1').length := by
    rw [List.length_replicate]
    decide
  have breaks : Breaks " 20".toList := by
    rintro c ⟨⟩
    decide
  have unbroken : Unbroken " 20".toList := by
    have blank : Unbroken [' '] := (legible_marks (by decide)).unbroken
    have number : Unbroken ['2', '0'] := by
      intro c inside
      have listed : c = '2' ∨ c = '0' := by simpa using inside
      rcases listed with rfl | rfl <;> decide
    exact unbroken_append blank number
  have failure := parse_moveBy_overlong strict digits long breaks unbroken
  rwa [List.length_replicate] at failure

theorem overlongMove_escapes :
    ¬∀ (strict : Bool) (text : String),
      (∃ p, parse strict text = .ok p) ∨ ∃ e, parse strict text = .error (.badLine e) := by
  intro always
  have escapes := parse_overlongMove false
  rcases always false overlongMove with ⟨p, read⟩ | ⟨e, reported⟩
  · rw [escapes] at read
    cases read
  · rw [escapes] at reported
    cases reported

end Script

end TurtleGraphics
