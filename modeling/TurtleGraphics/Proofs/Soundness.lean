import TurtleGraphics.Expr.Parser
import TurtleGraphics.Proofs.Grammar
/-!
Soundness of the matchers for expressions and conditions: what they take is derivable, and its tree
is well formed.

A matcher that is true to every text stays so when it is mapped, put in sequence or made an
alternative. The rules are recursive, and a rule only ever goes on with a text that is shorter, so
what they take follows by induction on the length of the text.
-/
set_option autoImplicit false

namespace TurtleGraphics

open Text Lexeme

namespace Outcome.Answers

variable {α β : Type} {Reads : List Char → α → Prop} {Reads' : List Char → β → Prop}
  {text rest : List Char} {outcome : Outcome α}

theorem ne_overlong (answers : outcome.Answers Reads text) (readable : Readable text) (d : Nat) :
    outcome ≠ .overlong d := by
  rintro rfl
  cases answers with
  | overlong long => exact long readable

theorem exists_of_matched {a : α} {n : Nat} (answers : outcome.Answers Reads text)
    (success : outcome = .matched a n) :
    ∃ start rest, text = start ++ rest ∧ n = start.length ∧ Reads start a := by
  subst success
  cases answers with
  | matched split reads => exact ⟨_, _, split, rfl, reads⟩

theorem map (answers : outcome.Answers Reads text) {f : α → β}
    (reads : ∀ start a, Reads start a → Reads' start (f a)) :
    (outcome.map f).Answers Reads' text := by
  cases answers with
  | matched split read => exact .matched split (reads _ _ read)
  | refused => exact .refused
  | overlong long => exact .overlong long

theorem imp {Weaker : List Char → α → Prop} (answers : outcome.Answers Reads text)
    (reads : ∀ start a, Reads start a → Weaker start a) : outcome.Answers Weaker text := by
  cases answers with
  | matched split read => exact .matched split (reads _ _ read)
  | refused => exact .refused
  | overlong long => exact .overlong long

theorem orElse (answers : outcome.Answers Reads text) {other : Unit → Outcome α}
    (otherwise : (other ()).Answers Reads text) : (outcome.orElse other).Answers Reads text := by
  cases answers with
  | matched split read => exact .matched split read
  | refused => exact otherwise
  | overlong long => exact .overlong long

/-- What is true to the rest of a text is true to the text once what was taken before is counted.
-/
theorem andThen {next : α → Matcher β} (answers : outcome.Answers Reads text)
    (following : ∀ start rest a, text = start ++ rest → Reads start a →
      (next a rest).Answers (fun more b => Reads' (start ++ more) b) rest) :
    (outcome.andThen text next).Answers Reads' text := by
  cases answers with
  | @matched start rest a split read =>
    subst split
    have second := following start rest a rfl read
    rw [Outcome.andThen, List.drop_left]
    cases found : next a rest with
    | matched b k =>
      rw [found] at second
      obtain ⟨more, left, rfl, rfl, reads⟩ := second.exists_of_matched rfl
      dsimp only
      rw [← List.length_append]
      exact .matched (List.append_assoc start more left).symm reads
    | refused => exact .refused
    | overlong d =>
      rw [found] at second
      exact .overlong fun readable => second.ne_overlong readable.right d rfl
  | refused => exact .refused
  | overlong long => exact .overlong long

end Outcome.Answers

namespace Expr

theorem atom_eq (text : List Char) :
    atom text = match openParen text with
      | .matched _ n => closing text n (expression (text.drop n))
      | _ => value text := by
  rw [atom]
  cases openParen text <;> rfl

theorem expression_eq (text : List Char) :
    expression text = match atom text with
      | .matched left n =>
        match operator (text.drop n) with
        | .matched op k =>
          match atom (text.drop (n + k)) with
          | .matched right m => .matched (.binary left op right) (n + k + m)
          | .refused => .matched left n
          | .overlong d => .overlong d
        | _ => .matched left n
      | .refused => .refused
      | .overlong d => .overlong d := by
  rw [expression]
  cases atom text with
  | matched left n =>
    dsimp only
    cases operator (text.drop n) <;> rfl
  | refused => rfl
  | overlong d => rfl

theorem value_answers (text : List Char) :
    (value text).Answers (fun start a => ValueText start a ∧ a.WellFormed) text := by
  have int : (integer.map Expr.int text).Answers
      (fun start a => ValueText start a ∧ a.WellFormed) text :=
    (integer_answers text).map fun _ _ reads => ⟨.int reads.1, reads.2⟩
  have var : (word.map Expr.var text).Answers
      (fun start a => ValueText start a ∧ a.WellFormed) text :=
    (word_answers text).map fun _ _ read => ⟨.var read, read.isWord⟩
  rw [value, Matcher.orElse]
  refine Outcome.Answers.orElse int ?_
  exact var

/-- The end of a parenthesis is true to the text if what it ends is. -/
theorem closing_answers {α : Type} {Reads : List Char → α → Prop} {before opening rest : List Char}
    {inside : Outcome α} (token : Padded ['('] opening) (answers : inside.Answers Reads rest) :
    (closing (before ++ (opening ++ rest)) (before ++ opening).length inside).Answers
      (fun start a => ∃ inner group, start = before ++ group ∧ Reads inner a ∧ Enclosed inner group)
      (before ++ (opening ++ rest)) := by
  cases answers with
  | @matched inner left a split read =>
    subst split
    have shape : before ++ (opening ++ (inner ++ left)) = (before ++ opening ++ inner) ++ left := by
      simp only [List.append_assoc]
    have closes := symbol_answers ')' left
    rw [closing, shape, ← List.length_append, List.drop_left, closeParen]
    cases found : symbol ')' left with
    | matched d k =>
      rw [found] at closes
      obtain ⟨ending, more, rfl, rfl, token'⟩ := closes.exists_of_matched rfl
      dsimp only
      rw [← List.length_append]
      refine .matched (List.append_assoc _ ending more).symm ?_
      refine ⟨inner, opening ++ (inner ++ ending), ?_, read, opening, ending, token, token', rfl⟩
      simp only [List.append_assoc]
    | refused => exact .refused
    | overlong d =>
      rw [found] at closes
      rw [← shape]
      exact .overlong fun readable => closes.ne_overlong readable.right.right.right d rfl
  | refused => exact .refused
  | overlong long => exact .overlong fun readable => long readable.right.right

/-- `text` is derivable from a nonterminal, and its tree is well formed. -/
def Reads (phrase : Phrase) (text : List Char) (a : Expr) : Prop :=
  Derives phrase text a ∧ a.WellFormed

/-- What the matcher for atoms takes is an atom, if the one for expressions is sound on what follows
a parenthesis. -/
theorem atom_reads_of {text : List Char}
    (ih : ∀ rest : List Char, rest.length < text.length →
      (expression rest).Answers (Reads .expression) rest) :
    (atom text).Answers (Reads .atom) text := by
  have values : (value text).Answers (Reads .atom) text :=
    (value_answers text).imp fun _ _ reads => ⟨.value reads.1, reads.2⟩
  rw [atom_eq]
  cases found : openParen text with
  | matched c n =>
    have shorter := (symbol_bounds found).1
    obtain ⟨opening, rest, rfl, rfl, token⟩ := (symbol_answers '(' text).exists_of_matched found
    rw [List.length_append] at ih
    dsimp only
    rw [List.drop_left]
    have closed := @closing_answers _ _ [] _ _ _ token (ih rest (by omega))
    refine closed.imp ?_
    rintro _ a ⟨inner, group, rfl, reads, enclosed⟩
    exact ⟨.parens reads.1 enclosed, reads.2⟩
  | refused => exact values
  | overlong d => exact values

theorem expression_reads_of {text : List Char}
    (ih : ∀ rest : List Char, rest.length ≤ text.length → (atom rest).Answers (Reads .atom) rest) :
    (expression text).Answers (Reads .expression) text := by
  have first := ih text (Nat.le_refl _)
  rw [expression_eq]
  cases found : atom text with
  | matched a n =>
    obtain ⟨left, rest, rfl, rfl, reads⟩ := first.exists_of_matched found
    have alone : (Outcome.matched a left.length).Answers (Reads .expression) (left ++ rest) :=
      .matched rfl ⟨.single reads.1, reads.2⟩
    dsimp only
    rw [List.drop_left]
    cases signed : operator rest with
    | matched op k =>
      obtain ⟨sign, rest, rfl, rfl, token⟩ := (spelled_answers _ _ rest).exists_of_matched signed
      have second := ih rest (by simp only [List.length_append]; omega)
      dsimp only
      rw [← List.append_assoc, ← List.length_append, List.drop_left]
      rw [← List.append_assoc] at alone
      cases found' : atom rest with
      | matched b m =>
        obtain ⟨right, more, rfl, rfl, reads'⟩ := second.exists_of_matched found'
        dsimp only
        rw [← List.length_append]
        refine .matched (List.append_assoc _ right more).symm ?_
        rw [List.append_assoc]
        exact ⟨.binary reads.1 token reads'.1, reads.2, reads'.2⟩
      | refused => exact alone
      | overlong d => exact .overlong fun readable => second.ne_overlong readable.right d found'
    | refused => exact alone
    | overlong d => exact alone
  | refused => exact .refused
  | overlong d => exact .overlong fun readable => first.ne_overlong readable d found

/-- The rules call each other on shorter texts only, and `expression` calls `atom` on its own. -/
theorem reads (text : List Char) :
    (atom text).Answers (Reads .atom) text ∧
      (expression text).Answers (Reads .expression) text := by
  induction size : text.length using Nat.strongRecOn generalizing text with
  | ind n ih =>
    subst size
    have atoms : ∀ rest : List Char, rest.length ≤ text.length →
        (atom rest).Answers (Reads .atom) rest := by
      intro rest bound
      exact atom_reads_of fun left shorter =>
        (ih left.length (Nat.lt_of_lt_of_le shorter bound) left rfl).2
    exact ⟨atoms text (Nat.le_refl _), expression_reads_of atoms⟩

theorem atom_answers (text : List Char) : (atom text).Answers (Derives .atom) text :=
  (reads text).1.imp fun _ _ reads => reads.1

theorem expression_answers (text : List Char) :
    (expression text).Answers (Derives .expression) text :=
  (reads text).2.imp fun _ _ reads => reads.1

end Expr

namespace Cond

open TurtleGraphics.Expr

/-- `text` is derivable from `logic`, and its tree is well formed. -/
def Reads (text : List Char) (a : Cond) : Prop := Derives text a ∧ a.WellFormed

theorem comparison_reads (text : List Char) :
    (comparison text).Answers (fun start a => Compares start a ∧ a.WellFormed) text := by
  rw [comparison, Matcher.andThen]
  refine (Expr.reads text).1.andThen ?_
  intro left rest a _ first
  rw [Matcher.andThen]
  refine Outcome.Answers.andThen (spelled_answers _ _ rest) ?_
  intro sign rest c _ token
  rw [Matcher.map]
  refine (Expr.reads rest).1.map ?_
  intro right b second
  exact ⟨.mk first.1 token second.1, first.2, second.2⟩

/-- The second half of a combination, once the first half `left` has taken `n` characters. -/
def pair (text : List Char) (left : Cond) (n : Nat) : Outcome Cond :=
  match combiner (text.drop n) with
  | .matched c k =>
    match openParen (text.drop (n + k)) with
    | .matched _ m =>
      (closing text (n + k + m) (logic (text.drop (n + k + m)))).map (.combine left c)
    | _ => .refused
  | _ => .refused

/-- The alternatives that do not start with a negation. -/
def unnegated (text : List Char) : Outcome Cond :=
  match openParen text with
  | .matched _ opened =>
    match closing text opened (logic (text.drop opened)) with
    | .matched left n =>
      ((pair text left n).orElse fun _ => comparison text).orElse fun _ => .matched left n
    | .refused => comparison text
    | .overlong d => .overlong d
  | _ => comparison text

theorem logic_eq (text : List Char) :
    logic text = match negator text with
      | .matched _ n =>
        match openParen (text.drop n) with
        | .matched _ k => (closing text (n + k) (logic (text.drop (n + k)))).map .not
        | _ => .refused
      | _ => unnegated text := by
  rw [logic]
  cases negator text with
  | matched c n =>
    dsimp only
    cases openParen (text.drop n) <;> rfl
  | refused | overlong d =>
    dsimp only [unnegated]
    cases openParen text with
    | refused => rfl
    | overlong d => rfl
    | matched d opened =>
      dsimp only
      cases closing text opened (logic (text.drop opened)) with
      | refused => rfl
      | overlong d => rfl
      | matched left n =>
        dsimp only [pair]
        cases combiner (text.drop n) <;> rfl

theorem pair_reads {start rest inner : List Char} {left : Cond} (first : Reads inner left)
    (enclosed : Enclosed inner start)
    (ih : ∀ more : List Char, more.length < rest.length → (logic more).Answers Reads more) :
    (pair (start ++ rest) left start.length).Answers
      (fun whole a => Reads whole a ∧ ∃ sign right c, Padded (Combiner.spelling c) sign ∧
        whole = start ++ (sign ++ right)) (start ++ rest) := by
  rw [pair, List.drop_left]
  cases signed : combiner rest with
  | matched c k =>
    obtain ⟨sign, rest, rfl, rfl, token⟩ := (spelled_answers _ _ rest).exists_of_matched signed
    dsimp only
    rw [← List.append_assoc, ← List.length_append, List.drop_left]
    cases opened : openParen rest with
    | matched d m =>
      have shorter := (symbol_bounds opened).1
      obtain ⟨opening, rest, rfl, rfl, opens⟩ := (symbol_answers '(' rest).exists_of_matched opened
      dsimp only
      have shape : (start ++ sign) ++ (opening ++ rest) = ((start ++ sign) ++ opening) ++ rest :=
        (List.append_assoc _ _ _).symm
      rw [← List.length_append, shape, List.drop_left, ← shape]
      have second := ih rest (by simp only [List.length_append]; omega)
      refine (closing_answers opens second).map ?_
      rintro _ b ⟨inner', group, rfl, reads, enclosed'⟩
      rw [List.append_assoc]
      exact ⟨⟨.combine first.1 enclosed token reads.1 enclosed', first.2, reads.2⟩,
        sign, group, c, token, rfl⟩
    | refused => exact .refused
    | overlong d => exact .refused
  | refused => exact .refused
  | overlong d => exact .refused

theorem unnegated_reads_of {text : List Char}
    (ih : ∀ rest : List Char, rest.length < text.length → (logic rest).Answers Reads rest) :
    (unnegated text).Answers Reads text := by
  have comparisons : (comparison text).Answers Reads text :=
    (comparison_reads text).imp fun _ _ reads => ⟨.compare reads.1, reads.2⟩
  rw [unnegated]
  cases opened : openParen text with
  | matched c n =>
    have shorter := (symbol_bounds opened).1
    obtain ⟨opening, rest, rfl, rfl, token⟩ := (symbol_answers '(' text).exists_of_matched opened
    dsimp only
    rw [List.drop_left]
    rw [List.length_append] at ih
    have closed := @closing_answers _ _ [] _ _ _ token (ih rest (by omega))
    simp only [List.nil_append] at closed
    cases found : closing (opening ++ rest) opening.length (logic rest) with
    | matched left k =>
      obtain ⟨group, more, split, rfl, inner, _, rfl, reads, enclosed⟩ :=
        closed.exists_of_matched found
      have lengths := congrArg List.length split
      simp only [List.length_append] at lengths
      dsimp only
      rw [split] at comparisons ⊢
      have pairs := pair_reads reads enclosed fun (left : List Char)
        (bound : left.length < more.length) => ih left (by omega)
      refine Outcome.Answers.orElse (Outcome.Answers.orElse ?_ comparisons)
        (.matched rfl ⟨.group reads.1 enclosed, reads.2⟩)
      exact pairs.imp fun _ _ both => both.1
    | refused => exact comparisons
    | overlong d => exact .overlong fun readable => closed.ne_overlong readable d found
  | refused => exact comparisons
  | overlong d => exact comparisons

theorem logic_reads (text : List Char) : (logic text).Answers Reads text := by
  -- every call of `logic` is behind an opening parenthesis, so on a shorter text
  induction size : text.length using Nat.strongRecOn generalizing text with
  | ind n ih =>
    subst size
    have shorter : ∀ rest : List Char, rest.length < text.length →
        (logic rest).Answers Reads rest := fun rest bound => ih rest.length bound rest rfl
    rw [logic_eq]
    cases negated : negator text with
    | matched c k =>
      have bound := (symbol_bounds negated).1
      obtain ⟨mark, rest, rfl, rfl, token⟩ := (symbol_answers '!' text).exists_of_matched negated
      dsimp only
      rw [List.drop_left]
      cases opened : openParen rest with
      | matched d m =>
        obtain ⟨opening, rest, rfl, rfl, opens⟩ :=
          (symbol_answers '(' rest).exists_of_matched opened
        dsimp only
        have shape : mark ++ (opening ++ rest) = (mark ++ opening) ++ rest :=
          (List.append_assoc _ _ _).symm
        rw [← List.length_append, shape, List.drop_left, ← shape]
        have inside := shorter rest (by simp only [List.length_append]; omega)
        refine (closing_answers opens inside).map ?_
        rintro _ a ⟨inner, group, rfl, reads, enclosed⟩
        exact ⟨.not token reads.1 enclosed, reads.2⟩
      | refused => exact .refused
      | overlong d => exact .refused
    | refused => exact unnegated_reads_of shorter
    | overlong d => exact unnegated_reads_of shorter

theorem comparison_answers (text : List Char) : (comparison text).Answers Compares text :=
  (comparison_reads text).imp fun _ _ reads => reads.1

theorem logic_answers (text : List Char) : (logic text).Answers Derives text :=
  (logic_reads text).imp fun _ _ reads => reads.1

end Cond

end TurtleGraphics
