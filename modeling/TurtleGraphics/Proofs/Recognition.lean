import TurtleGraphics.Proofs.Soundness
/-!
The matchers for expressions and conditions recognise their grammar.

A text that starts with a derivable text is never refused, and never less of it is taken than can
be derived. The rules try their alternatives in order and never return to one, so this rests on what
the grammar keeps apart: a parenthesis that holds an expression holds no condition, and what may
follow a phrase without continuing it is not the beginning of another alternative.
-/
set_option autoImplicit false

namespace TurtleGraphics

open Text Lexeme

namespace Outcome.Reaches

variable {α β : Type} {outcome : Outcome α} {start : List Char} {follow : Prop}

theorem exact (reaches : outcome.Reaches start follow) (holds : follow) :
    ∃ a, outcome = .matched a start.length := by
  obtain ⟨a, n, success, _, ends⟩ := reaches
  rw [ends holds] at success
  exact ⟨a, success⟩

theorem map (reaches : outcome.Reaches start follow) (f : α → β) :
    (outcome.map f).Reaches start follow := by
  obtain ⟨a, n, rfl, bound, ends⟩ := reaches
  exact ⟨f a, n, rfl, bound, ends⟩

theorem orElse (reaches : outcome.Reaches start follow) (other : Unit → Outcome α) :
    (outcome.orElse other).Reaches start follow := by
  obtain ⟨a, n, rfl, bound, ends⟩ := reaches
  exact ⟨a, n, rfl, bound, ends⟩

theorem imp {weaker : Prop} (reaches : outcome.Reaches start follow) (stronger : weaker → follow) :
    outcome.Reaches start weaker := by
  obtain ⟨a, n, success, bound, ends⟩ := reaches
  exact ⟨a, n, success, bound, fun holds => ends (stronger holds)⟩

theorem of_matched {a : α} (success : outcome = .matched a start.length) :
    outcome.Reaches start follow :=
  ⟨a, start.length, success, Nat.le_refl _, fun _ => rfl⟩

/-- In sequence, when the second matcher goes on right after `first`. -/
theorem andThen {next : α → Matcher β} {first second tail : List Char} {a : α}
    (success : outcome = .matched a first.length) (reaches : (next a tail).Reaches second follow) :
    (outcome.andThen (first ++ tail) next).Reaches (first ++ second) follow := by
  obtain ⟨b, n, success', bound, ends⟩ := reaches
  refine ⟨b, first.length + n, ?_, ?_, ?_⟩
  · subst success
    rw [Outcome.andThen, List.drop_left, success']
  · rw [List.length_append]
    exact Nat.add_le_add_left bound _
  · intro holds
    rw [ends holds, List.length_append]

end Outcome.Reaches

namespace Expr

variable {s r : List Char} {a : Expr}

theorem value_reaches (read : ValueText s a) (readable : Readable (s ++ r)) :
    (value (s ++ r)).Reaches s (Breaks r) := by
  rw [value, Matcher.orElse]
  cases read with
  | int read => exact ((integer_reaches read readable).map _).orElse _
  | var read =>
    rw [Matcher.map]
    cases found : integer (s ++ r) with
    | matched n k =>
      obtain ⟨start, rest, split, _, rival, _⟩ := (integer_answers _).exists_of_matched found
      exact absurd split.symm (rival.ne_word read)
    | refused => exact (word_reaches read).map _
    | overlong d => exact absurd found ((integer_answers _).ne_overlong readable d)

/-- The matcher takes exactly `inside` where a parenthesis closes behind it. -/
def ReadsInside {α : Type} (m : Matcher α) (inside : List Char) : Prop :=
  ∀ tail, Closes tail → Readable (inside ++ tail) →
    ∃ a, m (inside ++ tail) = .matched a inside.length

/-- A parenthesised text is read to its end, after any text, if what it encloses is. -/
theorem exists_closing {α : Type} {m : Matcher α} {inside group rest : List Char}
    (enclosed : Enclosed inside group) (readable : Readable (group ++ rest))
    (reads : ReadsInside m inside) (before : List Char) :
    ∃ k a, openParen (group ++ rest) = .matched '(' k ∧
      closing (before ++ (group ++ rest)) (before.length + k)
        (m ((before ++ (group ++ rest)).drop (before.length + k))) =
          .matched a (before ++ group).length := by
  obtain ⟨opening, ending, opens, closes, rfl⟩ := enclosed
  simp only [List.append_assoc] at readable ⊢
  obtain ⟨a, success⟩ := reads (ending ++ rest) ⟨ending, rest, closes, rfl⟩ readable.right
  refine ⟨opening.length, a, symbol_append opens (by decide), ?_⟩
  have start : before ++ (opening ++ (inside ++ (ending ++ rest))) =
      (before ++ opening) ++ (inside ++ (ending ++ rest)) := (List.append_assoc _ _ _).symm
  have shape : (before ++ opening) ++ (inside ++ (ending ++ rest)) =
      (before ++ opening ++ inside) ++ (ending ++ rest) := (List.append_assoc _ _ _).symm
  rw [start, ← List.length_append, List.drop_left, success, closing, shape, ← List.length_append,
    List.drop_left, closeParen, symbol_append closes (by decide)]
  dsimp only
  rw [← List.length_append]
  simp only [List.append_assoc]

theorem exists_closing_first {α : Type} {m : Matcher α} {inside group rest : List Char}
    (enclosed : Enclosed inside group) (readable : Readable (group ++ rest))
    (reads : ReadsInside m inside) :
    ∃ k a, openParen (group ++ rest) = .matched '(' k ∧
      closing (group ++ rest) k (m ((group ++ rest).drop k)) = .matched a group.length := by
  obtain ⟨k, a, opens, closed⟩ := exists_closing enclosed readable reads []
  rw [List.length_nil, Nat.zero_add] at closed
  exact ⟨k, a, opens, closed⟩

/-- The matcher for a nonterminal. -/
def Phrase.rule : Phrase → Matcher Expr
  | .atom => Expr.atom
  | .expression => Expr.expression

theorem atom_reaches_value (read : ValueText s a) (readable : Readable (s ++ r)) :
    (Expr.atom (s ++ r)).Reaches s (Breaks r) := by
  have refuses : openParen (s ++ r) = .refused := by
    refine symbol_refuses fun first => ?_
    obtain ⟨c, first', starts⟩ := read.first?_append r
    rw [first] at first'
    cases first'
    revert starts
    decide
  rw [atom_eq, refuses]
  exact value_reaches read readable

theorem expression_reaches_binary {left sign right : List Char} {op : Operator}
    (token : Padded op.spelling sign)
    (first : (Expr.atom (left ++ (sign ++ (right ++ r)))).Reaches left
      (Breaks (sign ++ (right ++ r))))
    (second : (Expr.atom (right ++ r)).Reaches right (Breaks r)) :
    (expression (left ++ (sign ++ (right ++ r)))).Reaches (left ++ (sign ++ right)) (Ends r) := by
  obtain ⟨a, success⟩ := first.exact (operator_breaks token)
  obtain ⟨b, n, success', bound, ends⟩ := second
  rw [expression_eq, success]
  dsimp only
  rw [List.drop_left, operator_append token]
  dsimp only
  rw [← List.append_assoc left, ← List.length_append, List.drop_left, success']
  refine ⟨_, _, rfl, ?_, fun follow => ?_⟩
  · simp only [List.length_append]
    omega
  · rw [ends follow.1]
    simp only [List.length_append, Nat.add_assoc]

/-- An atom may turn out to be the first half of an operation, but not where an expression ends. -/
theorem expression_reaches_single (readable : Readable (s ++ r))
    (only : (Expr.atom (s ++ r)).Reaches s (Breaks r)) :
    (expression (s ++ r)).Reaches s (Ends r) := by
  obtain ⟨a, n, success, bound, ends⟩ := only
  have alone : (Outcome.matched a n).Reaches s (Ends r) :=
    ⟨a, n, rfl, bound, fun follow => ends follow.1⟩
  rw [expression_eq, success]
  dsimp only
  cases signed : operator ((s ++ r).drop n) with
  | matched op k =>
    dsimp only
    cases found : Expr.atom ((s ++ r).drop (n + k)) with
    | matched b m =>
      -- the operator stands right behind `s`, where an expression is to end
      refine ⟨_, _, rfl, by omega, fun follow => ?_⟩
      rw [ends follow.1, List.drop_left] at signed
      obtain ⟨sign, rest, split, _, token⟩ := (spelled_answers _ _ r).exists_of_matched signed
      exact absurd split (follow.ne_operator token)
    | refused => exact alone
    | overlong d =>
      have readable' := readable.of_infix (List.drop_suffix (n + k) _).isInfix
      exact absurd found ((atom_answers _).ne_overlong readable' d)
  | refused => exact alone
  | overlong d => exact alone

theorem Derives.reaches {phrase : Phrase} (read : Derives phrase s a)
    (readable : Readable (s ++ r)) : (phrase.rule (s ++ r)).Reaches s (phrase.Follow r) := by
  induction read generalizing r with
  | parens inner enclosed ih =>
    obtain ⟨k, b, opened, closed⟩ := exists_closing_first enclosed readable
      fun tail closes readable' => (ih readable').exact closes.ends
    rw [Phrase.rule, atom_eq, opened]
    exact .of_matched closed
  | value read => exact atom_reaches_value read readable
  | binary first token second ih ih' =>
    simp only [List.append_assoc] at readable ⊢
    exact expression_reaches_binary token (ih readable) (ih' readable.right.right)
  | single only ih => exact expression_reaches_single readable (ih readable)

end Expr

namespace Cond

open TurtleGraphics.Expr

variable {s r : List Char} {a : Cond}

theorem comparison_reaches (read : Compares s a) (readable : Readable (s ++ r)) :
    (comparison (s ++ r)).Reaches s (Breaks r) := by
  obtain @⟨left, sign, right, a, b, c, first, token, second⟩ := read
  simp only [List.append_assoc] at readable ⊢
  obtain ⟨a', success⟩ := (first.reaches readable).exact (comparator_breaks token)
  have second' := second.reaches readable.right.right
  rw [Phrase.rule] at success second'
  rw [comparison, Matcher.andThen]
  refine Outcome.Reaches.andThen success ?_
  rw [Matcher.andThen]
  refine Outcome.Reaches.andThen (comparator_append token (second.head?_ne_equals r)) ?_
  exact second'.map _

theorem logic_eq_unnegated {text : List Char} (first : first? text ≠ some '!') :
    logic text = unnegated text := by
  rw [logic_eq, negator, symbol_refuses first]

theorem Compares.first?_ne_negator (read : Compares s a) : first? (s ++ r) ≠ some '!' := by
  intro found
  obtain ⟨first, token, second⟩ := read
  rw [List.append_assoc] at found
  obtain ⟨c, found', starts⟩ := first.first?_append _
  rw [found] at found'
  cases found'
  revert starts
  decide

theorem enclosed_first?_ne_negator {inside group : List Char} (enclosed : Enclosed inside group) :
    first? (group ++ r) ≠ some '!' := by
  rw [enclosed.first?_append]
  decide

theorem group_reads {text : List Char} {d : Char} {opened : Nat}
    (opens : openParen text = .matched d opened) :
    (closing text opened (logic (text.drop opened))).Answers
      (fun group a => ∃ inner, Reads inner a ∧ Enclosed inner group) text := by
  obtain ⟨opening, rest, rfl, rfl, token⟩ := (symbol_answers '(' _).exists_of_matched opens
  rw [List.drop_left]
  have closed := @closing_answers _ _ [] _ _ _ token (logic_reads rest)
  refine closed.imp ?_
  rintro _ b ⟨inner, group, rfl, reads, enclosed⟩
  exact ⟨inner, reads, enclosed⟩

theorem logic_reaches_not {mark group inside : List Char} (token : Padded ['!'] mark)
    (enclosed : Enclosed inside group) (reads : ReadsInside logic inside)
    (readable : Readable (mark ++ (group ++ r))) :
    (logic (mark ++ (group ++ r))).Reaches (mark ++ group) (Ends r) := by
  obtain ⟨k, a, opens, closed⟩ := exists_closing enclosed readable.right reads mark
  rw [logic_eq, negator, symbol_append token (by decide)]
  dsimp only
  rw [List.drop_left, opens]
  dsimp only
  rw [closed]
  exact .of_matched rfl

theorem logic_reaches_combine {left sign right insideLeft insideRight : List Char} {c : Combiner}
    (enclosed : Enclosed insideLeft left) (reads : ReadsInside logic insideLeft)
    (token : Padded c.spelling sign) (enclosed' : Enclosed insideRight right)
    (reads' : ReadsInside logic insideRight)
    (readable : Readable (left ++ (sign ++ (right ++ r)))) :
    (logic (left ++ (sign ++ (right ++ r)))).Reaches (left ++ (sign ++ right)) (Ends r) := by
  obtain ⟨k, a, opens, closed⟩ := exists_closing_first enclosed readable reads
  obtain ⟨m, b, opens', closed'⟩ :=
    exists_closing enclosed' readable.right.right reads' (left ++ sign)
  rw [List.length_append, List.append_assoc, List.append_assoc] at closed'
  rw [logic_eq_unnegated (enclosed_first?_ne_negator enclosed), unnegated, opens]
  dsimp only
  rw [closed]
  dsimp only
  rw [pair, List.drop_left, combiner_append token]
  dsimp only
  rw [← List.append_assoc left, ← List.length_append, List.drop_left, opens']
  dsimp only
  rw [List.length_append, List.append_assoc, closed']
  exact .of_matched rfl

theorem logic_reaches_compare (only : Compares s a) (readable : Readable (s ++ r)) :
    (logic (s ++ r)).Reaches s (Ends r) := by
  have reached := (comparison_reaches only readable).imp fun ends : Ends r => ends.1
  rw [logic_eq_unnegated only.first?_ne_negator, unnegated]
  cases opens : openParen (s ++ r) with
  | matched d opened =>
    dsimp only
    cases found : closing (s ++ r) opened (logic ((s ++ r).drop opened)) with
    | matched left n =>
      -- the first atom of the comparison would be a condition between parentheses
      obtain ⟨group, more, split, _, inner, reads, enclosed⟩ :=
        (group_reads opens).exists_of_matched found
      exact absurd split (only.ne_enclosed reads.1.apart enclosed)
    | refused => exact reached
    | overlong d => exact absurd found ((group_reads opens).ne_overlong readable d)
  | refused => exact reached
  | overlong d => exact reached

/-- A condition between parentheses is no beginning of a comparison, and the beginning of a
combination only where a combiner follows. -/
theorem logic_reaches_group {inside group : List Char} (inner : Derives inside a)
    (enclosed : Enclosed inside group) (reads : ReadsInside logic inside)
    (readable : Readable (group ++ r)) : (logic (group ++ r)).Reaches group (Ends r) := by
  obtain ⟨k, b, opens, closed⟩ := exists_closing_first enclosed readable reads
  obtain ⟨start, more, split, same, inner', reads', enclosed'⟩ :=
    (group_reads opens).exists_of_matched closed
  obtain ⟨rfl, rfl⟩ := List.append_inj split same
  rw [logic_eq_unnegated (enclosed_first?_ne_negator enclosed), unnegated, opens]
  dsimp only
  rw [closed]
  dsimp only
  have pairs := pair_reads reads' enclosed' fun (more : List Char) (_ : more.length < r.length) =>
    logic_reads more
  cases paired : pair (group ++ r) b group.length with
  | matched whole n =>
    obtain ⟨start, rest, split, rfl, _, sign, right, c, token, rfl⟩ :=
      pairs.exists_of_matched paired
    refine ⟨whole, _, rfl, ?_, fun ends => ?_⟩
    · rw [List.length_append]
      exact Nat.le_add_right _ _
    · simp only [List.append_assoc] at split
      exact absurd (List.append_cancel_left split) (ends.ne_combiner token)
  | refused =>
    rw [Outcome.orElse_refused]
    cases compared : comparison (group ++ r) with
    | matched rival n =>
      obtain ⟨start, rest, split, _, compares⟩ := (comparison_answers _).exists_of_matched compared
      exact absurd split.symm (compares.ne_enclosed inner.apart enclosed)
    | refused => exact .of_matched rfl
    | overlong d => exact absurd compared ((comparison_answers _).ne_overlong readable d)
  | overlong d => exact absurd paired (pairs.ne_overlong readable d)

theorem Derives.reaches (read : Derives s a) (readable : Readable (s ++ r)) :
    (logic (s ++ r)).Reaches s (Ends r) := by
  induction read generalizing r with
  | not token inner enclosed ih =>
    rw [List.append_assoc] at readable ⊢
    exact logic_reaches_not token enclosed
      (fun tail closes readable' => (ih readable').exact closes.ends) readable
  | combine first enclosed token second enclosed' ih ih' =>
    simp only [List.append_assoc] at readable ⊢
    exact logic_reaches_combine enclosed
      (fun tail closes readable' => (ih readable').exact closes.ends) token enclosed'
      (fun tail closes readable' => (ih' readable').exact closes.ends) readable
  | compare only => exact logic_reaches_compare only readable
  | group inner enclosed ih =>
    exact logic_reaches_group inner enclosed
      (fun tail closes readable' => (ih readable').exact closes.ends) readable

end Cond

section Recognition

variable {α : Type} {rule : Matcher α} {Derivable : List Char → α → Prop} {text : List Char}

/-- No text has two trees. -/
def Unambiguous (Derivable : List Char → α → Prop) : Prop :=
  ∀ text a b, Derivable text a → Derivable text b → a = b

/-- The first `n` characters are the longest beginning of `text` that is derivable. -/
def Longest (Derivable : List Char → α → Prop) (text : List Char) (n : Nat) : Prop :=
  (∃ a, Derivable (text.take n) a) ∧ n ≤ text.length ∧
    ∀ k a, k ≤ text.length → Derivable (text.take k) a → k ≤ n

/-- The rule takes the longest derivable beginning of `text`, gives its tree, and refuses a text
without one. -/
structure Recognises (rule : Matcher α) (Derivable : List Char → α → Prop) (text : List Char) :
    Prop where
  matched_iff : ∀ a n,
    rule text = .matched a n ↔ Longest Derivable text n ∧ Derivable (text.take n) a
  refused_iff : rule text = .refused ↔ ∀ n a, ¬ Derivable (text.take n) a
  bounds : ∀ a n, rule text = .matched a n → 0 < n ∧ n ≤ text.length

/-- What the grammar and a rule have to satisfy for the rule to recognise the grammar. -/
structure Faithful (rule : Matcher α) (Derivable : List Char → α → Prop) : Prop where
  answers : ∀ text, (rule text).Answers Derivable text
  reaches : ∀ {s r a}, Derivable s a → Readable (s ++ r) →
    ∃ follow, (rule (s ++ r)).Reaches s follow
  nonempty : ∀ {s a}, Derivable s a → s ≠ []
  unique : Unambiguous Derivable

theorem Faithful.derivable (faithful : Faithful rule Derivable) {a : α} {n : Nat}
    (success : rule text = .matched a n) : n ≤ text.length ∧ Derivable (text.take n) a := by
  obtain ⟨start, rest, split, rfl, read⟩ := (faithful.answers text).exists_of_matched success
  rw [split, List.take_left, List.length_append]
  exact ⟨Nat.le_add_right _ _, read⟩

theorem Faithful.bounds (faithful : Faithful rule Derivable) {a : α} {n : Nat}
    (success : rule text = .matched a n) : 0 < n ∧ n ≤ text.length := by
  obtain ⟨bound, read⟩ := faithful.derivable success
  refine ⟨Nat.pos_of_ne_zero ?_, bound⟩
  rintro rfl
  exact faithful.nonempty read List.take_zero

/-- A text with a derivable beginning is matched, at least as far as that goes. -/
theorem Faithful.exists_matched (faithful : Faithful rule Derivable) (readable : Readable text)
    {a : α} {k : Nat} (read : Derivable (text.take k) a) :
    ∃ b n, rule text = .matched b n ∧ (k ≤ text.length → k ≤ n) := by
  have split := List.take_append_drop k text
  obtain ⟨follow, reaches⟩ := faithful.reaches (r := text.drop k) read (split.symm ▸ readable)
  obtain ⟨b, n, success, reached, _⟩ := reaches
  rw [split] at success
  refine ⟨b, n, success, fun inside => ?_⟩
  rwa [List.length_take, Nat.min_eq_left inside] at reached

theorem Faithful.longest (faithful : Faithful rule Derivable) (readable : Readable text)
    {a : α} {n : Nat} (success : rule text = .matched a n) : Longest Derivable text n := by
  obtain ⟨bound, read⟩ := faithful.derivable success
  refine ⟨⟨a, read⟩, bound, ?_⟩
  intro k b inside read'
  obtain ⟨a', n', success', reached⟩ := faithful.exists_matched readable read'
  rw [success] at success'
  cases success'
  exact reached inside

theorem Faithful.matched_of_longest (faithful : Faithful rule Derivable) (readable : Readable text)
    {a : α} {n : Nat} (longest : Longest Derivable text n) (read : Derivable (text.take n) a) :
    rule text = .matched a n := by
  obtain ⟨_, bound, most⟩ := longest
  obtain ⟨b, n', success, reached⟩ := faithful.exists_matched readable read
  obtain ⟨bound', read'⟩ := faithful.derivable success
  obtain rfl := Nat.le_antisymm (reached bound) (most n' b bound' read')
  rw [success, faithful.unique _ _ _ read read']

theorem Faithful.recognises (faithful : Faithful rule Derivable) (readable : Readable text) :
    Recognises rule Derivable text := by
  refine ⟨fun a n => ⟨fun success => ?_, ?_⟩, ⟨?_, ?_⟩, fun a n => faithful.bounds⟩
  · exact ⟨faithful.longest readable success, (faithful.derivable success).2⟩
  · rintro ⟨longest, read⟩
    exact faithful.matched_of_longest readable longest read
  · intro refused n a read
    obtain ⟨b, n', success, _⟩ := faithful.exists_matched readable read
    rw [refused] at success
    cases success
  · intro none
    cases result : rule text with
    | matched a n => exact absurd (faithful.derivable result).2 (none n a)
    | refused => rfl
    | overlong d => exact absurd result ((faithful.answers text).ne_overlong readable d)

/-- What is reached and followed by nothing that continues it is matched with its own tree. -/
theorem matched_of_reaches {s r : List Char} {a : α} {follow : Prop}
    (reaches : (rule (s ++ r)).Reaches s follow) (holds : follow)
    (answers : (rule (s ++ r)).Answers Derivable (s ++ r)) (unique : Unambiguous Derivable)
    (read : Derivable s a) : rule (s ++ r) = .matched a s.length := by
  obtain ⟨b, success⟩ := reaches.exact holds
  obtain ⟨start, rest, split, length, read'⟩ := answers.exists_of_matched success
  obtain ⟨rfl, _⟩ := List.append_inj split length
  rw [success, unique _ _ _ read read']

end Recognition

theorem Expr.Derives.unambiguous (phrase : Expr.Phrase) : Unambiguous (Expr.Derives phrase) := by
  intro text a b read read'
  have follow : phrase.Follow [] := by
    cases phrase with
    | atom => exact .nil
    | expression => exact .nil
  exact (read.cut read' follow follow rfl).2

theorem Lexeme.WordText.unambiguous : Unambiguous Lexeme.WordText := by
  intro text a b read read'
  exact (read.cut read' .nil .nil rfl).2

theorem Cond.Compares.unambiguous : Unambiguous Cond.Compares := by
  intro text a b read read'
  exact (read.cut read' .nil .nil rfl).2

theorem Cond.Derives.unambiguous : Unambiguous Cond.Derives := by
  intro text a b read read'
  exact (read.cut read' .nil .nil rfl).2

theorem ne_nil_of_first? {text : List Char} {c : Char} (first : first? (text ++ []) = some c) :
    text ≠ [] := by
  rintro rfl
  cases first

theorem Expr.Derives.ne_nil {phrase : Expr.Phrase} {text : List Char} {a : Expr}
    (read : Expr.Derives phrase text a) : text ≠ [] := by
  obtain ⟨c, first, _⟩ := read.first?_append []
  exact ne_nil_of_first? first

theorem Cond.Compares.ne_nil {text : List Char} {a : Cond} (read : Cond.Compares text a) :
    text ≠ [] := by
  obtain ⟨first, token, second⟩ := read
  exact List.append_ne_nil_of_left_ne_nil first.ne_nil _

theorem Enclosed.ne_nil {inside text : List Char} (enclosed : Enclosed inside text) : text ≠ [] :=
  ne_nil_of_first? enclosed.first?_append

theorem Cond.Derives.ne_nil {text : List Char} {a : Cond} (read : Cond.Derives text a) :
    text ≠ [] := by
  cases read with
  | not token inner enclosed => exact List.append_ne_nil_of_right_ne_nil _ enclosed.ne_nil
  | combine first enclosed => exact List.append_ne_nil_of_left_ne_nil enclosed.ne_nil _
  | compare only => exact only.ne_nil
  | group inner enclosed => exact enclosed.ne_nil

theorem Expr.atom_faithful : Faithful Expr.atom (Expr.Derives .atom) where
  answers := Expr.atom_answers
  reaches read readable := ⟨_, read.reaches readable⟩
  nonempty read := read.ne_nil
  unique := Expr.Derives.unambiguous .atom

theorem Expr.expression_faithful : Faithful Expr.expression (Expr.Derives .expression) where
  answers := Expr.expression_answers
  reaches read readable := ⟨_, read.reaches readable⟩
  nonempty read := read.ne_nil
  unique := Expr.Derives.unambiguous .expression

theorem Cond.comparison_faithful : Faithful Cond.comparison Cond.Compares where
  answers := Cond.comparison_answers
  reaches read readable := ⟨_, Cond.comparison_reaches read readable⟩
  nonempty read := read.ne_nil
  unique := Cond.Compares.unambiguous

theorem Cond.logic_faithful : Faithful Cond.logic Cond.Derives where
  answers := Cond.logic_answers
  reaches read readable := ⟨_, read.reaches readable⟩
  nonempty read := read.ne_nil
  unique := Cond.Derives.unambiguous

/-- On every text without a numeral that is too long, each of the four rules accepts exactly its
nonterminal, and every text has at most one tree. -/
theorem rules_recognise_grammar :
    (∀ phrase, Unambiguous (Expr.Derives phrase)) ∧ Unambiguous Cond.Compares ∧
      Unambiguous Cond.Derives ∧
    ∀ text, Readable text →
      Recognises Expr.atom (Expr.Derives .atom) text ∧
      Recognises Expr.expression (Expr.Derives .expression) text ∧
      Recognises Cond.comparison Cond.Compares text ∧ Recognises Cond.logic Cond.Derives text := by
  refine ⟨Expr.Derives.unambiguous, Cond.Compares.unambiguous, Cond.Derives.unambiguous, ?_⟩
  intro text readable
  exact ⟨Expr.atom_faithful.recognises readable, Expr.expression_faithful.recognises readable,
    Cond.comparison_faithful.recognises readable, Cond.logic_faithful.recognises readable⟩

theorem recognises_nested_condition :
    Readable "((1 - x)) < 2 && (".toList ∧
      Recognises Cond.logic Cond.Derives "((1 - x)) < 2 && (".toList := by
  have readable : Readable "((1 - x)) < 2 && (".toList :=
    fun run placed _ => Nat.le_trans placed.length_le (by decide)
  exact ⟨readable, (rules_recognise_grammar.2.2.2 _ readable).2.2.2⟩

end TurtleGraphics
