import TurtleGraphics.Proofs.Tokens
/-!
The grammar of expressions and conditions, as derivations.

    atom       := '(' expression ')' | value
    expression := atom operator atom | atom
    comparison := atom comparator atom
    logic      := '!' '(' logic ')'
                | '(' logic ')' combiner '(' logic ')'
                | comparison
                | '(' logic ')'

A text has at most one derivation, and more than that: when two derivable texts start the same text
and both are followed by something that cannot continue them, they are the same text with the same
tree. Besides, what stands between two parentheses is an expression or a condition and never both.
-/
set_option autoImplicit false

namespace TurtleGraphics

open Text Lexeme

/-- `text` is `inside` between parentheses. -/
def Enclosed (inside text : List Char) : Prop :=
  ∃ opening closing, Padded ['('] opening ∧ Padded [')'] closing ∧
    text = opening ++ (inside ++ closing)

namespace Expr

inductive ValueText : List Char → Expr → Prop where
  | int {text : List Char} {n : Int} (read : IntegerText text n) : ValueText text (.int n)
  | var {text : List Char} {name : String} (read : WordText text name) : ValueText text (.var name)

/-- The nonterminals of arithmetic. -/
inductive Phrase where
  | atom | expression

/-- `text` is derivable from a nonterminal, with the given tree. -/
inductive Derives : Phrase → List Char → Expr → Prop where
  | parens {inside text : List Char} {e : Expr} (inner : Derives .expression inside e)
      (enclosed : Enclosed inside text) : Derives .atom text e
  | value {text : List Char} {e : Expr} (read : ValueText text e) : Derives .atom text e
  | binary {left sign right : List Char} {a b : Expr} {op : Operator}
      (first : Derives .atom left a) (token : Padded op.spelling sign)
      (second : Derives .atom right b) :
      Derives .expression (left ++ (sign ++ right)) (.binary a op b)
  | single {text : List Char} {e : Expr} (only : Derives .atom text e) :
      Derives .expression text e

end Expr

namespace Cond

inductive Compares : List Char → Cond → Prop where
  | mk {left sign right : List Char} {a b : Expr} {c : Comparator}
      (first : Expr.Derives .atom left a) (token : Padded c.spelling sign)
      (second : Expr.Derives .atom right b) :
      Compares (left ++ (sign ++ right)) (.compare a c b)

/-- `text` is derivable from `logic`, with the given tree. -/
inductive Derives : List Char → Cond → Prop where
  | not {mark group inside : List Char} {c : Cond} (token : Padded ['!'] mark)
      (inner : Derives inside c) (enclosed : Enclosed inside group) :
      Derives (mark ++ group) (.not c)
  | combine {left sign right insideLeft insideRight : List Char} {a b : Cond} {c : Combiner}
      (first : Derives insideLeft a) (enclosed : Enclosed insideLeft left)
      (token : Padded c.spelling sign) (second : Derives insideRight b)
      (enclosed' : Enclosed insideRight right) :
      Derives (left ++ (sign ++ right)) (.combine a c b)
  | compare {text : List Char} {c : Cond} (only : Compares text c) : Derives text c
  | group {inside text : List Char} {c : Cond} (inner : Derives inside c)
      (enclosed : Enclosed inside text) : Derives text c

end Cond

namespace Text

/-- An expression or a condition that is followed by `rest` does not go on there. -/
def Ends (rest : List Char) : Prop :=
  Breaks rest ∧ ∀ c ∈ first? rest, c ∉ ['+', '-', '*', '&', '|']

/-- `rest` starts with a closing parenthesis. -/
def Closes (rest : List Char) : Prop :=
  ∃ closing more, Padded [')'] closing ∧ rest = closing ++ more

variable {rest left text inside : List Char}

theorem Ends.nil : Ends [] := by
  refine ⟨.nil, ?_⟩
  intro c found
  cases found

theorem Ends.ne_operator {sign : List Char} {op : Operator} (ends : Ends rest)
    (token : Padded op.spelling sign) : rest ≠ sign ++ left := by
  rintro rfl
  obtain ⟨c, operates, first⟩ := operator_first? token left
  exact ends.2 c first (List.mem_append_left ['&', '|'] operates)

theorem Ends.ne_combiner {sign : List Char} {c : Combiner} (ends : Ends rest)
    (token : Padded c.spelling sign) : rest ≠ sign ++ left := by
  rintro rfl
  obtain ⟨d, combines, first⟩ := combiner_first? token left
  exact ends.2 d first (List.mem_append_right ['+', '-', '*'] combines)

theorem Closes.first? (closes : Closes rest) : first? rest = some ')' := by
  obtain ⟨closing, more, token, rfl⟩ := closes
  exact token.first?_append (by decide)

theorem Closes.ends (closes : Closes rest) : Ends rest := by
  have first := closes.first?
  obtain ⟨closing, more, token, rfl⟩ := closes
  refine ⟨token.breaks (by decide), ?_⟩
  intro c found
  rw [first] at found
  cases found
  decide

end Text

section Enclosed

variable {inside text other rival rest left : List Char}

theorem Enclosed.first?_append (enclosed : Enclosed inside text) :
    first? (text ++ rest) = some '(' := by
  obtain ⟨opening, closing, token, _, rfl⟩ := enclosed
  rw [List.append_assoc]
  exact token.first?_append (by decide)

/-- Two parenthesised texts at the start of one text are the same if what they enclose is. -/
theorem Enclosed.cut {P : Prop} (enclosed : Enclosed inside text) (enclosed' : Enclosed other rival)
    (unique : ∀ {tail tail'}, Closes tail → Closes tail' → inside ++ tail = other ++ tail' →
      inside = other ∧ P)
    (same : text ++ rest = rival ++ left) : text = rival ∧ P ∧ rest = left := by
  obtain ⟨opening, closing, opens, closes, rfl⟩ := enclosed
  obtain ⟨opening', closing', opens', closes', rfl⟩ := enclosed'
  simp only [List.append_assoc] at same
  obtain ⟨rfl, tails⟩ := opens.cut opens' ⟨'(', [], rfl, by decide⟩ same
  obtain ⟨rfl, holds⟩ := unique ⟨closing, rest, closes, rfl⟩ ⟨closing', left, closes', rfl⟩ tails
  obtain ⟨rfl, rests⟩ :=
    closes.cut closes' ⟨')', [], rfl, by decide⟩ (List.append_cancel_left tails)
  exact ⟨rfl, holds, rests⟩

end Enclosed

namespace Expr

variable {s t r q inside : List Char} {a b : Expr}

theorem ValueText.first?_append (read : ValueText s a) (r : List Char) :
    ∃ c, first? (s ++ r) = some c ∧ (c = '-' ∨ c.isAlphanum = true) := by
  cases read with
  | int read =>
    obtain ⟨c, first, minus | digit⟩ := read.first?_append r
    · exact ⟨c, first, .inl minus⟩
    · exact ⟨c, first, .inr (isAlphanum_of_isDigit c digit)⟩
  | var read =>
    obtain ⟨c, first, letter⟩ := read.first?_append r
    exact ⟨c, first, .inr (isAlphanum_of_isAlpha c letter)⟩

/-- No value starts like a parenthesised text. -/
theorem ValueText.ne_enclosed (read : ValueText s a) (enclosed : Enclosed inside t) :
    s ++ r ≠ t ++ q := by
  intro same
  obtain ⟨c, first, starts⟩ := read.first?_append r
  rw [same, enclosed.first?_append] at first
  cases first
  revert starts
  decide

theorem ValueText.cut (read : ValueText s a) (rival : ValueText t b) (breaks : Breaks r)
    (breaks' : Breaks q) (same : s ++ r = t ++ q) : s = t ∧ a = b := by
  cases read with
  | int read =>
    cases rival with
    | int rival =>
      obtain ⟨texts, rfl⟩ := read.cut rival breaks breaks' same
      exact ⟨texts, rfl⟩
    | var rival => exact absurd same (read.ne_word rival)
  | var read =>
    cases rival with
    | int rival => exact absurd same.symm (rival.ne_word read)
    | var rival =>
      obtain ⟨texts, rfl⟩ := read.cut rival breaks breaks' same
      exact ⟨texts, rfl⟩

theorem Derives.first?_append {phrase : Phrase} (read : Derives phrase s a) (r : List Char) :
    ∃ c, first? (s ++ r) = some c ∧ (c = '(' ∨ c = '-' ∨ c.isAlphanum = true) := by
  induction read generalizing r with
  | parens inner enclosed ih => exact ⟨'(', enclosed.first?_append, .inl rfl⟩
  | value read =>
    obtain ⟨c, first, starts⟩ := read.first?_append r
    exact ⟨c, first, .inr starts⟩
  | binary first token second ih ih' =>
    rw [List.append_assoc]
    exact ih _
  | single only ih => exact ih r

theorem Derives.head?_ne_equals {phrase : Phrase} (read : Derives phrase s a) (r : List Char) :
    (s ++ r).head? ≠ some '=' := by
  intro head
  obtain ⟨c, first, starts⟩ := read.first?_append r
  rw [first?_of_head? head (by decide)] at first
  cases first
  revert starts
  decide

/-- What may follow a phrase without continuing it. -/
def Phrase.Follow : Phrase → List Char → Prop
  | .atom => Breaks
  | .expression => Ends

theorem Derives.cut {phrase : Phrase} (read : Derives phrase s a) (rival : Derives phrase t b)
    (follow : phrase.Follow r) (follow' : phrase.Follow q) (same : s ++ r = t ++ q) :
    s = t ∧ a = b := by
  induction read generalizing t b r q with
  | parens inner enclosed ih =>
    cases rival with
    | parens inner' enclosed' =>
      obtain ⟨texts, trees, _⟩ := enclosed.cut enclosed'
        (fun closes closes' => ih inner' closes.ends closes'.ends) same
      exact ⟨texts, trees⟩
    | value read' => exact absurd same.symm (read'.ne_enclosed enclosed)
  | value read =>
    cases rival with
    | parens inner' enclosed' => exact absurd same (read.ne_enclosed enclosed')
    | value read' => exact read.cut read' follow follow' same
  | binary first token second ih ih' =>
    cases rival with
    | binary first' token' second' =>
      simp only [List.append_assoc] at same
      obtain ⟨rfl, rfl⟩ := ih first' (operator_breaks token) (operator_breaks token') same
      obtain ⟨rfl, rfl, tails⟩ := matched_cut (operator_append token _)
        (operator_append token' _) (List.append_cancel_left same)
      obtain ⟨rfl, rfl⟩ := ih' second' follow.1 follow'.1 tails
      exact ⟨rfl, rfl⟩
    | single only =>
      simp only [List.append_assoc] at same
      obtain ⟨rfl, rfl⟩ := ih only (operator_breaks token) follow'.1 same
      exact absurd (List.append_cancel_left same).symm (follow'.ne_operator token)
  | single only ih =>
    cases rival with
    | binary first' token' second' =>
      simp only [List.append_assoc] at same
      obtain ⟨rfl, rfl⟩ := ih first' follow.1 (operator_breaks token') same
      exact absurd (List.append_cancel_left same) (follow.ne_operator token')
    | single only' => exact ih only' follow.1 follow'.1 same

/-- No expression in parentheses is at the same time `inside` in parentheses. -/
def Apart (inside : List Char) : Prop :=
  ∀ t b r q, Derives .expression t b → Closes r → Closes q → inside ++ r ≠ t ++ q

theorem Derives.ne_enclosed (read : Derives .atom s a) (apart : Apart inside)
    (enclosed : Enclosed inside t) : s ++ r ≠ t ++ q := by
  intro same
  cases read with
  | parens inner enclosed' =>
    have never := enclosed.cut (P := False) enclosed'
      (fun closes closes' insides => absurd insides (apart _ _ _ _ inner closes closes')) same.symm
    exact never.2.1
  | value read => exact read.ne_enclosed enclosed same

end Expr

namespace Cond

variable {s t r q inside : List Char} {a b : Cond}

theorem Compares.cut (read : Compares s a) (rival : Compares t b) (breaks : Breaks r)
    (breaks' : Breaks q) (same : s ++ r = t ++ q) : s = t ∧ a = b := by
  obtain ⟨first, token, second⟩ := read
  obtain ⟨first', token', second'⟩ := rival
  simp only [List.append_assoc] at same
  obtain ⟨rfl, rfl⟩ := first.cut first' (comparator_breaks token) (comparator_breaks token') same
  obtain ⟨rfl, rfl, tails⟩ := matched_cut (comparator_append token (second.head?_ne_equals _))
    (comparator_append token' (second'.head?_ne_equals _)) (List.append_cancel_left same)
  obtain ⟨rfl, rfl⟩ := second.cut second' breaks breaks' tails
  exact ⟨rfl, rfl⟩

/-- A comparison starts with an atom. -/
theorem Compares.ne_enclosed (read : Compares s a) (apart : Expr.Apart inside)
    (enclosed : Enclosed inside t) : s ++ r ≠ t ++ q := by
  obtain ⟨first, token, second⟩ := read
  rw [List.append_assoc]
  exact first.ne_enclosed apart enclosed

theorem negator_ne_enclosed {mark : List Char} (token : Padded ['!'] mark)
    (enclosed : Enclosed inside t) : mark ++ r ≠ t ++ q := by
  intro same
  have first : first? (mark ++ r) = some '!' := token.first?_append (by decide)
  rw [same, enclosed.first?_append] at first
  cases first

theorem negator_ne_operand {phrase : Expr.Phrase} {mark : List Char} {e : Expr}
    (token : Padded ['!'] mark) (read : Expr.Derives phrase t e) : mark ++ r ≠ t ++ q := by
  intro same
  obtain ⟨c, first, starts⟩ := read.first?_append q
  rw [← same, token.first?_append (by decide)] at first
  cases first
  revert starts
  decide

theorem Compares.ne_negator (read : Compares s a) {mark : List Char} (token : Padded ['!'] mark) :
    mark ++ r ≠ s ++ q := by
  obtain ⟨first, sign, second⟩ := read
  rw [List.append_assoc]
  exact negator_ne_operand token first

/-- An expression is an atom and then nothing or something that starts with an operator. -/
theorem exists_atom {e : Expr} (read : Expr.Derives .expression s e) (closes : Closes r) :
    ∃ left right a c, Expr.Derives .atom left a ∧ s ++ r = left ++ right ∧ Breaks right ∧
      first? right = some c ∧ c ∈ ['+', '-', '*', ')'] := by
  cases read with
  | binary first token second =>
    rename_i left sign right a b op
    obtain ⟨c, operates, starts⟩ := operator_first? token (right ++ r)
    refine ⟨left, sign ++ (right ++ r), a, c, first, ?_, operator_breaks token, starts,
      List.mem_append_left [')'] operates⟩
    simp only [List.append_assoc]
  | single only => exact ⟨s, r, e, ')', only, rfl, closes.ends.1, closes.first?, by decide⟩

theorem Derives.apart (read : Derives s a) : Expr.Apart s := by
  induction read with
  | not token inner enclosed ih =>
    intro t b r q rival closes closes'
    rw [List.append_assoc]
    exact negator_ne_operand token rival
  | combine first enclosed token second enclosed' ih ih' =>
    intro t b r q rival closes closes' same
    obtain ⟨left, right, e, c, atom, split, _⟩ := exists_atom rival closes'
    rw [split, List.append_assoc] at same
    exact atom.ne_enclosed ih enclosed same.symm
  | compare only =>
    intro t b r q rival closes closes' same
    obtain ⟨left, right, e, c, atom, split, breaks, starts, operates⟩ := exists_atom rival closes'
    -- an expression has an operator or its end where a comparison has a comparator
    obtain ⟨first, token, second⟩ := only
    rw [split] at same
    simp only [List.append_assoc] at same
    obtain ⟨rfl, rfl⟩ := first.cut atom (comparator_breaks token) breaks same
    obtain ⟨d, compares, starts'⟩ := comparator_first? token _
    rw [List.append_cancel_left same, starts] at starts'
    cases starts'
    have apart : ∀ c ∈ ['+', '-', '*', ')'], c ∉ ['<', '>', '='] := by simp
    exact apart c operates compares
  | group inner enclosed ih =>
    intro t b r q rival closes closes' same
    obtain ⟨left, right, e, c, atom, split, _⟩ := exists_atom rival closes'
    rw [split] at same
    exact atom.ne_enclosed ih enclosed same.symm

/-- A condition has one tree, and one length if what follows does not continue it. -/
theorem Derives.cut (read : Derives s a) (rival : Derives t b) (ends : Ends r) (ends' : Ends q)
    (same : s ++ r = t ++ q) : s = t ∧ a = b := by
  -- a group starts like a combination, and differs in that no combiner may follow it
  induction read generalizing t b r q with
  | not token inner enclosed ih =>
    rw [List.append_assoc] at same
    cases rival with
    | not token' inner' enclosed' =>
      rw [List.append_assoc] at same
      obtain ⟨rfl, groups⟩ := token.cut token' ⟨'!', [], rfl, by decide⟩ same
      obtain ⟨rfl, rfl, _⟩ := enclosed.cut enclosed'
        (fun closes closes' => ih inner' closes.ends closes'.ends) groups
      exact ⟨rfl, rfl⟩
    | combine first' enclosed' token' second' enclosed'' =>
      rw [List.append_assoc] at same
      exact absurd same (negator_ne_enclosed token enclosed')
    | compare only' => exact absurd same (only'.ne_negator token)
    | group inner' enclosed' => exact absurd same (negator_ne_enclosed token enclosed')
  | combine first enclosed token second enclosed' ih ih' =>
    simp only [List.append_assoc] at same
    cases rival with
    | not token' inner' enclosed'' =>
      rw [List.append_assoc] at same
      exact absurd same.symm (negator_ne_enclosed token' enclosed)
    | combine first' enclosed'' token' second' enclosed''' =>
      simp only [List.append_assoc] at same
      obtain ⟨rfl, rfl, tails⟩ := enclosed.cut enclosed''
        (fun closes closes' => ih first' closes.ends closes'.ends) same
      obtain ⟨rfl, rfl, rights⟩ := matched_cut (combiner_append token _)
        (combiner_append token' _) tails
      obtain ⟨rfl, rfl, _⟩ := enclosed'.cut enclosed'''
        (fun closes closes' => ih' second' closes.ends closes'.ends) rights
      exact ⟨rfl, rfl⟩
    | compare only' => exact absurd same.symm (only'.ne_enclosed first.apart enclosed)
    | group inner' enclosed'' =>
      obtain ⟨_, _, tails⟩ := enclosed.cut enclosed''
        (fun closes closes' => ih inner' closes.ends closes'.ends) same
      exact absurd tails.symm (ends'.ne_combiner token)
  | compare only =>
    cases rival with
    | not token' inner' enclosed' =>
      rw [List.append_assoc] at same
      exact absurd same.symm (only.ne_negator token')
    | combine first' enclosed' token' second' enclosed'' =>
      rw [List.append_assoc] at same
      exact absurd same (only.ne_enclosed first'.apart enclosed')
    | compare only' => exact only.cut only' ends.1 ends'.1 same
    | group inner' enclosed' => exact absurd same (only.ne_enclosed inner'.apart enclosed')
  | group inner enclosed ih =>
    cases rival with
    | not token' inner' enclosed' =>
      rw [List.append_assoc] at same
      exact absurd same.symm (negator_ne_enclosed token' enclosed)
    | combine first' enclosed' token' second' enclosed'' =>
      simp only [List.append_assoc] at same
      obtain ⟨_, _, tails⟩ := enclosed.cut enclosed'
        (fun closes closes' => ih first' closes.ends closes'.ends) same
      exact absurd tails (ends.ne_combiner token')
    | compare only' => exact absurd same.symm (only'.ne_enclosed inner.apart enclosed)
    | group inner' enclosed' =>
      obtain ⟨texts, trees, _⟩ := enclosed.cut enclosed'
        (fun closes closes' => ih inner' closes.ends closes'.ends) same
      exact ⟨texts, trees⟩

end Cond

end TurtleGraphics
