import TurtleGraphics.Proofs.Soundness
/-!
The rules of the grammar as sequences and choices.

The parser reads what two alternatives have in common once. Here each of its rules is shown equal to
the choice that the grammar writes down, every alternative a sequence from the start of the text. No
alternative is lost on the way: where one cannot follow another, both refuse.
-/
set_option autoImplicit false

namespace TurtleGraphics

open Text Lexeme

namespace Matcher

variable {α β γ : Type}

theorem map_map (f : α → β) (g : β → γ) (m : Matcher α) : (m.map f).map g = m.map (g ∘ f) := by
  funext text
  simp only [map]
  cases m text <;> rfl

theorem map_id (m : Matcher α) : m.map (fun a => a) = m := by
  funext text
  simp only [map]
  cases m text <;> rfl

theorem map_andThen (m : Matcher α) (next : α → Matcher β) (f : β → γ) :
    (m.andThen next).map f = m.andThen fun a => (next a).map f := by
  funext text
  simp only [map, andThen, Outcome.andThen]
  cases m text with
  | matched a n =>
    dsimp only
    cases next a (text.drop n) <;> rfl
  | refused => rfl
  | overlong d => rfl

theorem andThen_map (f : α → β) (m : Matcher α) (next : β → Matcher γ) :
    (m.map f).andThen next = m.andThen fun a => next (f a) := by
  funext text
  simp only [map, andThen]
  cases m text <;> rfl

theorem andThen_assoc (m : Matcher α) (next : α → Matcher β) (last : β → Matcher γ) :
    (m.andThen next).andThen last = m.andThen fun a => (next a).andThen last := by
  funext text
  simp only [andThen, Outcome.andThen]
  cases m text with
  | matched a n =>
    dsimp only
    cases next a (text.drop n) with
    | matched b k =>
      dsimp only
      rw [List.drop_drop]
      cases last b (text.drop (n + k)) with
      | matched c j => simp only [Nat.add_assoc]
      | refused => rfl
      | overlong d => rfl
    | refused => rfl
    | overlong d => rfl
  | refused => rfl
  | overlong d => rfl

theorem andThen_succeed (m : Matcher α) (f : α → β) :
    (m.andThen fun a => succeed (f a)) = m.map f := by
  funext text
  simp only [map, andThen, Outcome.andThen, succeed]
  cases m text <;> rfl

theorem succeed_andThen (a : α) (next : α → Matcher β) : (succeed a).andThen next = next a := by
  funext text
  simp only [andThen, Outcome.andThen, succeed, List.drop_zero]
  cases next a text with
  | matched b k => simp only [Nat.zero_add]
  | refused => rfl
  | overlong d => rfl

theorem map_succeed (a : α) (f : α → β) : (succeed a).map f = succeed (f a) := rfl

theorem map_orElse (m other : Matcher α) (f : α → β) :
    (m.orElse other).map f = (m.map f).orElse (other.map f) := by
  funext text
  simp only [map, orElse]
  cases m text <;> rfl

theorem map_firstOf (ms : List (Matcher α)) (f : α → β) :
    (firstOf ms).map f = firstOf (ms.map (map f)) := by
  induction ms with
  | nil => rfl
  | cons m rest ih =>
    rw [firstOf, List.foldr_cons, map_orElse, List.map_cons, firstOf, List.foldr_cons]
    exact congrArg (orElse _) ih

theorem orElse_refuse (m : Matcher α) : m.orElse refuse = m := by
  funext text
  simp only [orElse]
  cases m text <;> rfl

/-- `m` between parentheses. -/
def between (m : Matcher α) : Matcher α :=
  openParen.andThen fun _ => m.andThen fun a => closeParen.map fun _ => a

theorem between_of_matched {m : Matcher α} {text : List Char} {c : Char} {n : Nat}
    (opened : openParen text = .matched c n) :
    between m text = Expr.closing text n (m (text.drop n)) := by
  simp only [between, andThen, opened, Outcome.andThen, Expr.closing, map]
  cases m (text.drop n) with
  | matched a k =>
    simp only [List.drop_drop]
    cases closeParen (text.drop (n + k)) with
    | matched d j => simp only [Outcome.map, Nat.add_assoc]
    | refused => rfl
    | overlong d => rfl
  | refused => rfl
  | overlong d => rfl

theorem between_of_refused {m : Matcher α} {text : List Char}
    (refused : openParen text = .refused) : between m text = .refused := by
  simp only [between, andThen, refused, Outcome.andThen]

end Matcher

section Rules
variable {text : List Char}

theorem symbol_map {α : Type} (c : Char) (f : Char → α) :
    (symbol c).map f = (symbol c).map fun _ => f c := by
  funext text
  simp only [Matcher.map, symbol]
  cases skipBlanks text with
  | nil => rfl
  | cons d rest =>
    dsimp only
    split <;> rfl

theorem symbol_ne_overlong {c : Char} {d : Nat} : symbol c text ≠ .overlong d := by
  intro stopped
  rw [symbol] at stopped
  cases solid : skipBlanks text with
  | nil =>
    rw [solid] at stopped
    cases stopped
  | cons e rest =>
    rw [solid] at stopped
    dsimp only at stopped
    split at stopped <;> cases stopped

theorem first?_of_symbol {c d : Char} {n : Nat} (found : symbol c text = .matched d n) :
    first? text = some c := by
  rw [symbol] at found
  rw [first?]
  cases solid : skipBlanks text with
  | nil =>
    rw [solid] at found
    cases found
  | cons e rest =>
    rw [solid] at found
    dsimp only at found
    by_cases same : e = c
    · rw [same]
      rfl
    · rw [if_neg same] at found
      cases found

end Rules

namespace Expr
open Matcher

variable {text : List Char} {c : Char}

/-- A value starts with a digit, a minus sign or a letter. -/
theorem value_refuses (first : first? text = some c) (plain : c.isAlphanum = false)
    (noMinus : c ≠ '-') : value text = .refused := by
  rw [Char.isAlphanum, Bool.or_eq_false_iff] at plain
  rw [first?] at first
  cases solid : skipBlanks text with
  | nil =>
    rw [solid] at first
    cases first
  | cons d rest =>
    rw [solid] at first
    obtain rfl : d = c := Option.some.inj first
    have noWord : word text = .refused := by
      rw [word, solid, List.takeWhile_cons_of_neg (by simp [plain.1])]
    have noInteger : integer text = .refused := by
      rw [integer, solid]
      split
      · rename_i body minus
        cases minus
        exact absurd rfl noMinus
      · rw [numeral, List.takeWhile_cons_of_neg (by simp [plain.2])]
        rfl
    rw [value, orElse, Matcher.map, noInteger, Matcher.map, noWord]
    rfl

theorem atom_eq_orElse : atom = (between expression).orElse value := by
  funext text
  rw [atom_eq, orElse]
  cases opened : openParen text with
  | matched c n =>
    have noValue := value_refuses (first?_of_symbol opened) (by decide) (by decide)
    rw [between_of_matched opened, noValue]
    dsimp only
    cases closing text n (expression (text.drop n)) <;> rfl
  | refused =>
    rw [between_of_refused opened]
    rfl
  | overlong d => exact absurd opened symbol_ne_overlong

theorem spelled_ne_overlong {α : Type} {spelling : α → List Char} {choices : List α} {d : Nat} :
    spelled spelling choices text ≠ .overlong d := by
  intro stopped
  rw [spelled] at stopped
  split at stopped <;> cases stopped

theorem expression_eq_orElse :
    expression =
      (Matcher.andThen atom fun left => operator.andThen fun op =>
        Matcher.map (.binary left op) atom).orElse atom := by
  funext text
  rw [expression_eq, Matcher.orElse, andThen]
  cases first : atom text with
  | matched left n =>
    simp only [Outcome.andThen, andThen]
    cases sign : operator (text.drop n) with
    | matched op k =>
      simp only [List.drop_drop, Matcher.map]
      cases atom (text.drop (n + k)) with
      | matched right m => simp only [Outcome.map, Outcome.orElse, Nat.add_assoc]
      | refused => rfl
      | overlong d => rfl
    | refused => rfl
    | overlong d => exact absurd sign spelled_ne_overlong
  | refused => rfl
  | overlong d => rfl

end Expr

namespace Cond
open Matcher TurtleGraphics.Expr

variable {text : List Char} {c : Char}

theorem comparison_refuses (first : first? text = some c) (noParen : c ≠ '(')
    (plain : c.isAlphanum = false) (noMinus : c ≠ '-') : comparison text = .refused := by
  have closed : openParen text = .refused := by
    apply symbol_refuses
    rw [first]
    exact fun same => noParen (Option.some.inj same)
  have noAtom : atom text = .refused := by
    rw [atom_eq, closed]
    exact value_refuses first plain noMinus
  rw [comparison, andThen, noAtom]
  rfl

/-- A parenthesis that ends in a rest of the text ends in the text itself. -/
theorem closing_add {α : Type} (text : List Char) (n k : Nat) (inside : Outcome α) :
    closing text (n + k) inside =
      (Outcome.matched () n).andThen text fun _ rest => closing rest k inside := by
  cases inside with
  | matched a m =>
    simp only [closing, Outcome.andThen, List.drop_drop, Nat.add_assoc]
    cases closeParen (text.drop (n + (k + m))) <;> rfl
  | refused => rfl
  | overlong d => rfl

/-- A combination, in the one form that the parser reads it in and in the form of the grammar. -/
theorem pair_eq_andThen {left : Cond} {n : Nat} (first : between logic text = .matched left n) :
    pair text left n =
      (Matcher.andThen (between logic) fun left => combiner.andThen fun c =>
        Matcher.map (.combine left c) (between logic)) text := by
  simp only [Matcher.andThen, first, Outcome.andThen, pair]
  cases sign : combiner (text.drop n) with
  | matched c k =>
    dsimp only
    rw [List.drop_drop]
    cases opened : openParen (text.drop (n + k)) with
    | matched d m =>
      rw [Matcher.map, between_of_matched opened, List.drop_drop]
      dsimp only
      rw [closing_add, Outcome.andThen]
      cases closing (text.drop (n + k)) m (logic (text.drop (n + k + m))) with
      | matched right j => simp only [Outcome.map, Nat.add_assoc]
      | refused => rfl
      | overlong d => rfl
    | refused =>
      rw [Matcher.map, between_of_refused opened]
      rfl
    | overlong d => exact absurd opened symbol_ne_overlong
  | refused => rfl
  | overlong d => exact absurd sign spelled_ne_overlong

/-- The alternatives for conditions as the grammar lists them. -/
theorem logic_eq_firstOf :
    logic = firstOf [negator.andThen fun _ => (between logic).map Cond.not,
      (between logic).andThen fun left => combiner.andThen fun c =>
        (between logic).map (.combine left c),
      comparison, between logic] := by
  funext text
  simp only [firstOf, List.foldr_cons, List.foldr_nil, orElse_refuse]
  rw [logic_eq, Matcher.orElse, Matcher.andThen]
  cases mark : negator text with
  | matched c n =>
    -- nothing else starts with a negation
    have first := first?_of_symbol mark
    have closed : between logic text = .refused :=
      between_of_refused (symbol_refuses (by rw [first]; decide))
    have noComparison := comparison_refuses first (by decide) (by decide) (by decide)
    simp only [Matcher.orElse, Matcher.andThen, closed, noComparison, Outcome.andThen]
    cases opened : openParen (text.drop n) with
    | matched d k =>
      rw [Matcher.map, between_of_matched opened, List.drop_drop]
      dsimp only
      rw [closing_add, Outcome.andThen]
      cases closing (text.drop n) k (logic (text.drop (n + k))) <;> rfl
    | refused =>
      rw [Matcher.map, between_of_refused opened]
      rfl
    | overlong d => exact absurd opened symbol_ne_overlong
  | refused =>
    simp only [Outcome.andThen, Outcome.orElse_refused, unnegated]
    cases opened : openParen text with
    | matched d n =>
      have group : between logic text = _ := between_of_matched opened
      dsimp only
      cases inner : closing text n (logic (text.drop n)) with
      | matched left k =>
        rw [inner] at group
        simp only [pair_eq_andThen group, Matcher.orElse, group]
        generalize Matcher.andThen _ _ text = combined
        cases combined with
        | refused => cases comparison text <;> rfl
        | matched c m => rfl
        | overlong e => rfl
      | refused =>
        rw [inner] at group
        simp only [Matcher.orElse, Matcher.andThen, group, Outcome.andThen]
        cases comparison text <;> rfl
      | overlong d =>
        rw [inner] at group
        simp only [Matcher.orElse, Matcher.andThen, group]
        rfl
    | refused =>
      simp only [Matcher.orElse, Matcher.andThen, between_of_refused opened, Outcome.andThen]
      cases comparison text <;> rfl
    | overlong d => exact absurd opened symbol_ne_overlong
  | overlong d => exact absurd mark symbol_ne_overlong

end Cond

end TurtleGraphics
