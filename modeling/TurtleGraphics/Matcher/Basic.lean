import TurtleGraphics.Numeral
/-!
Matchers: recognisers of a beginning of a text.

A matcher either takes some characters off the start of a text and gives a value for them, or
refuses, or meets a numeral that is too long to read. Matchers are combined in sequence and by
ordered choice; a numeral that is too long ends both.
-/
set_option autoImplicit false

namespace TurtleGraphics

/-- What a matcher makes of a text. -/
inductive Outcome (α : Type) where
  /-- The first `length` characters were taken. -/
  | matched (value : α) (length : Nat)
  | refused
  /-- A numeral has `digits` digits, more than can be read. -/
  | overlong (digits : Nat)
  deriving DecidableEq, Repr

abbrev Matcher (α : Type) := List Char → Outcome α

variable {α β : Type}

namespace Outcome

instance : Inhabited (Outcome α) := ⟨.refused⟩

def map (f : α → β) : Outcome α → Outcome β
  | matched a n => matched (f a) n
  | refused => refused
  | overlong d => overlong d

/-- Goes on with `next` where the match of `text` ended. The lengths add up. -/
def andThen (first : Outcome α) (text : List Char) (next : α → Matcher β) : Outcome β :=
  match first with
  | matched a n =>
    match next a (text.drop n) with
    | matched b k => matched b (n + k)
    | refused => refused
    | overlong d => overlong d
  | refused => refused
  | overlong d => overlong d

/-- Turns to `other` after a refusal. -/
def orElse (first : Outcome α) (other : Unit → Outcome α) : Outcome α :=
  match first with
  | refused => other ()
  | result => result

/-- The display of an outcome whose value is displayed by `write`. -/
def display (write : α → String) : Outcome α → String
  | matched a n => "Match(" ++ write a ++ ", " ++ Numeral.text n ++ ")"
  | _ => "None"

@[simp] theorem map_matched (f : α → β) (a : α) (n : Nat) :
    (matched a n).map f = matched (f a) n := rfl

@[simp] theorem map_refused (f : α → β) : (refused : Outcome α).map f = refused := rfl

@[simp] theorem map_overlong (f : α → β) (d : Nat) :
    (overlong d : Outcome α).map f = overlong d := rfl

@[simp] theorem orElse_refused (other : Unit → Outcome α) : refused.orElse other = other () := rfl

@[simp] theorem orElse_matched (a : α) (n : Nat) (other : Unit → Outcome α) :
    (matched a n).orElse other = matched a n := rfl

@[simp] theorem orElse_overlong (d : Nat) (other : Unit → Outcome α) :
    (overlong d).orElse other = overlong d := rfl

end Outcome

namespace Matcher

def map (f : α → β) (m : Matcher α) : Matcher β := fun text => (m text).map f

/-- `m`, and then `next` on what it left. -/
def andThen (m : Matcher α) (next : α → Matcher β) : Matcher β :=
  fun text => (m text).andThen text next

/-- `m`, or `other` if it refuses. -/
def orElse (m other : Matcher α) : Matcher α :=
  fun text => (m text).orElse fun _ => other text

/-- Takes nothing. -/
def succeed (a : α) : Matcher α := fun _ => .matched a 0

def refuse : Matcher α := fun _ => .refused

/-- The first of `ms` that does not refuse. -/
def firstOf (ms : List (Matcher α)) : Matcher α := ms.foldr orElse refuse

end Matcher

end TurtleGraphics
