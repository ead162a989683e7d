import TurtleGraphics.Lexeme
/-!
Matchers for expressions and conditions.

The grammar has no precedence: an operation takes two atoms, and an atom is a value or an expression
between parentheses.

    atom       := '(' expression ')' | value
    expression := atom operator atom | atom
    comparison := atom comparator atom
    logic      := '!' '(' logic ')'
                | '(' logic ')' combiner '(' logic ')'
                | comparison
                | '(' logic ')'

Alternatives are tried in this order and the first that matches is taken. What two alternatives
have in common at their start is read once, so the work does not double with each parenthesis.
-/
set_option autoImplicit false

namespace TurtleGraphics.Expr

open Lexeme

/-- An integer, or the name of a variable. -/
def value : Matcher Expr :=
  (integer.map .int).orElse (word.map .var)

/-- Ends a parenthesis in `text` that was opened before position `opened` and holds `inside`. -/
def closing {α : Type} (text : List Char) (opened : Nat) (inside : Outcome α) : Outcome α :=
  match inside with
  | .matched a n =>
    match closeParen (text.drop (opened + n)) with
    | .matched _ k => .matched a (opened + n + k)
    | .refused => .refused
    | .overlong d => .overlong d
  | .refused => .refused
  | .overlong d => .overlong d

mutual

def atom (text : List Char) : Outcome Expr :=
  match _h : openParen text with
  | .matched _ n => closing text n (expression (text.drop n))
  | _ => value text
termination_by (text.length, 0)
decreasing_by
  have := symbol_bounds _h
  simp only [List.length_drop]
  exact Prod.Lex.left _ _ (by omega)

def expression (text : List Char) : Outcome Expr :=
  match atom text with
  | .matched left n =>
    match _h : operator (text.drop n) with
    | .matched op k =>
      match atom (text.drop (n + k)) with
      | .matched right m => .matched (.binary left op right) (n + k + m)
      | .refused => .matched left n
      | .overlong d => .overlong d
    | _ => .matched left n
  | .refused => .refused
  | .overlong d => .overlong d
termination_by (text.length, 1)
decreasing_by
  · exact Prod.Lex.right _ (by decide)
  · have := operator_bounds _h
    simp only [List.length_drop] at *
    exact Prod.Lex.left _ _ (by omega)

end

end TurtleGraphics.Expr

namespace TurtleGraphics.Cond

open Lexeme TurtleGraphics.Expr

def comparison : Matcher Cond :=
  Matcher.andThen atom fun left =>
    comparator.andThen fun c =>
      Matcher.map (fun right => .compare left c right) atom

def logic (text : List Char) : Outcome Cond :=
  match _hn : negator text with
  | .matched _ n =>
    match _ho : openParen (text.drop n) with
    | .matched _ k => (closing text (n + k) (logic (text.drop (n + k)))).map .not
    | _ => .refused
  | _ =>
    match _ho : openParen text with
    | .matched _ opened =>
      match closing text opened (logic (text.drop opened)) with
      | .matched left n =>
        let pair : Outcome Cond :=
          match _hc : combiner (text.drop n) with
          | .matched c k =>
            match openParen (text.drop (n + k)) with
            | .matched _ m =>
              (closing text (n + k + m) (logic (text.drop (n + k + m)))).map (.combine left c)
            | _ => .refused
          | _ => .refused
        (pair.orElse fun _ => comparison text).orElse fun _ => .matched left n
      | .refused => comparison text
      | .overlong d => .overlong d
    | _ => comparison text
termination_by text.length
decreasing_by
  · have := symbol_bounds _hn
    simp only [List.length_drop]
    omega
  · have := symbol_bounds _ho
    simp only [List.length_drop]
    omega
  · have := combiner_bounds _hc
    simp only [List.length_drop] at *
    omega

end TurtleGraphics.Cond
