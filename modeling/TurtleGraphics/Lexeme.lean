import TurtleGraphics.Text.Blank
import TurtleGraphics.Text.Quoted
import TurtleGraphics.Matcher.Basic
import TurtleGraphics.Expr.Basic
/-!
The tokens of the language, as matchers.

Every token may follow a run of blanks, which counts as taken. A keyword is the only token that may
give blanks back: its spelling is free, so it may itself start with a blank or be empty.
-/
set_option autoImplicit false

namespace TurtleGraphics.Lexeme

open Text

/-- The character `c`. -/
def symbol (c : Char) : Matcher Char := fun text =>
  match skipBlanks text with
  | [] => .refused
  | d :: _ => if d = c then .matched c (indent text + 1) else .refused

def openParen : Matcher Char := symbol '('

def closeParen : Matcher Char := symbol ')'

def negator : Matcher Char := symbol '!'

/-- The first of `choices` whose spelling comes next. -/
def spelled {α : Type} (spelling : α → List Char) (choices : List α) : Matcher α := fun text =>
  match choices.find? fun a => (spelling a).isPrefixOf (skipBlanks text) with
  | some a => .matched a (indent text + (spelling a).length)
  | none => .refused

def operator : Matcher Operator := spelled Operator.spelling Operator.all

def comparator : Matcher Comparator := spelled Comparator.spelling Comparator.all

def combiner : Matcher Combiner := spelled Combiner.spelling Combiner.all

/-- One or more letters of the ASCII alphabet. -/
def word : Matcher String := fun text =>
  match (skipBlanks text).takeWhile Char.isAlpha with
  | [] => .refused
  | letters => .matched (String.ofList letters) (indent text + letters.length)

/-- The numeral made of the digits that `body` starts with, after `taken` characters. -/
def numeral (taken : Nat) (negative : Bool) (body : List Char) : Outcome Int :=
  let digits := body.takeWhile Char.isDigit
  if digits.isEmpty then .refused
  else if Numeral.maxDigits < digits.length then .overlong digits.length
  else
    let n : Int := Numeral.value digits
    .matched (if negative then -n else n) (taken + digits.length)

/-- One or more digits, after an optional minus sign. -/
def integer : Matcher Int := fun text =>
  match skipBlanks text with
  | '-' :: body => numeral (indent text + 1) true body
  | body => numeral (indent text) false body

/-- The comment at the start of a text: a hash sign and all that follows it on the line. -/
def comment : List Char → List Char
  | '#' :: rest => '#' :: rest.takeWhile (· ≠ '\n')
  | _ => []

/-- The end of the line, perhaps after a comment. A single line feed may follow, and is not taken.
The value is the comment. -/
def endOfLine : Matcher (List Char) := fun text =>
  let rest := skipBlanks text
  let remark := comment rest
  match rest.drop remark.length with
  | [] | ['\n'] => .matched remark (indent text + remark.length)
  | _ => .refused

/-- Whether `text` starts with `literal`, in strict mode with no letter right after it. -/
def opensWith (strict : Bool) (literal text : List Char) : Bool :=
  literal.isPrefixOf text && !(strict && ((text.drop literal.length).head?.any Char.isAlpha))

/-- After how many of the blanks that `text` starts with the keyword stands, taking the most. -/
def keywordOffset? (strict : Bool) (literal : List Char) : List Char → Option Nat
  | [] => if opensWith strict literal [] then some 0 else none
  | c :: rest =>
    let here := if opensWith strict literal (c :: rest) then some 0 else none
    if isBlank c then
      match keywordOffset? strict literal rest with
      | some k => some (k + 1)
      | none => here
    else here

/-- The text `literal`. In strict mode no letter may follow it. -/
def keyword (strict : Bool) (literal : List Char) : Matcher (List Char) := fun text =>
  match keywordOffset? strict literal text with
  | some k => .matched literal (k + literal.length)
  | none => .refused

/-- The display of a way to match keywords. -/
def displayMode (strict : Bool) : String := "Keywords(strict=" ++ displayBool strict ++ ")"

/-! How much a token takes: at least one character, and no more than there is. -/

theorem symbol_bounds {c d : Char} {text : List Char} {n : Nat}
    (h : symbol c text = .matched d n) : 0 < n ∧ n ≤ text.length := by
  have total := indent_add_length_skipBlanks text
  unfold symbol at h
  split at h
  · cases h
  · rename_i first rest hrest
    split at h
    · cases h
      simp only [hrest, List.length_cons] at total
      omega
    · cases h

theorem spelled_bounds {α : Type} {spelling : α → List Char} {choices : List α} {a : α}
    {text : List Char} {n : Nat} (nonempty : ∀ a, spelling a ≠ [])
    (h : spelled spelling choices text = .matched a n) : 0 < n ∧ n ≤ text.length := by
  have total := indent_add_length_skipBlanks text
  unfold spelled at h
  split at h
  · rename_i b found
    cases h
    have starts := List.find?_some found
    have short := (List.isPrefixOf_iff_prefix.1 starts).length_le
    have := List.length_pos_iff.2 (nonempty a)
    omega
  · cases h

theorem operator_bounds {op : Operator} {text : List Char} {n : Nat}
    (h : operator text = .matched op n) : 0 < n ∧ n ≤ text.length :=
  spelled_bounds (by intro a; cases a <;> simp [Operator.spelling]) h

theorem combiner_bounds {c : Combiner} {text : List Char} {n : Nat}
    (h : combiner text = .matched c n) : 0 < n ∧ n ≤ text.length :=
  spelled_bounds (by intro a; cases a <;> simp [Combiner.spelling]) h

end TurtleGraphics.Lexeme
