/-!
Blank characters, and the run of blanks at the start of a text.

A text is a list of characters. The blanks are the white space of Unicode together with the four
information separators U+001C to U+001F. The main statement is that the leading run and what
follows it make up the text, and that what follows starts with no blank.
-/
set_option autoImplicit false

namespace TurtleGraphics.Text

/-- The characters that may stand between two tokens. -/
def isBlank (c : Char) : Bool :=
  let n := c.toNat
  (9 ≤ n && n ≤ 13) || (0x1c ≤ n && n ≤ 0x20) || n == 0x85 || n == 0xa0 || n == 0x1680 ||
  (0x2000 ≤ n && n ≤ 0x200a) || n == 0x2028 || n == 0x2029 || n == 0x202f || n == 0x205f ||
  n == 0x3000

/-- How many blanks `text` starts with. -/
def indent (text : List Char) : Nat := (text.takeWhile isBlank).length

/-- What follows the blanks at the start of `text`. -/
def skipBlanks (text : List Char) : List Char := text.dropWhile isBlank

theorem takeWhile_append_skipBlanks (text : List Char) :
    text.takeWhile isBlank ++ skipBlanks text = text :=
  List.takeWhile_append_dropWhile

theorem indent_add_length_skipBlanks (text : List Char) :
    indent text + (skipBlanks text).length = text.length := by
  rw [indent, ← List.length_append, takeWhile_append_skipBlanks]

theorem skipBlanks_eq_drop (text : List Char) : skipBlanks text = text.drop (indent text) := by
  induction text with
  | nil => rfl
  | cons c rest ih =>
    by_cases h : isBlank c = true
    · simpa [skipBlanks, indent, h] using ih
    · simp [skipBlanks, indent, h]

theorem isBlank_of_skipBlanks_cons {text rest : List Char} {c : Char}
    (h : skipBlanks text = c :: rest) : isBlank c = false := by
  induction text with
  | nil => simp [skipBlanks] at h
  | cons d tail ih =>
    by_cases hd : isBlank d = true
    · exact ih (by simpa [skipBlanks, hd] using h)
    · simp only [skipBlanks, List.dropWhile_cons_of_neg hd, List.cons.injEq] at h
      simpa [← h.1] using hd

/-- A text without the blanks at either end. -/
def trim (text : String) : String :=
  String.ofList (skipBlanks (skipBlanks text.toList).reverse).reverse

end TurtleGraphics.Text
