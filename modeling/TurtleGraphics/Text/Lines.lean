/-!
The lines of a text.

A line ends at a line feed or at a carriage return followed by a line feed. A text always has one
line more than it has line feeds, so a line feed at the end is followed by an empty last line. A
carriage return that stands alone belongs to its line.
-/
set_option autoImplicit false

namespace TurtleGraphics.Text

/-- Writes every line ending as a single line feed. -/
def unifyEndings : List Char → List Char
  | '\r' :: '\n' :: rest => '\n' :: unifyEndings rest
  | c :: rest => c :: unifyEndings rest
  | [] => []

/-- The pieces of a text between its line feeds. -/
def splitFeeds : List Char → List (List Char)
  | [] => [[]]
  | '\n' :: rest => [] :: splitFeeds rest
  | c :: rest =>
    match splitFeeds rest with
    | line :: lines => (c :: line) :: lines
    | [] => [[c]]

theorem splitFeeds_ne_nil (text : List Char) : splitFeeds text ≠ [] := by
  fun_cases splitFeeds text <;> simp_all

/-- The lines of `text`, without their endings. -/
def lines (text : String) : List String :=
  (splitFeeds (unifyEndings text.toList)).map String.ofList

theorem lines_ne_nil (text : String) : lines text ≠ [] := by
  simp [lines, splitFeeds_ne_nil]

end TurtleGraphics.Text
