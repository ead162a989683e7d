import TurtleGraphics.Text.Blank
/-!
The column at which a line starts, as an editor with tab stops every eight columns shows it.
-/
set_option autoImplicit false

namespace TurtleGraphics.Text

/-- Columns between two tab stops. -/
def tabStop : Nat := 8

/-- How many characters `text` takes once each tab is filled up to the next stop, when `column`
characters of the current line precede it. A line feed or carriage return counts as one character
and starts a new line. -/
def width (column : Nat) : List Char → Nat
  | [] => 0
  | '\t' :: rest =>
    let filled := tabStop - column % tabStop
    filled + width (column + filled) rest
  | c :: rest => 1 + width (if c = '\n' || c = '\r' then 0 else column + 1) rest

/-- `line` with a caret below its first character that is no blank. -/
def withCaret (line : String) : String :=
  let margin := width 0 (line.toList.takeWhile isBlank)
  line ++ "\n" ++ String.ofList (List.replicate margin ' ') ++ "^\n"

end TurtleGraphics.Text
