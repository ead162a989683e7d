import TurtleGraphics.Text.Visible
/-!
Quoted text, as it stands in the display of a value.

A text is put between single quotes, or between double quotes if it holds a single quote and no
double one. The chosen quote, the backslash and every character without a visible form are escaped.
-/
set_option autoImplicit false

namespace TurtleGraphics.Text

/-- `n` in lowercase hexadecimal, with at least `width` digits. -/
def hexadecimal (width n : Nat) : List Char :=
  let digits := Nat.toDigits 16 n
  List.replicate (width - digits.length) '0' ++ digits

/-- `c` as a backslash, a letter for the number of digits, and its code point. -/
def codeEscape (c : Char) : List Char :=
  if c.toNat < 0x100 then '\\' :: 'x' :: hexadecimal 2 c.toNat
  else if c.toNat < 0x10000 then '\\' :: 'u' :: hexadecimal 4 c.toNat
  else '\\' :: 'U' :: hexadecimal 8 c.toNat

/-- How `c` is written between two `quote` characters. -/
def escaped (quote c : Char) : List Char :=
  if c = quote || c = '\\' then ['\\', c]
  else if c = '\t' then ['\\', 't']
  else if c = '\r' then ['\\', 'r']
  else if c = '\n' then ['\\', 'n']
  else if isVisible c then [c]
  else codeEscape c

/-- The quote that stands around `text`. -/
def quoteFor (text : List Char) : Char :=
  if text.contains '\'' && !text.contains '"' then '"' else '\''

def quotedChars (text : List Char) : List Char :=
  let quote := quoteFor text
  quote :: text.flatMap (escaped quote) ++ [quote]

def quoted (text : String) : String := String.ofList (quotedChars text.toList)

/-- `text` with every character beyond ASCII escaped. -/
def asciiOnly (text : String) : String :=
  String.ofList (text.toList.flatMap fun c => if c.toNat < 0x80 then [c] else codeEscape c)

/-- The display of a truth value. -/
def displayBool (b : Bool) : String := if b then "True" else "False"

/-- Displays separated by a comma and a space. -/
def commaSeparated (items : List String) : String := ", ".intercalate items

end TurtleGraphics.Text
