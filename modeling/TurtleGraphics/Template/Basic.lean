import TurtleGraphics.Numeral
/-!
Templates: texts with places for arguments.

A place is a percent sign, flags, a width, a precision after a point, a letter that tells the size
of the argument and counts for nothing, and the character of a conversion. All but the percent sign
and the conversion may be left out. Two percent signs stand for one. A template may end within a
place, and it may ask for an argument by name; both are kept as they are and found out when the
template is filled.
-/
set_option autoImplicit false

namespace TurtleGraphics.Template

structure Flags where
  /-- The minus sign: pads on the right. -/
  left : Bool
  /-- The plus sign: writes the sign of every number. -/
  sign : Bool
  /-- The space: leaves room for a sign. -/
  room : Bool
  /-- The hash sign: writes the base of a number, or all of its digits. -/
  full : Bool
  /-- The zero: pads a number with zeros after its sign. -/
  zero : Bool
  deriving DecidableEq, Repr

def Flags.none : Flags := ⟨false, false, false, false, false⟩

/-- A width or a precision. -/
inductive Measure where
  | unset
  | fixed (n : Nat)
  /-- The next argument tells it. -/
  | argument
  deriving DecidableEq, Repr

/-- A place for an argument. -/
structure Place where
  flags : Flags
  width : Measure
  precision : Measure
  /-- The conversion and its position in the template; none if the template ends before it. -/
  conversion : Option (Char × Nat)
  deriving DecidableEq, Repr

inductive Piece where
  | char (c : Char)
  | place (p : Place)
  /-- A place for an argument with a name. -/
  | named
  deriving DecidableEq, Repr

/-- The flags at the start of a text, added to `flags`, and what follows them. -/
def readFlags (flags : Flags) : List Char → Flags × List Char
  | '-' :: rest => readFlags { flags with left := true } rest
  | '+' :: rest => readFlags { flags with sign := true } rest
  | ' ' :: rest => readFlags { flags with room := true } rest
  | '#' :: rest => readFlags { flags with full := true } rest
  | '0' :: rest => readFlags { flags with zero := true } rest
  | rest => (flags, rest)

/-- The width or precision at the start of a text, `missing` if there is none, and what follows. -/
def readMeasure (missing : Measure) : List Char → Measure × List Char
  | '*' :: rest => (.argument, rest)
  | text =>
    match text.takeWhile Char.isDigit with
    | [] => (missing, text)
    | digits => (.fixed (Numeral.value digits), text.dropWhile Char.isDigit)

/-- The precision at the start of a text. A point without digits stands for zero. -/
def readPrecision : List Char → Measure × List Char
  | '.' :: rest => readMeasure (.fixed 0) rest
  | text => (.unset, text)

/-- Passes over a letter that tells the size of the argument. -/
def skipSize : List Char → List Char
  | c :: rest => if c = 'h' || c = 'l' || c = 'L' then rest else c :: rest
  | [] => []

/-- The place after a percent sign and what follows it, in a template of `size` characters. -/
def readPlace (size : Nat) (text : List Char) : Place × List Char :=
  let (flags, text) := readFlags .none text
  let (width, text) := readMeasure .unset text
  let (precision, text) := readPrecision text
  match skipSize text with
  | [] => (⟨flags, width, precision, none⟩, [])
  | c :: rest => (⟨flags, width, precision, some (c, size - rest.length - 1)⟩, rest)

theorem readFlags_length (flags : Flags) (text : List Char) :
    (readFlags flags text).2.length ≤ text.length := by
  fun_induction readFlags flags text <;> simp only [List.length_cons] <;> omega

theorem readMeasure_length (missing : Measure) (text : List Char) :
    (readMeasure missing text).2.length ≤ text.length := by
  fun_cases readMeasure missing text
  · simp
  · simp
  · exact (List.dropWhile_suffix _).length_le

theorem readPrecision_length (text : List Char) :
    (readPrecision text).2.length ≤ text.length := by
  fun_cases readPrecision text
  · have := readMeasure_length (.fixed 0) ‹_›
    simp only [List.length_cons]
    omega
  · simp

theorem skipSize_length (text : List Char) : (skipSize text).length ≤ text.length := by
  fun_cases skipSize text <;> simp

theorem readPlace_length (size : Nat) (text : List Char) :
    (readPlace size text).2.length ≤ text.length := by
  have h₁ := readFlags_length .none text
  have h₂ := readMeasure_length .unset (readFlags .none text).2
  have h₃ := readPrecision_length (readMeasure .unset (readFlags .none text).2).2
  have h₄ := skipSize_length (readPrecision (readMeasure .unset (readFlags .none text).2).2).2
  simp only [readPlace]
  split
  · simp
  · rename_i c rest hrest
    rw [hrest] at h₄
    simp only [List.length_cons] at h₄
    show rest.length ≤ text.length
    omega

/-- The pieces of the end `text` of a template of `size` characters. -/
def readFrom (size : Nat) : List Char → List Piece
  | [] => []
  | '%' :: '%' :: rest => .char '%' :: readFrom size rest
  | '%' :: '(' :: _ => [.named]
  | '%' :: rest =>
    have := readPlace_length size rest
    .place (readPlace size rest).1 :: readFrom size (readPlace size rest).2
  | c :: rest => .char c :: readFrom size rest
termination_by text => text.length
decreasing_by all_goals simp only [List.length_cons]; omega

/-- The pieces of a template. -/
def read (template : String) : List Piece :=
  readFrom template.length template.toList

end TurtleGraphics.Template
