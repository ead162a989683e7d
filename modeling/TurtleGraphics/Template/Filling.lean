import TurtleGraphics.Decimal.Rounded
import TurtleGraphics.LongText
import TurtleGraphics.Setting
import TurtleGraphics.Template.Basic
/-!
Templates filled with arguments.

The places of a template take the arguments in order, and in the end none may be left. A text is cut
to the precision, a number gets at least so many digits or decimals, and both are padded to the
width. The first place that cannot be filled decides the failure; within a place the width comes
first, then the precision, then the argument, then the conversion. Nothing is written out before all
places have what fills them.
-/
set_option autoImplicit false

namespace TurtleGraphics.Template

/-- Why a template cannot be filled. -/
inductive Fault where
  | tooFewArguments
  | tooManyArguments
  /-- The template ends within a place. -/
  | incomplete
  | unknownConversion (c : Char) (position : Nat)
  /-- A place asks for an argument by name. -/
  | named
  /-- A width or precision is to be told by an argument that is no integer. -/
  | noMeasure
  | widthTooBig
  | precisionTooBig
  /-- The same of one that an argument tells. -/
  | toldWidthTooBig
  | toldPrecisionTooBig
  /-- More digits are asked for than a number can be given. -/
  | tooManyDigits
  | notReal (conversion : Char) (sort : String)
  | notInteger (conversion : Char) (sort : String)
  | notFloat (sort : String)
  | infiniteInteger
  | notANumberInteger
  | tooLarge
  | notCharacter
  | characterOutOfRange
  /-- There is no room for a text of that length. -/
  | noRoom
  deriving DecidableEq, Repr

def Fault.message : Fault → String
  | tooFewArguments => "not enough arguments for format string"
  | tooManyArguments => "not all arguments converted during string formatting"
  | incomplete => "incomplete format"
  | unknownConversion c position =>
    let shown := if 31 ≤ c.toNat && c.toNat ≤ 126 then c else '?'
    "unsupported format character '" ++ shown.toString ++ "' (0x" ++
      String.ofList (Nat.toDigits 16 c.toNat) ++ ") at index " ++ Numeral.text position
  | named => "format requires a mapping"
  | noMeasure => "* wants int"
  | widthTooBig => "width too big"
  | precisionTooBig => "precision too big"
  | toldWidthTooBig => "Python int too large to convert to C ssize_t"
  | toldPrecisionTooBig => "Python int too large to convert to C int"
  | tooManyDigits => "precision too large"
  | notReal conversion sort =>
    "%" ++ conversion.toString ++ " format: a real number is required, not " ++ sort
  | notInteger conversion sort =>
    "%" ++ conversion.toString ++ " format: an integer is required, not " ++ sort
  | notFloat sort => "must be real number, not " ++ sort
  | infiniteInteger => "cannot convert float infinity to integer"
  | notANumberInteger => "cannot convert float NaN to integer"
  | tooLarge => "int too large to convert to float"
  | notCharacter => "%c requires int or char"
  | characterOutOfRange => "%c arg not in range(0x110000)"
  | noRoom => ""

/-- The greatest width. -/
def maxWidth : Nat := 9223372036854775807

/-- The greatest precision. -/
def maxPrecision : Nat := 2147483647

/-- A width or precision that is told by the next argument, and the arguments after it. -/
def told (tooBig : Fault) (bound : Nat) : List Setting → Except Fault (Int × List Setting)
  | [] => .error .tooFewArguments
  | argument :: rest =>
    match argument with
    | .float _ => .error .noMeasure
    | _ =>
      match argument.toInt? with
      | none => .error .noMeasure
      | some n => if n < -bound - 1 || bound < n then .error tooBig else .ok (n, rest)

/-- The width of a place, the flags that go with it, and the arguments that are left. A width below
zero pads on the right. -/
def widthOf (p : Place) (arguments : List Setting) :
    Except Fault (Nat × Flags × List Setting) :=
  match p.width with
  | .unset => .ok (0, p.flags, arguments)
  | .fixed n => if maxWidth < n then .error .widthTooBig else .ok (n, p.flags, arguments)
  | .argument => do
    let (n, rest) ← told .toldWidthTooBig maxWidth arguments
    return (n.natAbs, { p.flags with left := p.flags.left || n < 0 }, rest)

/-- The precision of a place and the arguments that are left. One below zero stands for zero. -/
def precisionOf (p : Place) (arguments : List Setting) :
    Except Fault (Option Nat × List Setting) :=
  match p.precision with
  | .unset => .ok (none, arguments)
  | .fixed n => if maxPrecision < n then .error .precisionTooBig else .ok (some n, arguments)
  | .argument => do
    let (n, rest) ← told .toldPrecisionTooBig maxPrecision arguments
    return (some n.toNat, rest)

/-- What fills a place. -/
inductive Content where
  | text (body : List Char)
  /-- An integer in a base that has a mark, with at least so many digits. -/
  | integer (n : Int) (base : Nat) (mark : List Char) (digits : Nat)
  /-- A double, rounded to so many decimals or digits. -/
  | double (x : Float) (style : Decimal.Style) (precision : Nat)

/-- The text `s`, cut to the precision. -/
def Content.ofText (precision : Option Nat) (s : String) : Content :=
  .text ((precision.map s.toList.take).getD s.toList)

/-- The integer that a number is cut to for the conversion `c`. -/
def integerFor (c : Char) : Setting → Except Fault Int
  | .int n => .ok n
  | .bool b => .ok (if b then 1 else 0)
  | .float x =>
    match Binary64.decode x with
    | .nan => .error .notANumberInteger
    | .infinite _ => .error .infiniteInteger
    | .finite negative mantissa exponent =>
      let whole : Nat :=
        mantissa * Binary64.twoTo exponent.toNat / Binary64.twoTo (-exponent).toNat
      .ok (if negative then -(whole : Int) else whole)
  | a => .error (.notReal c a.sortName)

/-- The integer for a conversion `c` that cuts nothing. -/
def wholeFor (c : Char) : Setting → Except Fault Int
  | .int n => .ok n
  | .bool b => .ok (if b then 1 else 0)
  | a => .error (.notInteger c a.sortName)

/-- An integer in the given base, with at least as many digits as the precision says. -/
def ofInteger (precision : Option Nat) (base : Nat) (mark : List Char) (n : Int) :
    Except Fault Content :=
  let least := precision.getD 0
  if maxPrecision - 3 < least then .error .tooManyDigits
  else .ok (.integer n base mark least)

/-- The double that a number is rounded to. -/
def doubleFor : Setting → Except Fault Float
  | .float x => .ok x
  | a =>
    match a.toInt? with
    | none => .error (.notFloat a.sortName)
    | some n =>
      match Binary64.ofInt? n with
      | some x => .ok x
      | none => .error .tooLarge

/-- The decimals or digits of a rounded number when no precision is given. -/
def defaultPrecision : Nat := 6

def ofDouble (precision : Option Nat) (style : Decimal.Style) (x : Float) : Content :=
  .double x style (precision.getD defaultPrecision)

/-- The character that a text of one character or a code point stands for. -/
def characterFor : Setting → Except Fault Char
  | .text s =>
    match s.toList with
    | [c] => .ok c
    | _ => .error .notCharacter
  | .int n =>
    if 0 ≤ n && n < 0x110000 then .ok (Char.ofNat n.toNat) else .error .characterOutOfRange
  | .bool b => .ok (Char.ofNat (if b then 1 else 0))
  | _ => .error .notCharacter

/-- What fills a place with the conversion `c`, which stands at `position` in the template. -/
def convert (precision : Option Nat) (c : Char) (position : Nat) (argument : Setting) :
    Except Fault Content :=
  match c with
  | 's' => .ok (.ofText precision argument.plain)
  | 'r' => .ok (.ofText precision argument.display)
  | 'a' => .ok (.ofText precision (Text.asciiOnly argument.display))
  | 'd' | 'i' | 'u' => do ofInteger precision 10 [] (← integerFor c argument)
  | 'o' => do ofInteger precision 8 ['0', 'o'] (← wholeFor c argument)
  | 'x' | 'X' => do ofInteger precision 16 ['0', 'x'] (← wholeFor c argument)
  | 'e' | 'E' => do return ofDouble precision .scientific (← doubleFor argument)
  | 'f' | 'F' => do return ofDouble precision .fixed (← doubleFor argument)
  | 'g' | 'G' => do return ofDouble precision .general (← doubleFor argument)
  | 'c' => do return .text [← characterFor argument]
  | _ => .error (.unknownConversion c position)

/-- A place with what fills it. Numbers are in capitals if their conversion is. -/
structure FilledPlace where
  content : Content
  flags : Flags
  width : Nat
  capitals : Bool

/-- What fills a place, and the arguments that are left. -/
def Place.fill (p : Place) (arguments : List Setting) :
    Except Fault (FilledPlace × List Setting) := do
  let (width, flags, arguments) ← widthOf p arguments
  let (precision, arguments) ← precisionOf p arguments
  match p.conversion, arguments with
  | none, _ => .error .incomplete
  | some _, [] => .error .tooFewArguments
  | some (c, position), argument :: rest =>
    let content ← convert precision c position argument
    if LongText.maxLength < width then .error .noRoom
    else .ok (⟨content, flags, width, c.isUpper⟩, rest)

/-! ### Writing -/

/-- The text for a place before it is padded: for a number its sign, the mark of its base and the
rest, for all else only the rest. -/
structure Parts where
  sign : List Char
  mark : List Char
  body : List Char
  numeric : Bool
  deriving DecidableEq, Repr

/-- The sign of a number as the flags ask for it. -/
def signFor (flags : Flags) (negative : Bool) : List Char :=
  if negative then ['-'] else if flags.sign then ['+'] else if flags.room then [' '] else []

def Content.parts (flags : Flags) : Content → Parts
  | text body => ⟨[], [], body, false⟩
  | integer n base mark least =>
    let ds := Nat.toDigits base n.natAbs
    ⟨signFor flags (n < 0), if flags.full then mark else [],
      List.replicate (least - ds.length) '0' ++ ds, true⟩
  | double x style precision =>
    match Decimal.rounded style precision flags.full x with
    | '-' :: body => ⟨signFor flags true, [], body, true⟩
    | body => ⟨signFor flags false, [], body, true⟩

def Parts.upper (p : Parts) : Parts :=
  { p with mark := p.mark.map Char.toUpper, body := p.body.map Char.toUpper }

/-- Pads to the width. Zeros stand between the mark of a number and its digits. -/
def Parts.pad (p : Parts) (flags : Flags) (width : Nat) : List Char :=
  let missing := width - (p.sign.length + p.mark.length + p.body.length)
  if flags.left then p.sign ++ p.mark ++ p.body ++ List.replicate missing ' '
  else if flags.zero && p.numeric then p.sign ++ p.mark ++ List.replicate missing '0' ++ p.body
  else List.replicate missing ' ' ++ p.sign ++ p.mark ++ p.body

def FilledPlace.write (f : FilledPlace) : List Char :=
  let parts := f.content.parts f.flags
  (if f.capitals then parts.upper else parts).pad f.flags f.width

/-- A piece of a template in which all places are filled. -/
inductive FilledPiece where
  | char (c : Char)
  | place (f : FilledPlace)

def FilledPiece.write : FilledPiece → List Char
  | char c => [c]
  | place f => f.write

/-- The pieces of a template with the arguments in their places. -/
def fillPieces : List Piece → List Setting → Except Fault (List FilledPiece)
  | [], [] => .ok []
  | [], _ :: _ => .error .tooManyArguments
  | .char c :: rest, arguments => (fillPieces rest arguments).map (.char c :: ·)
  | .named :: _, _ => .error .named
  | .place p :: rest, arguments =>
    match p.fill arguments with
    | .error e => .error e
    | .ok (filled, left) => (fillPieces rest left).map (.place filled :: ·)

/-- A template with the arguments in its places. -/
def fill (template : String) (arguments : List Setting) : Except Fault String :=
  (fillPieces (read template) arguments).map fun pieces =>
    String.ofList (pieces.flatMap FilledPiece.write)

end TurtleGraphics.Template
