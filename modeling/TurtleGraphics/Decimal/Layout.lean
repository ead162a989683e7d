import TurtleGraphics.Binary64
import TurtleGraphics.Decimal.Shortest
/-!
The written form of a double: its shortest decimal, laid out as a record of decisions says.
-/
set_option autoImplicit false

namespace TurtleGraphics.Decimal

/-- How numbers are laid out. -/
structure Layout where
  /-- The least exponent that is written without an exponent part. -/
  positionalFrom : Int
  /-- The least exponent above it that is written with an exponent part again. -/
  exponentFrom : Int
  /-- The least number of digits of the exponent. -/
  exponentDigits : Nat
  infinity : String
  notANumber : String

def padded (width n : Nat) : List Char :=
  let ds := Nat.toDigits 10 n
  List.replicate (width - ds.length) '0' ++ ds

/-- Writes digits without an exponent part. A whole number ends in `tail`. -/
def positional (tail : List Char) (d : Digits) : List Char :=
  if d.exponent < 0 then
    '0' :: '.' :: List.replicate (-d.exponent - 1).toNat '0' ++ d.digits
  else
    let whole := (d.exponent + 1).toNat
    let fraction := d.digits.drop whole
    d.digits.take whole ++ List.replicate (whole - d.digits.length) '0' ++
      (if fraction.isEmpty then tail else '.' :: fraction)

/-- Writes digits with one digit before the point and an exponent part. A single digit is followed
by `tail`. -/
def scientific (tail : List Char) (exponentDigits : Nat) (d : Digits) : List Char :=
  let fraction := d.digits.drop 1
  d.digits.take 1 ++ (if fraction.isEmpty then tail else '.' :: fraction) ++
    'e' :: (if d.exponent < 0 then '-' else '+') :: padded exponentDigits d.exponent.natAbs

def Layout.digits (l : Layout) (d : Digits) : List Char :=
  if l.positionalFrom ≤ d.exponent && d.exponent < l.exponentFrom then positional ['.', '0'] d
  else scientific [] l.exponentDigits d

/-- The written form of a double. -/
def Layout.write (l : Layout) (x : Float) : String :=
  let signed (negative : Bool) (body : String) := if negative then "-" ++ body else body
  match Binary64.decode x with
  | .nan => l.notANumber
  | .infinite negative => signed negative l.infinity
  | .finite negative 0 _ => signed negative "0.0"
  | .finite negative mantissa exponent =>
    signed negative (String.ofList (l.digits (shortest mantissa exponent)))

/-- Numbers from 0.0001 to below 10^16 have no exponent part, and an exponent has two digits or
more. -/
def display : Layout := ⟨-4, 16, 2, "inf", "nan"⟩

end TurtleGraphics.Decimal
