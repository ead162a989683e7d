import TurtleGraphics.Decimal.Layout
/-!
Doubles rounded to a given number of decimals or of digits.

The rounding is exact: the fraction that a double is equal to is rounded to the nearest decimal of
the wanted form, a tie to the one with an even last digit.
-/
set_option autoImplicit false

namespace TurtleGraphics.Decimal

/-- The form in which a rounded number is written. -/
inductive Style where
  /-- As many decimals as the precision says. -/
  | fixed
  /-- One digit, as many decimals as the precision says, and an exponent. -/
  | scientific
  /-- As many digits as the precision says, with an exponent if it is below -4 or not below the
  precision. Zeros at the end are left out. -/
  | general
  deriving DecidableEq, Repr

/-- `n / d` rounded to the nearest whole number, a tie to the even one. -/
def roundDiv (n d : Nat) : Nat :=
  let quotient := n / d
  let twice := 2 * (n % d)
  if twice < d then quotient
  else if d < twice then quotient + 1
  else quotient + quotient % 2

/-- The fraction `n / d` with the given number of decimals. A whole number ends in `tail`. -/
def writeFixed (places : Nat) (tail : List Char) (n d : Nat) : List Char :=
  let ds := padded (places + 1) (roundDiv (n * tenTo places) d)
  let whole := ds.length - places
  ds.take whole ++ (if places = 0 then tail else '.' :: ds.drop whole)

/-- The `count` most significant digits of the fraction `n / d`. -/
def significant (count n d : Nat) : Digits :=
  if n = 0 then ⟨List.replicate count '0', 0⟩
  else
    let top := magnitude n d
    let unit := top - (count - 1 : Nat)
    let ds := Nat.toDigits 10 (roundDiv (n * tenTo (-unit).toNat) (d * tenTo unit.toNat))
    -- Rounding up can add a digit, and then the last one is a zero.
    if count < ds.length then ⟨ds.take count, top + 1⟩ else ⟨ds, top⟩

/-- The least number of digits of an exponent. -/
def exponentWidth : Nat := 2

/-- The fraction `n / d` with `count` digits. With `full` all of them are written. -/
def writeGeneral (count : Nat) (full : Bool) (n d : Nat) : List Char :=
  let all := significant count n d
  let shown := if full then all else { all with digits := trimZeros all.digits }
  let tail := if full then ['.'] else []
  if all.exponent < -4 || (count : Int) ≤ all.exponent then scientific tail exponentWidth shown
  else positional tail shown

/-- The rounded form of a double. With `full` there is always a point, and no zero is left out. -/
def rounded (style : Style) (precision : Nat) (full : Bool) (x : Float) : List Char :=
  let tail := if full then ['.'] else []
  let body (n d : Nat) : List Char :=
    match style with
    | .fixed => writeFixed precision tail n d
    | .scientific => scientific tail exponentWidth (significant (precision + 1) n d)
    | .general => writeGeneral (max 1 precision) full n d
  let signed (negative : Bool) (written : List Char) := if negative then '-' :: written else written
  match Binary64.decode x with
  | .nan => display.notANumber.toList
  | .infinite negative => signed negative display.infinity.toList
  | .finite negative mantissa exponent =>
    signed negative
      (body (mantissa * Binary64.twoTo exponent.toNat) (Binary64.twoTo (-exponent).toNat))

end TurtleGraphics.Decimal
