import TurtleGraphics.Binary64
/-!
The shortest decimal that reads back as a given binary number.

The number is `mantissa` times two to the power of `exponent`, and its neighbours are one unit of
the mantissa away, below a power of two half a unit. A decimal reads back as the number if it lies
between the middles to both neighbours, the middles included if the mantissa is even. Of the
decimals with the fewest digits the nearest is taken, of two equally near the one with an even last
digit.
-/
set_option autoImplicit false

namespace TurtleGraphics.Decimal

/-- The decimal d₁.d₂d₃… times ten to the power of `exponent`. -/
structure Digits where
  digits : List Char
  exponent : Int
  deriving DecidableEq, Repr

/-- The fraction `value / scale` and the bounds between which a decimal reads back as it. -/
structure Window where
  low : Nat
  value : Nat
  high : Nat
  scale : Nat
  /-- The bounds themselves read back too. -/
  closed : Bool
  deriving Repr

def tenTo (n : Nat) : Nat := Nat.pow 10 n

/-- The window of a double. -/
def window (mantissa : Nat) (exponent : Int) : Window :=
  let up := Binary64.twoTo (exponent - 2).toNat
  let below := if mantissa = Binary64.hidden && exponent > -1074 then 1 else 2
  { low := (4 * mantissa - below) * up
    value := 4 * mantissa * up
    high := (4 * mantissa + 2) * up
    scale := Binary64.twoTo (2 - exponent).toNat
    closed := mantissa % 2 = 0 }

/-- The exponent of the greatest power of ten that `value / scale` reaches. -/
def magnitude (value scale : Nat) : Int :=
  if scale ≤ value then ((Nat.toDigits 10 (value / scale)).length : Int) - 1
  else -((Nat.toDigits 10 ((scale - 1) / value)).length : Int)

/-- The window in units of ten to the power of `exponent`. -/
def Window.inUnits (w : Window) (exponent : Int) : Window :=
  let up := tenTo (-exponent).toNat
  { w with
    low := w.low * up
    value := w.value * up
    high := w.high * up
    scale := w.scale * tenTo exponent.toNat }

def Window.holds (w : Window) (k : Nat) : Bool :=
  if w.closed then w.low ≤ k * w.scale && k * w.scale ≤ w.high
  else w.low < k * w.scale && k * w.scale < w.high

/-- The whole number nearest to the value, if one of its two neighbours lies in the window. -/
def Window.nearest? (w : Window) : Option Nat :=
  let k := w.value / w.scale
  let past := w.value - k * w.scale
  let left := (k + 1) * w.scale - w.value
  match w.holds k, w.holds (k + 1) with
  | true, true =>
    if past < left then some k else if left < past then some (k + 1) else some (k + k % 2)
  | true, false => some k
  | false, true => some (k + 1)
  | false, false => none

/-- The most digits that a double needs. -/
def maxDigits : Nat := 17

/-- Drops the zeros at the end, but not the first digit. -/
def trimZeros : List Char → List Char
  | [] => []
  | d :: rest => d :: (rest.reverse.dropWhile (· = '0')).reverse

/-- The shortest decimal for a positive double. -/
def shortest (mantissa : Nat) (exponent : Int) : Digits :=
  let w := window mantissa exponent
  let top := magnitude w.value w.scale
  let candidate (n : Nat) : Option Digits :=
    let unit := top - n
    (w.inUnits unit).nearest?.map fun k =>
      let ds := Nat.toDigits 10 k
      ⟨trimZeros ds, unit + ds.length - 1⟩
  ((List.range maxDigits).findSome? candidate).getD ⟨['0'], 0⟩

end TurtleGraphics.Decimal
