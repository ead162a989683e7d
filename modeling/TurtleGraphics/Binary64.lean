/-!
Double-precision numbers as exact values.

A finite double is a whole number of units 2^e. Both directions are exact: `decode` gives the sign,
the number of units and the exponent, and `ofNat?` rounds a natural number to the nearest double,
a tie to the even one.
-/
set_option autoImplicit false

namespace TurtleGraphics.Binary64

/-- The value of a double. -/
inductive Value where
  | nan
  | infinite (negative : Bool)
  /-- `mantissa` times two to the power of `exponent`. -/
  | finite (negative : Bool) (mantissa : Nat) (exponent : Int)
  deriving DecidableEq, Repr

def twoTo (n : Nat) : Nat := Nat.pow 2 n

/-- The least mantissa of a number that is not subnormal. -/
def hidden : Nat := twoTo 52

def decode (x : Float) : Value :=
  let bits := x.toBits.toNat
  let negative : Bool := twoTo 63 ≤ bits
  let biased : Nat := bits / hidden % twoTo 11
  let fraction : Nat := bits % hidden
  if biased = 2047 then
    if fraction = 0 then .infinite negative else .nan
  else if biased = 0 then .finite negative fraction (-1074)
  else .finite negative (hidden + fraction) ((biased : Int) - 1075)

/-- `n` divided by two to the power of `shift`, rounded to the nearest whole number, a tie to the
even one. -/
def roundShift (n shift : Nat) : Nat :=
  let unit := twoTo shift
  let quotient := n / unit
  let twice := 2 * (n % unit)
  if twice < unit then quotient
  else if unit < twice then quotient + 1
  else quotient + quotient % 2

/-- The bits of the double nearest to `n`; none if that would be 2^1024 or more. -/
def bitsOfNat? (n : Nat) : Option Nat :=
  if n = 0 then some 0
  else
    let exponent := n.log2
    let mantissa :=
      if exponent ≤ 52 then n * twoTo (52 - exponent) else roundShift n (exponent - 52)
    -- A mantissa that was rounded up to 2^53 carries into the exponent.
    let bits := (exponent + 1022) * hidden + mantissa
    if bits < 2047 * hidden then some bits else none

/-- The double nearest to `n`; none if that would be 2^1024 or more. -/
def ofNat? (n : Nat) : Option Float :=
  (bitsOfNat? n).map fun bits => Float.ofBits (UInt64.ofNat bits)

/-- The double nearest to `n`; none if its size would be 2^1024 or more. -/
def ofInt? (n : Int) : Option Float :=
  (ofNat? n.natAbs).map fun x => if n < 0 then -x else x

/-- The integer that a double is equal to, if there is one. -/
def toInt? (x : Float) : Option Int :=
  match decode x with
  | .finite negative mantissa exponent =>
    let whole : Option Nat :=
      if 0 ≤ exponent then some (mantissa * twoTo exponent.toNat)
      else
        let unit := twoTo (-exponent).toNat
        if mantissa % unit = 0 then some (mantissa / unit) else none
    whole.map fun n => if negative then -(n : Int) else n
  | _ => none

end TurtleGraphics.Binary64
