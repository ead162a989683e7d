/-!
Decimal numerals for integers of any size.

Reading and writing are inverse: the digits of a number read back as that number. A numeral with
more than 4300 digits is not read.
-/
set_option autoImplicit false

namespace TurtleGraphics.Numeral

/-- The most digits a numeral may have; leading zeros count, the sign does not. -/
def maxDigits : Nat := 4300

/-- The decimal digits of `n`, most significant first. -/
def digits (n : Nat) : List Char := Nat.toDigits 10 n

/-- The number that a list of decimal digits stands for. -/
def value (ds : List Char) : Nat := Nat.ofDigitChars 10 ds 0

theorem value_digits (n : Nat) : value (digits n) = n :=
  Nat.ofDigitChars_toDigits (by decide) (by decide)

/-- `n` in decimal, after a minus sign if it is negative. -/
def write (n : Int) : List Char :=
  if n < 0 then '-' :: digits n.natAbs else digits n.natAbs

def text (n : Int) : String := String.ofList (write n)

/-- The failure to read a numeral of `count` digits. -/
def overlongMessage (count : Nat) : String :=
  "Exceeds the limit (4300 digits) for integer string conversion: value has " ++
    text count ++ " digits; use sys.set_int_max_str_digits() to increase the limit"

end TurtleGraphics.Numeral
