/-!
Programs: the instructions of a text in order, with the lines they were read from.

Positions below zero count from the end. Two programs are equal if their instructions are; the
lines serve only to quote the source. The functions ask nothing of the instructions.
-/
set_option autoImplicit false

namespace TurtleGraphics

structure Program (ι : Type) where
  instructions : List ι
  lines : List String

namespace Program

variable {ι : Type}

def size (p : Program ι) : Nat := p.instructions.length

/-- The element of `items` at a position, counted from the end if it is below zero. -/
def at? {α : Type} (items : List α) (i : Int) : Option α :=
  if 0 ≤ i then items[i.toNat]?
  else if -(items.length : Int) ≤ i then items[(items.length + i).toNat]?
  else none

def get? (p : Program ι) (i : Int) : Option ι := at? p.instructions i

/-- The least and the greatest position that can be asked for at all. -/
def positionBounds : Int × Int := (-9223372036854775808, 9223372036854775807)

/-- The failure to find the position `i` in a sequence called `sequence`. -/
def missingMessage (sequence : String) (i : Int) : String :=
  if positionBounds.1 ≤ i && i ≤ positionBounds.2 then sequence ++ " index out of range"
  else "cannot fit 'int' into an index-sized integer"

theorem get?_ofNat (p : Program ι) (i : Nat) : p.get? i = p.instructions[i]? := by
  simp [get?, at?]

/-- The source of the instruction at `i`, or the text that `write` gives for it if there is no such
line. -/
def sourceLine? (p : Program ι) (write : ι → String) (i : Int) : Option String :=
  if i < p.lines.length then at? p.lines i else (p.get? i).map write

/-- The first position at which an instruction satisfies `accepts`. -/
def find? (p : Program ι) (accepts : ι → Bool) : Option Nat := p.instructions.findIdx? accepts

def count (p : Program ι) (accepts : ι → Bool) : Nat := p.instructions.countP accepts

def contains (p : Program ι) (accepts : ι → Bool) : Bool := p.instructions.any accepts

/-- The display of a program whose instructions are displayed by `write`. -/
def display (p : Program ι) (write : ι → String) : String :=
  "Program([" ++ ", ".intercalate (p.instructions.map write) ++ "])"

def reversed (p : Program ι) : List ι := p.instructions.reverse

/-- A bound of a slice as a position between `lowest` and `highest`, counted from the end if it is
below zero. -/
def clamp (size lowest highest : Int) (bound : Int) : Int :=
  let i := if bound < 0 then bound + size else bound
  max lowest (min highest i)

/-- Every `step`-th position from `first` up to `last`, which is left out. -/
def stride (first last step : Int) : List Int :=
  let count :=
    if 0 < step then (last - first + step - 1) / step
    else (first - last - step - 1) / (-step)
  (List.range count.toNat).map fun (k : Nat) => first + k * step

/-- The instructions at every `step`-th position from `start` up to `stop`, which is left out. With
a negative step the positions go down. A missing bound is the end of the program at which the walk
begins or ends. There is no walk in steps of zero. -/
def slice? (p : Program ι) (start stop : Option Int) (step : Int) : Option (List ι) :=
  let n : Int := p.size
  let positions :=
    if 0 < step then
      stride ((start.map (clamp n 0 n)).getD 0) ((stop.map (clamp n 0 n)).getD n) step
    else
      stride ((start.map (clamp n (-1) (n - 1))).getD (n - 1))
        ((stop.map (clamp n (-1) (n - 1))).getD (-1)) step
  if step = 0 then none else some (positions.filterMap fun i => p.instructions[i.toNat]?)

end Program

end TurtleGraphics
