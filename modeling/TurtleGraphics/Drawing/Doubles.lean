import TurtleGraphics.Binary64
import TurtleGraphics.Drawing
/-!
The plane of double-precision coordinates.

Headings are angles in radians, counterclockwise from the positive x axis. The position at which a
drawing starts is kept apart from the points reached by moves: it is at the origin, but it is
written as a whole number.
-/
set_option autoImplicit false

namespace TurtleGraphics

inductive Position where
  | home
  | point (x y : Float)
  deriving DecidableEq, Repr

namespace Position

def x : Position → Float
  | home => 0
  | point x _ => x

def y : Position → Float
  | home => 0
  | point _ y => y

end Position

namespace Plane

/-- The double nearest to π. -/
def pi : Float := Float.ofBits 0x400921fb54442d18

def radians (degrees : Float) : Float := degrees * (pi / 180)

/-- An infinite heading has no direction; this is found before a length that is too large. -/
def advanceDouble (position : Position) (heading : Float) (length : Int) :
    Except Fault Position :=
  if heading.isInf then .error .noDirection
  else
    match Binary64.ofInt? length with
    | none => .error .tooLarge
    | some d => .ok (.point (position.x + d * heading.cos) (position.y + d * heading.sin))

def turnDouble (heading : Float) (degrees : Int) : Except Fault Float :=
  match Binary64.ofInt? degrees with
  | none => .error .tooLarge
  | some d => .ok (heading + radians d)

/-- The plane of doubles, with the origin as home and the positive y axis as up. -/
def doubles : Plane Position Float := ⟨.home, pi / 2, advanceDouble, turnDouble⟩

end Plane

end TurtleGraphics
