import TurtleGraphics.Decimal.Layout
import TurtleGraphics.Drawing.Doubles
import TurtleGraphics.Numeral
import TurtleGraphics.Text.Quoted
/-!
Drawings in a readable form.
-/
set_option autoImplicit false

namespace TurtleGraphics

namespace Position

/-- A coordinate of the home position is a whole zero. -/
def displayX : Position → String
  | home => "0"
  | point x _ => Decimal.display.write x

def displayY : Position → String
  | home => "0"
  | point _ y => Decimal.display.write y

end Position

def Cursor.display (c : Cursor Position Float) : String :=
  "Cursor(x=" ++ c.position.displayX ++ ", y=" ++ c.position.displayY ++ ", angle=" ++
    Decimal.display.write c.heading ++ ", pen_down=" ++ Text.displayBool c.penDown ++ ")"

def Event.display : Event Position → String
  | segment start stop =>
    "Segment(x0=" ++ start.displayX ++ ", y0=" ++ start.displayY ++ ", x1=" ++ stop.displayX ++
      ", y1=" ++ stop.displayY ++ ")"
  | pen down => "PenChange(down=" ++ Text.displayBool down ++ ")"

def Drawing.display (d : Drawing Position Float) : String :=
  "Drawing(" ++ Numeral.text d.segments.length ++ " segments, steps=" ++ Numeral.text d.steps ++
    ", cursor=" ++ d.cursor.display ++ ")"

end TurtleGraphics
