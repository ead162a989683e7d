/-!
Drawings, and the cursor that draws them.

The geometry is a parameter: a `Plane` says where a cursor starts and how positions and headings
change. A recorder moves a cursor and keeps what it draws; a move that fails leaves no trace.
-/
set_option autoImplicit false

namespace TurtleGraphics

/-- Why a plane cannot follow a movement. -/
inductive Plane.Fault where
  /-- A length or an angle is beyond the numbers of the plane. -/
  | tooLarge
  /-- The heading has no direction. -/
  | noDirection
  deriving DecidableEq, Repr

def Plane.Fault.message : Plane.Fault → String
  | tooLarge => "int too large to convert to float"
  | noDirection => "math domain error"

/-- A geometry with positions `P` and headings `H`. -/
structure Plane (P H : Type) where
  home : P
  up : H
  /-- The position after a move of some length along a heading. -/
  advance : P → H → Int → Except Plane.Fault P
  /-- The heading after a turn, counterclockwise, by an angle in degrees. -/
  turn : H → Int → Except Plane.Fault H

structure Cursor (P H : Type) where
  position : P
  heading : H
  penDown : Bool
  deriving DecidableEq, Repr

inductive Event (P : Type) where
  /-- A line drawn by a move with the pen down. -/
  | segment (start stop : P)
  | pen (down : Bool)
  deriving DecidableEq, Repr

/-- A drawing in progress. -/
structure Recorder (P H : Type) where
  cursor : Cursor P H
  /-- What has been drawn, the newest first. -/
  trace : List (Event P)
  deriving DecidableEq, Repr

namespace Recorder

variable {P H : Type}

/-- At home, heading up, with the pen down. -/
def start (plane : Plane P H) : Recorder P H := ⟨⟨plane.home, plane.up, true⟩, []⟩

/-- What has been drawn, in order. -/
def events (r : Recorder P H) : List (Event P) := r.trace.reverse

def move (plane : Plane P H) (r : Recorder P H) (length : Int) :
    Except Plane.Fault (Recorder P H) :=
  match plane.advance r.cursor.position r.cursor.heading length with
  | .ok stop =>
    .ok ⟨{ r.cursor with position := stop },
      if r.cursor.penDown then .segment r.cursor.position stop :: r.trace else r.trace⟩
  | .error e => .error e

def rotate (plane : Plane P H) (r : Recorder P H) (degrees : Int) :
    Except Plane.Fault (Recorder P H) :=
  match plane.turn r.cursor.heading degrees with
  | .ok heading => .ok { r with cursor := { r.cursor with heading } }
  | .error e => .error e

def pen (r : Recorder P H) (down : Bool) : Recorder P H :=
  ⟨{ r.cursor with penDown := down }, .pen down :: r.trace⟩

end Recorder

/-- What a run has drawn, where its cursor ended, and how many instructions it executed. -/
structure Drawing (P H : Type) where
  events : List (Event P)
  cursor : Cursor P H
  steps : Nat
  deriving DecidableEq, Repr

def Event.isSegment {P : Type} : Event P → Bool
  | segment .. => true
  | pen _ => false

def Drawing.segments {P H : Type} (d : Drawing P H) : List (Event P) :=
  d.events.filter Event.isSegment

/-- A surface that keeps the drawing it was given last, and counts how many it was given. -/
structure Canvas (P H : Type) where
  drawing : Option (Drawing P H)
  updates : Nat
  deriving DecidableEq, Repr

namespace Canvas

variable {P H : Type}

def empty : Canvas P H := ⟨none, 0⟩

def draw (c : Canvas P H) (d : Drawing P H) : Canvas P H := ⟨some d, c.updates + 1⟩

def segments (c : Canvas P H) : List (Event P) :=
  match c.drawing with
  | some d => d.segments
  | none => []

/-- The cursor, which shows only while its pen is down. -/
def turtle (c : Canvas P H) : Option (Cursor P H) :=
  match c.drawing with
  | some d => if d.cursor.penDown then some d.cursor else none
  | none => none

end Canvas

end TurtleGraphics
