import TurtleGraphics.Tree.Action
import TurtleGraphics.Turtle
/-!
Sessions: a canvas, the options of the current turtle, and the programs known so far, which were
read from scripts or put together from trees.

An operation that fails, at whatever stage, leaves the canvas and the options as they were. The
canvas gets a drawing only after the whole of a run has succeeded.
-/
set_option autoImplicit false

namespace TurtleGraphics

variable {P H : Type}

/-- A program that a session knows. -/
inductive Listing where
  /-- A program that was read from a script. -/
  | read (p : Program Instruction)
  /-- A program that was put together from trees. -/
  | built (p : Program Tree)

structure Session (P H : Type) where
  canvas : Canvas P H
  options : Options
  programs : List Listing

namespace Session

/-- Where a drawing goes after a run. -/
inductive Sink where
  | canvas
  | nowhere
  /-- A surface that cannot take a drawing. -/
  | abstract
  deriving DecidableEq, Repr

/-- What is to be run. -/
inductive Source where
  | text (script : String)
  | listing (l : Listing)

/-- What is asked of a session. -/
inductive Request where
  | create (settings : List (String × Setting))
  | set (name : String) (value : Setting)
  | get (name : String)
  /-- Reads a script as the options say. -/
  | parse (script : String)
  /-- Reads a script in the given mode, whatever the options say. -/
  | load (strict : Bool) (script : String)
  /-- Adds a program that was put together from trees. -/
  | add (p : Program Tree)
  | run (source : Source) (sink : Sink)

inductive Answer (P H : Type) where
  | created (o : Options)
  | done
  | value (v : Setting)
  | program (l : Listing)
  | drawing (d : Drawing P H)

inductive Fault where
  | options (e : Options.Fault)
  /-- There is no option of this name to read. -/
  | noOption (name : String)
  | script (e : Script.Fault)
  | machine (e : Machine.Fault Tree.Misuse)
  /-- The sink cannot take the drawing. -/
  | abstractSink

/-- The outcome of a request, the log of it, and the session after it. -/
structure Reply (P H : Type) where
  answer : Except Fault (Answer P H)
  log : List Log.Record
  session : Session P H

def start : Session P H := ⟨.empty, .default, []⟩

/-- A reply that leaves the session as it was. -/
def refuse (s : Session P H) (e : Fault) (log : List Log.Record) : Reply P H :=
  ⟨.error e, log, s⟩

/-- Hands a finished drawing to a sink. -/
def deliver (s : Session P H) (d : Drawing P H) (log : List Log.Record) : Sink → Reply P H
  | .canvas => ⟨.ok (.drawing d), log, { s with canvas := s.canvas.draw d }⟩
  | .nowhere => ⟨.ok (.drawing d), log, s⟩
  | .abstract => s.refuse .abstractSink log

/-- Adds a program to those that are known. -/
def keep (s : Session P H) (l : Listing) (log : List Log.Record) : Reply P H :=
  ⟨.ok (.program l), log, { s with programs := s.programs ++ [l] }⟩

/-- Reads a script and keeps the program. -/
def read (s : Session P H) (strict : Bool) (script : String) : Reply P H :=
  match Turtle.parse strict script with
  | (.ok p, log) => s.keep (.read p) log
  | (.error e, log) => s.refuse (.script e) log

/-- A failure of a machine on instructions of the language, none of which is ever misused. -/
def ofMachine (e : Machine.Fault Empty) : Fault := .machine (e.map Empty.elim)

/-- The drawing of a source under some options, and the log of its run. -/
def draw (plane : Plane P H) (o : Options) : Source → Except Fault (Drawing P H) × List Log.Record
  | .text script =>
    match Turtle.run plane o script with
    | (.ok d, log) => (.ok d, log)
    | (.error (.script e), log) => (.error (.script e), log)
    | (.error (.machine e), log) => (.error (ofMachine e), log)
  | .listing (.read p) =>
    match Turtle.runProgram Instruction.language plane o p with
    | (.ok d, log) => (.ok d, log)
    | (.error e, log) => (.error (ofMachine e), log)
  | .listing (.built p) =>
    match Turtle.runProgram Tree.language plane o p with
    | (.ok d, log) => (.ok d, log)
    | (.error e, log) => (.error (.machine e), log)

def reply (plane : Plane P H) (s : Session P H) : Request → Reply P H
  | .create settings =>
    match Options.ofSettings .create settings with
    | .ok o => ⟨.ok (.created o), [], { s with options := o }⟩
    | .error e => s.refuse (.options e) []
  | .set name value =>
    match s.options.set name value with
    | .ok o => ⟨.ok .done, [], { s with options := o }⟩
    | .error e => s.refuse (.options e) []
  | .get name =>
    match s.options.get? name with
    | some v => ⟨.ok (.value v), [], s⟩
    | none => s.refuse (.noOption name) []
  | .parse script => s.read s.options.strictKeywords script
  | .load strict script => s.read strict script
  | .add p => s.keep (.built p) []
  | .run source sink =>
    match draw plane s.options source with
    | (.ok d, log) => s.deliver d log sink
    | (.error e, log) => s.refuse e log

end Session

end TurtleGraphics
