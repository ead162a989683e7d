import TurtleGraphics.Drawing
import TurtleGraphics.Error
import TurtleGraphics.Machine.Language
import TurtleGraphics.Program
/-!
The machine that executes programs.

A state holds the variables, the position of the next instruction and a stack with one return
position per open block. A step executes one instruction. A step that fails counts, but changes
nothing else. Entering a block that does not repeat pushes the position after its end, entering one
that repeats the position at which it begins, and the end of a block goes on at the position on top.

Positions are integers. Below zero they count from the end of the program; only a caller can bring
them about.
-/
set_option autoImplicit false

namespace TurtleGraphics.Machine

variable {ι E ε P H : Type}

structure State (E P H : Type) where
  env : E
  /-- Return positions, the innermost block first. -/
  jumps : List Int
  /-- The position of the next instruction. -/
  index : Int
  steps : Nat
  recorder : Recorder P H
  deriving DecidableEq, Repr

/-- Why a step fails. -/
inductive Fault (ε : Type) where
  | run (e : RunError)
  /-- A move was made along a heading that has no direction. -/
  | noDirection
  /-- This position lies before the program. -/
  | outside (position : Int)
  /-- The program has already ended. -/
  | finished
  | misuse (m : ε)
  deriving DecidableEq, Repr

namespace Fault

/-- A failure with a cause and no line yet. -/
def of (cause : Cause) : Fault ε := .run ⟨cause, none⟩

def ofFailure : Failure ε → Fault ε
  | .unbound name => of (.unknownVariable name)
  | .misuse m => .misuse m

/-- Gives a line to an error of the run that has none yet. -/
def atLine (line : Int) : Fault ε → Fault ε
  | .run e => .run (e.atLine line)
  | f => f

/-- The same fault where misuses are known in another form. -/
def map {δ : Type} (f : ε → δ) : Fault ε → Fault δ
  | .run e => .run e
  | .noDirection => .noDirection
  | .outside position => .outside position
  | .finished => .finished
  | .misuse m => .misuse (f m)

def message (tell : ε → String) : Fault ε → String
  | .run e => e.report.text
  | .noDirection => Plane.Fault.noDirection.message
  | .outside position => Program.missingMessage "tuple" position
  | .finished => ""
  | .misuse m => tell m

end Fault

/-- The state in which a run begins. -/
def start (lang : Language ι E ε) (plane : Plane P H) : State E P H :=
  ⟨lang.blank, [], 0, 0, .start plane⟩

namespace State

def finished (s : State E P H) (program : Program ι) : Bool := program.size ≤ s.index

def push (s : State E P H) (position : Int) : State E P H :=
  { s with jumps := position :: s.jumps }

/-- The innermost return position, and the state without it. -/
def pop (s : State E P H) : Except (Fault ε) (Int × State E P H) :=
  match s.jumps with
  | [] => .error (.of .strayClose)
  | position :: rest => .ok (position, { s with jumps := rest })

/-- Goes on at `position`. -/
def goto (s : State E P H) (position : Int) : State E P H := { s with index := position }

/-- Goes on at the next instruction. -/
def advance (s : State E P H) : State E P H := s.goto (s.index + 1)

/-- The state with one more step counted. -/
def counted (s : State E P H) : State E P H := { s with steps := s.steps + 1 }

end State

/-- The position of the end of the block opened at `start`. -/
def blockEnd (lang : Language ι E ε) (program : Program ι) (start : Int) :
    Except (Fault ε) Int :=
  match Block.closer lang.role program.instructions start with
  | .ok stop => .ok stop
  | .error .unclosed => .error (.run ⟨.unclosedBlock (start + 1), some (start + 1)⟩)
  | .error (.outside position) => .error (.outside position)
  | .error (.noRole m) => .error (.misuse m)

/-- The state after a movement, or why the plane did not allow it. -/
def moved (s : State E P H) (tooLarge : Cause) (outcome : Except Plane.Fault (Recorder P H)) :
    Except (Fault ε) (State E P H) :=
  match outcome with
  | .ok recorder => .ok { s with recorder }.advance
  | .error .tooLarge => .error (.of tooLarge)
  | .error .noDirection => .error .noDirection

/-- The state after an action at the current position. A move by something that is no length is
refused for the heading first, as a move by zero would be. -/
def perform (lang : Language ι E ε) (plane : Plane P H) (program : Program ι) (s : State E P H) :
    Action E ε → Except (Fault ε) (State E P H)
  | .move length => moved s .lengthTooLarge (s.recorder.move plane length)
  | .stray m => do
    let _ ← moved s .lengthTooLarge (s.recorder.move plane 0)
    .error (.misuse m)
  | .rotate degrees => moved s .angleTooLarge (s.recorder.rotate plane degrees)
  | .pen down => .ok { s with recorder := s.recorder.pen down }.advance
  | .assign env => .ok { s with env }.advance
  | .enter holds repeats => do
    let stop ← blockEnd lang program s.index
    return if holds then (s.push (if repeats then s.index else stop + 1)).advance
      else s.goto (stop + 1)
  | .close => do
    let (position, rest) ← s.pop
    return rest.goto position
  | .skip => .ok s.advance

/-- The state after the instruction `i` at the current position. -/
def execute (lang : Language ι E ε) (plane : Plane P H) (program : Program ι) (s : State E P H)
    (i : ι) : Except (Fault ε) (State E P H) :=
  match lang.action s.env i with
  | .ok action => perform lang plane program s action
  | .error e => .error (.ofFailure e)

/-- What a step does. -/
inductive Step (E ε P H : Type) where
  | next (s : State E P H)
  /-- The step failed and left the state `s`. -/
  | failed (fault : Fault ε) (s : State E P H)
  deriving DecidableEq, Repr

/-- Executes the instruction at the current position, unless the program has ended or more than
`limit` steps would be made. -/
def step (lang : Language ι E ε) (plane : Plane P H) (program : Program ι) (limit : Int)
    (s : State E P H) : Step E ε P H :=
  if s.finished program then .failed .finished s
  else if limit < s.counted.steps then
    .failed (.run ⟨.stepLimit limit, some (s.index + 1)⟩) s.counted
  else
    match program.get? s.index with
    | none => .failed (.outside s.index) s.counted
    | some i =>
      match execute lang plane program s.counted i with
      | .ok s' => .next s'
      | .error fault => .failed (fault.atLine (s.index + 1)) s.counted

/-! Every step that succeeds counts one step within the limit. -/

theorem moved_steps {s s' : State E P H} {cause : Cause}
    {outcome : Except Plane.Fault (Recorder P H)}
    (h : moved s cause outcome = (.ok s' : Except (Fault ε) (State E P H))) :
    s'.steps = s.steps := by
  unfold moved at h
  split at h <;> cases h
  rfl

theorem perform_steps {lang : Language ι E ε} {plane : Plane P H} {program : Program ι}
    {s s' : State E P H} {action : Action E ε}
    (h : perform lang plane program s action = .ok s') : s'.steps = s.steps := by
  cases action with
  | move length => exact moved_steps h
  | stray m =>
    cases hm : moved (ε := ε) s .lengthTooLarge (s.recorder.move plane 0) <;>
      simp [perform, hm, bind, Except.bind] at h
  | rotate degrees => exact moved_steps h
  | pen down => cases h; rfl
  | assign env => cases h; rfl
  | enter holds repeats =>
    cases hb : blockEnd lang program s.index with
    | error e => simp [perform, hb, bind, Except.bind] at h
    | ok stop =>
      simp only [perform, hb, bind, Except.bind, pure, Except.pure, Except.ok.injEq] at h
      subst h
      cases holds <;> rfl
  | close =>
    cases hj : s.jumps <;>
      simp only [perform, State.pop, hj, bind, Except.bind, reduceCtorEq] at h
    cases h
    rfl
  | skip => cases h; rfl

theorem execute_steps {lang : Language ι E ε} {plane : Plane P H} {program : Program ι}
    {s s' : State E P H} {i : ι} (h : execute lang plane program s i = .ok s') :
    s'.steps = s.steps := by
  unfold execute at h
  split at h
  · exact perform_steps h
  · cases h

theorem steps_of_step_eq_next {lang : Language ι E ε} {plane : Plane P H} {program : Program ι}
    {limit : Int} {s s' : State E P H} (h : step lang plane program limit s = .next s') :
    s'.steps = s.steps + 1 ∧ (s'.steps : Int) ≤ limit := by
  unfold step at h
  split at h
  · cases h
  · split at h
    · cases h
    · rename_i within
      split at h
      · cases h
      · split at h
        · cases h
          rename_i executed
          have := execute_steps executed
          simp only [State.counted] at *
          omega
        · cases h

end TurtleGraphics.Machine
