import TurtleGraphics.Drawing.Doubles
import TurtleGraphics.Instruction.Action
import TurtleGraphics.Proofs.Failures
/-!
The machine as a sequence of changes in place.

Here an instruction acts on the state of the machine by one effect after the other, in the order in
which they come, and a failure keeps the effects made before it. A move draws its segment before the
cursor leaves; a block is looked for after its condition is known; the counter goes up before the
limit is checked. The main statements are that this machine and the one whose steps are functions on
states do the same, and that a step that fails has changed nothing but the counter.
-/
set_option autoImplicit false

namespace TurtleGraphics

namespace Machine

open EStateM (run_bind run_get run_modify run_throw run_pure)
open Instruction (evaluated)

/-- A computation that changes the state of a machine as it goes. -/
abbrev InPlace (P H α : Type) : Type := EStateM (Fault Empty) (State Env P H) α

namespace InPlace

variable {P H : Type}

def evaluate {α : Type} (value : Env → Except Unbound α) : InPlace P H α := do
  match value (← get).env with
  | .ok a => return a
  | .error u => throw (.of (.unknownVariable u.name))

def draw (event : Event P) : InPlace P H Unit :=
  modify fun s => { s with recorder := { s.recorder with trace := event :: s.recorder.trace } }

def setCursor (cursor : Cursor P H) : InPlace P H Unit :=
  modify fun s => { s with recorder := { s.recorder with cursor } }

def move (plane : Plane P H) (length : Int) : InPlace P H Unit := do
  let cursor := (← get).recorder.cursor
  match plane.advance cursor.position cursor.heading length with
  | .error e => throw (.ofPlane .lengthTooLarge e)
  | .ok stop =>
    if cursor.penDown then draw (.segment cursor.position stop)
    setCursor { cursor with position := stop }

def rotate (plane : Plane P H) (degrees : Int) : InPlace P H Unit := do
  let cursor := (← get).recorder.cursor
  match plane.turn cursor.heading degrees with
  | .error e => throw (.ofPlane .angleTooLarge e)
  | .ok heading => setCursor { cursor with heading }

def setPen (down : Bool) : InPlace P H Unit := do
  setCursor { (← get).recorder.cursor with penDown := down }
  draw (.pen down)

def findEnd (program : Program Instruction) (index : Int) : InPlace P H Int :=
  match blockEnd Instruction.language program index with
  | .ok stop => return stop
  | .error fault => throw fault

def push (position : Int) : InPlace P H Unit :=
  modify fun s => { s with jumps := position :: s.jumps }

def pop : InPlace P H Int := do
  match (← get).jumps with
  | [] => throw (.of .strayClose)
  | position :: rest =>
    modify fun s => { s with jumps := rest }
    return position

/-- Enters the block that begins at `index` if its condition holds, and passes it if not. -/
def enter (program : Program Instruction) (index : Int) (condition : Cond) (again : Bool) :
    InPlace P H (Option Int) := do
  let holds ← evaluate condition.eval
  let stop ← findEnd program index
  if holds then
    push (if again then index else stop + 1)
    return none
  else return some (stop + 1)

/-- Executes the instruction at `index`. The result is where to go on, if that is not the next
position. -/
def execute (plane : Plane P H) (program : Program Instruction) (index : Int) :
    Instruction → InPlace P H (Option Int)
  | .move length => do
    move plane (← evaluate length.eval)
    return none
  | .rotate angle => do
    rotate plane (← evaluate angle.eval)
    return none
  | .lift => do
    setPen false
    return none
  | .place => do
    setPen true
    return none
  | .set name value => do
    let n ← evaluate value.eval
    modify fun s => { s with env := s.env.set name n }
    return none
  | .conditional condition => enter program index condition false
  | .loop condition => enter program index condition true
  | .close => do return some (← pop)
  | .blank => return none

/-- Goes on where an instruction says, which stood at `index`. -/
def goOn (index : Int) (target : Option Int) : InPlace P H Unit :=
  modify fun s => { s with index := target.getD (index + 1) }

/-- Executes `i` at `index`. An error that has no line yet is given that of `i` on its way out. -/
def attempt (plane : Plane P H) (program : Program Instruction) (index : Int) (i : Instruction) :
    InPlace P H Unit := do
  let target ← tryCatch (execute plane program index i) fun fault =>
    throw (fault.atLine (index + 1))
  goOn index target

def step (plane : Plane P H) (program : Program Instruction) (limit : Int) :
    InPlace P H Unit := do
  let index := (← get).index
  if program.size ≤ index then throw .finished
  else
    modify fun s => { s with steps := s.steps + 1 }
    if limit < (← get).steps then throw (.run ⟨.stepLimit limit, some (index + 1)⟩)
    else
      match program.get? index with
      | none => throw (.outside index)
      | some i => attempt plane program index i

/-- The result of a computation in place that leaves `before` if it fails. -/
def ofOutcome (before : State Env P H) :
    Except (Fault Empty) (State Env P H) → EStateM.Result (Fault Empty) (State Env P H) Unit
  | .ok after => .ok () after
  | .error fault => .error fault before

/-- The result of a computation in place that makes a step. -/
def ofStep : Step Env Empty P H → EStateM.Result (Fault Empty) (State Env P H) Unit
  | .next after => .ok () after
  | .failed fault after => .error fault after

section Effects
variable (plane : Plane P H) (program : Program Instruction) (s : State Env P H)

theorem run_tryCatch {α : Type} (body : InPlace P H α) (handle : Fault Empty → InPlace P H α) :
    (tryCatch body handle).run s =
      match body.run s with
      | .ok a after => .ok a after
      | .error fault after => (handle fault).run after := by
  show EStateM.tryCatch body handle s = _
  unfold EStateM.tryCatch EStateM.run
  cases body s <;> rfl

theorem run_evaluate {α : Type} (value : Env → Except Unbound α) :
    (evaluate value).run s =
      match value s.env with
      | .ok a => .ok a s
      | .error u => .error (.of (.unknownVariable u.name)) s := by
  simp only [evaluate, run_bind, run_get]
  cases value s.env with
  | ok a => rfl
  | error u => rfl

theorem run_move (length : Int) :
    (move plane length >>= fun _ => goOn s.index none).run s =
      ofOutcome s (moved s .lengthTooLarge (s.recorder.move plane length)) := by
  simp only [move, Recorder.move, run_bind, run_get]
  cases plane.advance s.recorder.cursor.position s.recorder.cursor.heading length with
  | error e => cases e <;> rfl
  | ok stop =>
    cases down : s.recorder.cursor.penDown with
    | true => simp [draw, setCursor, goOn, moved, ofOutcome, State.advance, State.goto]
    | false => simp [setCursor, goOn, moved, ofOutcome, State.advance, State.goto]

theorem run_rotate (degrees : Int) :
    (rotate plane degrees >>= fun _ => goOn s.index none).run s =
      ofOutcome s (moved s .angleTooLarge (s.recorder.rotate plane degrees)) := by
  simp only [rotate, Recorder.rotate, run_bind, run_get]
  cases plane.turn s.recorder.cursor.heading degrees with
  | error e => cases e <;> rfl
  | ok heading => rfl

theorem run_findEnd (index : Int) :
    (findEnd program index).run s =
      match blockEnd Instruction.language program index with
      | .ok stop => .ok stop s
      | .error fault => .error fault s := by
  rw [findEnd]
  cases blockEnd Instruction.language program index with
  | ok stop => rfl
  | error fault => rfl

theorem run_enter (condition : Cond) (again : Bool) :
    (enter program s.index condition again >>= goOn s.index).run s =
      ofOutcome s
        (match condition.eval s.env with
        | .ok holds => perform Instruction.language plane program s (.enter holds again)
        | .error u => .error (.of (.unknownVariable u.name))) := by
  simp only [enter, bind_assoc]
  rw [run_bind, run_evaluate]
  cases condition.eval s.env with
  | error u => rfl
  | ok holds =>
    simp only [run_bind, run_findEnd, perform]
    cases blockEnd Instruction.language program s.index with
    | error fault => rfl
    | ok stop =>
      cases holds with
      | true => rfl
      | false => rfl

theorem run_pop :
    (pop : InPlace P H Int).run s =
      match s.jumps with
      | [] => .error (.of .strayClose) s
      | position :: rest => .ok position { s with jumps := rest } := by
  simp only [pop, run_bind, run_get]
  cases s.jumps with
  | nil => rfl
  | cons position rest => rfl

/-- An instruction in place does what it does as a function on states. -/
theorem run_execute (i : Instruction) :
    (execute plane program s.index i >>= goOn s.index).run s =
      ofOutcome s (Machine.execute Instruction.language plane program s i) := by
  cases i with
  | move length =>
    simp only [execute, bind_assoc, pure_bind]
    rw [run_bind, run_evaluate]
    simp only [Machine.execute, Instruction.language, Instruction.action]
    cases length.eval s.env with
    | error u => rfl
    | ok n => exact run_move plane s n
  | rotate angle =>
    simp only [execute, bind_assoc, pure_bind]
    rw [run_bind, run_evaluate]
    simp only [Machine.execute, Instruction.language, Instruction.action]
    cases angle.eval s.env with
    | error u => rfl
    | ok n => exact run_rotate plane s n
  | lift => rfl
  | place => rfl
  | set name value =>
    simp only [execute, bind_assoc, pure_bind]
    rw [run_bind, run_evaluate]
    simp only [Machine.execute, Instruction.language, Instruction.action]
    cases value.eval s.env <;> rfl
  | conditional condition =>
    rw [execute, run_enter plane program s condition false]
    simp only [Machine.execute, Instruction.language, Instruction.action]
    cases condition.eval s.env <;> rfl
  | loop condition =>
    rw [execute, run_enter plane program s condition true]
    simp only [Machine.execute, Instruction.language, Instruction.action]
    cases condition.eval s.env <;> rfl
  | close =>
    simp only [execute, bind_assoc, pure_bind]
    rw [run_bind, run_pop]
    simp only [Machine.execute, Instruction.language, Instruction.action, perform, State.pop]
    cases s.jumps with
    | nil => rfl
    | cons position rest => rfl
  | blank => rfl

theorem run_attempt (i : Instruction) :
    (attempt plane program s.index i).run s =
      match Machine.execute Instruction.language plane program s i with
      | .ok after => .ok () after
      | .error fault => .error (fault.atLine (s.index + 1)) s := by
  have same := run_execute plane program s i
  rw [run_bind] at same
  -- the handler keeps the state that the body leaves, so it has to be that from before
  rw [attempt, run_bind, run_tryCatch]
  cases outcome : Machine.execute Instruction.language plane program s i with
  | ok final =>
    cases first : (execute plane program s.index i).run s with
    | ok target after =>
      rw [first, outcome] at same
      exact same
    | error fault after =>
      rw [first, outcome] at same
      cases same
  | error reason =>
    cases first : (execute plane program s.index i).run s with
    | ok target after =>
      rw [first, outcome] at same
      cases same
    | error fault after =>
      rw [first, outcome] at same
      cases same
      rfl

/-- A step in place is a step of the machine. -/
theorem run_step (limit : Int) :
    (step plane program limit).run s =
      ofStep (Machine.step Instruction.language plane program limit s) := by
  rw [step, Machine.step]
  simp only [run_bind, run_get]
  by_cases finished : program.size ≤ s.index
  · rw [if_pos finished, if_pos (by simpa [State.finished] using finished)]
    rfl
  rw [if_neg finished, if_neg (by simpa [State.finished] using finished)]
  simp only [run_bind, run_modify, run_get, ← State.counted.eq_1]
  by_cases spent : limit < s.counted.steps
  · rw [if_pos spent, if_pos spent]
    rfl
  rw [if_neg spent, if_neg spent]
  cases program.get? s.index with
  | none => rfl
  | some i =>
    refine (run_attempt plane program s.counted i).trans ?_
    simp only
    cases Machine.execute Instruction.language plane program s.counted i <;> rfl

end Effects

end InPlace

end Machine

open Machine (InPlace State step)
open Machine.InPlace (ofStep)

/-- The machine whose instructions work in place makes the same steps. A step of it that fails has
changed nothing but the counter, and its error names the line of the instruction; only a move along
a heading without a direction fails otherwise. -/
theorem failing_step_only_counts {P H : Type} (plane : Plane P H) (program : Program Instruction)
    (limit : Int) (s : State Env P H) (nonneg : 0 ≤ s.index) (inside : s.index < program.size) :
    (InPlace.step plane program limit).run s =
        ofStep (step Instruction.language plane program limit s) ∧
      ∀ fault after, (InPlace.step plane program limit).run s = .error fault after →
        after = { s with steps := s.steps + 1 } ∧
          ((∃ error, fault = .run error ∧ error.line = some (s.index + 1)) ∨
            fault = .noDirection) := by
  have same := InPlace.run_step plane program s limit
  refine ⟨same, ?_⟩
  intro fault after failure
  rw [same] at failure
  cases outcome : step Instruction.language plane program limit s with
  | next final =>
    rw [outcome] at failure
    cases failure
  | failed reason final =>
    rw [outcome] at failure
    cases failure
    have fails := Machine.step_eq_failed outcome
    refine ⟨fails.state inside, ?_⟩
    rcases fails.reasons nonneg inside with ⟨error, rfl⟩ | stuck | ⟨m, -⟩
    · exact Or.inl ⟨error, rfl, fails.names_line⟩
    · exact Or.inr stuck
    · exact m.elim

/-- A loop that holds a closed block and has no end of its own. -/
def unclosedLoop : Program Instruction :=
  ⟨[.place, .loop (.compare (.var "n") .gt (.int 0)),
    .conditional (.compare (.var "n") .eq (.int 2)), .lift, .close, .move (.var "n")], []⟩

/-- In the middle of a run: a variable has a value, two blocks are open, and something is drawn. -/
def midRun : State Env Position Float :=
  ⟨⟨[("n", 3)]⟩, [6, 0], 1, 41, ⟨⟨.home, Plane.pi, false⟩, [.pen false, .pen true]⟩⟩

theorem unclosedLoop_only_counts :
    (0 ≤ midRun.index ∧ midRun.index < unclosedLoop.size) ∧
      (InPlace.step Plane.doubles unclosedLoop 100).run midRun =
        .error (.run ⟨.unclosedBlock 2, some 2⟩) { midRun with steps := 42 } := by
  have inside : 0 ≤ midRun.index ∧ midRun.index < unclosedLoop.size := by decide
  obtain ⟨same, -⟩ :=
    failing_step_only_counts Plane.doubles unclosedLoop 100 midRun inside.1 inside.2
  exact ⟨inside, same⟩

end TurtleGraphics
