import TurtleGraphics.Machine.Run
/-!
What one step of a machine can do, said once.

A step that succeeds fetches an instruction within the program and the limit, and performs its
action (`step_eq_next`); `Performed` lists what each action does to the state. In the other
direction, `step_of_get?` computes a step from the instruction that it fetches, and a run is its
first step followed by the run from there.
-/
set_option autoImplicit false

namespace TurtleGraphics.Machine

variable {ι E ε P H : Type} {lang : Language ι E ε} {plane : Plane P H} {program : Program ι}
variable {limit : Int} {s s' : State E P H} {fault : Fault ε}

/-- The state that a step leaves, whether it succeeds or fails. -/
def Step.state : Step E ε P H → State E P H
  | next s => s
  | failed _ s => s

/-- The step at `line` of a machine in the state `before` whose instruction came to `outcome`. -/
def Step.ofOutcome (line : Int) (before : State E P H) :
    Except (Fault ε) (State E P H) → Step E ε P H
  | .ok s => .next s
  | .error fault => .failed (fault.atLine line) before

/-- What an action at the state `s` does when it succeeds. -/
inductive Performed (lang : Language ι E ε) (plane : Plane P H) (program : Program ι)
    (s : State E P H) : Action E ε → State E P H → Prop
  | move {length : Int} {recorder : Recorder P H}
      (moved : s.recorder.move plane length = .ok recorder) :
      Performed lang plane program s (.move length)
        { s with recorder, index := s.index + 1 }
  | rotate {degrees : Int} {recorder : Recorder P H}
      (turned : s.recorder.rotate plane degrees = .ok recorder) :
      Performed lang plane program s (.rotate degrees)
        { s with recorder, index := s.index + 1 }
  | pen (down : Bool) :
      Performed lang plane program s (.pen down)
        { s with recorder := s.recorder.pen down, index := s.index + 1 }
  | assign (env : E) :
      Performed lang plane program s (.assign env) { s with env, index := s.index + 1 }
  | enter (again : Bool) {stop : Int} (closer : blockEnd lang program s.index = .ok stop) :
      Performed lang plane program s (.enter true again)
        { s with
          jumps := (if again then s.index else stop + 1) :: s.jumps, index := s.index + 1 }
  | pass (again : Bool) {stop : Int} (closer : blockEnd lang program s.index = .ok stop) :
      Performed lang plane program s (.enter false again) { s with index := stop + 1 }
  | close {position : Int} {rest : List Int} (top : s.jumps = position :: rest) :
      Performed lang plane program s .close { s with jumps := rest, index := position }
  | skip : Performed lang plane program s .skip { s with index := s.index + 1 }

theorem moved_eq_ok {cause : Cause} {outcome : Except Plane.Fault (Recorder P H)}
    (success : moved s cause outcome = (.ok s' : Except (Fault ε) (State E P H))) :
    ∃ recorder, outcome = .ok recorder ∧ s' = { s with recorder, index := s.index + 1 } := by
  cases outcome with
  | ok recorder =>
    cases success
    exact ⟨recorder, rfl, rfl⟩
  | error e => cases e <;> cases success

theorem perform_eq_ok {action : Action E ε}
    (success : perform lang plane program s action = .ok s') :
    Performed lang plane program s action s' := by
  cases action with
  | move length =>
    obtain ⟨recorder, moved, rfl⟩ := moved_eq_ok success
    exact .move moved
  | stray m =>
    cases call : moved (ε := ε) s .lengthTooLarge (s.recorder.move plane 0) <;>
      simp [perform, call, bind, Except.bind] at success
  | rotate degrees =>
    obtain ⟨recorder, turned, rfl⟩ := moved_eq_ok success
    exact .rotate turned
  | pen down =>
    cases success
    exact .pen down
  | assign env =>
    cases success
    exact .assign env
  | enter holds again =>
    cases closer : blockEnd lang program s.index with
    | error e => simp [perform, closer, bind, Except.bind] at success
    | ok stop =>
      simp only [perform, closer, bind, Except.bind, pure, Except.pure, Except.ok.injEq] at success
      subst success
      cases holds with
      | true => exact .enter again closer
      | false => exact .pass again closer
  | close =>
    cases top : s.jumps with
    | nil => simp [perform, State.pop, top, bind, Except.bind] at success
    | cons position rest =>
      simp only [perform, State.pop, top, bind, Except.bind, pure, Except.pure,
        Except.ok.injEq] at success
      subst success
      exact .close top
  | skip =>
    cases success
    exact .skip

/-- Everything that can be said of a step that succeeds. -/
theorem step_eq_next (success : step lang plane program limit s = .next s') :
    s.index < program.size ∧ (s.steps : Int) + 1 ≤ limit ∧
      ∃ i action, program.get? s.index = some i ∧ lang.action s.env i = .ok action ∧
        Performed lang plane program s.counted action s' := by
  unfold step at success
  split at success
  · cases success
  rename_i running
  split at success
  · cases success
  rename_i within
  split at success
  · cases success
  rename_i i fetched
  refine ⟨?_, ?_, i, ?_⟩
  · simpa [State.finished] using running
  · simp only [State.counted] at within
    omega
  · cases meaning : lang.action s.env i with
    | error e => simp [execute, meaning, State.counted] at success
    | ok action =>
      simp only [execute, State.counted, meaning] at success
      split at success
      · rename_i performed
        cases success
        exact ⟨action, fetched, rfl, perform_eq_ok performed⟩
      · cases success

theorem exists_get? {k : Nat} (inside : k < program.size) : ∃ i, program.get? k = some i := by
  rw [Program.get?_ofNat]
  exact ⟨program.instructions[k], List.getElem?_eq_getElem inside⟩

theorem unfinished_of_lt (running : s.index < program.size) : s.finished program = false := by
  simpa [State.finished] using running

theorem unspent_of_le (within : (s.steps : Int) + 1 ≤ limit) : ¬limit < s.counted.steps := by
  simp only [State.counted]
  omega

/-- A step behind the end of the program. -/
theorem step_of_size_le (finished : program.size ≤ s.index) :
    step lang plane program limit s = .failed .finished s := by
  rw [step, if_pos (by simpa [State.finished] using finished)]

/-- A step beyond the limit. -/
theorem step_of_limit_lt (running : s.index < program.size) (spent : limit < s.steps + 1) :
    step lang plane program limit s =
      .failed (.run ⟨.stepLimit limit, some (s.index + 1)⟩) s.counted := by
  rw [step, unfinished_of_lt running, if_neg Bool.false_ne_true,
    if_pos (by simpa [State.counted] using spent)]

/-- A step within the limit that finds nothing to execute. -/
theorem step_of_get?_eq_none (running : s.index < program.size)
    (within : (s.steps : Int) + 1 ≤ limit) (nothing : program.get? s.index = none) :
    step lang plane program limit s = .failed (.outside s.index) s.counted := by
  rw [step, unfinished_of_lt running, if_neg Bool.false_ne_true, if_neg (unspent_of_le within),
    nothing]

/-- A step within the limit, from what the fetched instruction does. -/
theorem step_of_get? {i : ι} (running : s.index < program.size) (within : s.steps + 1 ≤ limit)
    (fetched : program.get? s.index = some i) :
    step lang plane program limit s =
      .ofOutcome (s.index + 1) s.counted (execute lang plane program s.counted i) := by
  rw [step, unfinished_of_lt running, if_neg Bool.false_ne_true, if_neg (unspent_of_le within)]
  simp only [fetched]
  cases execute lang plane program s.counted i <;> rfl

/-- Programs in which blocks end alike let an action do the same. -/
theorem perform_congr {other : Program ι} {action : Action E ε}
    (same : ∀ holds repeats, action = .enter holds repeats →
      blockEnd lang other s.index = blockEnd lang program s.index) :
    perform lang plane other s action = perform lang plane program s action := by
  cases action with
  | enter holds repeats => simp only [perform, same holds repeats rfl]
  | move | stray | rotate | pen | assign | close | skip => rfl

/-- A step only asks for the size of the program, for the instruction at its position and for what
that does. -/
theorem step_congr {other : Program ι} (ends : other.size ≤ s.index ↔ program.size ≤ s.index)
    (fetches : s.index < program.size → (s.steps : Int) + 1 ≤ limit →
      other.get? s.index = program.get? s.index)
    (executes : ∀ i, program.get? s.index = some i →
      execute lang plane other s.counted i = execute lang plane program s.counted i) :
    step lang plane other limit s = step lang plane program limit s := by
  by_cases ended : program.size ≤ s.index
  · rw [step_of_size_le ended, step_of_size_le (ends.mpr ended)]
  have running : s.index < program.size := by omega
  have running' : s.index < other.size := by omega
  by_cases spent : limit < (s.steps : Int) + 1
  · rw [step_of_limit_lt running spent, step_of_limit_lt running' spent]
  have within : (s.steps : Int) + 1 ≤ limit := by omega
  have same := fetches running within
  cases fetched : program.get? s.index with
  | none =>
    rw [fetched] at same
    rw [step_of_get?_eq_none running within fetched, step_of_get?_eq_none running' within same]
  | some i =>
    rw [fetched] at same
    rw [step_of_get? running within fetched, step_of_get? running' within same,
      executes i fetched]

theorem run_of_size_le (finished : program.size ≤ s.index) :
    run lang plane program limit s = .finished s := by
  rw [run, if_pos (by simpa [State.finished] using finished)]

theorem run_of_step_eq_next (success : step lang plane program limit s = .next s') :
    run lang plane program limit s = run lang plane program limit s' := by
  have running := (step_eq_next success).1
  rw [run, if_neg (by simpa [State.finished] using running)]
  split
  · rename_i other
    rw [success] at other
    cases other
    rfl
  · rename_i other
    rw [success] at other
    cases other

theorem run_of_step_eq_failed (running : s.index < program.size)
    (failure : step lang plane program limit s = .failed fault s') :
    run lang plane program limit s = .failed fault s' := by
  rw [run, if_neg (by simpa [State.finished] using running)]
  split
  · rename_i other
    rw [failure] at other
    cases other
  · rename_i other
    rw [failure] at other
    cases other
    rfl

end TurtleGraphics.Machine
