import TurtleGraphics.Proofs.StructuralFaults
/-!
Programs one after the other.

Two arguments make a program followed by another the composition of the two. The first part, whose
brackets are balanced, does not see what follows it: a search for a closer that begins in it also
ends in it, so each of its steps is a step of the whole. And the machine is indifferent to where a
program stands: behind `k` other instructions it makes the same steps with every position moved by
`k`, since a search for a closer only looks at what lies behind the opener.
-/
set_option autoImplicit false

namespace TurtleGraphics

namespace Block

variable {α ε : Type} {role : α → Except ε Role} {front items : List α}

/-- The search for a closer stops at the closer. -/
theorem closerIn?_append {depth k : Nat} {roles : List Role} (more : List Role)
    (found : closerIn? depth roles = some k) : closerIn? depth (roles ++ more) = some k := by
  induction roles generalizing depth k with
  | nil => cases depth <;> cases found
  | cons r rest ih =>
    cases r with
    | opens =>
      rw [closerIn?] at found
      obtain ⟨j, later, rfl⟩ := Option.map_eq_some_iff.mp found
      rw [List.cons_append, closerIn?, ih later, Option.map_some]
    | closes =>
      cases depth with
      | zero => exact found
      | succ depth =>
        rw [closerIn?] at found
        obtain ⟨j, later, rfl⟩ := Option.map_eq_some_iff.mp found
        rw [List.cons_append, closerIn?, ih later, Option.map_some]
    | neutral =>
      rw [closerIn?_neutral] at found
      obtain ⟨j, later, rfl⟩ := Option.map_eq_some_iff.mp found
      rw [List.cons_append, closerIn?_neutral, ih later, Option.map_some]

theorem known_append (clear : obstacle? role front = none) :
    known role (front ++ items) = known role front ++ known role items := by
  induction front with
  | nil => rfl
  | cons a rest ih =>
    rw [obstacle?] at clear
    rw [List.cons_append, known, known]
    cases own : role a with
    | ok r =>
      rw [own] at clear
      rw [ih clear, List.cons_append]
    | error e =>
      rw [own] at clear
      cases clear

/-- Nothing is known beyond an item without a role. -/
theorem known_append_of_obstacle {reason : ε} (items : List α)
    (stopped : obstacle? role front = some reason) :
    known role (front ++ items) = known role front ∧
      obstacle? role (front ++ items) = some reason := by
  induction front with
  | nil => cases stopped
  | cons a rest ih =>
    rw [obstacle?] at stopped
    rw [List.cons_append, known, known, obstacle?]
    cases own : role a with
    | ok r =>
      rw [own] at stopped
      obtain ⟨same, still⟩ := ih stopped
      exact ⟨by rw [same], still⟩
    | error e =>
      rw [own] at stopped
      exact ⟨rfl, stopped⟩

/-- What follows the items does not matter to a search that does not come to their end. -/
theorem closer_append_left {b : Nat} (inside : b < front.length)
    (closed : closer role front b ≠ .error .unclosed) :
    closer role (front ++ items) b = closer role front b := by
  rw [closer_eq_drop] at closed
  rw [closer_eq_drop, closer_eq_drop, List.drop_append_of_le_length inside]
  cases stopped : obstacle? role (front.drop (b + 1)) with
  | some reason =>
    obtain ⟨same, still⟩ := known_append_of_obstacle items stopped
    rw [same, still]
  | none =>
    rw [known_append stopped]
    cases found : closerIn? 0 (known role (front.drop (b + 1))) with
    | some j => rw [closerIn?_append _ found]
    | none => simp [found, stopped] at closed

/-- A search that begins behind `front` is the search without it, moved by its length. -/
theorem closer_append_right (b : Nat) :
    closer role (front ++ items) ((b : Int) + front.length) =
      (closer role items b).map (· + (front.length : Int)) := by
  have position : (b : Int) + front.length = ((front.length + b : Nat) : Int) := by omega
  have rest : (front ++ items).drop (front.length + b + 1) = items.drop (b + 1) := by
    rw [Nat.add_assoc, List.drop_length_add_append]
  rw [position, closer_eq_drop, closer_eq_drop, rest]
  cases closerIn? 0 (known role (items.drop (b + 1))) with
  | some j =>
    simp only [Except.map, Except.ok.injEq]
    omega
  | none => cases obstacle? role (items.drop (b + 1)) <;> rfl

end Block

def Cause.shift (k : Int) : Cause → Cause
  | unclosedBlock line => .unclosedBlock (line + k)
  | c => c

def RunError.shift (k : Int) (e : RunError) : RunError := ⟨e.cause.shift k, e.line.map (· + k)⟩

namespace Machine

variable {ι E ε P H : Type}

/-! The same where the program stands `k` positions further on. -/

def Fault.shift (k : Int) : Fault ε → Fault ε
  | .run e => .run (RunError.shift k e)
  | .outside position => .outside (position + k)
  | f => f

def State.shift (k : Int) (s : State E P H) : State E P H :=
  { s with index := s.index + k, jumps := s.jumps.map (· + k) }

def Step.shift (k : Int) : Step E ε P H → Step E ε P H
  | .next s => .next (s.shift k)
  | .failed fault s => .failed (fault.shift k) (s.shift k)

def Ending.shift (k : Int) : Ending E ε P H → Ending E ε P H
  | .finished s => .finished (s.shift k)
  | .failed fault s => .failed (fault.shift k) (s.shift k)

/-- The outcome of an action, the program standing `k` positions further on. -/
def shiftOutcome (k : Int) : Except (Fault ε) (State E P H) → Except (Fault ε) (State E P H)
  | .ok s => .ok (s.shift k)
  | .error fault => .error (fault.shift k)

/-- The state in which a program begins that takes over the variables, the drawing and the count of
steps. -/
def State.restart (s : State E P H) : State E P H := { s with index := 0, jumps := [] }

@[simp] theorem State.shift_index (k : Int) (s : State E P H) : (s.shift k).index = s.index + k :=
  rfl

@[simp] theorem State.shift_jumps (k : Int) (s : State E P H) :
    (s.shift k).jumps = s.jumps.map (· + k) := rfl

@[simp] theorem State.shift_env (k : Int) (s : State E P H) : (s.shift k).env = s.env := rfl

@[simp] theorem State.shift_recorder (k : Int) (s : State E P H) :
    (s.shift k).recorder = s.recorder := rfl

theorem State.counted_shift (k : Int) (s : State E P H) :
    (s.shift k).counted = s.counted.shift k := rfl

theorem State.shift_restart {k : Int} {s : State E P H} (index : s.index = k)
    (empty : s.jumps = []) : s.restart.shift k = s := by
  obtain ⟨env, jumps, position, steps, recorder⟩ := s
  obtain rfl : position = k := index
  obtain rfl : jumps = [] := empty
  simp only [State.restart, State.shift, Int.zero_add, List.map_nil]

theorem State.goto_shift (k : Int) (s : State E P H) (position : Int) :
    (s.shift k).goto (position + k) = (s.goto position).shift k := rfl

theorem State.push_shift (k : Int) (s : State E P H) (position : Int) :
    (s.shift k).push (position + k) = (s.push position).shift k := rfl

theorem State.advance_shift (k : Int) (s : State E P H) :
    (s.shift k).advance = s.advance.shift k := by
  have next : s.index + k + 1 = s.index + 1 + k := by omega
  simp only [State.advance, State.shift_index, next, State.goto_shift]

theorem atLine_shift (k line : Int) (fault : Fault ε) :
    (fault.shift k).atLine (line + k) = (fault.atLine line).shift k := by
  cases fault with
  | run e =>
    obtain ⟨cause, known⟩ := e
    cases known <;> rfl
  | noDirection | outside | finished | misuse => rfl

theorem ofOutcome_shift (k line : Int) (before : State E P H)
    (outcome : Except (Fault ε) (State E P H)) :
    Step.ofOutcome (line + k) (before.shift k) (shiftOutcome k outcome) =
      (Step.ofOutcome line before outcome).shift k := by
  cases outcome with
  | ok s => rfl
  | error fault =>
    rw [shiftOutcome, Step.ofOutcome, atLine_shift]
    rfl

theorem ofFailure_shift (k : Int) (e : Failure ε) :
    (Fault.ofFailure e).shift k = Fault.ofFailure e := by
  cases e <;> rfl

/-- The run of `whole` is the run of `first` and, if that ends well, the run of `second` from there
on. -/
structure RunsInSequence (lang : Language ι E ε) (plane : Plane P H)
    (first second whole : Program ι) (limit : Int) : Prop where
  finished : ∀ s, run lang plane first limit (start lang plane) = .finished s →
    stepMany lang plane whole limit s.steps (start lang plane) = .next s ∧
      s.index = first.size ∧ s.jumps = [] ∧
      (∀ n, stepMany lang plane whole limit n s =
        (stepMany lang plane second limit n s.restart).shift first.size) ∧
      run lang plane whole limit (start lang plane) =
        (run lang plane second limit s.restart).shift first.size
  failed : ∀ fault s, run lang plane first limit (start lang plane) = .failed fault s →
    run lang plane whole limit (start lang plane) = .failed fault s

section Front
variable {lang : Language ι E ε} {again : ι → Bool} {plane : Plane P H} {limit : Int}
variable {first second whole : Program ι} {s t : State E P H}

theorem Mirrored.nonneg (mirrored : Mirrored lang again first s) : 0 ≤ s.index := by
  obtain ⟨k, index, -⟩ := mirrored
  rw [index]
  exact Int.natCast_nonneg k

theorem get?_front (joined : whole.instructions = first.instructions ++ second.instructions)
    {k : Nat} (inside : k < first.size) : whole.get? k = first.get? k := by
  rw [Program.get?_ofNat, Program.get?_ofNat, joined]
  exact List.getElem?_append_left inside

/-- Where no block is left open, a block ends where it ends in the whole. -/
theorem blockEnd_front (joined : whole.instructions = first.instructions ++ second.instructions)
    (balanced : Block.Balanced (roles lang first)) {k : Nat}
    (opens : (knownRoles lang first)[k]? = some .opens) :
    blockEnd lang whole k = blockEnd lang first k := by
  have bound := (List.getElem?_eq_some_iff.mp opens).1
  have inside : k < first.instructions.length :=
    Nat.lt_of_lt_of_le bound (Block.length_known_le lang.role first.instructions)
  have closed : Block.closer lang.role first.instructions k ≠ .error .unclosed := by
    -- an opener whose search runs into the end of `first` would be unmatched there
    intro failure
    obtain ⟨all, never⟩ := Block.closer_eq_unclosed bound failure
    refine Block.not_balanced_of_unmatched (Block.unmatched_of_never_closed opens never) ?_
    rwa [knownRoles, ← Block.rolesOf_eq_known all]
  rw [blockEnd, joined, Block.closer_append_left inside closed, blockEnd]

theorem step_front (coherent : Coherent lang again)
    (joined : whole.instructions = first.instructions ++ second.instructions)
    (balanced : Block.Balanced (roles lang first)) (mirrored : Mirrored lang again first s)
    (running : s.index < first.size) :
    step lang plane whole limit s = step lang plane first limit s := by
  obtain ⟨k, index, inside, -⟩ := mirrored
  have size : first.size ≤ whole.size := by
    rw [Program.size, Program.size, joined, List.length_append]
    exact Nat.le_add_right _ _
  have bound : k < first.size := by omega
  refine step_congr (by omega) ?_ ?_
  · intro _ _
    rw [index, get?_front joined bound]
  · intro i fetched
    rw [execute, execute]
    cases meaning : lang.action s.counted.env i with
    | error e => rfl
    | ok action =>
      have role := role_of_action coherent index inside fetched meaning
      have position : s.counted.index = k := index
      -- only an opener looks at more of the program than its own instruction
      apply perform_congr
      rintro holds repeats rfl
      rw [position, blockEnd_front joined balanced role]

theorem stepMany_front (coherent : Coherent lang again)
    (joined : whole.instructions = first.instructions ++ second.instructions)
    (balanced : Block.Balanced (roles lang first)) (mirrored : Mirrored lang again first s)
    {n : Nat} (chain : stepMany lang plane first limit n s = .next t) :
    stepMany lang plane whole limit n s = .next t := by
  induction n generalizing s with
  | zero => exact chain
  | succ n ih =>
    obtain ⟨s', success, rest⟩ := exists_of_stepMany_succ chain
    have running := (step_eq_next success).1
    have same : step lang plane whole limit s = step lang plane first limit s :=
      step_front coherent joined balanced mirrored running
    rw [stepMany_succ_of_step (same.trans success)]
    exact ih (mirrored_step coherent mirrored success) rest

end Front

section Back
variable {lang : Language ι E ε} {again : ι → Bool} {plane : Plane P H} {limit : Int}
variable {first second whole : Program ι} {s t : State E P H}

theorem size_whole (joined : whole.instructions = first.instructions ++ second.instructions) :
    (whole.size : Int) = second.size + first.size := by
  rw [Program.size, joined, List.length_append, Program.size, Program.size]
  omega

theorem get?_back (joined : whole.instructions = first.instructions ++ second.instructions)
    (k : Nat) : whole.get? ((k : Int) + first.size) = second.get? k := by
  have position : (k : Int) + first.size = ((first.instructions.length + k : Nat) : Int) := by
    rw [Program.size]
    omega
  rw [position, Program.get?_ofNat, Program.get?_ofNat, joined,
    List.getElem?_append_right (Nat.le_add_right _ _), Nat.add_sub_cancel_left]

theorem blockEnd_back (joined : whole.instructions = first.instructions ++ second.instructions)
    (k : Nat) :
    blockEnd lang whole ((k : Int) + first.size) =
      match blockEnd lang second k with
      | .ok stop => .ok (stop + first.size)
      | .error fault => .error (fault.shift first.size) := by
  rw [blockEnd, joined, Program.size, Block.closer_append_right, blockEnd]
  cases search : Block.closer lang.role second.instructions k with
  | ok stop => rfl
  | error e =>
    cases e with
    | unclosed =>
      have line : (k : Int) + first.instructions.length + 1 =
          (k : Int) + 1 + first.instructions.length := by omega
      simp only [Except.map, line]
      rfl
    | outside position =>
      have failure : blockEnd lang second k = .error (.outside position) := by rw [blockEnd, search]
      exact absurd failure (blockEnd_ne_outside (by omega))
    | noRole m => rfl

theorem moved_shift (k : Int) (cause : Cause) (kept : cause.shift k = cause)
    (outcome : Except Plane.Fault (Recorder P H)) :
    moved (ε := ε) (s.shift k) cause outcome = shiftOutcome k (moved s cause outcome) := by
  cases outcome with
  | ok recorder =>
    simp only [moved, shiftOutcome, ← State.advance_shift]
    rfl
  | error e =>
    cases e with
    | tooLarge =>
      simp only [moved, shiftOutcome, Fault.of, Fault.shift, RunError.shift, kept, Option.map_none]
    | noDirection => rfl

/-- What an action does does not depend on where the program stands. -/
theorem perform_shift (joined : whole.instructions = first.instructions ++ second.instructions)
    (nonneg : 0 ≤ s.index) (action : Action E ε) :
    perform lang plane whole (s.shift first.size) action =
      shiftOutcome first.size (perform lang plane second s action) := by
  cases action with
  | move length => exact moved_shift _ _ rfl _
  | stray m =>
    have same := moved_shift (ε := ε) (s := s) (first.size : Int) .lengthTooLarge rfl
      (s.recorder.move plane 0)
    simp only [perform, State.shift_recorder, same]
    cases moved (ε := ε) s .lengthTooLarge (s.recorder.move plane 0) <;> rfl
  | rotate degrees => exact moved_shift _ _ rfl _
  | pen down =>
    simp only [perform, shiftOutcome, ← State.advance_shift]
    rfl
  | assign env =>
    simp only [perform, shiftOutcome, ← State.advance_shift]
    rfl
  | enter holds repeats =>
    obtain ⟨k, index⟩ := Int.eq_ofNat_of_zero_le nonneg
    simp only [perform, State.shift_index, index, blockEnd_back joined]
    cases blockEnd lang second k with
    | error fault => rfl
    | ok stop =>
      have behind : stop + (first.size : Int) + 1 = stop + 1 + first.size := by omega
      simp only [bind, Except.bind, pure, Except.pure, shiftOutcome, behind]
      cases holds with
      | false => rfl
      | true =>
        simp only [if_true, ← State.advance_shift, ← State.push_shift]
        cases repeats <;> rfl
  | close =>
    cases top : s.jumps with
    | nil =>
      simp only [perform, State.pop, State.shift_jumps, top, List.map_nil]
      rfl
    | cons position rest =>
      simp only [perform, State.pop, State.shift_jumps, top, List.map_cons]
      rfl
  | skip =>
    simp only [perform, shiftOutcome, ← State.advance_shift]

theorem execute_shift (joined : whole.instructions = first.instructions ++ second.instructions)
    (nonneg : 0 ≤ s.index) (i : ι) :
    execute lang plane whole (s.shift first.size) i =
      shiftOutcome first.size (execute lang plane second s i) := by
  rw [execute, State.shift_env, execute]
  cases lang.action s.env i with
  | ok action => exact perform_shift joined nonneg action
  | error e => rw [shiftOutcome, ofFailure_shift]

theorem step_shift (joined : whole.instructions = first.instructions ++ second.instructions)
    (nonneg : 0 ≤ s.index) :
    step lang plane whole limit (s.shift first.size) =
      (step lang plane second limit s).shift first.size := by
  have size := size_whole joined
  have shifted : (s.shift first.size).index = s.index + first.size := rfl
  have line : s.index + (first.size : Int) + 1 = s.index + 1 + first.size := by omega
  by_cases finished : second.size ≤ s.index
  · rw [step_of_size_le finished, step_of_size_le (by omega)]
    rfl
  have running : s.index < second.size := by omega
  have running' : (s.shift first.size).index < whole.size := by omega
  by_cases spent : limit < (s.steps : Int) + 1
  · rw [step_of_limit_lt running spent, step_of_limit_lt running' spent, shifted, line]
    rfl
  have within : (s.steps : Int) + 1 ≤ limit := by omega
  obtain ⟨k, index⟩ := Int.eq_ofNat_of_zero_le nonneg
  have bound : k < second.size := by omega
  obtain ⟨i, item⟩ := exists_get? bound
  have fetched : second.get? s.index = some i := by rw [index, item]
  have fetched' : whole.get? (s.shift first.size).index = some i := by
    rw [shifted, index, get?_back joined, item]
  have nonneg' : 0 ≤ s.counted.index := nonneg
  rw [step_of_get? running within fetched, step_of_get? running' within fetched',
    State.counted_shift, execute_shift joined nonneg', shifted, line, ofOutcome_shift]

theorem stepMany_shift (coherent : Coherent lang again)
    (joined : whole.instructions = first.instructions ++ second.instructions)
    (mirrored : Mirrored lang again second s) (n : Nat) :
    stepMany lang plane whole limit n (s.shift first.size) =
      (stepMany lang plane second limit n s).shift first.size := by
  induction n generalizing s with
  | zero => rfl
  | succ n ih =>
    rw [stepMany, step_shift joined mirrored.nonneg, stepMany]
    cases first' : step lang plane second limit s with
    | next s' => exact ih (mirrored_step coherent mirrored first')
    | failed fault s' => rfl

theorem run_shift (coherent : Coherent lang again)
    (joined : whole.instructions = first.instructions ++ second.instructions)
    (mirrored : Mirrored lang again second s) :
    run lang plane whole limit (s.shift first.size) =
      (run lang plane second limit s).shift first.size := by
  obtain ⟨n, t, chain, ends⟩ := exists_endsAt_run lang plane second limit s
  have size := size_whole joined
  have chain' : stepMany lang plane whole limit n (s.shift first.size) =
      .next (t.shift first.size) := by
    rw [stepMany_shift coherent joined mirrored, chain]
    rfl
  have mirrored' : Mirrored lang again second t :=
    stepMany_keeps (fun s s' => mirrored_step coherent) mirrored chain
  have shifted : (t.shift first.size).index = t.index + first.size := rfl
  rw [run_of_stepMany chain']
  generalize run lang plane second limit s = ending at ends
  cases ends with
  | finished ended => exact run_of_size_le (by omega)
  | failed running failure =>
    apply run_of_step_eq_failed (by omega)
    rw [step_shift joined mirrored'.nonneg, failure]
    rfl

end Back

section Sequence
variable {lang : Language ι E ε} {again : ι → Bool} {first second whole : Program ι}

theorem runsInSequence (coherent : Coherent lang again) (plane : Plane P H) (limit : Int)
    (joined : whole.instructions = first.instructions ++ second.instructions)
    (balanced : Block.Balanced (roles lang first)) :
    RunsInSequence lang plane first second whole limit := by
  obtain ⟨n, t, chain, ends⟩ := exists_endsAt_run lang plane first limit (start lang plane)
  have mirrored : Mirrored lang again first t := mirrored_of_stepMany coherent chain
  have chain' : stepMany lang plane whole limit n (start lang plane) = .next t :=
    stepMany_front coherent joined balanced (start_mirrored plane) chain
  have accounts := accounts_run coherent plane first limit
  generalize outcome : run lang plane first limit (start lang plane) = ending at ends accounts
  cases ends with
  | finished ended =>
    refine ⟨?_, by rw [outcome]; nofun⟩
    intro s same
    rw [outcome] at same
    cases same
    obtain ⟨k, index, inside, -⟩ := mirrored
    have known : (knownRoles lang first).length ≤ first.size :=
      Block.length_known_le lang.role first.instructions
    have counted : t.steps = 0 + n := steps_of_stepMany chain
    have atEnd : t.index = first.size := by omega
    have empty : t.jumps = [] := (accounts.finished t rfl).2
    -- where `first` has ended, `second` begins with an empty stack of its own
    have resumed : t.restart.shift first.size = t := State.shift_restart atEnd empty
    have fresh : Mirrored lang again second t.restart := ⟨0, rfl, Nat.zero_le _, .nil⟩
    refine ⟨by rwa [counted, Nat.zero_add], atEnd, empty, ?_, ?_⟩
    · intro m
      rw [← stepMany_shift coherent joined fresh, resumed]
    · rw [run_of_stepMany chain', ← run_shift coherent joined fresh, resumed]
  | failed running failure =>
    refine ⟨by rw [outcome]; nofun, ?_⟩
    intro fault s same
    rw [outcome] at same
    cases same
    have size := size_whole joined
    rw [run_of_stepMany chain']
    apply run_of_step_eq_failed (by omega)
    rw [step_front coherent joined balanced mirrored running, failure]

end Sequence

end Machine

open Machine (RunsInSequence)

/-- A program whose brackets are balanced, followed by another one, runs like the two in sequence:
it ends as the first part does if that fails, and else goes on as the second part does where the
first part ended. -/
theorem programs_compose {P H : Type} (plane : Plane P H) (limit : Int) :
    (∀ first second whole : Program Instruction,
      whole.instructions = first.instructions ++ second.instructions →
        Block.Balanced (first.instructions.map Instruction.role) →
          RunsInSequence Instruction.language plane first second whole limit) ∧
    ∀ first second whole : Program Tree,
      whole.instructions = first.instructions ++ second.instructions →
        Block.Balanced (Machine.roles Tree.language first) →
          RunsInSequence Tree.language plane first second whole limit :=
  ⟨fun _ _ _ => Machine.runsInSequence Instruction.language_coherent plane limit,
    fun _ _ _ => Machine.runsInSequence Tree.language_coherent plane limit⟩

/-- A plane with one dimension, on which nothing is too large. -/
def Plane.ruler : Plane Int Int :=
  ⟨0, 0, fun p _ length => .ok (p + length), fun h n => .ok (h + n)⟩

/-- Moves by 2 and by 1. -/
def countdown : List Instruction :=
  [.set "n" (.int 2), .loop (.compare (.var "n") .gt (.int 0)), .move (.var "n"),
    .set "n" (.binary (.var "n") .sub (.int 1)), .close]

/-- Turns, and then opens a block that has no end. -/
def dangling : List Instruction :=
  [.conditional (.compare (.var "n") .eq (.int 0)), .rotate (.int 90), .close,
    .loop (.compare (.var "n") .eq (.int 0)), .move (.int 1)]

open Machine (run start stepMany)

/-- Behind a countdown of five lines, the block opened at line 4 is reported at line 9. -/
theorem countdown_before_dangling :
    (∃ s, run Instruction.language Plane.ruler ⟨countdown, []⟩ 100
      (start Instruction.language Plane.ruler) = .finished s) ∧
    ∃ s, run Instruction.language Plane.ruler ⟨countdown ++ dangling, []⟩ 100
      (start Instruction.language Plane.ruler) =
        .failed (.run ⟨.unclosedBlock 9, some 9⟩) s := by
  generalize final : (stepMany Instruction.language Plane.ruler ⟨countdown, []⟩ 100 10
    (start Instruction.language Plane.ruler)).state = s
  have chain : stepMany Instruction.language Plane.ruler ⟨countdown, []⟩ 100 10
      (start Instruction.language Plane.ruler) = .next s := by
    have success : (stepMany Instruction.language Plane.ruler ⟨countdown, []⟩ 100 10
        (start Instruction.language Plane.ruler)).fault? = none := by decide +kernel
    cases outcome : stepMany Instruction.language Plane.ruler ⟨countdown, []⟩ 100 10
        (start Instruction.language Plane.ruler) with
    | next t =>
      rw [outcome] at final
      rw [← final]
      rfl
    | failed fault t =>
      rw [outcome] at success
      cases success
  have ended : s.index = 5 := by
    rw [← final]
    decide +kernel
  have finishes : run Instruction.language Plane.ruler ⟨countdown, []⟩ 100
      (start Instruction.language Plane.ruler) = .finished s := by
    rw [Machine.run_of_stepMany chain]
    exact Machine.run_of_size_le (by rw [ended]; decide)
  have sequence : RunsInSequence Instruction.language Plane.ruler ⟨countdown, []⟩ ⟨dangling, []⟩
      ⟨countdown ++ dangling, []⟩ 100 :=
    (programs_compose Plane.ruler 100).1 _ _ _ rfl (by decide)
  have failure : (stepMany Instruction.language Plane.ruler ⟨dangling, []⟩ 100 4
      s.restart).fault? = some (.run ⟨.unclosedBlock 4, some 4⟩) := by
    rw [← final]
    decide +kernel
  obtain ⟨after, fails⟩ := Machine.run_of_fault? (by simp) failure
  obtain ⟨-, -, -, -, whole⟩ := sequence.finished s finishes
  rw [fails] at whole
  exact ⟨⟨s, finishes⟩, _, whole⟩

end TurtleGraphics
