import TurtleGraphics.Proofs.JumpStack
import TurtleGraphics.Proofs.Lockstep
import TurtleGraphics.Proofs.Runs
/-!
The pen only decides what is drawn.

A program and the same program without its pen instructions are run side by side. The machines stay
alike in everything but the pen and the drawing, because no other part of a state is computed from
these two. The pen of the second machine is never lifted, so it draws a line at each move, and the
first machine draws the same line if its pen is down.
-/
set_option autoImplicit false

namespace TurtleGraphics

namespace Program
variable {ι κ : Type}

/-- The program with `f` applied to each of its instructions. -/
def map (f : ι → κ) (p : Program ι) : Program κ := ⟨p.instructions.map f, p.lines⟩

theorem size_map (f : ι → κ) (p : Program ι) : (p.map f).size = p.size :=
  List.length_map f

theorem get?_map (f : ι → κ) (p : Program ι) (i : Int) : (p.map f).get? i = (p.get? i).map f := by
  simp only [get?, at?, map, List.length_map, List.getElem?_map]
  split
  · rfl
  · split <;> rfl

end Program

def Instruction.penless : Instruction → Instruction
  | lift | place => blank
  | i => i

/-- A pen instruction with operands is none, so it stays. -/
def Tree.penless : Tree → Tree
  | node (.instruction .lift) [] | node (.instruction .place) [] => node (.instruction .blank) []
  | t => t

namespace Machine

variable {ι E ε P H : Type}

def Action.penless : Action E ε → Action E ε
  | pen _ => .skip
  | a => a

/-- Instructions change to ones with the same role that do the same, but leave the pen alone. -/
structure Penless (lang : Language ι E ε) (penless : ι → ι) : Prop where
  role : ∀ i, lang.role (penless i) = lang.role i
  action : ∀ env i, lang.action env (penless i) = (lang.action env i).map Action.penless

/-- Two states have everything in common but the pen and the drawing. -/
structure AlikeButPen (s s' : State E P H) : Prop where
  env : s'.env = s.env
  jumps : s'.jumps = s.jumps
  index : s'.index = s.index
  steps : s'.steps = s.steps
  position : s'.recorder.cursor.position = s.recorder.cursor.position
  heading : s'.recorder.cursor.heading = s.recorder.cursor.heading

/-- The lines that a call of `step` draws after this many others. -/
def linesOf (lang : Language ι E ε) (plane : Plane P H) (program : Program ι) (limit : Int)
    (calls : Nat) : List (Event P) :=
  (drawing (afterCalls lang plane program limit (calls + 1))).segments.drop
    (drawing (afterCalls lang plane program limit calls)).segments.length

/-- A program and another one that never moves the pen do the same and end alike. The other one
draws with every call of `step` what the first one draws if its pen is down. -/
structure PenIndependent (lang : Language ι E ε) (plane : Plane P H) (program other : Program ι)
    (limit : Int) : Prop where
  alike : ∀ calls, AlikeButPen (afterCalls lang plane program limit calls)
    (afterCalls lang plane other limit calls)
  faults : ∀ calls,
    (step lang plane other limit (afterCalls lang plane other limit calls)).fault? =
      (step lang plane program limit (afterCalls lang plane program limit calls)).fault?
  ends : ∃ calls,
    (run lang plane program limit (start lang plane)).state =
        afterCalls lang plane program limit calls ∧
      (run lang plane other limit (start lang plane)).state =
        afterCalls lang plane other limit calls ∧
      (run lang plane other limit (start lang plane)).fault? =
        (run lang plane program limit (start lang plane)).fault?
  whole : ∀ calls, (drawing (afterCalls lang plane other limit calls)).segments =
    (List.range calls).flatMap (linesOf lang plane other limit)
  chosen : ∀ calls, (drawing (afterCalls lang plane program limit calls)).segments =
    (List.range calls).flatMap fun call =>
      if (afterCalls lang plane program limit call).recorder.cursor.penDown then
        linesOf lang plane other limit call
      else []

section Parallel

/-- The states are alike, and the second one has its pen down. -/
structure Parallel (s s' : State E P H) : Prop extends AlikeButPen s s' where
  down : s'.recorder.cursor.penDown = true

/-- From the parallel states `s` and `s'` the machines go on to the parallel states `t` and `t'`,
and the first one draws what the second one draws if its pen is down. -/
structure Continues (s s' t t' : State E P H) : Prop extends Parallel t t' where
  drawn : ∃ lines, (drawing t').segments = (drawing s').segments ++ lines ∧
    (drawing t).segments =
      (drawing s).segments ++ if s.recorder.cursor.penDown then lines else []

variable {lang : Language ι E ε} {penless : ι → ι} {plane : Plane P H} {program : Program ι}
variable {limit : Int} {s s' t t' : State E P H}

theorem State.advance_recorder (s : State E P H) : s.advance.recorder = s.recorder := rfl

theorem segments_drawing (s : State E P H) :
    (drawing s).segments = (s.recorder.trace.filter Event.isSegment).reverse :=
  List.filter_reverse ..

/-- States that are alike with the same drawings as before. -/
theorem continues_undrawn (parallel : Parallel t t')
    (undrawn : (drawing t).segments = (drawing s).segments)
    (undrawn' : (drawing t').segments = (drawing s').segments) : Continues s s' t t' := by
  refine ⟨parallel, [], by rw [undrawn', List.append_nil], ?_⟩
  rw [undrawn, ite_self, List.append_nil]

namespace Parallel

theorem counted (parallel : Parallel s s') : Parallel s.counted s'.counted :=
  ⟨⟨parallel.env, parallel.jumps, parallel.index, congrArg (· + 1) parallel.steps,
    parallel.position, parallel.heading⟩, parallel.down⟩

theorem goto (parallel : Parallel s s') (position : Int) :
    Parallel (s.goto position) (s'.goto position) :=
  ⟨⟨parallel.env, parallel.jumps, rfl, parallel.steps, parallel.position, parallel.heading⟩,
    parallel.down⟩

theorem advance (parallel : Parallel s s') : Parallel s.advance s'.advance := by
  rw [State.advance, State.advance, parallel.index]
  exact parallel.goto (s.index + 1)

theorem push (parallel : Parallel s s') (position : Int) :
    Parallel (s.push position) (s'.push position) :=
  ⟨⟨parallel.env, congrArg (position :: ·) parallel.jumps, parallel.index, parallel.steps,
    parallel.position, parallel.heading⟩, parallel.down⟩

theorem recorded (parallel : Parallel s s') {r r' : Recorder P H}
    (position : r'.cursor.position = r.cursor.position)
    (heading : r'.cursor.heading = r.cursor.heading) (down : r'.cursor.penDown = true) :
    Parallel { s with recorder := r } { s' with recorder := r' } :=
  ⟨⟨parallel.env, parallel.jumps, parallel.index, parallel.steps, position, heading⟩, down⟩

end Parallel

theorem blockEnd_penless (keeps : Penless lang penless) (start : Int) :
    blockEnd lang (program.map penless) start = blockEnd lang program start := by
  apply blockEnd_congr
  rw [Program.map, List.map_map]
  exact List.map_congr_left fun i _ => keeps.role i

theorem move_alike (plane : Plane P H) (parallel : Parallel s s') (length : Int) :
    OutcomesMatch (ε := ε) (Continues s s') id
      (moved s .lengthTooLarge (s.recorder.move plane length))
      (moved s' .lengthTooLarge (s'.recorder.move plane length)) := by
  unfold Recorder.move
  rw [parallel.position, parallel.heading, parallel.down]
  cases plane.advance s.recorder.cursor.position s.recorder.cursor.heading length with
  | error e => cases e <;> exact .error _
  | ok stop =>
    -- the second machine draws this line, and so does the first one if its pen is down
    refine .ok ⟨Parallel.advance ?_, [.segment s.recorder.cursor.position stop], ?_, ?_⟩
    · exact parallel.recorded rfl parallel.heading parallel.down
    · simp [segments_drawing, State.advance_recorder, List.filter_cons, Event.isSegment]
    · cases s.recorder.cursor.penDown with
      | true => simp [segments_drawing, State.advance_recorder, List.filter_cons, Event.isSegment]
      | false => simp [segments_drawing, State.advance_recorder]

theorem rotate_alike (parallel : Parallel s s') (degrees : Int) :
    OutcomesMatch (ε := ε) (Continues s s') id
      (moved s .angleTooLarge (s.recorder.rotate plane degrees))
      (moved s' .angleTooLarge (s'.recorder.rotate plane degrees)) := by
  unfold Recorder.rotate
  rw [parallel.heading]
  cases plane.turn s.recorder.cursor.heading degrees with
  | error e => cases e <;> exact .error _
  | ok heading =>
    refine .ok (continues_undrawn (Parallel.advance ?_) rfl rfl)
    exact parallel.recorded parallel.position rfl parallel.down

theorem perform_alike (keeps : Penless lang penless) (parallel : Parallel s s')
    (action : Action E ε) :
    OutcomesMatch (Continues s s') id (perform lang plane program s action)
      (perform lang plane (program.map penless) s' action.penless) := by
  cases action with
  | move length => exact move_alike plane parallel length
  | stray m =>
    have first := move_alike (ε := ε) plane parallel 0
    exact first.stray rfl
  | rotate degrees => exact rotate_alike parallel degrees
  | pen down =>
    refine .ok (continues_undrawn (Parallel.advance ?_) ?_ rfl)
    · exact parallel.recorded parallel.position parallel.heading parallel.down
    · simp [segments_drawing, State.advance_recorder, Recorder.pen, Event.isSegment]
  | assign env =>
    have assigned : Parallel { s with env } { s' with env } :=
      ⟨⟨rfl, parallel.jumps, parallel.index, parallel.steps, parallel.position, parallel.heading⟩,
        parallel.down⟩
    exact .ok (continues_undrawn assigned.advance rfl rfl)
  | enter holds again =>
    simp only [perform, Action.penless, parallel.index, blockEnd_penless keeps]
    cases blockEnd lang program s.index with
    | error fault => exact .error _
    | ok stop =>
      cases holds with
      | false => exact .ok (continues_undrawn (parallel.goto (stop + 1)) rfl rfl)
      | true => exact .ok (continues_undrawn (parallel.push _).advance rfl rfl)
  | close =>
    simp only [perform, Action.penless, State.pop, parallel.jumps]
    cases s.jumps with
    | nil => exact .error _
    | cons position rest =>
      exact .ok (continues_undrawn ⟨⟨parallel.env, rfl, rfl, parallel.steps, parallel.position,
        parallel.heading⟩, parallel.down⟩ rfl rfl)
  | skip => exact .ok (continues_undrawn parallel.advance rfl rfl)

theorem execute_alike (plane : Plane P H) (program : Program ι) (keeps : Penless lang penless)
    (parallel : Parallel s s') (i : ι) :
    OutcomesMatch (Continues s s') id (execute lang plane program s i)
      (execute lang plane (program.map penless) s' (penless i)) := by
  rw [execute, execute, keeps.action, parallel.env]
  cases lang.action s.env i with
  | ok action => exact perform_alike keeps parallel action
  | error e => exact .error _

theorem step_alike (plane : Plane P H) (program : Program ι) (limit : Int)
    (keeps : Penless lang penless) (parallel : Parallel s s') :
    StepsMatch (Continues s s') id (step lang plane program limit s)
      (step lang plane (program.map penless) limit s') := by
  have size := Program.size_map penless program
  have index := parallel.index
  have steps := parallel.steps
  have counted : Continues s s' s.counted s'.counted :=
    continues_undrawn parallel.counted rfl rfl
  by_cases finished : program.size ≤ s.index
  · rw [step_of_size_le finished, step_of_size_le (by omega)]
    exact .failed _ (continues_undrawn parallel rfl rfl)
  have running : s.index < program.size := by omega
  have running' : s'.index < (program.map penless).size := by omega
  by_cases spent : limit < (s.steps : Int) + 1
  · rw [step_of_limit_lt running spent, step_of_limit_lt running' (by omega), index]
    exact .failed _ counted
  have within : (s.steps : Int) + 1 ≤ limit := by omega
  have within' : (s'.steps : Int) + 1 ≤ limit := by omega
  have fetched' := Program.get?_map penless program s'.index
  rw [index] at fetched'
  cases fetched : program.get? s.index with
  | none =>
    rw [fetched, Option.map_none, ← index] at fetched'
    rw [step_of_get?_eq_none running within fetched,
      step_of_get?_eq_none running' within' fetched', index]
    exact .failed _ counted
  | some i =>
    rw [fetched, Option.map_some, ← index] at fetched'
    rw [step_of_get? running within fetched, step_of_get? running' within' fetched', index]
    have outcomes := execute_alike plane program keeps parallel.counted i
    exact (outcomes.mono fun _ _ continues => ⟨continues.toParallel, continues.drawn⟩).steps
      counted fun _ => rfl

theorem fault?_eq_of_alike {first second : Step E ε P H}
    (steps : StepsMatch (Continues s s') id first second) : second.fault? = first.fault? := by
  cases steps <;> rfl

theorem start_parallel (lang : Language ι E ε) (plane : Plane P H) :
    Parallel (start lang plane) (start lang plane) :=
  ⟨⟨rfl, rfl, rfl, rfl, rfl, rfl⟩, rfl⟩

theorem afterCalls_parallel (keeps : Penless lang penless) (calls : Nat) :
    Parallel (afterCalls lang plane program limit calls)
      (afterCalls lang plane (program.map penless) limit calls) := by
  induction calls with
  | zero => exact start_parallel lang plane
  | succ calls ih => exact (step_alike plane program limit keeps ih).state.toParallel

theorem afterCalls_continues (plane : Plane P H) (program : Program ι) (limit : Int)
    (keeps : Penless lang penless) (calls : Nat) :
    Continues (afterCalls lang plane program limit calls)
      (afterCalls lang plane (program.map penless) limit calls)
      (afterCalls lang plane program limit (calls + 1))
      (afterCalls lang plane (program.map penless) limit (calls + 1)) :=
  (step_alike plane program limit keeps (afterCalls_parallel keeps calls)).state

/-- A call draws the same line in both machines, or the pen of the first one is up. -/
theorem segments_afterCalls_succ (keeps : Penless lang penless) (calls : Nat) :
    (drawing (afterCalls lang plane (program.map penless) limit (calls + 1))).segments =
        (drawing (afterCalls lang plane (program.map penless) limit calls)).segments ++
          linesOf lang plane (program.map penless) limit calls ∧
      (drawing (afterCalls lang plane program limit (calls + 1))).segments =
        (drawing (afterCalls lang plane program limit calls)).segments ++
          if (afterCalls lang plane program limit calls).recorder.cursor.penDown then
            linesOf lang plane (program.map penless) limit calls
          else [] := by
  obtain ⟨lines, second, first⟩ := (afterCalls_continues plane program limit keeps calls).drawn
  have own : linesOf lang plane (program.map penless) limit calls = lines := by
    rw [linesOf, second, List.drop_left]
  rw [own]
  exact ⟨second, first⟩

theorem stepMany_alike (keeps : Penless lang penless) (parallel : Parallel s s') {n : Nat}
    (chain : stepMany lang plane program limit n s = .next t) :
    ∃ t', stepMany lang plane (program.map penless) limit n s' = .next t' ∧ Parallel t t' := by
  induction n generalizing s s' with
  | zero =>
    cases chain
    exact ⟨s', rfl, parallel⟩
  | succ n ih =>
    obtain ⟨u, success, rest⟩ := exists_of_stepMany_succ chain
    have steps := step_alike plane program limit keeps parallel
    rw [success] at steps
    obtain ⟨u', success', continues⟩ := steps.exists_next
    rw [stepMany_succ_of_step success']
    exact ih continues.toParallel rest

/-- Both runs end after the same number of calls, and alike. -/
theorem ends_alike (keeps : Penless lang penless) :
    ∃ calls,
      (run lang plane program limit (start lang plane)).state =
          afterCalls lang plane program limit calls ∧
        (run lang plane (program.map penless) limit (start lang plane)).state =
          afterCalls lang plane (program.map penless) limit calls ∧
        (run lang plane (program.map penless) limit (start lang plane)).fault? =
          (run lang plane program limit (start lang plane)).fault? := by
  obtain ⟨n, t, chain, ends⟩ := exists_endsAt_run lang plane program limit (start lang plane)
  obtain ⟨t', chain', parallel⟩ := stepMany_alike keeps (start_parallel lang plane) chain
  have reached := afterCalls_of_stepMany chain
  have reached' := afterCalls_of_stepMany chain'
  have size := Program.size_map penless program
  have index := parallel.index
  rw [run_of_stepMany chain']
  generalize run lang plane program limit (start lang plane) = ending at ends
  cases ends with
  | finished ended =>
    rw [run_of_size_le (by omega)]
    exact ⟨n, reached.symm, reached'.symm, rfl⟩
  | failed running failure =>
    have steps := step_alike plane program limit keeps parallel
    rw [failure] at steps
    obtain ⟨after, failure', -⟩ := steps.exists_failed
    rw [run_of_step_eq_failed (by omega) failure']
    refine ⟨n + 1, ?_, ?_, rfl⟩
    · rw [afterCalls, reached, failure]
      rfl
    · rw [afterCalls, reached', failure']
      rfl

theorem penIndependent (keeps : Penless lang penless) (plane : Plane P H) (program : Program ι)
    (limit : Int) : PenIndependent lang plane program (program.map penless) limit where
  alike calls := (afterCalls_parallel keeps calls).toAlikeButPen
  faults calls :=
    fault?_eq_of_alike (step_alike plane program limit keeps (afterCalls_parallel keeps calls))
  ends := ends_alike keeps
  whole calls := by
    induction calls with
    | zero => rfl
    | succ calls ih =>
      rw [(segments_afterCalls_succ keeps calls).1, ih, List.range_succ, List.flatMap_append,
        List.flatMap_singleton]
  chosen calls := by
    induction calls with
    | zero => rfl
    | succ calls ih =>
      rw [(segments_afterCalls_succ keeps calls).2, ih, List.range_succ, List.flatMap_append,
        List.flatMap_singleton]

end Parallel

end Machine

namespace Instruction

theorem language_penless : Machine.Penless language penless where
  role i := by cases i <;> rfl
  action env i := by
    change action env i.penless = (action env i).map Machine.Action.penless
    cases i with
    | move length =>
      simp only [penless, action]
      cases evaluated (length.eval env) <;> rfl
    | rotate angle =>
      simp only [penless, action]
      cases evaluated (angle.eval env) <;> rfl
    | lift | place | close | blank => rfl
    | set name value =>
      simp only [penless, action]
      cases evaluated (value.eval env) <;> rfl
    | conditional condition | loop condition =>
      simp only [penless, action]
      cases evaluated (condition.eval env) <;> rfl

end Instruction

namespace Tree

/-- Only the two pen instructions move the pen. -/
theorem action_penless {env : Env} {t : Tree} (other : t.penless = t) :
    (action env t).map Machine.Action.penless = action env t := by
  unfold action
  split
  · rename_i length
    cases evaluated env length with
    | error e => rfl
    | ok v =>
      change Except.ok (moveBy v).penless = Except.ok (moveBy v)
      rcases moveBy_eq v with ⟨n, same⟩ | ⟨m, same⟩ <;> rw [same] <;> rfl
  · rename_i angle
    cases turned : (evaluated env angle).bind rotateBy with
    | error e => rfl
    | ok a =>
      obtain ⟨v, n, -, -, rfl⟩ := rotateBy_eq_ok turned
      rfl
  · cases other
  · cases other
  · rename_i name value
    cases evaluated env value <;> rfl
  · rename_i condition
    cases evaluated env condition <;> rfl
  · rename_i condition
    cases evaluated env condition <;> rfl
  · rfl
  · rfl
  · rfl

theorem language_penless : Machine.Penless language penless where
  role t := by
    change t.penless.role = t.role
    unfold penless
    split <;> rfl
  action env t := by
    change action env t.penless = (action env t).map Machine.Action.penless
    by_cases other : t.penless = t
    · rw [other, action_penless other]
    · unfold penless at other ⊢
      split
      · rfl
      · rfl
      · split at other <;> contradiction

end Tree

/-- A program and the same program without its pen instructions do the same under every limit: they
visit the same states but for the pen and the drawing, and end alike. Of the lines of the second
program, the first one draws those that come from moves made while its own pen is down. -/
theorem pen_only_decides_lines {P H : Type} (plane : Plane P H) (limit : Int) :
    (∀ program : Program Instruction,
      Machine.PenIndependent Instruction.language plane program
        (program.map Instruction.penless) limit) ∧
    ∀ program : Program Tree,
      Machine.PenIndependent Tree.language plane program (program.map Tree.penless) limit :=
  ⟨fun program => Machine.penIndependent Instruction.language_penless plane program limit,
    fun program => Machine.penIndependent Tree.language_penless plane program limit⟩

end TurtleGraphics
