import Mathlib.Data.List.Forall2
import Mathlib.Tactic.ByContra
import TurtleGraphics.Instruction.Action
import TurtleGraphics.Proofs.KnownRoles
import TurtleGraphics.Proofs.Lockstep
import TurtleGraphics.Proofs.StepLimit
import TurtleGraphics.Tree.Action
/-!
Instructions that do nothing may be inserted anywhere.

A machine on the longer program follows the machine on the shorter one (`Follows`): what stood at
the place of the new instruction or behind it is found one position further on. A return position
may also point at the new instruction, where the shorter program has the one that comes after it.
There the machine makes one step more and has caught up. So each step of the shorter program is one
or two steps of the longer one, and the runs end alike if both have steps enough.
-/
set_option autoImplicit false

namespace TurtleGraphics

namespace Block
variable {α ε : Type} {role : α → Except ε Role} {a : α} {front back : List α}

/-- Where the item at position `p` stands after an item has been inserted at `k`. -/
def past (k : Nat) (p : Int) : Int := if p < k then p else p + 1

/-- The same for a count of the items in between. -/
def skip (k n : Nat) : Nat := if n < k then n else n + 1

theorem past_of_lt {k : Nat} {p : Int} (before : p < k) : past k p = p := if_pos before

theorem past_of_le {k : Nat} {p : Int} (behind : k ≤ p) : past k p = p + 1 :=
  if_neg (Int.not_lt.mpr behind)

theorem map_skip_succ (k : Nat) (found : Option Nat) :
    (found.map (skip k)).map (· + 1) = (found.map (· + 1)).map (skip (k + 1)) := by
  cases found with
  | none => rfl
  | some n =>
    simp only [Option.map_some, skip, Option.some.injEq]
    split <;> split <;> omega

/-- A search for a closer counts the new item and takes no other notice of it. -/
theorem closerIn?_inserted (neutral : role a = .ok .neutral) (depth : Nat) :
    closerIn? depth (known role (front ++ a :: back)) =
      (closerIn? depth (known role (front ++ back))).map (skip front.length) := by
  induction front generalizing depth with
  | nil =>
    simp only [List.nil_append, known, neutral, closerIn?_neutral]
    rfl
  | cons b rest ih =>
    rw [List.cons_append, List.cons_append, known, known, List.length_cons]
    cases role b with
    | error e => cases depth <;> rfl
    | ok r =>
      cases r with
      | opens =>
        simp only [closerIn?]
        rw [ih, map_skip_succ]
      | closes =>
        cases depth with
        | zero => rfl
        | succ depth =>
          simp only [closerIn?]
          rw [ih, map_skip_succ]
      | neutral =>
        simp only [closerIn?_neutral]
        rw [ih, map_skip_succ]

theorem obstacle?_inserted (neutral : role a = .ok .neutral) :
    obstacle? role (front ++ a :: back) = obstacle? role (front ++ back) := by
  induction front with
  | nil =>
    rw [List.nil_append, obstacle?, neutral]
    rfl
  | cons b rest ih => rw [List.cons_append, List.cons_append, obstacle?, obstacle?, ih]

theorem closer_inserted (neutral : role a = .ok .neutral) (b : Nat) :
    closer role (front ++ a :: back) (past front.length b) =
      (closer role (front ++ back) b).map (past front.length) := by
  by_cases before : b < front.length
  · -- the search comes across the new item, if it comes so far
    rw [past_of_lt (by omega), closer_eq_drop, closer_eq_drop,
      List.drop_append_of_le_length before, List.drop_append_of_le_length before,
      closerIn?_inserted neutral, obstacle?_inserted neutral, List.length_drop]
    cases closerIn? 0 (known role (front.drop (b + 1) ++ back)) with
    | some n =>
      simp only [Option.map_some, Except.map, past, skip, Except.ok.injEq]
      split <;> split <;> omega
    | none => cases obstacle? role (front.drop (b + 1) ++ back) <;> rfl
  · have behind : front.length ≤ b := Nat.le_of_not_lt before
    have rest : (front ++ a :: back).drop (b + 1 + 1) = (front ++ back).drop (b + 1) := by
      obtain ⟨n, rfl⟩ := Nat.exists_eq_add_of_le behind
      rw [Nat.add_assoc, Nat.add_assoc, List.drop_length_add_append, Nat.add_assoc,
        List.drop_length_add_append, List.drop_succ_cons]
    have position : past front.length b = ((b + 1 : Nat) : Int) := past_of_le (by omega)
    rw [position, closer_eq_drop, closer_eq_drop, rest]
    cases closerIn? 0 (known role ((front ++ back).drop (b + 1))) with
    | some n =>
      simp only [Except.map, past, Except.ok.injEq]
      split <;> omega
    | none => cases obstacle? role ((front ++ back).drop (b + 1)) <;> rfl

end Block

open Block (past past_of_lt past_of_le)

/-- The number of a line after a line has been inserted behind the first `k`. -/
def lineAfter (k : Nat) (line : Int) : Int := if line ≤ k then line else line + 1

theorem lineAfter_succ (k : Nat) (p : Int) : lineAfter k (p + 1) = past k p + 1 := by
  unfold lineAfter past
  split <;> split <;> omega

/-! The same error where lines have other numbers. -/

def Cause.renumber (f : Int → Int) : Cause → Cause
  | unclosedBlock line => .unclosedBlock (f line)
  | c => c

def RunError.renumber (f : Int → Int) (e : RunError) : RunError :=
  ⟨e.cause.renumber f, e.line.map f⟩

theorem Cause.renumber_kind (f : Int → Int) (c : Cause) : (c.renumber f).kind = c.kind := by
  cases c <;> rfl

namespace Machine

variable {ι E ε P H : Type}

def Fault.renumber (f : Int → Int) : Fault ε → Fault ε
  | .run e => .run (RunError.renumber f e)
  | fault => fault

/-- Two runs end alike, but the lines of the second one are those of a program with a line inserted
behind the first `k`. -/
inductive Ending.Renumbered (k : Nat) : Ending E ε P H → Ending E ε P H → Prop
  | finished {s s' : State E P H} (env : s'.env = s.env) (recorder : s'.recorder = s.recorder) :
      Renumbered k (.finished s) (.finished s')
  | failed (fault : Fault ε) {s s' : State E P H} (env : s'.env = s.env)
      (recorder : s'.recorder = s.recorder) :
      Renumbered k (.failed fault s) (.failed (fault.renumber (lineAfter k)) s')

/-- Both programs exceed every limit, or neither does, and they end alike under all limits that
leave them steps enough. -/
structure RunsAlike (lang : Language ι E ε) (plane : Plane P H) (program longer : Program ι)
    (k : Nat) : Prop where
  endless : (∀ limit : Nat, (run lang plane program limit (start lang plane)).OutOfSteps) ↔
    ∀ limit : Nat, (run lang plane longer limit (start lang plane)).OutOfSteps
  agrees : ∀ limit limit' : Nat,
    ¬(run lang plane program limit (start lang plane)).OutOfSteps →
      ¬(run lang plane longer limit' (start lang plane)).OutOfSteps →
        (run lang plane program limit (start lang plane)).Renumbered k
          (run lang plane longer limit' (start lang plane))

/-- The longer program has one more instruction, at position `k`, which does nothing. -/
structure Inserted (lang : Language ι E ε) (k : Nat) (program longer : Program ι) : Prop where
  le_size : k ≤ program.size
  size : longer.size = program.size + 1
  idle : ∃ i, longer.get? k = some i ∧ ∀ env, lang.action env i = .ok .skip
  others : ∀ p : Nat, longer.get? (past k p) = program.get? p
  blocks : ∀ p : Nat,
    (∃ stop : Nat, blockEnd lang program p = .ok stop ∧
      blockEnd lang longer (past k p) = .ok (past k stop)) ∨
    ∃ fault, blockEnd lang program p = .error fault ∧
      blockEnd lang longer (past k p) = .error (fault.renumber (lineAfter k))

/-- In the longer program `i'` is where the shorter one is at `i`, or the new instruction comes
first. -/
def Reached (k : Nat) (i i' : Int) : Prop := 0 ≤ i ∧ (i' = i ∧ i ≤ k ∨ i' = i + 1 ∧ k ≤ i)

/-- The machine on the longer program is as far as the one on the shorter program. -/
structure Follows (k : Nat) (s s' : State E P H) : Prop where
  env : s'.env = s.env
  recorder : s'.recorder = s.recorder
  index : Reached k s.index s'.index
  jumps : List.Forall₂ (Reached k) s.jumps s'.jumps

section Insertion
variable {lang : Language ι E ε} {blank : ι} {front back : List ι} {lines lines' : List String}

theorem get?_past (p : Nat) :
    Program.get? ⟨front ++ blank :: back, lines'⟩ (past front.length p) =
      Program.get? ⟨front ++ back, lines⟩ p := by
  by_cases before : p < front.length
  · rw [past_of_lt (by omega), Program.get?_ofNat, Program.get?_ofNat,
      List.getElem?_append_left before, List.getElem?_append_left before]
  · have behind : front.length ≤ p := Nat.le_of_not_lt before
    have position : past front.length p = ((p + 1 : Nat) : Int) := past_of_le (by omega)
    rw [position, Program.get?_ofNat, Program.get?_ofNat,
      List.getElem?_append_right (by omega), List.getElem?_append_right behind,
      Nat.succ_sub behind, List.getElem?_cons_succ]

theorem blockEnd_past (neutral : lang.role blank = .ok .neutral) (p : Nat) :
    (∃ stop : Nat, blockEnd lang ⟨front ++ back, lines⟩ p = .ok stop ∧
      blockEnd lang ⟨front ++ blank :: back, lines'⟩ (past front.length p) =
        .ok (past front.length stop)) ∨
    ∃ fault, blockEnd lang ⟨front ++ back, lines⟩ p = .error fault ∧
      blockEnd lang ⟨front ++ blank :: back, lines'⟩ (past front.length p) =
        .error (fault.renumber (lineAfter front.length)) := by
  simp only [blockEnd, Block.closer_inserted neutral, ← lineAfter_succ]
  rw [Block.closer_eq_drop]
  cases Block.closerIn? 0 (Block.known lang.role ((front ++ back).drop (p + 1))) with
  | some n => exact Or.inl ⟨p + 1 + n, rfl, rfl⟩
  | none =>
    cases Block.obstacle? lang.role ((front ++ back).drop (p + 1)) with
    | some reason => exact Or.inr ⟨_, rfl, rfl⟩
    | none => exact Or.inr ⟨_, rfl, rfl⟩

theorem inserted (neutral : lang.role blank = .ok .neutral)
    (idle : ∀ env, lang.action env blank = .ok .skip) :
    Inserted lang front.length ⟨front ++ back, lines⟩ ⟨front ++ blank :: back, lines'⟩ where
  le_size := by simp [Program.size]
  size := by
    simp only [Program.size, List.length_append, List.length_cons]
    omega
  idle := ⟨blank, by simp [Program.get?_ofNat], idle⟩
  others := get?_past
  blocks := blockEnd_past neutral

end Insertion

section Following
variable {lang : Language ι E ε} {plane : Plane P H} {program longer : Program ι} {k : Nat}
variable {limit limit' : Int} {s s' t t' : State E P H}

theorem reached_past {i : Int} (nonneg : 0 ≤ i) : Reached k i (past k i) := by
  unfold Reached past
  split <;> omega

theorem reached_past_succ {i : Int} (nonneg : 0 ≤ i) : Reached k (i + 1) (past k i + 1) := by
  unfold Reached past
  split <;> omega

/-- The machine on the longer program has caught up, or it is at the new instruction. -/
theorem Reached.eq_past_or {i i' : Int} (reached : Reached k i i') :
    i' = past k i ∨ i = k ∧ i' = k := by
  unfold Reached at reached
  unfold past
  split <;> omega

theorem renumber_atLine (f : Int → Int) (line : Int) (fault : Fault ε) :
    (fault.renumber f).atLine (f line) = (fault.atLine line).renumber f := by
  cases fault with
  | run e =>
    obtain ⟨cause, known⟩ := e
    cases known <;> rfl
  | noDirection | outside | finished | misuse => rfl

theorem start_follows : Follows k (start lang plane) (start lang plane) :=
  ⟨rfl, rfl, ⟨Int.le_refl 0, Or.inl ⟨rfl, Int.natCast_nonneg k⟩⟩, .nil⟩

theorem Follows.counted (follows : Follows k s s') : Follows k s.counted s'.counted :=
  ⟨follows.env, follows.recorder, follows.index, follows.jumps⟩

theorem Follows.goto (follows : Follows k s s') {i i' : Int} (reached : Reached k i i') :
    Follows k (s.goto i) (s'.goto i') :=
  ⟨follows.env, follows.recorder, reached, follows.jumps⟩

theorem Follows.advance (follows : Follows k s s') (aligned : s'.index = past k s.index) :
    Follows k s.advance s'.advance := by
  rw [State.advance, State.advance, aligned]
  exact follows.goto (reached_past_succ follows.index.1)

theorem Follows.push (follows : Follows k s s') {i i' : Int} (reached : Reached k i i') :
    Follows k (s.push i) (s'.push i') :=
  ⟨follows.env, follows.recorder, follows.index, .cons reached follows.jumps⟩

theorem Follows.assign (follows : Follows k s s') (env : E) :
    Follows k { s with env } { s' with env } :=
  ⟨rfl, follows.recorder, follows.index, follows.jumps⟩

theorem Follows.record (follows : Follows k s s') (recorder : Recorder P H) :
    Follows k { s with recorder } { s' with recorder } :=
  ⟨follows.env, rfl, follows.index, follows.jumps⟩

theorem moved_follow (follows : Follows k s s') (aligned : s'.index = past k s.index)
    (cause : Cause) (kept : cause.renumber (lineAfter k) = cause)
    (outcome : Except Plane.Fault (Recorder P H)) :
    OutcomesMatch (ε := ε) (Follows k) (.renumber (lineAfter k)) (moved s cause outcome)
      (moved s' cause outcome) := by
  cases outcome with
  | ok recorder => exact .ok ((follows.record recorder).advance aligned)
  | error e =>
    cases e with
    | noDirection => exact .error .noDirection
    | tooLarge =>
      have same : (Fault.of cause : Fault ε).renumber (lineAfter k) = .of cause := by
        simp only [Fault.of, Fault.renumber, RunError.renumber, kept, Option.map_none]
      exact .same same

theorem perform_follow (inserted : Inserted lang k program longer) (follows : Follows k s s')
    (aligned : s'.index = past k s.index) (action : Action E ε) :
    OutcomesMatch (Follows k) (.renumber (lineAfter k)) (perform lang plane program s action)
      (perform lang plane longer s' action) := by
  cases action with
  | move length =>
    rw [perform, perform, follows.recorder]
    exact moved_follow follows aligned _ rfl _
  | stray m =>
    have tried := moved_follow (ε := ε) follows aligned .lengthTooLarge rfl
      (s.recorder.move plane 0)
    rw [perform, perform, follows.recorder]
    exact tried.stray rfl
  | rotate degrees =>
    rw [perform, perform, follows.recorder]
    exact moved_follow follows aligned _ rfl _
  | pen down =>
    rw [perform, perform, follows.recorder]
    exact .ok ((follows.record _).advance aligned)
  | assign env => exact .ok ((follows.assign env).advance aligned)
  | enter holds again =>
    obtain ⟨p, index⟩ := Int.eq_ofNat_of_zero_le follows.index.1
    simp only [perform, aligned, index]
    rcases inserted.blocks p with ⟨stop, own, other⟩ | ⟨fault, own, other⟩
    · rw [own, other]
      have behind : Reached k ((stop : Int) + 1) (past k stop + 1) :=
        reached_past_succ (Int.natCast_nonneg stop)
      cases holds with
      | false => exact .ok (follows.goto behind)
      | true =>
        cases again with
        | false => exact .ok ((follows.push behind).advance aligned)
        | true =>
          have opener : Reached k (p : Int) (past k p) := reached_past (Int.natCast_nonneg p)
          exact .ok ((follows.push opener).advance aligned)
    · rw [own, other]
      exact .error fault
  | close =>
    have jumps := follows.jumps
    simp only [perform, State.pop]
    generalize s.jumps = stack at jumps
    generalize s'.jumps = stack' at jumps
    cases jumps with
    | nil => exact .error (.of .strayClose)
    | cons reached rest => exact .ok ⟨follows.env, follows.recorder, reached, rest⟩
  | skip => exact .ok (follows.advance aligned)

theorem execute_follow (plane : Plane P H) (inserted : Inserted lang k program longer)
    (follows : Follows k s s') (aligned : s'.index = past k s.index) (i : ι) :
    OutcomesMatch (Follows k) (.renumber (lineAfter k)) (execute lang plane program s i)
      (execute lang plane longer s' i) := by
  rw [execute, execute, follows.env]
  cases lang.action s.env i with
  | ok action => exact perform_follow inserted follows aligned action
  | error e => cases e <;> exact .error (Fault.ofFailure _)

theorem running_past (inserted : Inserted lang k program longer)
    (running : s.index < program.size) : past k s.index < longer.size := by
  have size := inserted.size
  unfold past
  split <;> omega

/-- From the same instruction the machines make the same step. -/
theorem step_follow (plane : Plane P H) (inserted : Inserted lang k program longer)
    (follows : Follows k s s') (aligned : s'.index = past k s.index)
    (running : s.index < program.size)
    (within : (s.steps : Int) + 1 ≤ limit) (within' : (s'.steps : Int) + 1 ≤ limit') :
    StepsMatch (Follows k) (.renumber (lineAfter k)) (step lang plane program limit s)
      (step lang plane longer limit' s') := by
  have running' : s'.index < longer.size := by
    rw [aligned]
    exact running_past inserted running
  obtain ⟨p, index⟩ := Int.eq_ofNat_of_zero_le follows.index.1
  have bound : p < program.size := by omega
  obtain ⟨i, item⟩ := exists_get? bound
  have fetched : program.get? s.index = some i := by rw [index, item]
  have fetched' : longer.get? s'.index = some i := by rw [aligned, index, inserted.others, item]
  have line : s'.index + 1 = lineAfter k (s.index + 1) := by rw [aligned, lineAfter_succ]
  rw [step_of_get? running within fetched, step_of_get? running' within' fetched', line]
  exact (execute_follow plane inserted follows.counted aligned i).steps follows.counted
    (renumber_atLine (lineAfter k) (s.index + 1))

/-- The machine on the longer program passes the new instruction, if it is there. -/
theorem catch_up (plane : Plane P H) (inserted : Inserted lang k program longer)
    (follows : Follows k s s') (room : (s'.steps : Int) + 1 ≤ limit') :
    ∃ n t', n ≤ 1 ∧ stepMany lang plane longer limit' n s' = .next t' ∧ Follows k s t' ∧
      t'.index = past k s.index := by
  rcases follows.index.eq_past_or with aligned | ⟨index, index'⟩
  · exact ⟨0, s', Nat.zero_le 1, rfl, follows, aligned⟩
  have size := inserted.size
  have le := inserted.le_size
  obtain ⟨i, item, idle⟩ := inserted.idle
  have fetched : longer.get? s'.index = some i := by rw [index', item]
  have skipped : step lang plane longer limit' s' = .next s'.counted.advance := by
    rw [step_of_get? (by omega) room fetched, execute, idle]
    rfl
  have position : past k s.index = s'.index + 1 := by
    rw [index, index']
    exact past_of_le (Int.le_refl _)
  refine ⟨1, s'.counted.advance, Nat.le_refl 1, ?_, ?_, position.symm⟩
  · rw [stepMany_succ_of_step skipped]
    rfl
  · refine ⟨follows.env, follows.recorder, ?_, follows.jumps⟩
    have reached : Reached k s.index (past k s.index) := reached_past follows.index.1
    rwa [position] at reached

/-- Each step of the shorter program is one or two steps of the longer one. -/
theorem stepMany_follow (inserted : Inserted lang k program longer) (follows : Follows k s s')
    {n : Nat} (chain : stepMany lang plane program limit n s = .next t)
    (room : (s'.steps : Int) + 2 * n ≤ limit') :
    ∃ m t', n ≤ m ∧ m ≤ 2 * n ∧ stepMany lang plane longer limit' m s' = .next t' ∧
      Follows k t t' := by
  induction n generalizing s s' with
  | zero =>
    cases chain
    exact ⟨0, s', Nat.le_refl 0, Nat.le_refl 0, rfl, follows⟩
  | succ n ih =>
    obtain ⟨u, success, rest⟩ := exists_of_stepMany_succ chain
    obtain ⟨running, within, -⟩ := step_eq_next success
    have first : (s'.steps : Int) + 1 ≤ limit' := by omega
    obtain ⟨c, s'', few, caught, follows, aligned⟩ := catch_up plane inserted follows first
    have spent := steps_of_stepMany caught
    have within' : (s''.steps : Int) + 1 ≤ limit' := by omega
    have steps := step_follow plane inserted follows aligned running within within'
    rw [success] at steps
    obtain ⟨u', success', follows⟩ := steps.exists_next
    have counted := (steps_of_step_eq_next success').1
    obtain ⟨m, t', least, most, chain', follows⟩ := ih follows rest (by omega)
    refine ⟨c + (m + 1), t', by omega, by omega, ?_, follows⟩
    rw [stepMany_add caught, stepMany_succ_of_step success', chain']

end Following

section Endings
variable {lang : Language ι E ε} {plane : Plane P H} {program longer : Program ι} {k : Nat}

theorem outOfSteps_of_renumbered {ending ending' : Ending E ε P H}
    (renumbered : ending.Renumbered k ending') (out : ending'.OutOfSteps) : ending.OutOfSteps := by
  cases renumbered with
  | finished env recorder => exact out
  | failed fault env recorder =>
    cases fault with
    | run error =>
      change (error.cause.renumber (lineAfter k)).kind = .resourceLimit at out
      rwa [Cause.renumber_kind] at out
    | noDirection | outside | finished | misuse => exact out

/-- A run with steps to spare ends like a run of the longer program under a higher limit. -/
theorem exists_renumbered (inserted : Inserted lang k program longer) {limit : Nat}
    (enough : ¬(run lang plane program limit (start lang plane)).OutOfSteps) :
    ∃ limit' : Nat, (run lang plane program limit (start lang plane)).Renumbered k
      (run lang plane longer limit' (start lang plane)) := by
  obtain ⟨n, t, chain, ends⟩ := exists_endsAt_run lang plane program limit (start lang plane)
  have zero : (start lang plane).steps = 0 := rfl
  have room : ((start lang plane).steps : Int) + 2 * n ≤ (2 * n + 2 : Nat) := by omega
  obtain ⟨m, u, -, most, chain', follows⟩ := stepMany_follow inserted start_follows chain room
  have spent := steps_of_stepMany chain'
  have left : (u.steps : Int) + 1 ≤ (2 * n + 2 : Nat) := by omega
  obtain ⟨c, t', few, caught, follows, aligned⟩ := catch_up plane inserted follows left
  have spent' := steps_of_stepMany caught
  refine ⟨2 * n + 2, ?_⟩
  rw [run_of_stepMany chain', run_of_stepMany caught]
  generalize run lang plane program limit (start lang plane) = ending at ends enough
  cases ends with
  | finished ended =>
    have size := inserted.size
    have le := inserted.le_size
    have ended' : longer.size ≤ t'.index := by
      rw [aligned, past_of_le (by omega)]
      omega
    rw [run_of_size_le ended']
    exact .finished follows.env follows.recorder
  | failed running failure =>
    have within := within_of_step_eq_failed running failure enough
    have within' : (t'.steps : Int) + 1 ≤ (2 * n + 2 : Nat) := by omega
    have steps := step_follow plane inserted follows aligned running within within'
    rw [failure] at steps
    obtain ⟨after, failure', follows⟩ := steps.exists_failed
    have running' : t'.index < longer.size := by
      rw [aligned]
      exact running_past inserted running
    rw [run_of_step_eq_failed running' failure']
    exact .failed _ follows.env follows.recorder

/-- The longer program makes at least as many steps. -/
theorem exists_enough (inserted : Inserted lang k program longer) {limit' : Nat}
    (enough : ¬(run lang plane longer limit' (start lang plane)).OutOfSteps) :
    ∃ limit : Nat, ¬(run lang plane program limit (start lang plane)).OutOfSteps := by
  refine ⟨limit' + 1, fun out => ?_⟩
  obtain ⟨n, t, chain, ends⟩ :=
    exists_endsAt_run lang plane program (limit' + 1 : Nat) (start lang plane)
  have many := le_of_outOfSteps chain ends out
  have zero : (start lang plane).steps = 0 := rfl
  have room : ((start lang plane).steps : Int) + 2 * n ≤ (2 * n : Nat) := by omega
  obtain ⟨m, t', least, -, chain', -⟩ := stepMany_follow inserted start_follows chain room
  have truncates := truncates_run enough
  have within := truncates.within
  have same := truncates.longer (2 * n) (by omega)
  -- these are more steps than the run of the longer program makes in all
  rw [run_of_stepMany chain'] at same
  have counted := steps_of_stepMany chain'
  have kept := steps_le_run lang plane longer (2 * n : Nat) t'
  rw [same] at kept
  omega

theorem runsAlike (inserted : Inserted lang k program longer) :
    RunsAlike lang plane program longer k := by
  constructor
  · constructor
    · intro endless limit'
      by_contra enough
      obtain ⟨limit, enough⟩ := exists_enough inserted enough
      exact enough (endless limit)
    · intro endless limit
      by_contra enough
      obtain ⟨limit', renumbered⟩ := exists_renumbered inserted enough
      exact enough (outOfSteps_of_renumbered renumbered (endless limit'))
  · intro limit limit' enough enough'
    obtain ⟨other, renumbered⟩ := exists_renumbered inserted enough
    have spare := fun out => enough (outOfSteps_of_renumbered renumbered out)
    rwa [run_eq_of_enough spare enough'] at renumbered

end Endings

end Machine

namespace Tree

/-- An empty line. -/
def blank : Tree := node (.instruction .blank) []

end Tree

/-- A blank line anywhere in a program, be it of instructions or of trees, does not change what
comes of it: either both programs exceed every limit, or under all limits that they keep they end
alike, with the same variables and the same drawing, and the lines of errors count the blank one. -/
theorem blank_line_runs_alike {P H : Type} (plane : Plane P H) (lines lines' : List String) :
    (∀ front back : List Instruction,
      Machine.RunsAlike Instruction.language plane ⟨front ++ back, lines⟩
        ⟨front ++ .blank :: back, lines'⟩ front.length) ∧
    ∀ front back : List Tree,
      Machine.RunsAlike Tree.language plane ⟨front ++ back, lines⟩
        ⟨front ++ .blank :: back, lines'⟩ front.length :=
  ⟨fun _ _ => Machine.runsAlike (Machine.inserted rfl fun _ => rfl),
    fun _ _ => Machine.runsAlike (Machine.inserted rfl fun _ => rfl)⟩

end TurtleGraphics
