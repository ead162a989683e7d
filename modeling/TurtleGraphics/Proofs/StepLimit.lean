import TurtleGraphics.Proofs.Runs
/-!
The step limit cuts a run short and does nothing else.

As long as the counter stays within two limits, a step is the same under both. So a run that does not
end for want of steps is the run under every limit that leaves it enough of them; under a smaller
limit the machine makes the same first steps, as many as the limit allows, and then fails in the
state that they lead to.
-/
set_option autoImplicit false

namespace TurtleGraphics

namespace Machine

variable {ι E ε P H : Type} {lang : Language ι E ε} {plane : Plane P H} {program : Program ι}
variable {limit other : Int} {s t : State E P H}

/-- The run had no more steps to spend. -/
def Ending.OutOfSteps : Ending E ε P H → Prop
  | .failed (.run error) _ => error.cause.kind = .resourceLimit
  | _ => False

section Limits

theorem step_congr_limit (within : (s.steps : Int) + 1 ≤ limit)
    (within' : (s.steps : Int) + 1 ≤ other) :
    step lang plane program limit s = step lang plane program other s := by
  rw [step, step, if_neg (unspent_of_le within), if_neg (unspent_of_le within')]

theorem stepMany_congr_limit {n : Nat}
    (chain : stepMany lang plane program limit n s = .next t) (enough : (t.steps : Int) ≤ other) :
    stepMany lang plane program other n s = .next t := by
  induction n generalizing s with
  | zero => exact chain
  | succ n ih =>
    obtain ⟨s', first, rest⟩ := exists_of_stepMany_succ chain
    obtain ⟨counted, within⟩ := steps_of_step_eq_next first
    have grown := steps_of_stepMany rest
    have same : step lang plane program limit s = step lang plane program other s :=
      step_congr_limit (by omega) (by omega)
    rw [same] at first
    rw [stepMany_succ_of_step first, ih rest]

theorem within_of_step_eq_failed {fault : Fault ε} {after : State E P H}
    (running : s.index < program.size)
    (failure : step lang plane program limit s = .failed fault after)
    (enough : ¬(Ending.failed fault after).OutOfSteps) : (s.steps : Int) + 1 ≤ limit := by
  by_cases spent : limit < (s.steps : Int) + 1
  · rw [step_of_limit_lt running spent] at failure
    cases failure
    exact absurd rfl enough
  · omega

end Limits

section Truncation
variable {n m : Nat}

/-- Under a limit of `m` steps the machine stops after `m` steps of a longer run. -/
theorem run_of_limit_lt (chain : stepMany lang plane program limit m (start lang plane) = .next t)
    (running : t.index < program.size) :
    run lang plane program m (start lang plane) =
      .failed (.run ⟨.stepLimit m, some (t.index + 1)⟩) { t with steps := m + 1 } := by
  have counted : t.steps = 0 + m := steps_of_stepMany chain
  have same : stepMany lang plane program m m (start lang plane) = .next t :=
    stepMany_congr_limit chain (by omega)
  have spent : step lang plane program m t =
      .failed (.run ⟨.stepLimit m, some (t.index + 1)⟩) t.counted :=
    step_of_limit_lt running (by omega)
  rw [run_of_stepMany same, run_of_step_eq_failed running spent, State.counted, counted,
    Nat.zero_add]

/-- Along a run of `n` steps that comes to a position `running` in the program, each smaller limit
stops the machine where the run was after that many steps. -/
theorem exists_before (chain : stepMany lang plane program limit n (start lang plane) = .next t)
    (le : m ≤ n) (running : m = n → t.index < program.size) (within : (m : Int) + 1 ≤ limit) :
    ∃ before, stepMany lang plane program limit m (start lang plane) = .next before ∧
      (visits lang plane program limit (start lang plane))[m]? = some before.index ∧
      run lang plane program m (start lang plane) =
        .failed (.run ⟨.stepLimit m, some (before.index + 1)⟩) { before with steps := m + 1 } := by
  obtain ⟨before, first, rest⟩ := exists_stepMany_of_le le chain
  have inside : before.index < program.size := by
    rcases Nat.lt_or_eq_of_le le with less | rfl
    · exact running_of_stepMany (by omega) rest
    · rw [Nat.sub_self] at rest
      cases rest
      exact running rfl
  have counted : before.steps = 0 + m := steps_of_stepMany first
  exact ⟨before, first, visits_getElem? first inside (by omega), run_of_limit_lt first inside⟩

end Truncation

/-- How the run under `limit`, which comes to `ending` with steps to spare, relates to the runs under
all other limits. -/
structure Truncates (lang : Language ι E ε) (plane : Plane P H) (program : Program ι) (limit : Nat)
    (ending : Ending E ε P H) : Prop where
  within : ending.state.steps ≤ limit
  longer : ∀ other : Nat, ending.state.steps ≤ other →
    run lang plane program other (start lang plane) = ending
  shorter : ∀ other : Nat, other < ending.state.steps →
    ∃ before, stepMany lang plane program limit other (start lang plane) = .next before ∧
      (visits lang plane program limit (start lang plane))[other]? = some before.index ∧
      run lang plane program other (start lang plane) =
        .failed (.run ⟨.stepLimit other, some (before.index + 1)⟩)
          { before with steps := other + 1 }

theorem truncates_of_finished {limit n : Nat}
    (chain : stepMany lang plane program limit n (start lang plane) = .next t)
    (le : n ≤ limit) (ended : program.size ≤ t.index) :
    Truncates lang plane program limit (.finished t) := by
  have counted : t.steps = 0 + n := steps_of_stepMany chain
  rw [Nat.zero_add] at counted
  refine ⟨by rwa [Ending.state, counted], ?_, ?_⟩
  · intro other enough
    rw [Ending.state] at enough
    have same : stepMany lang plane program other n (start lang plane) = .next t :=
      stepMany_congr_limit chain (by omega)
    rw [run_of_stepMany same, run_of_size_le ended]
  · intro other less
    rw [Ending.state, counted] at less
    exact exists_before chain (Nat.le_of_lt less) (by omega) (by omega)

theorem truncates_of_failed {limit n : Nat} {fault : Fault ε} {after : State E P H}
    (chain : stepMany lang plane program limit n (start lang plane) = .next t)
    (running : t.index < program.size)
    (failure : step lang plane program limit t = .failed fault after)
    (enough : ¬(Ending.failed fault after).OutOfSteps) :
    Truncates lang plane program limit (.failed fault after) := by
  have counted : t.steps = 0 + n := steps_of_stepMany chain
  rw [Nat.zero_add] at counted
  have within := within_of_step_eq_failed running failure enough
  -- the step that fails is counted too
  have last : after.steps = n + 1 := by
    rw [(step_eq_failed failure).state running, State.counted, counted]
  refine ⟨by rw [Ending.state, last]; omega, ?_, ?_⟩
  · intro other enough
    rw [Ending.state, last] at enough
    have same : stepMany lang plane program other n (start lang plane) = .next t :=
      stepMany_congr_limit chain (by omega)
    have again : step lang plane program limit t = step lang plane program other t :=
      step_congr_limit within (by omega)
    rw [again] at failure
    rw [run_of_stepMany same, run_of_step_eq_failed running failure]
  · intro other less
    rw [Ending.state, last] at less
    exact exists_before chain (Nat.le_of_lt_succ less) (fun _ => running) (by omega)

theorem truncates_run {limit : Nat}
    (enough : ¬(run lang plane program limit (start lang plane)).OutOfSteps) :
    Truncates lang plane program limit (run lang plane program limit (start lang plane)) := by
  obtain ⟨n, t, chain, ends⟩ := exists_endsAt_run lang plane program limit (start lang plane)
  have counted : t.steps = 0 + n := steps_of_stepMany chain
  generalize run lang plane program limit (start lang plane) = ending at ends enough ⊢
  cases ends with
  | finished ended =>
    refine truncates_of_finished chain ?_ ended
    rcases Nat.eq_zero_or_pos n with rfl | some
    · exact Nat.zero_le limit
    · have := steps_le_of_stepMany some chain
      omega
  | failed running failure => exact truncates_of_failed chain running failure enough

/-- All limits that leave a run steps enough bring it to the same ending. -/
theorem run_eq_of_enough {limit other : Nat}
    (enough : ¬(run lang plane program limit (start lang plane)).OutOfSteps)
    (enough' : ¬(run lang plane program other (start lang plane)).OutOfSteps) :
    run lang plane program limit (start lang plane) =
      run lang plane program other (start lang plane) := by
  have first := truncates_run enough
  have second := truncates_run enough'
  calc
    _ = run lang plane program (max limit other : Nat) (start lang plane) :=
      (first.longer _ (Nat.le_trans first.within (Nat.le_max_left ..))).symm
    _ = _ := second.longer _ (Nat.le_trans second.within (Nat.le_max_right ..))

/-- A run that ends for want of steps has made all that the limit allows. -/
theorem le_of_outOfSteps {n : Nat} {ending : Ending E ε P H}
    (chain : stepMany lang plane program limit n (start lang plane) = .next t)
    (ends : EndsAt lang plane program limit t ending) (out : ending.OutOfSteps) : limit ≤ n := by
  have counted : t.steps = 0 + n := steps_of_stepMany chain
  cases ends with
  | finished ended => cases out
  | @failed fault after running failure =>
    cases fault with
    | run error =>
      have spent := (step_eq_failed failure).limit_lt out
      omega
    | noDirection | outside | finished | misuse => cases out

/-- The counter never goes back. -/
theorem steps_le_run (lang : Language ι E ε) (plane : Plane P H) (program : Program ι)
    (limit : Int) (s : State E P H) :
    s.steps ≤ (run lang plane program limit s).state.steps := by
  obtain ⟨n, t, chain, ends⟩ := exists_endsAt_run lang plane program limit s
  have counted := steps_of_stepMany chain
  generalize run lang plane program limit s = ending at ends
  cases ends with
  | finished ended =>
    rw [Ending.state]
    omega
  | failed running failure =>
    rw [Ending.state, (step_eq_failed failure).state running, State.counted]
    simp only
    omega

end Machine

open Machine (EndsAt Ending Language Truncates run start stepMany visits)

/-- Every run ends, after at most as many steps and instructions as the limit says. If it does not
end for want of steps, then it is the run under every limit from its own count of steps on, and every
smaller limit stops it, in the state that it was in after that many steps and at the line of the
instruction that came next. -/
theorem step_limit_only_truncates {ι E ε P H : Type} (lang : Language ι E ε) (plane : Plane P H)
    (program : Program ι) (limit : Nat) :
    (∃ n t, n ≤ limit ∧ stepMany lang plane program limit n (start lang plane) = .next t ∧
      EndsAt lang plane program limit t (run lang plane program limit (start lang plane))) ∧
    (visits lang plane program limit (start lang plane)).length ≤ limit ∧
    (¬(run lang plane program limit (start lang plane)).OutOfSteps →
      Truncates lang plane program limit (run lang plane program limit (start lang plane))) := by
  obtain ⟨n, t, chain, ends⟩ :=
    Machine.exists_endsAt_run lang plane program limit (start lang plane)
  have counted : t.steps = 0 + n := Machine.steps_of_stepMany chain
  have le : n ≤ limit := by
    rcases Nat.eq_zero_or_pos n with rfl | some
    · exact Nat.zero_le limit
    · have := Machine.steps_le_of_stepMany some chain
      omega
  refine ⟨⟨n, t, le, chain, ends⟩, ?_, ?_⟩
  · exact Machine.length_visits_le lang plane program limit (start lang plane)
  · intro enough
    generalize run lang plane program limit (start lang plane) = ending at ends enough
    cases ends with
    | finished ended => exact Machine.truncates_of_finished chain le ended
    | failed running failure => exact Machine.truncates_of_failed chain running failure enough

end TurtleGraphics
