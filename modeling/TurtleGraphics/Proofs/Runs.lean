import TurtleGraphics.Proofs.Failures
/-!
Runs as chains of steps.

Every run is some number of steps that succeed (`stepMany`) and then one of two things, told by
`EndsAt`: the program is over, or the next step fails. So a property that every step keeps holds of
the last state of a run before its end, and the end itself is that of a single step. The positions
that a run visits are those of the instructions that it executes, the last one included if its step
fails; a step beyond the limit executes nothing.
-/
set_option autoImplicit false

namespace TurtleGraphics.Machine

variable {ι E ε P H : Type}

/-- How a run ends of which `s` is the last state before the end. -/
inductive EndsAt (lang : Language ι E ε) (plane : Plane P H) (program : Program ι) (limit : Int)
    (s : State E P H) : Ending E ε P H → Prop
  | finished (ended : program.size ≤ s.index) : EndsAt lang plane program limit s (.finished s)
  | failed {fault : Fault ε} {after : State E P H} (running : s.index < program.size)
      (failure : step lang plane program limit s = .failed fault after) :
      EndsAt lang plane program limit s (.failed fault after)

def Step.fault? : Step E ε P H → Option (Fault ε)
  | .next _ => none
  | .failed fault _ => some fault

def Ending.fault? : Ending E ε P H → Option (Fault ε)
  | .finished _ => none
  | .failed fault _ => some fault

/-- The positions of the instructions that a run executes, in order. -/
def visits (lang : Language ι E ε) (plane : Plane P H) (program : Program ι) (limit : Int)
    (s : State E P H) : List Int :=
  if s.finished program || decide (limit < s.counted.steps) then []
  else
    s.index ::
      match _h : step lang plane program limit s with
      | .next s' => visits lang plane program limit s'
      | .failed _ _ => []
termination_by (limit - s.steps).toNat
decreasing_by exact sub_steps_lt _h

variable {lang : Language ι E ε} {plane : Plane P H} {program : Program ι} {limit : Int}
variable {s t u : State E P H}

section Chains

theorem exists_of_stepMany_succ {n : Nat}
    (chain : stepMany lang plane program limit (n + 1) s = .next t) :
    ∃ s', step lang plane program limit s = .next s' ∧
      stepMany lang plane program limit n s' = .next t := by
  rw [stepMany] at chain
  cases first : step lang plane program limit s with
  | next s' =>
    rw [first] at chain
    exact ⟨s', rfl, chain⟩
  | failed fault after =>
    rw [first] at chain
    cases chain

theorem stepMany_succ_of_step {n : Nat} {s' : State E P H}
    (first : step lang plane program limit s = .next s') :
    stepMany lang plane program limit (n + 1) s = stepMany lang plane program limit n s' := by
  rw [stepMany, first]

theorem stepMany_keeps {Inv : State E P H → Prop}
    (keeps : ∀ s s', Inv s → step lang plane program limit s = .next s' → Inv s') {n : Nat}
    (init : Inv s) (chain : stepMany lang plane program limit n s = .next t) : Inv t := by
  induction n generalizing s with
  | zero =>
    cases chain
    exact init
  | succ n ih =>
    obtain ⟨s', first, rest⟩ := exists_of_stepMany_succ chain
    exact ih (keeps s s' init first) rest

theorem steps_of_stepMany {n : Nat}
    (chain : stepMany lang plane program limit n s = .next t) : t.steps = s.steps + n := by
  induction n generalizing s with
  | zero =>
    cases chain
    rfl
  | succ n ih =>
    obtain ⟨s', first, rest⟩ := exists_of_stepMany_succ chain
    have counted := (steps_of_step_eq_next first).1
    have := ih rest
    omega

theorem steps_le_of_stepMany {n : Nat} (some : 0 < n)
    (chain : stepMany lang plane program limit n s = .next t) : (t.steps : Int) ≤ limit := by
  induction n generalizing s with
  | zero => exact absurd some (Nat.lt_irrefl 0)
  | succ n ih =>
    obtain ⟨s', first, rest⟩ := exists_of_stepMany_succ chain
    cases n with
    | zero =>
      cases rest
      exact (steps_of_step_eq_next first).2
    | succ n => exact ih (Nat.succ_pos n) rest

/-- A chain passes through a state for each number of steps that it makes. -/
theorem exists_stepMany_of_le {m n : Nat} (le : m ≤ n)
    (chain : stepMany lang plane program limit n s = .next t) :
    ∃ u, stepMany lang plane program limit m s = .next u ∧
      stepMany lang plane program limit (n - m) u = .next t := by
  induction m generalizing s n with
  | zero => exact ⟨s, rfl, chain⟩
  | succ m ih =>
    obtain ⟨k, rfl⟩ : ∃ k, n = k + 1 := ⟨n - 1, by omega⟩
    obtain ⟨s', first, rest⟩ := exists_of_stepMany_succ chain
    obtain ⟨u, before, after⟩ := ih (Nat.le_of_succ_le_succ le) rest
    refine ⟨u, ?_, ?_⟩
    · rw [stepMany_succ_of_step first, before]
    · rwa [Nat.add_sub_add_right]

theorem exists_last_of_stepMany {n : Nat}
    (chain : stepMany lang plane program limit (n + 1) s = .next t) :
    ∃ u, stepMany lang plane program limit n s = .next u ∧
      step lang plane program limit u = .next t := by
  obtain ⟨u, before, last⟩ := exists_stepMany_of_le (Nat.le_succ n) chain
  rw [Nat.succ_sub (Nat.le_refl n), Nat.sub_self] at last
  obtain ⟨t', success, rest⟩ := exists_of_stepMany_succ last
  cases rest
  exact ⟨u, before, success⟩

theorem stepMany_add {m n : Nat} (first : stepMany lang plane program limit m s = .next t) :
    stepMany lang plane program limit (m + n) s = stepMany lang plane program limit n t := by
  induction m generalizing s with
  | zero =>
    cases first
    rw [Nat.zero_add]
  | succ m ih =>
    obtain ⟨u, success, rest⟩ := exists_of_stepMany_succ first
    rw [Nat.succ_add, stepMany_succ_of_step success, ih rest]

theorem running_of_stepMany {n : Nat} (some : 0 < n)
    (chain : stepMany lang plane program limit n s = .next t) : s.index < program.size := by
  obtain ⟨k, rfl⟩ : ∃ k, n = k + 1 := ⟨n - 1, by omega⟩
  obtain ⟨s', first, -⟩ := exists_of_stepMany_succ chain
  exact (step_eq_next first).1

end Chains

section Runs

/-- Induction along a run: over the states from its end back to its beginning. -/
@[elab_as_elim]
theorem run_induction (lang : Language ι E ε) (plane : Plane P H) (program : Program ι)
    (limit : Int) {motive : State E P H → Prop}
    (ended : ∀ s : State E P H, program.size ≤ s.index → motive s)
    (next : ∀ s s', step lang plane program limit s = .next s' → motive s' → motive s)
    (failed : ∀ (s s' : State E P H) fault, s.index < program.size →
      step lang plane program limit s = .failed fault s' → motive s)
    (s : State E P H) : motive s := by
  fun_induction run lang plane program limit s with
  | case1 s finished => exact ended s (by simpa [State.finished] using finished)
  | case2 s running s' success ih => exact next s s' success ih
  | case3 s running fault s' failure =>
    exact failed s s' fault (by simpa [State.finished] using running) failure

theorem run_of_stepMany {n : Nat} (chain : stepMany lang plane program limit n s = .next t) :
    run lang plane program limit s = run lang plane program limit t := by
  induction n generalizing s with
  | zero =>
    cases chain
    rfl
  | succ n ih =>
    obtain ⟨s', first, rest⟩ := exists_of_stepMany_succ chain
    rw [run_of_step_eq_next first, ih rest]

/-- A run fails as soon as one of its steps does. -/
theorem run_of_fault? {n : Nat} {fault : Fault ε} (unfinished : fault ≠ .finished)
    (failure : (stepMany lang plane program limit n s).fault? = some fault) :
    ∃ after, run lang plane program limit s = .failed fault after := by
  induction n generalizing s with
  | zero => cases failure
  | succ n ih =>
    rw [stepMany] at failure
    cases first : step lang plane program limit s with
    | next s' =>
      rw [first] at failure
      obtain ⟨after, rest⟩ := ih failure
      exact ⟨after, by rw [run_of_step_eq_next first, rest]⟩
    | failed reason after =>
      rw [first] at failure
      cases failure
      by_cases ended : program.size ≤ s.index
      · rw [step_of_size_le ended] at first
        cases first
        exact absurd rfl unfinished
      · exact ⟨after, run_of_step_eq_failed (by omega) first⟩

theorem exists_endsAt_run (lang : Language ι E ε) (plane : Plane P H) (program : Program ι)
    (limit : Int) (s : State E P H) :
    ∃ n t, stepMany lang plane program limit n s = .next t ∧
      EndsAt lang plane program limit t (run lang plane program limit s) := by
  induction s using run_induction lang plane program limit with
  | ended s ended =>
    rw [run_of_size_le ended]
    exact ⟨0, s, rfl, .finished ended⟩
  | next s s' first ih =>
    obtain ⟨n, t, rest, ends⟩ := ih
    rw [run_of_step_eq_next first]
    exact ⟨n + 1, t, by rw [stepMany_succ_of_step first, rest], ends⟩
  | failed s after fault running failure =>
    rw [run_of_step_eq_failed running failure]
    exact ⟨0, s, rfl, .failed running failure⟩

/-- What every step keeps holds of the last state of a run before its end. -/
theorem exists_kept_endsAt_run {Inv : State E P H → Prop}
    (keeps : ∀ s s', Inv s → step lang plane program limit s = .next s' → Inv s')
    (init : Inv s) :
    ∃ t, Inv t ∧ EndsAt lang plane program limit t (run lang plane program limit s) := by
  obtain ⟨n, t, chain, ends⟩ := exists_endsAt_run lang plane program limit s
  exact ⟨t, stepMany_keeps keeps init chain, ends⟩

end Runs

section Visits

theorem visits_of_running (running : s.index < program.size)
    (within : (s.steps : Int) + 1 ≤ limit) :
    ∃ rest, visits lang plane program limit s = s.index :: rest := by
  rw [visits, unfinished_of_lt running, decide_eq_false (unspent_of_le within)]
  exact ⟨_, rfl⟩

theorem visits_of_step_eq_next {s' : State E P H}
    (first : step lang plane program limit s = .next s') :
    visits lang plane program limit s = s.index :: visits lang plane program limit s' := by
  obtain ⟨running, within, -⟩ := step_eq_next first
  rw [visits, unfinished_of_lt running, decide_eq_false (unspent_of_le within)]
  simp only [Bool.or_self, Bool.false_eq_true, if_false]
  congr 1
  split
  · rename_i other
    rw [first] at other
    cases other
    rfl
  · rename_i other
    rw [first] at other
    cases other

/-- The instruction that is executed after `n` steps stands at the position reached by them. -/
theorem visits_getElem? {n : Nat} (chain : stepMany lang plane program limit n s = .next t)
    (running : t.index < program.size) (within : (t.steps : Int) + 1 ≤ limit) :
    (visits lang plane program limit s)[n]? = some t.index := by
  induction n generalizing s with
  | zero =>
    cases chain
    obtain ⟨rest, head⟩ : ∃ rest, visits lang plane program limit t = t.index :: rest :=
      visits_of_running running within
    rw [head, List.getElem?_cons_zero]
  | succ n ih =>
    obtain ⟨s', first, rest⟩ := exists_of_stepMany_succ chain
    rw [visits_of_step_eq_next first, List.getElem?_cons_succ, ih rest]

/-- A run executes no more instructions than the limit leaves. -/
theorem length_visits_le (lang : Language ι E ε) (plane : Plane P H) (program : Program ι)
    (limit : Int) (s : State E P H) :
    (visits lang plane program limit s).length ≤ (limit - s.steps).toNat := by
  fun_induction visits lang plane program limit s with
  | case1 s ended => exact Nat.zero_le _
  | case2 s going ih =>
    have within : ¬limit < s.counted.steps := by
      simp only [Bool.or_eq_true, decide_eq_true_eq, not_or] at going
      exact going.2
    simp only [State.counted] at within
    rw [List.length_cons]
    split
    · rename_i s' first
      have less := sub_steps_lt first
      have := ih s' first
      omega
    · rw [List.length_nil]
      omega

end Visits

end TurtleGraphics.Machine
