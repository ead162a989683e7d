import TurtleGraphics.Proofs.Steps
/-!
Two machines side by side.

Their outcomes match if both are states, in some relation to each other, or both are faults, the
second one a renaming of the first. If the outcomes of two instructions match then so do the steps
that execute them, as long as the renaming respects the lines that the faults are given.
-/
set_option autoImplicit false

namespace TurtleGraphics.Machine

variable {ι E ε P H : Type}

section
variable (related : State E P H → State E P H → Prop) (rename : Fault ε → Fault ε)

inductive OutcomesMatch :
    Except (Fault ε) (State E P H) → Except (Fault ε) (State E P H) → Prop
  | ok {t t' : State E P H} (both : related t t') : OutcomesMatch (.ok t) (.ok t')
  | error (fault : Fault ε) : OutcomesMatch (.error fault) (.error (rename fault))

inductive StepsMatch : Step E ε P H → Step E ε P H → Prop
  | next {t t' : State E P H} (both : related t t') : StepsMatch (.next t) (.next t')
  | failed (fault : Fault ε) {t t' : State E P H} (both : related t t') :
      StepsMatch (.failed fault t) (.failed (rename fault) t')

end

variable {related : State E P H → State E P H → Prop} {rename : Fault ε → Fault ε}
variable {s s' t : State E P H} {fault : Fault ε}

theorem OutcomesMatch.same (kept : rename fault = fault) :
    OutcomesMatch related rename (.error fault) (.error fault) := by
  have renamed : OutcomesMatch related rename (.error fault) (.error (rename fault)) :=
    .error fault
  rwa [kept] at renamed

theorem OutcomesMatch.mono {outcome outcome' : Except (Fault ε) (State E P H)}
    {other : State E P H → State E P H → Prop}
    (outcomes : OutcomesMatch related rename outcome outcome')
    (weaker : ∀ t t', related t t' → other t t') : OutcomesMatch other rename outcome outcome' := by
  cases outcomes with
  | ok both => exact .ok (weaker _ _ both)
  | error fault => exact .error fault

/-- What is refused after a trial that fails alike is refused alike. -/
theorem OutcomesMatch.stray {outcome outcome' : Except (Fault ε) (State E P H)} {m : ε}
    (tried : OutcomesMatch related rename outcome outcome')
    (kept : rename (.misuse m) = .misuse m) :
    OutcomesMatch related rename (do let _ ← outcome; .error (.misuse m))
      (do let _ ← outcome'; .error (.misuse m)) := by
  cases tried with
  | ok both => exact .same kept
  | error fault => exact .error fault

theorem OutcomesMatch.steps {outcome outcome' : Except (Fault ε) (State E P H)} {line line' : Int}
    (outcomes : OutcomesMatch related rename outcome outcome') (before : related s s')
    (lines : ∀ fault, (rename fault).atLine line' = rename (fault.atLine line)) :
    StepsMatch related rename (.ofOutcome line s outcome) (.ofOutcome line' s' outcome') := by
  cases outcomes with
  | ok both => exact .next both
  | error fault =>
    rw [Step.ofOutcome, Step.ofOutcome, lines]
    exact .failed _ before

namespace StepsMatch
variable {first second : Step E ε P H}

theorem exists_next (steps : StepsMatch related rename (.next t) second) :
    ∃ t', second = .next t' ∧ related t t' := by
  cases steps with
  | next both => exact ⟨_, rfl, both⟩

theorem exists_failed (steps : StepsMatch related rename (.failed fault t) second) :
    ∃ t', second = .failed (rename fault) t' ∧ related t t' := by
  cases steps with
  | failed fault both => exact ⟨_, rfl, both⟩

theorem state (steps : StepsMatch related rename first second) :
    related first.state second.state := by
  cases steps with
  | next both => exact both
  | failed fault both => exact both

end StepsMatch

end TurtleGraphics.Machine
