import TurtleGraphics.Proofs.Steps
/-!
Every way in which a step can fail.

`Refused` lists why an action is not performed, `Fails` why a step comes to nothing. Both are read
off the machine once. The errors of the run among these failures are listed by `FailsWith`; the line
that an error names and what its kind tells of the program follow case by case.
-/
set_option autoImplicit false

namespace TurtleGraphics.Machine

variable {ι E ε P H : Type} {lang : Language ι E ε} {plane : Plane P H} {program : Program ι}
variable {limit : Int} {s s' : State E P H} {fault : Fault ε}

def Fault.ofPlane (tooLarge : Cause) : Plane.Fault → Fault ε
  | .tooLarge => .of tooLarge
  | .noDirection => .noDirection

/-- Why an action is not performed at the state `s`. -/
inductive Refused (lang : Language ι E ε) (plane : Plane P H) (program : Program ι)
    (s : State E P H) : Action E ε → Fault ε → Prop
  | move {length : Int} {e : Plane.Fault} (stopped : s.recorder.move plane length = .error e) :
      Refused lang plane program s (.move length) (.ofPlane .lengthTooLarge e)
  | strayMove {m : ε} {e : Plane.Fault} (stopped : s.recorder.move plane 0 = .error e) :
      Refused lang plane program s (.stray m) (.ofPlane .lengthTooLarge e)
  | stray (m : ε) : Refused lang plane program s (.stray m) (.misuse m)
  | rotate {degrees : Int} {e : Plane.Fault}
      (stopped : s.recorder.rotate plane degrees = .error e) :
      Refused lang plane program s (.rotate degrees) (.ofPlane .angleTooLarge e)
  | enter (holds again : Bool) {fault : Fault ε}
      (closer : blockEnd lang program s.index = .error fault) :
      Refused lang plane program s (.enter holds again) fault
  | close (empty : s.jumps = []) : Refused lang plane program s .close (.of .strayClose)

theorem moved_eq_error {cause : Cause} {outcome : Except Plane.Fault (Recorder P H)}
    (failure : moved s cause outcome = (.error fault : Except (Fault ε) (State E P H))) :
    ∃ e, outcome = .error e ∧ fault = .ofPlane cause e := by
  cases outcome with
  | ok recorder => cases failure
  | error e => cases e <;> cases failure <;> exact ⟨_, rfl, rfl⟩

theorem perform_eq_error {action : Action E ε}
    (failure : perform lang plane program s action = .error fault) :
    Refused lang plane program s action fault := by
  cases action with
  | move length =>
    obtain ⟨e, stopped, rfl⟩ := moved_eq_error failure
    exact .move stopped
  | stray m =>
    cases call : moved (ε := ε) s .lengthTooLarge (s.recorder.move plane 0) with
    | ok s' =>
      simp only [perform, call, bind, Except.bind, Except.error.injEq] at failure
      subst failure
      exact .stray m
    | error other =>
      simp only [perform, call, bind, Except.bind, Except.error.injEq] at failure
      subst failure
      obtain ⟨e, stopped, rfl⟩ := moved_eq_error call
      exact .strayMove stopped
  | rotate degrees =>
    obtain ⟨e, stopped, rfl⟩ := moved_eq_error failure
    exact .rotate stopped
  | pen down => cases failure
  | assign env => cases failure
  | enter holds again =>
    cases closer : blockEnd lang program s.index with
    | ok stop => simp [perform, closer, bind, Except.bind, pure, Except.pure] at failure
    | error other =>
      simp only [perform, closer, bind, Except.bind, Except.error.injEq] at failure
      subst failure
      exact .enter holds again closer
  | close =>
    cases top : s.jumps with
    | nil =>
      simp only [perform, State.pop, top, bind, Except.bind, Except.error.injEq] at failure
      subst failure
      exact .close top
    | cons position rest =>
      simp [perform, State.pop, top, bind, Except.bind, pure, Except.pure] at failure
  | skip => cases failure

/-- Why a step from `s` fails, and the state that it leaves. -/
inductive Fails (lang : Language ι E ε) (plane : Plane P H) (program : Program ι) (limit : Int)
    (s : State E P H) : Fault ε → State E P H → Prop
  | ended (finished : program.size ≤ s.index) : Fails lang plane program limit s .finished s
  | spent (running : s.index < program.size) (spent : limit < s.steps + 1) :
      Fails lang plane program limit s (.run ⟨.stepLimit limit, some (s.index + 1)⟩) s.counted
  | missing (running : s.index < program.size) (within : (s.steps : Int) + 1 ≤ limit)
      (nothing : program.get? s.index = none) :
      Fails lang plane program limit s (.outside s.index) s.counted
  | meaningless {i : ι} {e : Failure ε} (running : s.index < program.size)
      (within : (s.steps : Int) + 1 ≤ limit) (fetched : program.get? s.index = some i)
      (meaning : lang.action s.env i = .error e) :
      Fails lang plane program limit s ((Fault.ofFailure e).atLine (s.index + 1)) s.counted
  | refused {i : ι} {action : Action E ε} {fault : Fault ε} (running : s.index < program.size)
      (within : (s.steps : Int) + 1 ≤ limit) (fetched : program.get? s.index = some i)
      (meaning : lang.action s.env i = .ok action)
      (refused : Refused lang plane program s.counted action fault) :
      Fails lang plane program limit s (fault.atLine (s.index + 1)) s.counted

theorem step_eq_failed (failure : step lang plane program limit s = .failed fault s') :
    Fails lang plane program limit s fault s' := by
  -- the reasons in the order in which a step comes to them
  by_cases finished : program.size ≤ s.index
  · rw [step_of_size_le finished] at failure
    cases failure
    exact .ended finished
  have running : s.index < program.size := by omega
  by_cases spent : limit < (s.steps : Int) + 1
  · rw [step_of_limit_lt running spent] at failure
    cases failure
    exact .spent running spent
  have within : (s.steps : Int) + 1 ≤ limit := by omega
  cases fetched : program.get? s.index with
  | none =>
    rw [step_of_get?_eq_none running within fetched] at failure
    cases failure
    exact .missing running within fetched
  | some i =>
    rw [step_of_get? running within fetched, execute] at failure
    cases meaning : lang.action s.counted.env i with
    | error e =>
      rw [meaning] at failure
      cases failure
      exact .meaningless running within fetched meaning
    | ok action =>
      rw [meaning] at failure
      cases outcome : perform lang plane program s.counted action with
      | ok after =>
        simp only [outcome, Step.ofOutcome, reduceCtorEq] at failure
      | error reason =>
        simp only [outcome, Step.ofOutcome] at failure
        cases failure
        exact .refused running within fetched meaning (perform_eq_error outcome)

/-- A block has no end because it is not closed, or because the search for its closer leaves the
program or meets an item without a role. -/
theorem blockEnd_eq_error {start : Int} (failure : blockEnd lang program start = .error fault) :
    (fault = .run ⟨.unclosedBlock (start + 1), some (start + 1)⟩ ∧
      Block.closer lang.role program.instructions start = .error .unclosed) ∨
    (∃ position, fault = .outside position) ∨ ∃ m, fault = .misuse m := by
  unfold blockEnd at failure
  cases search : Block.closer lang.role program.instructions start with
  | ok stop => simp [search] at failure
  | error e =>
    rw [search] at failure
    cases e with
    | unclosed =>
      cases failure
      exact Or.inl ⟨rfl, rfl⟩
    | outside position =>
      cases failure
      exact Or.inr (Or.inl ⟨position, rfl⟩)
    | noRole m =>
      cases failure
      exact Or.inr (Or.inr ⟨m, rfl⟩)

theorem state_of_step_eq_failed (failure : step lang plane program limit s = .failed fault s') :
    s' = s ∨ s' = s.counted := by
  cases step_eq_failed failure with
  | ended finished => exact Or.inl rfl
  | spent | missing | meaningless | refused => exact Or.inr rfl

section Positions
variable {position : Int}

theorem blockEnd_ne_outside {first position : Int} (nonneg : 0 ≤ first) :
    blockEnd lang program first ≠ .error (.outside position) := by
  have inside : (0 : Int) ≤ first + 1 := by omega
  simp only [blockEnd, Block.closer, Block.itemsFrom?, inside, if_true]
  cases Block.closerIn? 0 (Block.known lang.role (program.instructions.drop (first + 1).toNat)) with
  | some j => simp
  | none => cases Block.obstacle? lang.role (program.instructions.drop (first + 1).toNat) <;> simp

theorem exists_ofPlane (tooLarge : Cause) (e : Plane.Fault) :
    (∃ error, (Fault.ofPlane tooLarge e : Fault ε) = .run error) ∨
      (Fault.ofPlane tooLarge e : Fault ε) = .noDirection := by
  cases e with
  | tooLarge => exact Or.inl ⟨_, rfl⟩
  | noDirection => exact Or.inr rfl

/-- At a position that is not negative, an action is refused by an error of the run, for want of a
direction, or as a misuse. -/
theorem Refused.reasons {action : Action E ε} (nonneg : 0 ≤ s.index)
    (refused : Refused lang plane program s action fault) :
    (∃ error, fault = .run error) ∨ fault = .noDirection ∨ ∃ m, fault = .misuse m := by
  cases refused with
  | move | strayMove | rotate => exact (exists_ofPlane _ _).imp_right Or.inl
  | stray m => exact Or.inr (Or.inr ⟨m, rfl⟩)
  | enter holds again closer =>
    rcases blockEnd_eq_error closer with ⟨rfl, -⟩ | ⟨position, rfl⟩ | misused
    · exact Or.inl ⟨_, rfl⟩
    · exact absurd closer (blockEnd_ne_outside nonneg)
    · exact Or.inr (Or.inr misused)
  | close empty => exact Or.inl ⟨_, rfl⟩

theorem Fails.reasons (nonneg : 0 ≤ s.index) (running : s.index < program.size)
    (fails : Fails lang plane program limit s fault s') :
    (∃ error, fault = .run error) ∨ fault = .noDirection ∨ ∃ m, fault = .misuse m := by
  cases fails with
  | ended finished => exact absurd running (Int.not_lt.mpr finished)
  | spent running spent => exact Or.inl ⟨_, rfl⟩
  | missing running within nothing =>
    obtain ⟨k, index⟩ := Int.eq_ofNat_of_zero_le nonneg
    rw [index, Program.get?_ofNat, List.getElem?_eq_none_iff] at nothing
    unfold Program.size at running
    omega
  | @meaningless i e running within fetched meaning =>
    cases e with
    | unbound name => exact Or.inl ⟨_, rfl⟩
    | misuse m => exact Or.inr (Or.inr ⟨m, rfl⟩)
  | @refused i action own running within fetched meaning refused =>
    have inside : 0 ≤ s.counted.index := nonneg
    rcases refused.reasons inside with ⟨error, rfl⟩ | rfl | ⟨m, rfl⟩
    · exact Or.inl ⟨_, rfl⟩
    · exact Or.inr (Or.inl rfl)
    · exact Or.inr (Or.inr ⟨m, rfl⟩)

theorem step_ne_outside (nonneg : 0 ≤ s.index) :
    step lang plane program limit s ≠ .failed (.outside position) s' := by
  intro failure
  by_cases finished : program.size ≤ s.index
  · rw [step_of_size_le finished] at failure
    cases failure
  · have running : s.index < program.size := by omega
    rcases (step_eq_failed failure).reasons nonneg running with ⟨_, eq⟩ | eq | ⟨_, eq⟩ <;> cases eq

end Positions

section Errors
variable {error : RunError} {line : Int} {cause : Cause}

theorem exists_of_atLine (reason : fault.atLine line = .run error) :
    ∃ first : RunError, fault = .run first ∧ error = first.atLine line := by
  cases fault <;> cases reason
  exact ⟨_, rfl, rfl⟩

theorem eq_of_ofPlane {e : Plane.Fault}
    (reason : (Fault.ofPlane cause e : Fault ε) = .run error) : error = ⟨cause, none⟩ := by
  cases e <;> cases reason
  rfl

/-- The errors of the run with which an action can be refused at the state `s`. -/
inductive RefusedWith (lang : Language ι E ε) (program : Program ι) (s : State E P H) :
    Action E ε → RunError → Prop
  | tooLarge (action : Action E ε) {cause : Cause}
      (bounds : cause = .lengthTooLarge ∨ cause = .angleTooLarge) :
      RefusedWith lang program s action ⟨cause, none⟩
  | unclosed (holds again : Bool)
      (search : Block.closer lang.role program.instructions s.index = .error .unclosed) :
      RefusedWith lang program s (.enter holds again)
        ⟨.unclosedBlock (s.index + 1), some (s.index + 1)⟩
  | stray (empty : s.jumps = []) : RefusedWith lang program s .close ⟨.strayClose, none⟩

/-- The errors of the run with which a step from `s` can fail. -/
inductive FailsWith (lang : Language ι E ε) (program : Program ι) (limit : Int)
    (s : State E P H) : RunError → Prop
  | spent (spent : limit < (s.steps : Int) + 1) :
      FailsWith lang program limit s ⟨.stepLimit limit, some (s.index + 1)⟩
  | unbound {i : ι} {name : String} (fetched : program.get? s.index = some i)
      (meaning : lang.action s.env i = .error (.unbound name)) :
      FailsWith lang program limit s ⟨.unknownVariable name, some (s.index + 1)⟩
  | refused {i : ι} {action : Action E ε} {first : RunError}
      (fetched : program.get? s.index = some i) (meaning : lang.action s.env i = .ok action)
      (refused : RefusedWith lang program s action first) :
      FailsWith lang program limit s (first.atLine (s.index + 1))

theorem Refused.refusedWith {action : Action E ε}
    (refused : Refused lang plane program s action (.run error)) :
    RefusedWith lang program s action error := by
  generalize reason : (Fault.run error : Fault ε) = fault at refused
  cases refused with
  | move | strayMove =>
    rw [eq_of_ofPlane reason.symm]
    exact .tooLarge _ (Or.inl rfl)
  | rotate =>
    rw [eq_of_ofPlane reason.symm]
    exact .tooLarge _ (Or.inr rfl)
  | stray m => cases reason
  | enter holds again closer =>
    rcases blockEnd_eq_error closer with ⟨rfl, search⟩ | ⟨position, rfl⟩ | ⟨m, rfl⟩
    · cases reason
      exact .unclosed holds again search
    · cases reason
    · cases reason
  | close empty =>
    cases reason
    exact .stray empty

theorem Fails.failsWith (fails : Fails lang plane program limit s (.run error) s') :
    FailsWith lang program limit s error := by
  generalize reason : (Fault.run error : Fault ε) = fault at fails
  cases fails with
  | ended finished => cases reason
  | spent running spent =>
    cases reason
    exact .spent spent
  | missing running within nothing => cases reason
  | @meaningless i e running within fetched meaning =>
    cases e with
    | unbound name =>
      cases reason
      exact .unbound fetched meaning
    | misuse m => cases reason
  | @refused i action own running within fetched meaning refused =>
    obtain ⟨first, rfl, rfl⟩ := exists_of_atLine reason.symm
    cases refused.refusedWith with
    | tooLarge action bounds => exact .refused fetched meaning (.tooLarge _ bounds)
    | unclosed holds again search => exact .refused fetched meaning (.unclosed holds again search)
    | stray empty => exact .refused fetched meaning (.stray empty)

/-- An error of a step names the line of its instruction, wherever it comes from. -/
theorem Fails.names_line (fails : Fails lang plane program limit s (.run error) s') :
    error.line = some (s.index + 1) := by
  cases fails.failsWith with
  | spent spent => rfl
  | unbound fetched meaning => rfl
  | refused fetched meaning refused => cases refused <;> rfl

/-- A step that finds an instruction to execute leaves the state with one more step counted. -/
theorem Fails.state (running : s.index < program.size)
    (fails : Fails lang plane program limit s fault s') : s' = s.counted := by
  cases fails with
  | ended finished => exact absurd running (Int.not_lt.mpr finished)
  | spent | missing | meaningless | refused => rfl

/-- An error of structure comes from an end without a block or from a block without an end. -/
theorem Fails.structural (fails : Fails lang plane program limit s (.run error) s')
    (kind : error.cause.kind = .structural) :
    ∃ i action, program.get? s.index = some i ∧ lang.action s.env i = .ok action ∧
      ((action = .close ∧ s.jumps = []) ∨
        (∃ holds again, action = .enter holds again) ∧
          Block.closer lang.role program.instructions s.index = .error .unclosed) := by
  cases fails.failsWith with
  | spent spent => cases kind
  | unbound fetched meaning => cases kind
  | @refused i action first fetched meaning refused =>
    refine ⟨i, action, fetched, meaning, ?_⟩
    cases refused with
    | tooLarge action bounds => rcases bounds with rfl | rfl <;> cases kind
    | unclosed holds again search => exact Or.inr ⟨⟨holds, again, rfl⟩, search⟩
    | stray empty => exact Or.inl ⟨rfl, empty⟩

/-- An error of the resources comes from a spent limit. -/
theorem Fails.limit_lt (fails : Fails lang plane program limit s (.run error) s')
    (kind : error.cause.kind = .resourceLimit) : limit < (s.steps : Int) + 1 := by
  cases fails.failsWith with
  | spent spent => exact spent
  | unbound fetched meaning => cases kind
  | refused fetched meaning refused =>
    cases refused with
    | tooLarge action bounds => rcases bounds with rfl | rfl <;> cases kind
    | unclosed holds again search => cases kind
    | stray empty => cases kind

/-- An error that calls a variable comes from an instruction that reads it. -/
theorem Fails.unbound {message name : String}
    (fails : Fails lang plane program limit s (.run error) s')
    (report : error.cause.report = .evaluation message (some name)) :
    ∃ i, program.get? s.index = some i ∧ lang.action s.env i = .error (.unbound name) := by
  cases fails.failsWith with
  | spent spent => cases report
  | unbound fetched meaning =>
    cases report
    exact ⟨_, fetched, meaning⟩
  | refused fetched meaning refused =>
    cases refused with
    | tooLarge action bounds => rcases bounds with rfl | rfl <;> cases report
    | unclosed holds again search => cases report
    | stray empty => cases report

end Errors

end TurtleGraphics.Machine
