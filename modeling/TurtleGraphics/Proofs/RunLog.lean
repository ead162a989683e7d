import TurtleGraphics.Proofs.JumpStack
import TurtleGraphics.Proofs.StepLimit
/-!
The log of a run.

A run adds to its log what is noted of each step before it is made, and at its end one record or
none. The records of the step trace begin in a way of their own. Without them the log is that of the
same run without a trace. They tell the steps of the run one by one, the last one included if it
fails; a step beyond the limit executes nothing and is not told.
-/
set_option autoImplicit false

namespace TurtleGraphics

namespace Log

/-- The record belongs to the trace of the steps. -/
def Record.tellsStep (r : Record) : Bool :=
  r.level == .debug && "Step ".toList.isPrefixOf r.message.toList

def stepTrace (log : List Record) : List Record := log.filter Record.tellsStep

def withoutTrace (log : List Record) : List Record := log.filter fun r => !r.tellsStep

def Untraced (log : List Record) : Prop := ∀ r ∈ log, r.tellsStep = false

variable {log more : List Record}

@[simp] theorem tellsStep_debug (message : String) :
    (debug message).tellsStep = "Step ".toList.isPrefixOf message.toList := by
  simp [Record.tellsStep, debug]

@[simp] theorem tellsStep_info (message : String) : (info message).tellsStep = false := rfl

@[simp] theorem stepTrace_append : stepTrace (log ++ more) = stepTrace log ++ stepTrace more :=
  List.filter_append ..

@[simp] theorem withoutTrace_append :
    withoutTrace (log ++ more) = withoutTrace log ++ withoutTrace more :=
  List.filter_append ..

theorem Untraced.stepTrace_eq (untraced : Untraced log) : stepTrace log = [] := by
  simpa [stepTrace, Untraced] using untraced

theorem Untraced.withoutTrace_eq (untraced : Untraced log) : withoutTrace log = log := by
  simpa [withoutTrace, Untraced] using untraced

end Log

namespace Machine

variable {ι E ε P H : Type}

/-- What the trace says of a step with this number, which executes `i` at `position`. -/
def stepRecord (lang : Language ι E ε) (number : Nat) (position : Int) (i : ι) : Log.Record :=
  Log.debug ("Step " ++ Numeral.text number ++ ": line " ++ Numeral.text (position + 1) ++ ": " ++
    lang.text i)

/-- What is noted of the next step before it is made. -/
def noted (lang : Language ι E ε) (program : Program ι) (limit : Int) (debug : Bool)
    (s : State E P H) : List Log.Record :=
  if debug then stepRecords lang program limit s else []

/-- The log of a run, the oldest record first. -/
def runLog (lang : Language ι E ε) (plane : Plane P H) (program : Program ι) (limit : Int)
    (debug : Bool) (s : State E P H) : List Log.Record :=
  (trace lang plane program limit debug s []).2.reverse

/-- The records tell the steps that a run from `s` makes within the limit, the first one first. Each
has the number of its step, and the line and the text of the instruction that the step executes. -/
structure TellsSteps (lang : Language ι E ε) (plane : Plane P H) (program : Program ι) (limit : Int)
    (s : State E P H) (records : List Log.Record) : Prop where
  count : records.length =
    min (run lang plane program limit s).state.steps limit.toNat - s.steps
  each : ∀ k < records.length, ∃ t i, stepMany lang plane program limit k s = .next t ∧
    program.get? t.index = some i ∧
    records[k]? = some (stepRecord lang (s.steps + k + 1) t.index i)

variable {lang : Language ι E ε} {plane : Plane P H} {program : Program ι} {limit : Int}
variable {debug : Bool} {s s' : State E P H} {fault : Fault ε} {log records : List Log.Record}
variable {i : ι}

section Trace

theorem trace_of_size_le (ended : program.size ≤ s.index) :
    trace lang plane program limit debug s log = (.finished s, finishedRecord s :: log) := by
  rw [trace, if_pos (by simpa [State.finished] using ended)]

theorem trace_of_step_eq_next (success : step lang plane program limit s = .next s') :
    trace lang plane program limit debug s log =
      trace lang plane program limit debug s' (noted lang program limit debug s ++ log) := by
  have running := (step_eq_next success).1
  rw [trace, if_neg (by simpa [State.finished] using running)]
  simp only
  split
  · rename_i other
    rw [success] at other
    cases other
    cases debug <;> rfl
  · rename_i other
    rw [success] at other
    cases other

theorem trace_of_step_eq_failed (running : s.index < program.size)
    (failure : step lang plane program limit s = .failed fault s') :
    trace lang plane program limit debug s log =
      (.failed fault s', failureRecords lang plane program limit s ++
        (noted lang program limit debug s ++ log)) := by
  rw [trace, if_neg (by simpa [State.finished] using running)]
  simp only
  split
  · rename_i other
    rw [failure] at other
    cases other
  · rename_i other
    rw [failure] at other
    cases other
    cases debug <;> rfl

/-- A run only adds to the log that it continues. -/
theorem trace_append (log : List Log.Record) :
    (trace lang plane program limit debug s log).2 =
      (trace lang plane program limit debug s []).2 ++ log := by
  induction s using run_induction lang plane program limit generalizing log with
  | ended s ended =>
    rw [trace_of_size_le ended, trace_of_size_le ended]
    rfl
  | next s s' success ih =>
    rw [trace_of_step_eq_next success, trace_of_step_eq_next success, ih, ih (_ ++ [])]
    simp
  | failed s s' fault running failure =>
    rw [trace_of_step_eq_failed running failure, trace_of_step_eq_failed running failure]
    simp

end Trace

section Records

theorem stepRecords_of_get? (running : s.index < program.size)
    (within : (s.steps : Int) + 1 ≤ limit) (fetched : program.get? s.index = some i) :
    stepRecords lang program limit s = [stepRecord lang (s.steps + 1) s.index i] := by
  rw [stepRecords, unfinished_of_lt running, decide_eq_false (unspent_of_le within), fetched]
  rfl

theorem stepRecords_of_limit_lt (spent : limit < (s.steps : Int) + 1) :
    stepRecords lang program limit s = [] := by
  have spent : limit < s.counted.steps := by simpa [State.counted] using spent
  rw [stepRecords, decide_eq_true spent, Bool.or_true, if_pos rfl]

/-- Before a step nothing is noted, or what the trace says of it. -/
theorem noted_eq (lang : Language ι E ε) (program : Program ι) (limit : Int) (debug : Bool)
    (s : State E P H) :
    noted lang program limit debug s = [] ∨
      ∃ i, noted lang program limit debug s = [stepRecord lang (s.steps + 1) s.index i] := by
  cases debug with
  | false => exact Or.inl rfl
  | true =>
    rw [noted, if_pos rfl, stepRecords]
    split
    · exact Or.inl rfl
    · cases program.get? s.index with
      | none => exact Or.inl rfl
      | some i => exact Or.inr ⟨i, rfl⟩

/-- Of a failure the log says nothing, or which line its error was given. -/
theorem failureRecords_eq (lang : Language ι E ε) (plane : Plane P H) (program : Program ι)
    (limit : Int) (s : State E P H) :
    failureRecords lang plane program limit s = [] ∨
      ∃ kind line, failureRecords lang plane program limit s = [Log.attributed kind line] := by
  unfold failureRecords
  split
  · exact Or.inl rfl
  split
  · rename_i e _
    rw [attributionRecords]
    cases e.line with
    | some line => exact Or.inl rfl
    | none => exact Or.inr ⟨e.cause.kind.name, s.index + 1, rfl⟩
  · exact Or.inl rfl

theorem tellsStep_stepRecord (number : Nat) (position : Int) :
    (stepRecord lang number position i).tellsStep = true := by
  simp [stepRecord, String.toList_append, List.isPrefixOf]

theorem tellsStep_attributed (kind : String) (line : Int) :
    (Log.attributed kind line).tellsStep = false := by
  simp [Log.attributed, String.toList_append, List.isPrefixOf]

theorem finishedRecord_untraced : Log.Untraced [finishedRecord s] := by
  simp [Log.Untraced, finishedRecord, String.toList_append, List.isPrefixOf]

theorem failureRecords_untraced : Log.Untraced (failureRecords lang plane program limit s) := by
  rcases failureRecords_eq lang plane program limit s with none | ⟨kind, line, attributed⟩
  · simp [Log.Untraced, none]
  · simp [Log.Untraced, attributed, tellsStep_attributed]

theorem failureRecords_level : ∀ r ∈ failureRecords lang plane program limit s, r.level = .debug := by
  rcases failureRecords_eq lang plane program limit s with none | ⟨kind, line, attributed⟩
  · simp [none]
  · simp [attributed, Log.attributed, Log.debug]

theorem noted_level : ∀ r ∈ noted lang program limit debug s, r.level = .debug := by
  rcases noted_eq lang program limit debug s with none | ⟨i, told⟩
  · simp [none]
  · simp [told, stepRecord, Log.debug]

theorem withoutTrace_noted : Log.withoutTrace (noted lang program limit debug s) = [] := by
  rcases noted_eq lang program limit debug s with none | ⟨i, told⟩
  · rw [none]
    rfl
  · simp [told, Log.withoutTrace, tellsStep_stepRecord]

theorem stepTrace_noted_of_get? (running : s.index < program.size)
    (within : (s.steps : Int) + 1 ≤ limit) (fetched : program.get? s.index = some i) :
    Log.stepTrace (noted lang program limit true s) =
      [stepRecord lang (s.steps + 1) s.index i] := by
  rw [noted, if_pos rfl, stepRecords_of_get? running within fetched]
  simp [Log.stepTrace, tellsStep_stepRecord]

end Records

section RunLog

theorem runLog_of_size_le (ended : program.size ≤ s.index) :
    runLog lang plane program limit debug s = [finishedRecord s] := by
  rw [runLog, trace_of_size_le ended]
  rfl

theorem reverse_noted :
    (noted lang program limit debug s).reverse = noted lang program limit debug s := by
  rcases noted_eq lang program limit debug s with none | ⟨i, told⟩
  · rw [none]
    rfl
  · rw [told]
    rfl

theorem reverse_failureRecords : (failureRecords lang plane program limit s).reverse =
    failureRecords lang plane program limit s := by
  rcases failureRecords_eq lang plane program limit s with none | ⟨kind, line, attributed⟩
  · rw [none]
    rfl
  · rw [attributed]
    rfl

theorem runLog_of_step_eq_next (success : step lang plane program limit s = .next s') :
    runLog lang plane program limit debug s =
      noted lang program limit debug s ++ runLog lang plane program limit debug s' := by
  rw [runLog, trace_of_step_eq_next success, trace_append, List.append_nil, List.reverse_append,
    reverse_noted, runLog]

theorem runLog_of_step_eq_failed (running : s.index < program.size)
    (failure : step lang plane program limit s = .failed fault s') :
    runLog lang plane program limit debug s =
      noted lang program limit debug s ++ failureRecords lang plane program limit s := by
  rw [runLog, trace_of_step_eq_failed running failure, List.append_nil, List.reverse_append,
    reverse_noted, reverse_failureRecords]

theorem withoutTrace_runLog (lang : Language ι E ε) (plane : Plane P H) (program : Program ι)
    (limit : Int) (debug : Bool) (s : State E P H) :
    Log.withoutTrace (runLog lang plane program limit debug s) =
      runLog lang plane program limit false s := by
  induction s using run_induction lang plane program limit with
  | ended s ended =>
    rw [runLog_of_size_le ended, runLog_of_size_le ended, finishedRecord_untraced.withoutTrace_eq]
  | next s s' success ih =>
    rw [runLog_of_step_eq_next success, runLog_of_step_eq_next success, Log.withoutTrace_append,
      withoutTrace_noted, ih]
    rfl
  | failed s s' fault running failure =>
    rw [runLog_of_step_eq_failed running failure, runLog_of_step_eq_failed running failure,
      Log.withoutTrace_append, withoutTrace_noted, failureRecords_untraced.withoutTrace_eq]
    rfl

theorem runLog_level (lang : Language ι E ε) (plane : Plane P H) (program : Program ι)
    (limit : Int) (debug : Bool) (s : State E P H) :
    ∀ r ∈ runLog lang plane program limit debug s, r.level = .debug := by
  induction s using run_induction lang plane program limit with
  | ended s ended =>
    rw [runLog_of_size_le ended]
    exact List.forall_mem_singleton.mpr rfl
  | next s s' success ih =>
    rw [runLog_of_step_eq_next success]
    exact List.forall_mem_append.mpr ⟨noted_level, ih⟩
  | failed s s' fault running failure =>
    rw [runLog_of_step_eq_failed running failure]
    exact List.forall_mem_append.mpr ⟨noted_level, failureRecords_level⟩

end RunLog

section Told

/-- Of a run without steps nothing is told. -/
theorem tellsSteps_nil
    (none : program.size ≤ s.index ∨ limit < (s.steps : Int) + 1) :
    TellsSteps lang plane program limit s [] := by
  refine ⟨?_, nofun⟩
  rw [List.length_nil]
  rcases none with ended | spent
  · rw [run_of_size_le ended, Ending.state]
    omega
  · omega

/-- The last step fails, and is told like the others. -/
theorem tellsSteps_last (running : s.index < program.size) (within : (s.steps : Int) + 1 ≤ limit)
    (fetched : program.get? s.index = some i)
    (failure : step lang plane program limit s = .failed fault s') :
    TellsSteps lang plane program limit s [stepRecord lang (s.steps + 1) s.index i] := by
  constructor
  · have counted : s'.steps = s.steps + 1 := by
      rw [(step_eq_failed failure).state running, State.counted]
    rw [run_of_step_eq_failed running failure, Ending.state, List.length_singleton]
    omega
  · intro k less
    obtain rfl : k = 0 := by simpa using less
    exact ⟨s, i, rfl, fetched, rfl⟩

theorem TellsSteps.behind (rest : TellsSteps lang plane program limit s' records)
    (fetched : program.get? s.index = some i)
    (success : step lang plane program limit s = .next s') :
    TellsSteps lang plane program limit s
      (stepRecord lang (s.steps + 1) s.index i :: records) := by
  obtain ⟨counted, within⟩ := steps_of_step_eq_next success
  constructor
  · have later := steps_le_run lang plane program limit s'
    rw [run_of_step_eq_next success, List.length_cons, rest.count]
    omega
  · intro k less
    cases k with
    | zero => exact ⟨s, i, rfl, fetched, rfl⟩
    | succ k =>
      obtain ⟨t, j, chain, item, told⟩ := rest.each k (Nat.lt_of_succ_lt_succ less)
      have number : s.steps + (k + 1) + 1 = s'.steps + k + 1 := by omega
      refine ⟨t, j, by rw [stepMany_succ_of_step success, chain], item, ?_⟩
      rw [List.getElem?_cons_succ, told, number]

/-- By induction along the run: the machine stays inside of the program, so there is an instruction
to be told for each step within the limit. -/
theorem tellsSteps_runLog {again : ι → Bool} (coherent : Coherent lang again)
    (mirrored : Mirrored lang again program s) :
    TellsSteps lang plane program limit s
      (Log.stepTrace (runLog lang plane program limit true s)) := by
  induction s using run_induction lang plane program limit with
  | ended s ended =>
    rw [runLog_of_size_le ended, finishedRecord_untraced.stepTrace_eq]
    exact tellsSteps_nil (Or.inl ended)
  | next s s' success ih =>
    obtain ⟨running, within, i, action, fetched, -⟩ := step_eq_next success
    rw [runLog_of_step_eq_next success, Log.stepTrace_append,
      stepTrace_noted_of_get? running within fetched]
    exact (ih (mirrored_step coherent mirrored success)).behind fetched success
  | failed s s' fault running failure =>
    rw [runLog_of_step_eq_failed running failure, Log.stepTrace_append,
      failureRecords_untraced.stepTrace_eq, List.append_nil]
    by_cases spent : limit < (s.steps : Int) + 1
    · rw [noted, if_pos rfl, stepRecords_of_limit_lt spent]
      exact tellsSteps_nil (Or.inr spent)
    · have within : (s.steps : Int) + 1 ≤ limit := Int.not_lt.mp spent
      obtain ⟨k, index, -⟩ := mirrored
      obtain ⟨i, fetched⟩ : ∃ i, program.get? s.index = some i := by
        rw [index] at running ⊢
        exact exists_get? (Int.ofNat_lt.mp running)
      rw [stepTrace_noted_of_get? running within fetched]
      exact tellsSteps_last running within fetched failure

end Told

end Machine

end TurtleGraphics
