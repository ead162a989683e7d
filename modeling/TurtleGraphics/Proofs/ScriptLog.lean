import TurtleGraphics.Drawing.Doubles
import TurtleGraphics.Proofs.Reading
import TurtleGraphics.Proofs.RunLog
import TurtleGraphics.Turtle
/-!
The log of a script, and what it reports of the outcome.

Reading adds one record, the run adds its own, and an error of the language adds one at the end,
the only one for information. Of the options the outcome depends on the step limit and on the
reading of keywords, not on whether the steps are traced.
-/
set_option autoImplicit false

namespace TurtleGraphics

namespace Log

variable {log : List Record} {message : String}

/-- The log has nothing for information, and nothing that is more serious. -/
def Silent (log : List Record) : Prop := atLeast .info log = []

/-- The log ends with the message for information, and has no other. -/
structure ClosesWith (log : List Record) (message : String) : Prop where
  only : atLeast .info log = [info message]
  last : log.getLast? = some (info message)

theorem silent_of_level (level : ∀ r ∈ log, r.level = .debug) : Silent log := by
  rw [Silent, atLeast, List.filter_eq_nil_iff]
  intro r inside
  rw [level r inside]
  decide

theorem silent_nil : Silent [] := rfl

theorem Silent.closesWith (silent : Silent log) : ClosesWith (log ++ [info message]) message := by
  constructor
  · have before : atLeast .info log = [] := silent
    rw [atLeast, List.filter_append, ← atLeast, before]
    rfl
  · exact List.getLast?_concat

end Log

namespace Machine

variable {ι E ε P H : Type}

/-- What a run comes to: a drawing, or why there is none. -/
def Ending.outcome : Ending E ε P H → Except (Fault ε) (Drawing P H)
  | finished s => .ok (drawing s)
  | failed fault _ => .error fault

theorem exists_of_outcome_eq_error {ending : Ending E ε P H} {fault : Fault ε}
    (failure : ending.outcome = .error fault) : ∃ s, ending = .failed fault s := by
  cases ending with
  | finished s => cases failure
  | failed fault s =>
    cases failure
    exact ⟨s, rfl⟩

/-- A run in which no misuse is possible fails for want of a direction, or with an error that names
the line of an instruction of the program. -/
theorem line_of_run_fails {lang : Language ι E Empty} {plane : Plane P H} {program : Program ι}
    {limit : Int} {again : ι → Bool} {fault : Fault Empty} (coherent : Coherent lang again)
    (failure : (run lang plane program limit (start lang plane)).outcome = .error fault) :
    fault = .noDirection ∨ ∃ (e : RunError) (k : Nat),
      fault = .run e ∧ k < program.size ∧ e.line = some ((k : Int) + 1) := by
  obtain ⟨s, ending⟩ := exists_of_outcome_eq_error failure
  obtain ⟨n, t, chain, ends⟩ := exists_endsAt_run lang plane program limit (start lang plane)
  obtain ⟨k, index, -⟩ := mirrored_of_stepMany coherent chain
  have nonneg : 0 ≤ t.index := by omega
  rw [ending] at ends
  cases ends with
  | failed running failed =>
    have fails := step_eq_failed failed
    rcases fails.reasons nonneg running with ⟨e, rfl⟩ | rfl | ⟨m, -⟩
    · rw [index] at running
      refine Or.inr ⟨e, k, rfl, Int.ofNat_lt.mp running, ?_⟩
      rw [fails.names_line, index]
    · exact Or.inl rfl
    · exact m.elim

end Machine

namespace Turtle

variable {ι E ε P H : Type}

/-- What the log says of the outcome of a run, behind all that the run has noted. -/
def closingRecords (lang : Machine.Language ι E ε) (p : Program ι) :
    Except (Machine.Fault ε) (Drawing P H) → List Log.Record
  | .ok _ => []
  | .error fault => failureRecords lang p fault

/-- The records tell the steps of a script's run, with numbers from one on since a fresh machine has
counted none. A script that cannot be read has no steps. -/
def Traces (plane : Plane P H) (o : Options) (script : String) (records : List Log.Record) : Prop :=
  match Script.parse o.strictKeywords script with
  | .ok p => Machine.TellsSteps Instruction.language plane p o.maxSteps
      (Machine.start Instruction.language plane) records
  | .error _ => records = []

/-- What the log of a script reports of the outcome. A drawing, a numeral that is too long and the
want of a direction are not reported. -/
inductive Reports (script : String) : Except Fault (Drawing P H) × List Log.Record → Prop where
  | drawn {d : Drawing P H} {log : List Log.Record} (silent : Log.Silent log) :
      Reports script (.ok d, log)
  | unread {e : BadLine} {log : List Log.Record}
      (closes : Log.ClosesWith log ("Run failed: " ++ e.message)) :
      Reports script (.error (.script (.badLine e)), log)
  | failed {e : RunError} {k : Nat} {source : String} {log : List Log.Record}
      (line : e.line = some ((k : Int) + 1)) (here : (Text.lines script)[k]? = some source)
      (closes : Log.ClosesWith log ("Run failed at line " ++ Numeral.text (k + 1) ++ " (" ++
        Text.trim source ++ "): " ++ e.cause.report.message)) :
      Reports script (.error (.machine (.run e)), log)
  | overlong {digits : Nat} {log : List Log.Record} (silent : Log.Silent log) :
      Reports script (.error (.script (.overlong digits)), log)
  | noDirection {log : List Log.Record} (silent : Log.Silent log) :
      Reports script (.error (.machine .noDirection), log)

variable {plane : Plane P H} {o : Options} {script : String} {p : Program Instruction}
variable {debug : Bool}

section Logs

theorem readRecord_untraced (p : Program Instruction) : Log.Untraced [Script.readRecord p] := by
  simp [Log.Untraced, Script.readRecord, String.toList_append, List.isPrefixOf]

theorem unreadRecords_untraced (e : Script.Fault) : Log.Untraced (unreadRecords e) := by
  cases e <;> simp [Log.Untraced, unreadRecords]

theorem failureRecords_untraced (lang : Machine.Language ι E ε) (p : Program ι)
    (fault : Machine.Fault ε) : Log.Untraced (failureRecords lang p fault) := by
  cases fault with
  | run e =>
    rw [failureRecords]
    cases e.line <;> simp [Log.Untraced]
  | noDirection | finished | outside | misuse => simp [Log.Untraced, failureRecords]

theorem closingRecords_untraced (lang : Machine.Language ι E ε) (p : Program ι)
    (outcome : Except (Machine.Fault ε) (Drawing P H)) :
    Log.Untraced (closingRecords lang p outcome) := by
  cases outcome with
  | ok d => simp [Log.Untraced, closingRecords]
  | error fault => exact failureRecords_untraced lang p fault

/-- The log of a run: what the machine notes, and then what is said of the outcome. -/
theorem runProgram_eq {lang : Machine.Language ι E ε} {p : Program ι}
    {outcome : Except (Machine.Fault ε) (Drawing P H)}
    (ends : (Machine.run lang plane p o.maxSteps (Machine.start lang plane)).outcome = outcome) :
    runProgram lang plane { o with debug } p = (outcome,
      Machine.runLog lang plane p o.maxSteps debug (Machine.start lang plane) ++
        closingRecords lang p outcome) := by
  have ending := Machine.trace_ending lang plane p o.maxSteps debug (Machine.start lang plane) []
  rw [← ending] at ends
  rw [runProgram, Machine.runLog]
  dsimp only
  cases whole : Machine.trace lang plane p o.maxSteps debug (Machine.start lang plane) [] with
  | mk last log =>
    rw [whole] at ends
    subst ends
    cases last with
    | finished s => simp [Machine.Ending.outcome, closingRecords]
    | failed fault s => rfl

theorem run_of_unread {e : Script.Fault}
    (unread : Script.parse o.strictKeywords script = .error e) :
    run plane { o with debug } script = (.error (.script e), unreadRecords e) := by
  rw [run, parse, unread]
  rfl

theorem run_of_read {outcome : Except (Machine.Fault Empty) (Drawing P H)}
    (read : Script.parse o.strictKeywords script = .ok p)
    (ends : (Machine.run Instruction.language plane p o.maxSteps
      (Machine.start Instruction.language plane)).outcome = outcome) :
    run plane { o with debug } script = (outcome.mapError .machine,
      [Script.readRecord p] ++ (Machine.runLog Instruction.language plane p o.maxSteps debug
        (Machine.start Instruction.language plane) ++
          closingRecords Instruction.language p outcome)) := by
  rw [run, parse, read]
  dsimp only
  rw [runProgram_eq ends]
  cases outcome with
  | ok d => rfl
  | error fault => rfl

end Logs

section Reports

theorem lines_getElem?_of_read {k : Nat} (read : Script.parse o.strictKeywords script = .ok p)
    (inside : k < p.size) :
    ∃ source, (Text.lines script)[k]? = some source ∧
      p.sourceLine? Instruction.text k = some source := by
  cases Script.reading_of_program read with
  | complete size source each =>
    have length : (Text.lines script).length = p.size := each.length_eq
    have here : k < (Text.lines script).length := by omega
    refine ⟨(Text.lines script)[k], List.getElem?_eq_getElem here, ?_⟩
    rw [source k inside, List.getElem?_eq_getElem here]

theorem failureRecords_of_line {e : RunError} {k : Nat} {source : String}
    (line : e.line = some ((k : Int) + 1)) (quoted : p.sourceLine? Instruction.text k = some source) :
    failureRecords Instruction.language p (.run e) =
      [Log.info ("Run failed at line " ++ Numeral.text (k + 1) ++ " (" ++ Text.trim source ++
        "): " ++ e.cause.report.message)] := by
  have position : (k : Int) + 1 - 1 = k := by omega
  have source : p.sourceLine? Instruction.language.text k = some source := quoted
  rw [failureRecords, line]
  simp only [position, source, Option.getD_some]

example : failureRecords Instruction.language ⟨[.lift, .move (.var "y")], ["L", "  M y  # oops"]⟩
      (.run ⟨.unknownVariable "y", some 2⟩) =
    [Log.info "Run failed at line 2 (M y  # oops): Unknown variable: y"] := by
  decide

theorem run_reports (plane : Plane P H) (o : Options) (debug : Bool) (script : String) :
    Reports script (run plane { o with debug } script) := by
  cases read : Script.parse o.strictKeywords script with
  | error e =>
    rw [run_of_unread read]
    cases e with
    | badLine e => exact .unread Log.silent_nil.closesWith
    | overlong digits => exact .overlong Log.silent_nil
  | ok p =>
    let start := Machine.start Instruction.language plane
    have silent : Log.Silent ([Script.readRecord p] ++
        Machine.runLog Instruction.language plane p o.maxSteps debug start) := by
      apply Log.silent_of_level
      exact List.forall_mem_append.mpr ⟨List.forall_mem_singleton.mpr rfl,
        Machine.runLog_level _ _ _ _ _ _⟩
    cases ends : (Machine.run Instruction.language plane p o.maxSteps start).outcome with
    | ok d =>
      rw [run_of_read read ends, closingRecords, List.append_nil]
      exact .drawn silent
    | error fault =>
      rw [run_of_read read ends, closingRecords, ← List.append_assoc]
      rcases Machine.line_of_run_fails Instruction.language_coherent ends with
        rfl | ⟨e, k, rfl, inside, line⟩
      · simp only [failureRecords, List.append_nil]
        exact .noDirection silent
      · obtain ⟨source, here, quoted⟩ := lines_getElem?_of_read read inside
        rw [failureRecords_of_line line quoted]
        exact .failed line here silent.closesWith

end Reports

/-- A run with a trace of its steps and the same run without one. -/
structure OnlyObserves (plane : Plane P H) (o : Options) (script : String)
    (traced plain : Except Fault (Drawing P H) × List Log.Record) : Prop where
  outcome : traced.1 = plain.1
  trace : Traces plane o script (Log.stepTrace traced.2)
  rest : Log.withoutTrace traced.2 = plain.2
  reported : Reports script traced ∧ Reports script plain

theorem traces_run (plane : Plane P H) (o : Options) (script : String) :
    Traces plane o script (Log.stepTrace (run plane { o with debug := true } script).2) := by
  rw [Traces]
  cases read : Script.parse o.strictKeywords script with
  | error e =>
    dsimp only
    rw [run_of_unread read, (unreadRecords_untraced e).stepTrace_eq]
  | ok p =>
    dsimp only
    rw [run_of_read read rfl, Log.stepTrace_append, Log.stepTrace_append,
      (readRecord_untraced p).stepTrace_eq, (closingRecords_untraced _ _ _).stepTrace_eq,
      List.nil_append, List.append_nil]
    exact Machine.tellsSteps_runLog Instruction.language_coherent (Machine.start_mirrored plane)

theorem withoutTrace_run (plane : Plane P H) (o : Options) (script : String) :
    Log.withoutTrace (run plane { o with debug := true } script).2 =
      (run plane { o with debug := false } script).2 := by
  cases read : Script.parse o.strictKeywords script with
  | error e =>
    rw [run_of_unread read, run_of_unread read, (unreadRecords_untraced e).withoutTrace_eq]
  | ok p =>
    rw [run_of_read read rfl, run_of_read read rfl, Log.withoutTrace_append,
      Log.withoutTrace_append, (readRecord_untraced p).withoutTrace_eq,
      (closingRecords_untraced _ _ _).withoutTrace_eq, Machine.withoutTrace_runLog]

end Turtle

open Turtle

/-- The trace of a run tells its steps and changes nothing else: the outcome stays, and so does what
the log has besides. With a trace or without, a failure is reported once and at the end. -/
theorem tracing_only_observes {P H : Type} (plane : Plane P H) (o : Options) (script : String) :
    OnlyObserves plane o script (run plane { o with debug := true } script)
      (run plane { o with debug := false } script) := by
  refine ⟨?_, traces_run plane o script, withoutTrace_run plane o script,
    run_reports plane o true script, run_reports plane o false script⟩
  cases read : Script.parse o.strictKeywords script with
  | error e => rw [run_of_unread read, run_of_unread read]
  | ok p => rw [run_of_read read rfl, run_of_read read rfl]

end TurtleGraphics
