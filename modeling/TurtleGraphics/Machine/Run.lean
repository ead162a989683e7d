import TurtleGraphics.Log
import TurtleGraphics.Machine.Basic
/-!
Runs: steps until the program ends or one of them fails.

The step limit bounds every run. `trace` is a run that also keeps a log; its ending is that of
`run`.
-/
set_option autoImplicit false

namespace TurtleGraphics.Machine

variable {ι E ε P H : Type}

/-- How a run ends. -/
inductive Ending (E ε P H : Type) where
  | finished (s : State E P H)
  | failed (fault : Fault ε) (s : State E P H)
  deriving DecidableEq, Repr

/-- The state at the end of a run. -/
def Ending.state : Ending E ε P H → State E P H
  | finished s => s
  | failed _ s => s

def drawing (s : State E P H) : Drawing P H := ⟨s.recorder.events, s.recorder.cursor, s.steps⟩

theorem sub_steps_lt {lang : Language ι E ε} {plane : Plane P H} {program : Program ι}
    {limit : Int} {s s' : State E P H} (h : step lang plane program limit s = .next s') :
    (limit - s'.steps).toNat < (limit - s.steps).toNat := by
  have := steps_of_step_eq_next h
  omega

def run (lang : Language ι E ε) (plane : Plane P H) (program : Program ι) (limit : Int)
    (s : State E P H) : Ending E ε P H :=
  if s.finished program then .finished s
  else
    match _h : step lang plane program limit s with
    | .next s' => run lang plane program limit s'
    | .failed fault s' => .failed fault s'
termination_by (limit - s.steps).toNat
decreasing_by exact sub_steps_lt _h

/-- What the log says of the instruction that the next step executes. -/
def stepRecords (lang : Language ι E ε) (program : Program ι) (limit : Int) (s : State E P H) :
    List Log.Record :=
  if s.finished program || decide (limit < s.counted.steps) then []
  else
    match program.get? s.index with
    | none => []
    | some i =>
      [Log.debug ("Step " ++ Numeral.text s.counted.steps ++ ": line " ++
        Numeral.text (s.index + 1) ++ ": " ++ lang.text i)]

/-- What the log says when an error is given the line that it had lacked. -/
def attributionRecords (e : RunError) (line : Int) : List Log.Record :=
  match e.line with
  | some _ => []
  | none => [Log.attributed e.cause.kind.name line]

/-- What the log says of the failure of the next step. -/
def failureRecords (lang : Language ι E ε) (plane : Plane P H) (program : Program ι) (limit : Int)
    (s : State E P H) : List Log.Record :=
  if s.finished program || decide (limit < s.counted.steps) then []
  else
    match (program.get? s.index).map (execute lang plane program s.counted) with
    | some (.error (.run e)) => attributionRecords e (s.index + 1)
    | _ => []

def finishedRecord (s : State E P H) : Log.Record :=
  Log.debug ("Program finished after " ++ Numeral.text s.steps ++ " steps")

/-- A run and its log, the newest record first, continuing the records in `log`. With `debug` every
executed instruction is logged. -/
def trace (lang : Language ι E ε) (plane : Plane P H) (program : Program ι) (limit : Int)
    (debug : Bool) (s : State E P H) (log : List Log.Record) : Ending E ε P H × List Log.Record :=
  if s.finished program then (.finished s, finishedRecord s :: log)
  else
    let noted := if debug then stepRecords lang program limit s ++ log else log
    match _h : step lang plane program limit s with
    | .next s' => trace lang plane program limit debug s' noted
    | .failed fault s' => (.failed fault s', failureRecords lang plane program limit s ++ noted)
termination_by (limit - s.steps).toNat
decreasing_by exact sub_steps_lt _h

theorem trace_ending (lang : Language ι E ε) (plane : Plane P H) (program : Program ι) (limit : Int)
    (debug : Bool) (s : State E P H) (log : List Log.Record) :
    (trace lang plane program limit debug s log).1 = run lang plane program limit s := by
  fun_induction run lang plane program limit s generalizing log with
  | case1 s h => rw [trace, if_pos h]
  | case2 s h s' hs ih =>
    rw [trace, if_neg h]
    simp only
    split
    · rename_i s'' hs'
      rw [hs] at hs'
      cases hs'
      exact ih _
    · rename_i hs'
      rw [hs] at hs'
      cases hs'
  | case3 s h fault s' hs =>
    rw [trace, if_neg h]
    simp only
    split
    · rename_i hs'
      rw [hs] at hs'
      cases hs'
    · rename_i hs'
      rw [hs] at hs'
      cases hs'
      rfl

/-- The first `n` steps, or as many as there are before one fails. -/
def stepMany (lang : Language ι E ε) (plane : Plane P H) (program : Program ι) (limit : Int) :
    Nat → State E P H → Step E ε P H
  | 0, s => .next s
  | n + 1, s =>
    match step lang plane program limit s with
    | .next s' => stepMany lang plane program limit n s'
    | .failed fault s' => .failed fault s'

end TurtleGraphics.Machine
