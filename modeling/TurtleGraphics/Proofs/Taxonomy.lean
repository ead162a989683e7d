import TurtleGraphics.Drawing.Doubles
import TurtleGraphics.Proofs.JumpStack
import TurtleGraphics.Proofs.RoundTrip
import TurtleGraphics.Proofs.Runs
/-!
With which errors a run of a script can fail.

On the plane of doubles a run ends with an error of the run, whatever the script, unless it moves
along an infinite heading (`Astray`). Only such a move fails in another way. A heading becomes
infinite by turns that are each small enough for a double, if there are enough of them; so there are
scripts whose run fails with an error that is none of the run.
-/
set_option autoImplicit false

namespace TurtleGraphics

namespace Machine

section Kinds
variable {E ε P H : Type}

/-- The kinds of the errors of a run. -/
def runKinds : List ErrorKind := [.evaluation, .structural, .resourceLimit]

/-- The run ends well, or with an error of the run. -/
def Ending.InTaxonomy : Ending E ε P H → Prop
  | .finished _ => True
  | .failed (.run error) _ => error.cause.kind ∈ runKinds
  | .failed _ _ => False

theorem kind_mem_runKinds (cause : Cause) : cause.kind ∈ runKinds := by
  cases cause <;> simp [Cause.kind, Cause.report, Report.kind, runKinds]

end Kinds

section Doubles
variable {program : Program Instruction} {limit : Int} {t s' : State Env Position Float}

/-- The next step from `t` moves along an infinite heading. -/
structure Astray (program : Program Instruction) (limit : Int) (t : State Env Position Float) :
    Prop where
  within : (t.steps : Int) + 1 ≤ limit
  infinite : t.recorder.cursor.heading.isInf = true
  moves : ∃ length n, program.get? t.index = some (.move length) ∧ length.eval t.env = .ok n

theorem isInf_of_move_eq_noDirection {r : Recorder Position Float} {length : Int}
    (stopped : r.move Plane.doubles length = .error .noDirection) :
    r.cursor.heading.isInf = true := by
  by_cases infinite : r.cursor.heading.isInf = true
  · exact infinite
  · simp only [Recorder.move, Plane.doubles, Plane.advanceDouble, if_neg infinite] at stopped
    cases numeral : Binary64.ofInt? length <;> simp [numeral] at stopped

theorem move_eq_noDirection {r : Recorder Position Float}
    (infinite : r.cursor.heading.isInf = true) (length : Int) :
    r.move Plane.doubles length = .error .noDirection := by
  simp only [Recorder.move, Plane.doubles, Plane.advanceDouble, if_pos infinite]

theorem rotate_ne_noDirection {r : Recorder Position Float} {degrees : Int} :
    r.rotate Plane.doubles degrees ≠ .error .noDirection := by
  simp only [Recorder.rotate, Plane.doubles, Plane.turnDouble]
  cases Binary64.ofInt? degrees <;> simp

theorem exists_of_action_eq_move {env : Env} {i : Instruction} {n : Int}
    (meaning : Instruction.language.action env i = .ok (.move n)) :
    ∃ length, i = .move length ∧ length.eval env = .ok n := by
  cases Instruction.does_of_action meaning with
  | @move length n value => exact ⟨length, rfl, value⟩

theorem eq_of_ofPlane_eq_noDirection {ε : Type} {cause : Cause} {e : Plane.Fault}
    (reason : (Fault.ofPlane cause e : Fault ε) = .noDirection) : e = .noDirection := by
  cases e with
  | tooLarge => cases reason
  | noDirection => rfl

theorem Refused.astray {i : Action Env Empty}
    (refused : Refused Instruction.language Plane.doubles program t i .noDirection) :
    t.recorder.cursor.heading.isInf = true ∧ ∃ n, i = .move n := by
  generalize reason : (Fault.noDirection : Fault Empty) = fault at refused
  cases refused with
  | @move n e stopped =>
    rw [eq_of_ofPlane_eq_noDirection reason.symm] at stopped
    exact ⟨isInf_of_move_eq_noDirection stopped, n, rfl⟩
  | strayMove stopped | stray m => exact Empty.elim ‹_›
  | rotate stopped =>
    rw [eq_of_ofPlane_eq_noDirection reason.symm] at stopped
    exact absurd stopped rotate_ne_noDirection
  | enter holds again closer =>
    rcases blockEnd_eq_error closer with ⟨rfl, -⟩ | ⟨position, rfl⟩ | ⟨m, rfl⟩ <;> cases reason
  | close empty => cases reason

/-- Only a move along an infinite heading has no direction. -/
theorem astray_of_step_eq_failed
    (failure : step Instruction.language Plane.doubles program limit t = .failed .noDirection s') :
    Astray program limit t := by
  have fails := step_eq_failed failure
  generalize reason : (Fault.noDirection : Fault Empty) = fault at fails
  cases fails with
  | ended finished => cases reason
  | spent running spent => cases reason
  | missing running within nothing => cases reason
  | @meaningless i e running within fetched meaning => cases e <;> cases reason
  | @refused i action own running within fetched meaning refused =>
    obtain rfl : own = .noDirection := by cases own <;> cases reason; rfl
    obtain ⟨infinite, n, rfl⟩ := refused.astray
    obtain ⟨length, rfl, value⟩ := exists_of_action_eq_move meaning
    exact ⟨within, infinite, length, n, fetched, value⟩

theorem Astray.step_eq_failed (astray : Astray program limit t) (running : t.index < program.size) :
    step Instruction.language Plane.doubles program limit t = .failed .noDirection t.counted := by
  obtain ⟨within, infinite, length, n, fetched, value⟩ := astray
  have same : length.eval t.counted.env = .ok n := value
  have stopped : t.counted.recorder.move Plane.doubles n = .error .noDirection :=
    move_eq_noDirection infinite n
  rw [step_of_get? running within fetched, execute]
  simp only [Instruction.language, Instruction.action, same, Instruction.evaluated, Except.map,
    perform, stopped, moved]
  rfl

theorem index_nonneg {P H : Type} {plane : Plane P H} {s : State Env P H} {n : Nat}
    (chain : stepMany Instruction.language plane program limit n
      (start Instruction.language plane) = .next s) : 0 ≤ s.index := by
  obtain ⟨k, index, -⟩ := mirrored_of_stepMany Instruction.language_coherent chain
  omega

theorem Astray.running (astray : Astray program limit t) (nonneg : 0 ≤ t.index) :
    t.index < program.size := by
  obtain ⟨length, n, fetched, -⟩ := astray.moves
  obtain ⟨k, index⟩ := Int.eq_ofNat_of_zero_le nonneg
  rw [index, Program.get?_ofNat] at fetched
  have inside := (List.getElem?_eq_some_iff.mp fetched).1
  unfold Program.size
  omega

/-- A run that ends with none of the errors of a run has come to a move along an infinite heading. -/
theorem EndsAt.astray {ending : Ending Env Empty Position Float} (nonneg : 0 ≤ t.index)
    (ends : EndsAt Instruction.language Plane.doubles program limit t ending)
    (outside : ¬ending.InTaxonomy) :
    Astray program limit t ∧ ∃ s, ending = .failed .noDirection s := by
  cases ends with
  | finished ended => exact absurd trivial outside
  | @failed fault after running failure =>
    rcases (step_eq_failed failure).reasons nonneg running with ⟨error, rfl⟩ | rfl | ⟨m, -⟩
    · exact absurd (kind_mem_runKinds error.cause) outside
    · exact ⟨astray_of_step_eq_failed failure, after, rfl⟩
    · exact m.elim

end Doubles

end Machine

open Machine (Astray run start stepMany)

/-- On the plane of doubles a run ends well or with an error of the run, unless it moves along an
infinite heading; then it fails for want of a direction. -/
theorem run_inTaxonomy_iff (program : Program Instruction) (limit : Int) :
    ((run Instruction.language Plane.doubles program limit
        (start Instruction.language Plane.doubles)).InTaxonomy ↔
      ∀ n t, stepMany Instruction.language Plane.doubles program limit n
        (start Instruction.language Plane.doubles) = .next t → ¬Astray program limit t) ∧
    (¬(run Instruction.language Plane.doubles program limit
        (start Instruction.language Plane.doubles)).InTaxonomy →
      ∃ s, run Instruction.language Plane.doubles program limit
        (start Instruction.language Plane.doubles) = .failed .noDirection s) := by
  obtain ⟨n, t, chain, ends⟩ := Machine.exists_endsAt_run Instruction.language Plane.doubles
    program limit (start Instruction.language Plane.doubles)
  have nonneg := Machine.index_nonneg chain
  refine ⟨⟨?_, ?_⟩, ?_⟩
  · intro inside m u reached astray
    have running := astray.running (Machine.index_nonneg reached)
    rw [Machine.run_of_stepMany reached,
      Machine.run_of_step_eq_failed running (astray.step_eq_failed running)] at inside
    exact inside
  · intro straight
    by_contra outside
    exact straight n t chain (ends.astray nonneg outside).1
  · intro outside
    exact (ends.astray nonneg outside).2

/-- Turns 64 times by 17 * 10^307 degrees, and then moves. -/
def spinning : List Instruction :=
  let product (a b : String) : Expr := .binary (.var a) .mul (.var b)
  [.set "a" (.int 10000), .set "b" (product "a" "a"), .set "c" (product "b" "b"),
    .set "d" (product "c" "c"), .set "e" (product "d" "d"), .set "f" (product "e" "e"),
    .set "g" (product "f" "f"),
    .set "x" (.binary (product "g" "d") .mul (.binary (.var "c") .mul (.int 17000))),
    .set "i" (.int 64), .loop (.compare (.var "i") .gt (.int 0)), .rotate (.var "x"),
    .set "i" (.binary (.var "i") .sub (.int 1)), .close, .move (.int 1)]

/-- No turn of this script is too large, but together they are. -/
theorem spinning_not_inTaxonomy :
    ¬∀ (strict : Bool) (script : String) (program : Program Instruction) (limit : Int),
      Script.parse strict script = .ok program → 1 ≤ limit →
        (run Instruction.language Plane.doubles program limit
          (start Instruction.language Plane.doubles)).InTaxonomy := by
  intro taxonomy
  have parsed := @Script.parse_listing spinning (by decide) (by decide) false
  have failure : (stepMany Instruction.language Plane.doubles
      ⟨spinning, spinning.map Instruction.text⟩ 10000 267
      (start Instruction.language Plane.doubles)).fault? = some .noDirection := by decide +kernel
  obtain ⟨after, fails⟩ := Machine.run_of_fault? (by simp) failure
  have inside := taxonomy false _ _ 10000 parsed (by decide)
  rw [fails] at inside
  exact inside

end TurtleGraphics
