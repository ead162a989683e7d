import TurtleGraphics.Drawing.Doubles
import TurtleGraphics.Proofs.JumpStack
import TurtleGraphics.Proofs.StepLimit
/-!
Programs without loops.

The end of a block goes back only if the block repeats. If no instruction repeats its block, then
every position on the stack lies behind that of the machine, because it lies behind the end of a
block around it (`Mirrored`), and so each step leads forward. Such a run executes every instruction
at most once, whether or not the brackets of its program are balanced, and needs no more steps than
there are instructions.
-/
set_option autoImplicit false

namespace TurtleGraphics

namespace Machine

variable {ι E ε P H : Type}

/-- The program never goes back: the positions that a run visits increase, and it makes at most as
many steps as there are instructions. -/
structure RunsForward (lang : Language ι E ε) (plane : Plane P H) (program : Program ι) : Prop where
  increasing : ∀ limit, (visits lang plane program limit (start lang plane)).Pairwise (· < ·)
  visits_le : ∀ limit, (visits lang plane program limit (start lang plane)).length ≤ program.size
  steps_le : ∀ limit, (run lang plane program limit (start lang plane)).state.steps ≤ program.size
  never_outOfSteps : ∀ limit : Int, program.size ≤ limit →
    ¬(run lang plane program limit (start lang plane)).OutOfSteps

/-- The positions lead on from `first`, in a program of this size. -/
structure LeadsForward (first : Int) (size : Nat) (positions : List Int) : Prop where
  increasing : positions.Pairwise (· < ·)
  beyond : ∀ position ∈ positions, first ≤ position
  count : (positions.length : Int) ≤ max 0 (size - first)

section Positions
variable {first next : Int} {size : Nat} {positions : List Int}

theorem LeadsForward.nil (first : Int) (size : Nat) : LeadsForward first size [] :=
  ⟨.nil, nofun, Int.le_max_left 0 _⟩

theorem LeadsForward.cons (less : first < next) (inside : first < size)
    (rest : LeadsForward next size positions) : LeadsForward first size (first :: positions) := by
  refine ⟨List.pairwise_cons.mpr ⟨?_, rest.increasing⟩, ?_, ?_⟩
  · intro position member
    exact Int.lt_of_lt_of_le less (rest.beyond position member)
  · intro position member
    rcases List.mem_cons.mp member with rfl | later
    · exact Int.le_refl _
    · exact Int.le_of_lt (Int.lt_of_lt_of_le less (rest.beyond position later))
  · have count := rest.count
    rw [List.length_cons]
    omega

end Positions

section Steps
variable {lang : Language ι E ε} {again : ι → Bool} {plane : Plane P H} {program : Program ι}
variable {limit : Int} {s s' : State E P H}

/-- Where no block repeats, the ends of the blocks around a position lead behind it. -/
theorem lt_of_returnsTo {k b : Nat} {position : Int}
    (loopless : ∀ i ∈ program.instructions, again i = false)
    (inside : k ≤ (knownRoles lang program).length) (around : b ∈ closedAround lang program k)
    (returns : ReturnsTo lang again program b position) : (k : Int) < position := by
  rw [closedAround, List.mem_filter, Block.mem_openAt_iff] at around
  obtain ⟨⟨before, -, late⟩, -⟩ := around
  obtain ⟨i, stop, item, ends, rfl⟩ := returns
  obtain ⟨stop, closed, rfl⟩ := (blockEnd_eq_ok_iff (Nat.lt_of_lt_of_le before inside)).mp ends
  rw [Program.get?_ofNat] at item
  have once : again i = false := loopless i (List.mem_of_getElem? item)
  have := late stop closed
  rw [once, if_neg Bool.false_ne_true]
  omega

theorem index_lt_of_step (coherent : Coherent lang again)
    (loopless : ∀ i ∈ program.instructions, again i = false)
    (mirrored : Mirrored lang again program s)
    (success : step lang plane program limit s = .next s') : s.index < s'.index := by
  obtain ⟨k, index, inside, stack⟩ := mirrored
  obtain ⟨-, -, i, action, fetched, meaning, performed⟩ := step_eq_next success
  have position : s.counted.index = s.index := rfl
  cases performed with
  | move | rotate | pen | assign | skip | enter =>
    simp only [position]
    omega
  | @pass repeats stop closer =>
    have role := role_of_action coherent index inside fetched meaning
    rw [position, index] at closer
    obtain ⟨stop, closed, rfl⟩ :=
      (blockEnd_eq_ok_iff (List.getElem?_eq_some_iff.mp role).1).mp closer
    have := (Block.closesAt?_bounds closed).1
    simp only
    omega
  | @close target rest top =>
    have jumps : s.jumps = target :: rest := top
    rw [jumps] at stack
    obtain ⟨b, below, returns, -, around⟩ := List.forall₂_cons_right_iff.mp stack
    have member : b ∈ closedAround lang program k := by
      rw [around]
      exact List.mem_cons_self
    have := lt_of_returnsTo loopless inside member returns
    simp only
    omega

end Steps

section Runs
variable {lang : Language ι E ε} {again : ι → Bool} {plane : Plane P H} {program : Program ι}
variable {limit : Int} {s t : State E P H}

theorem visits_forward (coherent : Coherent lang again)
    (loopless : ∀ i ∈ program.instructions, again i = false)
    (mirrored : Mirrored lang again program s) :
    LeadsForward s.index program.size (visits lang plane program limit s) := by
  fun_induction visits lang plane program limit s with
  | case1 s ended => exact .nil s.index program.size
  | case2 s going ih =>
    have running : s.index < program.size := by
      simp only [Bool.or_eq_true, not_or, State.finished, decide_eq_true_eq] at going
      omega
    split
    · rename_i s' first
      have less := index_lt_of_step coherent loopless mirrored first
      exact .cons less running (ih s' first (mirrored_step coherent mirrored first))
    · exact .cons (Int.lt_succ s.index) running (.nil _ _)

/-- A machine without loops has come at least as far as it has made steps. -/
def Ahead (lang : Language ι E ε) (again : ι → Bool) (program : Program ι) (s : State E P H) :
    Prop :=
  Mirrored lang again program s ∧ (s.steps : Int) ≤ s.index

theorem ahead_step (coherent : Coherent lang again)
    (loopless : ∀ i ∈ program.instructions, again i = false) (s s' : State E P H)
    (ahead : Ahead lang again program s) (success : step lang plane program limit s = .next s') :
    Ahead lang again program s' := by
  obtain ⟨mirrored, steps⟩ := ahead
  have less := index_lt_of_step coherent loopless mirrored success
  have counted := (steps_of_step_eq_next success).1
  exact ⟨mirrored_step coherent mirrored success, by omega⟩

theorem Ahead.index_le (ahead : Ahead lang again program s) : s.index ≤ program.size := by
  obtain ⟨⟨k, index, inside, -⟩, -⟩ := ahead
  have size : (knownRoles lang program).length ≤ program.size :=
    Block.length_known_le lang.role program.instructions
  omega

theorem Ahead.steps_le {ending : Ending E ε P H} (ahead : Ahead lang again program t)
    (ends : EndsAt lang plane program limit t ending) : ending.state.steps ≤ program.size := by
  have inside := ahead.index_le
  have steps := ahead.2
  cases ends with
  | finished ended =>
    rw [Ending.state]
    omega
  | failed running failure =>
    rw [Ending.state, (step_eq_failed failure).state running, State.counted]
    simp only
    omega

theorem Ahead.not_outOfSteps {ending : Ending E ε P H} (ahead : Ahead lang again program t)
    (ends : EndsAt lang plane program limit t ending) (enough : (program.size : Int) ≤ limit) :
    ¬ending.OutOfSteps := by
  intro out
  have steps := ahead.2
  cases ends with
  | finished ended => cases out
  | @failed fault after running failure =>
    cases fault with
    | run error =>
      have spent := (step_eq_failed failure).limit_lt out
      omega
    | noDirection | outside | finished | misuse => cases out

theorem runsForward (coherent : Coherent lang again)
    (loopless : ∀ i ∈ program.instructions, again i = false) :
    RunsForward lang plane program := by
  have mirrored : Mirrored lang again program (start lang plane) := start_mirrored plane
  have init : Ahead lang again program (start lang plane) := ⟨mirrored, Int.le_refl 0⟩
  have forward : ∀ limit, LeadsForward 0 program.size
      (visits lang plane program limit (start lang plane)) :=
    fun _ => visits_forward coherent loopless mirrored
  have kept : ∀ limit, ∃ t, Ahead lang again program t ∧
      EndsAt lang plane program limit t (run lang plane program limit (start lang plane)) :=
    fun limit => exists_kept_endsAt_run (ahead_step coherent loopless) init
  refine ⟨fun limit => (forward limit).increasing, ?_, ?_, ?_⟩
  · intro limit
    have := (forward limit).count
    omega
  · intro limit
    obtain ⟨t, ahead, ends⟩ := kept limit
    exact ahead.steps_le ends
  · intro limit enough
    obtain ⟨t, ahead, ends⟩ := kept limit
    exact ahead.not_outOfSteps ends enough

end Runs

end Machine

/-- A program without loops, of instructions or of trees, balanced or not, executes its instructions
in order and each at most once. So a run makes at most as many steps as there are instructions, and
no limit that allows as many stops it. -/
theorem loopless_runs_forward {P H : Type} (plane : Plane P H) :
    (∀ program : Program Instruction, (∀ i ∈ program.instructions, i.repeats = false) →
      Machine.RunsForward Instruction.language plane program) ∧
    ∀ program : Program Tree, (∀ t ∈ program.instructions, t.repeats = false) →
      Machine.RunsForward Tree.language plane program :=
  ⟨fun _ loopless => Machine.runsForward Instruction.language_coherent loopless,
    fun _ loopless => Machine.runsForward Tree.language_coherent loopless⟩

/-- A skipped block inside an entered one, and an end too many. -/
def gates : List Instruction :=
  [.set "n" (.int 3), .conditional (.compare (.var "n") .gt (.int 1)),
    .conditional (.compare (.var "n") .gt (.int 5)), .lift, .close, .move (.var "n"), .close,
    .close]

theorem gates_run_forward :
    (∀ i ∈ gates, i.repeats = false) ∧
      Machine.RunsForward Instruction.language Plane.doubles ⟨gates, []⟩ := by
  have loopless : ∀ i ∈ gates, i.repeats = false := by decide
  exact ⟨loopless, (loopless_runs_forward Plane.doubles).1 ⟨gates, []⟩ loopless⟩

end TurtleGraphics
