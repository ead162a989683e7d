import Mathlib.Data.List.Forall2
import TurtleGraphics.Proofs.Coherence
import TurtleGraphics.Proofs.KnownRoles
import TurtleGraphics.Proofs.Runs
/-!
The jump stack of a machine mirrors the blocks around its position.

The invariant (`Mirrored`) says that the stack holds one return position for each open block that is
ever closed. It is kept by every step of a machine whose language is coherent. It speaks of the
roles up to the first item without one, beyond which the machine never gets.

The main statement is about every state that calls of `step` can reach, failing calls included: the
stack, read from the bottom, lists the openers of the blocks that enclose the position.
-/
set_option autoImplicit false

namespace TurtleGraphics

namespace Machine

open Block (closesAt? known openAt)

variable {ι E ε P H : Type}

/-- The block opened at `b` encloses the position `index`. -/
def Encloses (lang : Language ι E ε) (program : Program ι) (index : Int) (b : Nat) : Prop :=
  ∃ i stop, program.get? b = some i ∧ lang.role i = .ok .opens ∧
    blockEnd lang program b = .ok stop ∧ b < index ∧ index ≤ stop

/-- The end of the block opened at `b` goes on at `position`: at the opener if the block repeats,
and behind the end if not. -/
def ReturnsTo (lang : Language ι E ε) (again : ι → Bool) (program : Program ι) (b : Nat)
    (position : Int) : Prop :=
  ∃ i stop, program.get? b = some i ∧ blockEnd lang program b = .ok stop ∧
    position = if again i then (b : Int) else stop + 1

section Invariant
variable (lang : Language ι E ε) (again : ι → Bool) (program : Program ι)

/-- The roles of a program up to the first item that has none. -/
def knownRoles : List Block.Role := known lang.role program.instructions

/-- The openers of the blocks around position `k` that are closed at all, the innermost first. -/
def closedAround (k : Nat) : List Nat :=
  (openAt (knownRoles lang program) k).filter fun b =>
    (closesAt? (knownRoles lang program) 0 (b + 1)).isSome

/-- The stack holds where the blocks around the position return to. -/
def Mirrored (s : State E P H) : Prop :=
  ∃ k : Nat, s.index = k ∧ k ≤ (knownRoles lang program).length ∧
    List.Forall₂ (ReturnsTo lang again program) (closedAround lang program k) s.jumps

end Invariant

section Lemmas
variable {lang : Language ι E ε} {again : ι → Bool} {program : Program ι}

theorem blockEnd_eq_ok_iff {b : Nat} {position : Int}
    (inside : b < (knownRoles lang program).length) :
    blockEnd lang program b = .ok position ↔
      ∃ stop : Nat, closesAt? (knownRoles lang program) 0 (b + 1) = some stop ∧
        position = stop := by
  unfold knownRoles at inside ⊢
  rw [← Block.closer_eq_ok_iff inside, blockEnd]
  cases Block.closer lang.role program.instructions b with
  | ok stop => simp
  | error e => cases e <;> simp

/-- Blocks end alike in programs with the same roles. -/
theorem blockEnd_congr {other : Program ι}
    (same : other.instructions.map lang.role = program.instructions.map lang.role) (start : Int) :
    blockEnd lang other start = blockEnd lang program start := by
  rw [blockEnd, blockEnd, Block.closer_congr same]

theorem closedAround_congr {k k' : Nat}
    (same : openAt (knownRoles lang program) k = openAt (knownRoles lang program) k') :
    closedAround lang program k = closedAround lang program k' := by
  rw [closedAround, same, closedAround]

/-- Behind a block the same blocks are open as before it. -/
theorem closedAround_behind {b stop : Nat} (opens : (knownRoles lang program)[b]? = some .opens)
    (closed : closesAt? (knownRoles lang program) 0 (b + 1) = some stop) :
    closedAround lang program (stop + 1) = closedAround lang program b := by
  have behind := (Block.openAt_of_closesAt? closed).2
  rw [Block.openAt_opens opens, List.drop_succ_cons, List.drop_zero] at behind
  exact closedAround_congr behind

variable {s : State E P H} {k : Nat}

/-- An instruction that is no bracket leaves the blocks around it as they are. -/
theorem mirrored_neutral (role : (knownRoles lang program)[k]? = some .neutral)
    (stack : List.Forall₂ (ReturnsTo lang again program) (closedAround lang program k) s.jumps)
    (next : s.index = k + 1) : Mirrored lang again program s := by
  refine ⟨k + 1, by rw [next]; rfl, (List.getElem?_eq_some_iff.mp role).1, ?_⟩
  rwa [closedAround_congr (Block.openAt_neutral role)]

/-- The end of a block takes the innermost opener off the stack, and goes back to it or on behind
the end. -/
theorem exists_opener_of_close {target : Int} {rest : List Int}
    (role : (knownRoles lang program)[k]? = some .closes)
    (stack : List.Forall₂ (ReturnsTo lang again program) (closedAround lang program k)
      (target :: rest)) :
    ∃ b i, Block.OpenBlock (knownRoles lang program) k 0 b ∧
      closesAt? (knownRoles lang program) 0 (b + 1) = some k ∧
      target = (if again i then (b : Int) else k + 1) ∧
      List.Forall₂ (ReturnsTo lang again program) (closedAround lang program b) rest := by
  have bound := (List.getElem?_eq_some_iff.mp role).1
  cases around : openAt (knownRoles lang program) k with
  | nil =>
    rw [closedAround, around] at stack
    cases stack
  | cons b below =>
    -- the innermost block ends here, and what is below it surrounds its opener too
    have block : Block.OpenBlock (knownRoles lang program) k 0 b :=
      Block.openBlock_of_getElem? (by rw [around]; rfl)
    have closer := block.closer
    rw [Block.closesAt?_closes_zero role] at closer
    have before : openAt (knownRoles lang program) b = below := by
      rw [block.below, around, List.drop_succ_cons, List.drop_zero]
    rw [closedAround, around, List.filter_cons_of_pos (by rw [closer]; rfl)] at stack
    cases stack with
    | cons returns stack =>
      obtain ⟨i, stop, -, ends, rfl⟩ := returns
      obtain ⟨stop, found, rfl⟩ := (blockEnd_eq_ok_iff (Nat.lt_trans block.before bound)).mp ends
      obtain rfl : k = stop := Option.some.inj (closer.symm.trans found)
      refine ⟨b, i, block, closer, rfl, ?_⟩
      rwa [closedAround, before]

/-- A closer with an open block goes on where the innermost block returns to. -/
theorem mirrored_close {target : Int} {rest : List Int}
    (role : (knownRoles lang program)[k]? = some .closes)
    (stack : List.Forall₂ (ReturnsTo lang again program) (closedAround lang program k)
      (target :: rest))
    (jumps : s.jumps = rest) (index : s.index = target) : Mirrored lang again program s := by
  have bound := (List.getElem?_eq_some_iff.mp role).1
  obtain ⟨b, i, block, closer, rfl, around⟩ := exists_opener_of_close role stack
  rw [← jumps] at around
  cases repeats : again i with
  | true =>
    exact ⟨b, by rw [index, repeats]; rfl, Nat.le_of_lt (Nat.lt_trans block.before bound), around⟩
  | false =>
    refine ⟨k + 1, by rw [index, repeats]; rfl, bound, ?_⟩
    rwa [closedAround_behind block.opens closer]

/-- The action that an instruction stands for tells its role. -/
theorem role_of_action {i : ι} {action : Action E ε} {env : E} (coherent : Coherent lang again)
    (index : s.index = k) (inside : k ≤ (knownRoles lang program).length)
    (fetched : program.get? s.index = some i) (meaning : lang.action env i = .ok action) :
    (knownRoles lang program)[k]? = some action.role := by
  have item : program.instructions[k]? = some i := by
    rw [← Program.get?_ofNat, ← index, fetched]
  exact Block.known_getElem? inside item (coherent _ _ _ meaning).1

theorem mirrored_step {plane : Plane P H} {limit : Int} {s' : State E P H}
    (coherent : Coherent lang again) (mirrored : Mirrored lang again program s)
    (success : step lang plane program limit s = .next s') : Mirrored lang again program s' := by
  obtain ⟨k, index, inside, stack⟩ := mirrored
  obtain ⟨running, -, i, action, fetched, meaning, performed⟩ := step_eq_next success
  have position : s.counted.index = k := index
  have jumps : s.counted.jumps = s.jumps := rfl
  have role := role_of_action coherent index inside fetched meaning
  have bound := (List.getElem?_eq_some_iff.mp role).1
  cases performed with
  | move | rotate | pen | assign | skip =>
    exact mirrored_neutral role stack (by rw [← position])
  | enter repeats closer =>
    rw [position] at closer
    obtain ⟨stop, found, rfl⟩ := (blockEnd_eq_ok_iff bound).mp closer
    have around : closedAround lang program (k + 1) = k :: closedAround lang program k := by
      rw [closedAround, Block.openAt_opens role, List.filter_cons_of_pos (by rw [found]; rfl),
        closedAround]
    refine ⟨k + 1, by rw [position]; rfl, bound, ?_⟩
    rw [around]
    refine .cons ⟨i, stop, ?_, closer, ?_⟩ stack
    · rw [← index, fetched]
    · rw [(coherent _ _ _ meaning).2 true repeats rfl, position]
  | pass repeats closer =>
    rw [position] at closer
    obtain ⟨stop, found, rfl⟩ := (blockEnd_eq_ok_iff bound).mp closer
    refine ⟨stop + 1, rfl, (Block.closesAt?_bounds found).2, ?_⟩
    rwa [closedAround_behind role found]
  | @close target rest top =>
    rw [jumps] at top
    rw [top] at stack
    exact mirrored_close role stack rfl rfl

theorem start_mirrored (plane : Plane P H) : Mirrored lang again program (start lang plane) :=
  ⟨0, rfl, Nat.zero_le _, .nil⟩

theorem mirrored_of_stepMany {plane : Plane P H} {limit : Int} (coherent : Coherent lang again)
    {n : Nat} (chain : stepMany lang plane program limit n (start lang plane) = .next s) :
    Mirrored lang again program s :=
  stepMany_keeps (fun _ _ => mirrored_step coherent) (start_mirrored plane) chain

end Lemmas

/-- The state of a fresh machine after some calls of `step`, whether they succeed or fail. -/
def afterCalls (lang : Language ι E ε) (plane : Plane P H) (program : Program ι) (limit : Int) :
    Nat → State E P H
  | 0 => start lang plane
  | calls + 1 => (step lang plane program limit (afterCalls lang plane program limit calls)).state

theorem afterCalls_of_stepMany {lang : Language ι E ε} {plane : Plane P H} {program : Program ι}
    {limit : Int} {t : State E P H} {n : Nat}
    (chain : stepMany lang plane program limit n (start lang plane) = .next t) :
    afterCalls lang plane program limit n = t := by
  induction n generalizing t with
  | zero =>
    cases chain
    rfl
  | succ n ih =>
    obtain ⟨u, before, success⟩ := exists_last_of_stepMany chain
    rw [afterCalls, ih before, success, Step.state]

/-- The stack and the position of a machine fit the blocks of its program. -/
structure MirrorsBlocks (lang : Language ι E ε) (again : ι → Bool) (plane : Plane P H)
    (program : Program ι) (limit : Int) (s : State E P H) : Prop where
  index_nonneg : 0 ≤ s.index
  index_le : s.index ≤ program.size
  /-- Read from the bottom, the stack lists the openers around the position. -/
  enclosing : ∃ openers : List Nat, openers.Pairwise (· < ·) ∧
    (∀ b, b ∈ openers ↔ Encloses lang program s.index b) ∧
    List.Forall₂ (ReturnsTo lang again program) openers s.jumps.reverse
  inside : ∀ position ∈ s.jumps, 0 ≤ position ∧ position ≤ program.size
  fetches : ∀ position s', step lang plane program limit s ≠ .failed (.outside position) s'

section Reachable
variable {lang : Language ι E ε} {again : ι → Bool} {plane : Plane P H} {program : Program ι}
variable {limit : Int}

theorem mirrored_afterCalls (coherent : Coherent lang again) (calls : Nat) :
    Mirrored lang again program (afterCalls lang plane program limit calls) := by
  induction calls with
  | zero => exact start_mirrored plane
  | succ calls ih =>
    rw [afterCalls]
    cases outcome : step lang plane program limit (afterCalls lang plane program limit calls) with
    | next s => exact mirrored_step coherent ih outcome
    | failed fault s =>
      -- a failure leaves the stack and the position, whether or not it counts as a step
      rcases state_of_step_eq_failed outcome with rfl | rfl
      · exact ih
      · exact ih

theorem encloses_iff_mem_closedAround {k b : Nat} (inside : k ≤ (knownRoles lang program).length) :
    Encloses lang program k b ↔ b ∈ closedAround lang program k := by
  rw [closedAround, List.mem_filter, Block.mem_openAt_iff]
  constructor
  · rintro ⟨i, position, item, opens, ends, before, within⟩
    have before : b < k := by omega
    rw [Program.get?_ofNat] at item
    have role := Block.known_getElem? (by unfold knownRoles at inside; omega) item opens
    obtain ⟨stop, found, rfl⟩ := (blockEnd_eq_ok_iff (Nat.lt_of_lt_of_le before inside)).mp ends
    refine ⟨⟨before, role, ?_⟩, by rw [found]; rfl⟩
    intro other same
    rw [found] at same
    cases same
    omega
  · rintro ⟨⟨before, role, within⟩, closed⟩
    obtain ⟨stop, found⟩ := Option.isSome_iff_exists.mp closed
    obtain ⟨i, item, opens⟩ := Block.role_of_known role
    have ends := (blockEnd_eq_ok_iff (Nat.lt_of_lt_of_le before inside)).mpr ⟨stop, found, rfl⟩
    have := within stop found
    exact ⟨i, stop, by rw [Program.get?_ofNat, item], opens, ends, by omega, by omega⟩

theorem returnsTo_inside {k : Nat} (inside : k ≤ (knownRoles lang program).length) {b : Nat}
    {position : Int} (member : b ∈ closedAround lang program k)
    (returns : ReturnsTo lang again program b position) :
    0 ≤ position ∧ position ≤ program.size := by
  have size : (knownRoles lang program).length ≤ program.size :=
    Block.length_known_le lang.role program.instructions
  rw [closedAround, List.mem_filter, Block.mem_openAt_iff] at member
  obtain ⟨i, stop, -, ends, rfl⟩ := returns
  obtain ⟨stop, found, rfl⟩ :=
    (blockEnd_eq_ok_iff (Nat.lt_of_lt_of_le member.1.1 inside)).mp ends
  have := (Block.closesAt?_bounds found).2
  cases again i with
  | true => exact ⟨by simp, by simp; omega⟩
  | false => exact ⟨by simp; omega, by simp; omega⟩

/-- The stack of a language that keeps roles and actions together mirrors the blocks. -/
theorem mirrorsBlocks_afterCalls (coherent : Coherent lang again) (calls : Nat) :
    MirrorsBlocks lang again plane program limit
      (afterCalls lang plane program limit calls) := by
  have mirrored : Mirrored lang again program (afterCalls lang plane program limit calls) :=
    mirrored_afterCalls coherent calls
  obtain ⟨k, index, inside, stack⟩ := mirrored
  have size : (knownRoles lang program).length ≤ program.size :=
    Block.length_known_le lang.role program.instructions
  refine ⟨by omega, by omega, ⟨(closedAround lang program k).reverse, ?_, ?_, ?_⟩, ?_, ?_⟩
  · rw [List.pairwise_reverse]
    exact (Block.openAt_pairwise _ k).filter _
  · intro b
    rw [List.mem_reverse, index, encloses_iff_mem_closedAround inside]
  · exact List.forall₂_reverse_iff.mpr stack
  · intro position member
    obtain ⟨n, bound, rfl⟩ := List.mem_iff_getElem.mp member
    have other : n < (closedAround lang program k).length := by rwa [stack.length_eq]
    exact returnsTo_inside inside (List.getElem_mem other) (stack.get other bound)
  · intro position s'
    exact step_ne_outside (by omega)

end Reachable

end Machine

/-- After any calls of `step`, on a program of instructions or of trees, the stack and the position
of the machine fit the blocks of the program. -/
theorem jumps_mirror_blocks {P H : Type} (plane : Plane P H) (limit : Int) (calls : Nat) :
    (∀ program : Program Instruction,
      Machine.MirrorsBlocks Instruction.language Instruction.repeats plane program limit
        (Machine.afterCalls Instruction.language plane program limit calls)) ∧
    ∀ program : Program Tree,
      Machine.MirrorsBlocks Tree.language Tree.repeats plane program limit
        (Machine.afterCalls Tree.language plane program limit calls) :=
  ⟨fun _ => Machine.mirrorsBlocks_afterCalls Instruction.language_coherent calls,
    fun _ => Machine.mirrorsBlocks_afterCalls Tree.language_coherent calls⟩

end TurtleGraphics
