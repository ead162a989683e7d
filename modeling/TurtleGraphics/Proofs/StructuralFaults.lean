import TurtleGraphics.Proofs.JumpStack
import TurtleGraphics.Proofs.Runs
import TurtleGraphics.Proofs.Unmatched
/-!
A run finds out whether the brackets of its program are balanced.

Blocks are only looked at when a run comes to them. Still, no run gets past a bracket without a
partner: every position before that of the machine has one (`Paired`), which each step keeps, because
a jump leads to an end of a closed block. So a run that ends well has seen a balanced program, and an
error of structure is met exactly at the first bracket without a partner.
-/
set_option autoImplicit false

namespace TurtleGraphics

namespace Machine

open Block (Balanced FirstUnmatched Unmatched closesAt? openAt rolesOf)

variable {ι E ε P H : Type}

/-- The roles of the items of a program, where one without a role is no bracket. -/
def roles (lang : Language ι E ε) (program : Program ι) : List Block.Role :=
  rolesOf lang.role program.instructions

/-- What the ending of a run tells of the brackets of a program with these roles. -/
structure Ending.Accounts (roles : List Block.Role) (e : Ending E ε P H) : Prop where
  finished : ∀ s, e = .finished s → Balanced roles ∧ s.jumps = []
  structural : ∀ (error : RunError) s, e = .failed (.run error) s →
    error.cause.kind = .structural →
      ¬Balanced roles ∧ ∃ k : Nat, FirstUnmatched roles k ∧ error.line = some ((k : Int) + 1)

/-- No position before that of the machine holds a bracket without a partner. -/
def Paired (lang : Language ι E ε) (program : Program ι) (s : State E P H) : Prop :=
  ∃ k : Nat, s.index = k ∧ ∀ j < k, ¬Unmatched (knownRoles lang program) j

section Invariant
variable {lang : Language ι E ε} {again : ι → Bool} {plane : Plane P H} {program : Program ι}
variable {limit : Int} {s s' : State E P H} {k : Nat}

theorem paired_start (plane : Plane P H) : Paired lang program (start lang plane) :=
  ⟨0, rfl, fun j before => absurd before (Nat.not_lt_zero j)⟩

theorem exists_position (mirrored : Mirrored lang again program s)
    (paired : Paired lang program s) :
    ∃ k : Nat, s.index = k ∧ k ≤ (knownRoles lang program).length ∧
      List.Forall₂ (ReturnsTo lang again program) (closedAround lang program k) s.jumps ∧
      ∀ j < k, ¬Unmatched (knownRoles lang program) j := by
  obtain ⟨k, index, inside, stack⟩ := mirrored
  obtain ⟨same, index', paired⟩ := paired
  obtain rfl : k = same := by omega
  exact ⟨k, index, inside, stack, paired⟩

theorem paired_advance (paired : ∀ j < k, ¬Unmatched (knownRoles lang program) j)
    (here : ¬Unmatched (knownRoles lang program) k) (next : s.index = k + 1) :
    Paired lang program s := by
  refine ⟨k + 1, by rw [next]; rfl, ?_⟩
  intro j before
  rcases Nat.lt_succ_iff_lt_or_eq.mp before with earlier | rfl
  · exact paired j earlier
  · exact here

/-- Behind a closed block everything has a partner if everything before its opener has. -/
theorem matched_behind {b stop : Nat} (opens : (knownRoles lang program)[b]? = some .opens)
    (closed : closesAt? (knownRoles lang program) 0 (b + 1) = some stop)
    (paired : ∀ j < b, ¬Unmatched (knownRoles lang program) j) :
    ∀ j < stop + 1, ¬Unmatched (knownRoles lang program) j := by
  intro j before
  by_cases earlier : j < b
  · exact paired j earlier
  · exact Block.not_unmatched_inside opens closed (by omega) (by omega)

/-- The end of a block leads to a place before which everything has a partner. -/
theorem paired_close {target : Int} {rest : List Int}
    (inside : k ≤ (knownRoles lang program).length)
    (stack : List.Forall₂ (ReturnsTo lang again program) (closedAround lang program k)
      (target :: rest))
    (paired : ∀ j < k, ¬Unmatched (knownRoles lang program) j) (index : s.index = target) :
    Paired lang program s := by
  cases around : closedAround lang program k with
  | nil =>
    rw [around] at stack
    cases stack
  | cons b below =>
    have member : b ∈ closedAround lang program k := by
      rw [around]
      exact List.mem_cons_self
    rw [closedAround, List.mem_filter, Block.mem_openAt_iff] at member
    obtain ⟨⟨before, opens, -⟩, -⟩ := member
    have earlier : ∀ j < b, ¬Unmatched (knownRoles lang program) j :=
      fun j less => paired j (Nat.lt_trans less before)
    rw [around] at stack
    cases stack with
    | cons returns _ =>
      -- the way leads back to the opener, or behind the end of its block
      obtain ⟨i, stop, -, ends, rfl⟩ := returns
      obtain ⟨stop, closed, rfl⟩ :=
        (blockEnd_eq_ok_iff (Nat.lt_of_lt_of_le before inside)).mp ends
      cases repeats : again i with
      | true => exact ⟨b, by rw [index, repeats]; rfl, earlier⟩
      | false => exact ⟨stop + 1, by rw [index, repeats]; rfl, matched_behind opens closed earlier⟩

theorem paired_step (coherent : Coherent lang again) (mirrored : Mirrored lang again program s)
    (paired : Paired lang program s) (success : step lang plane program limit s = .next s') :
    Paired lang program s' := by
  obtain ⟨k, index, inside, stack, paired⟩ := exists_position mirrored paired
  obtain ⟨-, -, i, action, fetched, meaning, performed⟩ := step_eq_next success
  have position : s.counted.index = k := index
  have role := role_of_action coherent index inside fetched meaning
  have bound := (List.getElem?_eq_some_iff.mp role).1
  cases performed with
  | move | rotate | pen | assign | skip =>
    exact paired_advance paired (Block.not_unmatched_of_neutral role) (by rw [← position])
  | enter repeats closer =>
    rw [position] at closer
    obtain ⟨stop, closed, rfl⟩ := (blockEnd_eq_ok_iff bound).mp closer
    have here := Block.not_unmatched_inside role closed (Nat.le_refl k)
      (Nat.le_of_succ_le (Block.closesAt?_bounds closed).1)
    exact paired_advance paired here (by rw [← position])
  | pass repeats closer =>
    rw [position] at closer
    obtain ⟨stop, closed, rfl⟩ := (blockEnd_eq_ok_iff bound).mp closer
    exact ⟨stop + 1, rfl, matched_behind role closed paired⟩
  | @close target rest top =>
    have jumps : s.jumps = target :: rest := top
    rw [jumps] at stack
    exact paired_close inside stack paired rfl

end Invariant

section Endings
variable {lang : Language ι E ε} {again : ι → Bool} {plane : Plane P H} {program : Program ι}
variable {limit : Int} {s s' : State E P H}

theorem balanced_of_ended (mirrored : Mirrored lang again program s)
    (paired : Paired lang program s) (ended : program.size ≤ s.index) :
    Balanced (roles lang program) ∧ s.jumps = [] := by
  obtain ⟨k, index, inside, stack, paired⟩ := exists_position mirrored paired
  have size : (knownRoles lang program).length ≤ program.size :=
    Block.length_known_le lang.role program.instructions
  have all : (knownRoles lang program).length = program.instructions.length := by
    unfold Program.size at ended size
    omega
  have matched : ∀ j, ¬Unmatched (knownRoles lang program) j := by
    intro j unmatched
    have bound := Block.lt_length_of_unmatched unmatched
    exact paired j (by unfold Program.size at ended; omega) unmatched
  refine ⟨?_, ?_⟩
  · rw [roles, Block.rolesOf_eq_known all]
    exact Block.balanced_iff.mpr matched
  · obtain rfl : k = (knownRoles lang program).length := by
      unfold Program.size at ended
      omega
    have nothing : openAt (knownRoles lang program) (knownRoles lang program).length = [] :=
      List.eq_nil_iff_forall_not_mem.mpr fun b member => matched b (Or.inr member)
    rw [closedAround, nothing] at stack
    exact List.forall₂_nil_left_iff.mp stack

theorem firstUnmatched_of_strayClose {k : Nat}
    (stack : List.Forall₂ (ReturnsTo lang again program) (closedAround lang program k) s.jumps)
    (paired : ∀ j < k, ¬Unmatched (knownRoles lang program) j)
    (role : (knownRoles lang program)[k]? = some .closes) (empty : s.jumps = []) :
    FirstUnmatched (roles lang program) k := by
  rw [empty] at stack
  have around : closedAround lang program k = [] := List.forall₂_nil_right_iff.mp stack
  -- an open block would be closed somewhere, as its opener has a partner, and so be on the stack
  have nothing : openAt (knownRoles lang program) k = [] := by
    rw [List.eq_nil_iff_forall_not_mem]
    intro b member
    obtain ⟨before, opens, -⟩ := Block.mem_openAt_iff.mp member
    obtain ⟨stop, closed⟩ := Block.exists_closesAt?_of_matched opens (paired b before)
    have closedMember : b ∈ closedAround lang program k :=
      List.mem_filter.mpr ⟨member, by rw [closed]; rfl⟩
    rw [around] at closedMember
    cases closedMember
  exact Block.firstUnmatched_of_front (Block.known_front lang.role program.instructions) role
    nothing paired

theorem firstUnmatched_of_unclosed {k : Nat}
    (paired : ∀ j < k, ¬Unmatched (knownRoles lang program) j)
    (role : (knownRoles lang program)[k]? = some .opens)
    (failure : Block.closer lang.role program.instructions k = .error .unclosed) :
    FirstUnmatched (roles lang program) k := by
  obtain ⟨all, never⟩ :=
    Block.closer_eq_unclosed (List.getElem?_eq_some_iff.mp role).1 failure
  rw [roles, Block.rolesOf_eq_known all]
  exact ⟨Block.unmatched_of_never_closed role never, paired⟩

/-- An error of structure is met at the first bracket without a partner. -/
theorem firstUnmatched_of_structural {error : RunError} (coherent : Coherent lang again)
    (mirrored : Mirrored lang again program s) (paired : Paired lang program s)
    (failure : step lang plane program limit s = .failed (.run error) s')
    (kind : error.cause.kind = .structural) :
    ∃ k : Nat, FirstUnmatched (roles lang program) k ∧ error.line = some ((k : Int) + 1) := by
  obtain ⟨k, index, inside, stack, paired⟩ := exists_position mirrored paired
  have fails := step_eq_failed failure
  refine ⟨k, ?_, by rw [fails.names_line, index]⟩
  obtain ⟨i, action, fetched, meaning, reason⟩ := fails.structural kind
  have role := role_of_action coherent index inside fetched meaning
  rcases reason with ⟨rfl, empty⟩ | ⟨⟨holds, repeats, rfl⟩, unclosed⟩
  · exact firstUnmatched_of_strayClose stack paired role empty
  · rw [index] at unclosed
    exact firstUnmatched_of_unclosed paired role unclosed

theorem accounts_run (coherent : Coherent lang again) (plane : Plane P H) (program : Program ι)
    (limit : Int) :
    (run lang plane program limit (start lang plane)).Accounts (roles lang program) := by
  have keeps : ∀ s s' : State E P H,
      (Mirrored lang again program s ∧ Paired lang program s) →
        step lang plane program limit s = .next s' →
          Mirrored lang again program s' ∧ Paired lang program s' := by
    rintro s s' ⟨mirrored, paired⟩ success
    exact ⟨mirrored_step coherent mirrored success, paired_step coherent mirrored paired success⟩
  obtain ⟨t, ⟨mirrored, paired⟩, ends⟩ :=
    exists_kept_endsAt_run keeps ⟨start_mirrored plane, paired_start plane⟩
  generalize run lang plane program limit (start lang plane) = ending at ends
  cases ends with
  | finished ended =>
    refine ⟨?_, nofun⟩
    intro s same
    cases same
    exact balanced_of_ended mirrored paired ended
  | failed running failure =>
    refine ⟨nofun, ?_⟩
    intro error s same kind
    cases same
    obtain ⟨k, first, line⟩ :=
      firstUnmatched_of_structural coherent mirrored paired failure kind
    exact ⟨Block.not_balanced_of_unmatched first.1, k, first, line⟩

end Endings

end Machine

/-- The run of a program, of instructions or of trees, ends well only if its brackets are balanced,
and then with an empty stack. It fails with an error of structure only if they are not, and names
the line of the first bracket without a partner. -/
theorem structural_errors_name_first_unmatched {P H : Type} (plane : Plane P H) (limit : Int) :
    (∀ program : Program Instruction,
      (Machine.run Instruction.language plane program limit
        (Machine.start Instruction.language plane)).Accounts
          (program.instructions.map Instruction.role)) ∧
    ∀ program : Program Tree,
      (Machine.run Tree.language plane program limit
        (Machine.start Tree.language plane)).Accounts (Machine.roles Tree.language program) :=
  ⟨fun program => Machine.accounts_run Instruction.language_coherent plane program limit,
    fun program => Machine.accounts_run Tree.language_coherent plane program limit⟩

end TurtleGraphics
