import TurtleGraphics.Block
/-!
The blocks that are open at a position.

`openAt roles k` reads the first `k` roles with a stack: an opener is put on it, a closer takes one
off. `closesAt? roles depth k` is the position that closes the block around which `depth` further
blocks are open at `k`. The two views agree: the block at depth `i` of the stack closes where the
search from its own opener ends, what lies below it is what was open at its opener, and after a
closer the stack is what it was below the block that was closed.
-/
set_option autoImplicit false

namespace TurtleGraphics.Block

/-- The openers of the blocks that are open before position `k`, the innermost first. -/
def openAt (roles : List Role) : Nat → List Nat
  | 0 => []
  | k + 1 =>
    match roles[k]? with
    | some .opens => k :: openAt roles k
    | some .closes => (openAt roles k).tail
    | _ => openAt roles k

/-- The position from `k` on at which the block is closed around which `depth` further blocks are
open. -/
def closesAt? (roles : List Role) (depth k : Nat) : Option Nat :=
  (closerIn? depth (roles.drop k)).map (k + ·)

section Steps
variable {roles : List Role} {k : Nat}

theorem openAt_opens (role : roles[k]? = some .opens) :
    openAt roles (k + 1) = k :: openAt roles k := by
  simp [openAt, role]

theorem openAt_closes (role : roles[k]? = some .closes) :
    openAt roles (k + 1) = (openAt roles k).tail := by
  simp [openAt, role]

theorem openAt_neutral (role : roles[k]? = some .neutral) :
    openAt roles (k + 1) = openAt roles k := by
  simp [openAt, role]

theorem openAt_beyond (role : roles[k]? = none) : openAt roles (k + 1) = openAt roles k := by
  simp [openAt, role]

theorem drop_of_getElem? {r : Role} (role : roles[k]? = some r) :
    roles.drop k = r :: roles.drop (k + 1) := by
  obtain ⟨inside, exact⟩ := List.getElem?_eq_some_iff.mp role
  rw [List.drop_eq_getElem_cons inside, exact]

theorem closesAt?_opens (depth : Nat) (role : roles[k]? = some .opens) :
    closesAt? roles depth k = closesAt? roles (depth + 1) (k + 1) := by
  rw [closesAt?, closesAt?, drop_of_getElem? role, closerIn?, Option.map_map]
  congr 1
  funext j
  simp only [Function.comp_apply]
  omega

theorem closesAt?_closes_zero (role : roles[k]? = some .closes) :
    closesAt? roles 0 k = some k := by
  rw [closesAt?, drop_of_getElem? role, closerIn?]
  rfl

theorem closesAt?_closes_succ (depth : Nat) (role : roles[k]? = some .closes) :
    closesAt? roles (depth + 1) k = closesAt? roles depth (k + 1) := by
  rw [closesAt?, closesAt?, drop_of_getElem? role, closerIn?, Option.map_map]
  congr 1
  funext j
  simp only [Function.comp_apply]
  omega

theorem closesAt?_neutral (depth : Nat) (role : roles[k]? = some .neutral) :
    closesAt? roles depth k = closesAt? roles depth (k + 1) := by
  rw [closesAt?, closesAt?, drop_of_getElem? role]
  cases depth <;>
  · rw [closerIn?, Option.map_map]
    congr 1
    funext j
    simp only [Function.comp_apply]
    omega

theorem closesAt?_beyond (depth : Nat) (role : roles[k]? = none) :
    closesAt? roles depth k = none := by
  rw [closesAt?, List.drop_eq_nil_of_le (List.getElem?_eq_none_iff.mp role)]
  cases depth <;> rfl

end Steps

theorem closesAt?_bounds {roles : List Role} {depth k stop : Nat}
    (found : closesAt? roles depth k = some stop) : k ≤ stop ∧ stop < roles.length := by
  obtain ⟨j, inside, rfl⟩ := Option.map_eq_some_iff.mp found
  have := closerIn?_lt inside
  rw [List.length_drop] at this
  omega

/-- The position that closes a block is a closer, and after it the stack is what it was below that
block. -/
theorem openAt_of_closesAt? {roles : List Role} {depth k stop : Nat}
    (found : closesAt? roles depth k = some stop) :
    roles[stop]? = some .closes ∧ openAt roles (stop + 1) = (openAt roles k).drop (depth + 1) := by
  -- the distance to the end of the roles shrinks while the depth goes up and down
  induction distance : roles.length - k generalizing depth k with
  | zero =>
    have := closesAt?_bounds found
    omega
  | succ left ih =>
    have shorter : roles.length - (k + 1) = left := by omega
    cases role : roles[k]? with
    | none =>
      rw [closesAt?_beyond depth role] at found
      cases found
    | some r =>
      cases r with
      | opens =>
        rw [closesAt?_opens depth role] at found
        have closed := ih found shorter
        rwa [openAt_opens role, List.drop_succ_cons] at closed
      | closes =>
        cases depth with
        | zero =>
          rw [closesAt?_closes_zero role] at found
          cases found
          exact ⟨role, by rw [openAt_closes role, List.drop_one]⟩
        | succ depth =>
          rw [closesAt?_closes_succ depth role] at found
          have closed := ih found shorter
          rwa [openAt_closes role, List.drop_tail] at closed
      | neutral =>
        rw [closesAt?_neutral depth role] at found
        have closed := ih found shorter
        rwa [openAt_neutral role] at closed

/-- What is known of the block at depth `i` of the stack before `k`, opened at `b`. -/
structure OpenBlock (roles : List Role) (k i b : Nat) : Prop where
  before : b < k
  opens : roles[b]? = some .opens
  closer : closesAt? roles 0 (b + 1) = closesAt? roles i k
  below : openAt roles b = (openAt roles k).drop (i + 1)

theorem openBlock_of_getElem? {roles : List Role} {k i b : Nat}
    (member : (openAt roles k)[i]? = some b) : OpenBlock roles k i b := by
  induction k generalizing i with
  | zero => simp [openAt] at member
  | succ k ih =>
    cases role : roles[k]? with
    | none =>
      rw [openAt_beyond role] at member
      have block := ih member
      have closer : closesAt? roles i (k + 1) = none := by
        apply closesAt?_beyond
        rw [List.getElem?_eq_none_iff] at role ⊢
        omega
      refine ⟨Nat.lt_succ_of_lt block.before, block.opens, ?_, ?_⟩
      · rw [block.closer, closer, closesAt?_beyond i role]
      · rw [block.below, openAt_beyond role]
    | some r =>
      cases r with
      | opens =>
        rw [openAt_opens role] at member
        cases i with
        | zero =>
          obtain rfl : k = b := by simpa using member
          exact ⟨Nat.lt_succ_self k, role, rfl, by rw [openAt_opens role]; rfl⟩
        | succ i =>
          have block := ih (by simpa using member)
          refine ⟨Nat.lt_succ_of_lt block.before, block.opens, ?_, ?_⟩
          · rw [block.closer, closesAt?_opens i role]
          · rw [block.below, openAt_opens role, List.drop_succ_cons]
      | closes =>
        rw [openAt_closes role, List.getElem?_tail] at member
        have block := ih member
        refine ⟨Nat.lt_succ_of_lt block.before, block.opens, ?_, ?_⟩
        · rw [block.closer, closesAt?_closes_succ i role]
        · rw [block.below, openAt_closes role, List.drop_tail]
      | neutral =>
        rw [openAt_neutral role] at member
        have block := ih member
        refine ⟨Nat.lt_succ_of_lt block.before, block.opens, ?_, ?_⟩
        · rw [block.closer, closesAt?_neutral i role]
        · rw [block.below, openAt_neutral role]

/-- A block is open at `k` if it was opened before and is not closed before. -/
theorem mem_openAt_iff {roles : List Role} {k b : Nat} :
    b ∈ openAt roles k ↔
      b < k ∧ roles[b]? = some .opens ∧
        ∀ stop, closesAt? roles 0 (b + 1) = some stop → k ≤ stop := by
  constructor
  · intro member
    obtain ⟨i, located⟩ := List.mem_iff_getElem?.mp member
    have block := openBlock_of_getElem? located
    refine ⟨block.before, block.opens, ?_⟩
    intro stop found
    rw [block.closer] at found
    exact (closesAt?_bounds found).1
  · intro h
    induction k with
    | zero => exact absurd h.1 (Nat.not_lt_zero b)
    | succ k ih =>
      obtain ⟨before, opens, open'⟩ := h
      by_cases last : b = k
      · subst last
        rw [openAt_opens opens]
        exact List.mem_cons_self
      have earlier : b ∈ openAt roles k :=
        ih ⟨by omega, opens, fun stop found => Nat.le_of_succ_le (open' stop found)⟩
      cases role : roles[k]? with
      | none => rwa [openAt_beyond role]
      | some r =>
        cases r with
        | opens =>
          rw [openAt_opens role]
          exact List.mem_cons_of_mem k earlier
        | closes =>
          -- only the innermost block is closed here, and `b` is not yet closed
          obtain ⟨i, located⟩ := List.mem_iff_getElem?.mp earlier
          cases i with
          | zero =>
            have closer := (openBlock_of_getElem? located).closer
            rw [closesAt?_closes_zero role] at closer
            have := open' k closer
            omega
          | succ i =>
            rw [openAt_closes role]
            rw [← List.getElem?_tail] at located
            exact List.mem_of_getElem? located
        | neutral => rwa [openAt_neutral role]

/-- Inner blocks are opened later than the blocks around them. -/
theorem openAt_pairwise (roles : List Role) (k : Nat) : (openAt roles k).Pairwise (· > ·) := by
  induction k with
  | zero => exact List.Pairwise.nil
  | succ k ih =>
    cases role : roles[k]? with
    | none => rwa [openAt_beyond role]
    | some r =>
      cases r with
      | opens =>
        rw [openAt_opens role]
        exact List.pairwise_cons.mpr ⟨fun b member => (mem_openAt_iff.mp member).1, ih⟩
      | closes =>
        rw [openAt_closes role]
        exact ih.tail
      | neutral => rwa [openAt_neutral role]

end TurtleGraphics.Block
