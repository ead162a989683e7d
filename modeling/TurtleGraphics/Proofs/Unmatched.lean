import TurtleGraphics.Proofs.KnownRoles
import TurtleGraphics.Proofs.Routine
/-!
Brackets without a partner.

Reading a list of roles with a stack, a closer is unmatched if it finds no block open, and an opener
if its block is still open at the end. The roles are balanced exactly if nothing in them is
unmatched. Nothing between an opener and the closer of its block is unmatched, so a jump over a
closed block, or back to where it begins, passes no such position.
-/
set_option autoImplicit false

namespace TurtleGraphics.Block

/-- A closer at `k` finds no block open, or the block opened at `k` is never closed. -/
def Unmatched (roles : List Role) (k : Nat) : Prop :=
  (roles[k]? = some .closes ∧ openAt roles k = []) ∨ k ∈ openAt roles roles.length

def FirstUnmatched (roles : List Role) (k : Nat) : Prop :=
  Unmatched roles k ∧ ∀ j < k, ¬Unmatched roles j

instance (roles : List Role) (k : Nat) : Decidable (Unmatched roles k) :=
  inferInstanceAs (Decidable (_ ∨ _))

instance (roles : List Role) (k : Nat) : Decidable (FirstUnmatched roles k) :=
  inferInstanceAs (Decidable (_ ∧ _))

variable {roles : List Role} {k : Nat}

theorem lt_length_of_unmatched (unmatched : Unmatched roles k) : k < roles.length := by
  rcases unmatched with ⟨role, -⟩ | member
  · exact (List.getElem?_eq_some_iff.mp role).1
  · exact (mem_openAt_iff.mp member).1

/-- A block that is open at `m` is open wherever it was between. -/
theorem mem_openAt_of_le {b m : Nat} (member : b ∈ openAt roles m) (before : b < k) (le : k ≤ m) :
    b ∈ openAt roles k := by
  obtain ⟨-, opens, late⟩ := mem_openAt_iff.mp member
  exact mem_openAt_iff.mpr ⟨before, opens, fun stop found => Nat.le_trans le (late stop found)⟩

theorem not_unmatched_of_neutral (role : roles[k]? = some .neutral) : ¬Unmatched roles k := by
  rintro (⟨closes, -⟩ | member)
  · rw [role] at closes
    cases closes
  · obtain ⟨-, opens, -⟩ := mem_openAt_iff.mp member
    rw [role] at opens
    cases opens

theorem not_unmatched_inside {b j stop : Nat} (opens : roles[b]? = some .opens)
    (closed : closesAt? roles 0 (b + 1) = some stop) (from' : b ≤ j) (upto : j ≤ stop) :
    ¬Unmatched roles j := by
  have bounds := closesAt?_bounds closed
  rintro (⟨closes, empty⟩ | member)
  · have inside : b < j := by
      rcases Nat.lt_or_eq_of_le from' with less | rfl
      · exact less
      · rw [opens] at closes
        cases closes
    have around : b ∈ openAt roles j := by
      refine mem_openAt_iff.mpr ⟨inside, opens, ?_⟩
      intro other found
      rw [closed] at found
      cases found
      exact upto
    rw [empty] at around
    cases around
  · -- what is open behind the closer was opened before the block
    have behind : j ∈ openAt roles (stop + 1) := mem_openAt_of_le member (by omega) bounds.2
    rw [(openAt_of_closesAt? closed).2, openAt_opens opens, List.drop_succ_cons,
      List.drop_zero] at behind
    have := (mem_openAt_iff.mp behind).1
    omega

theorem unmatched_of_never_closed (opens : roles[k]? = some .opens)
    (never : closesAt? roles 0 (k + 1) = none) : Unmatched roles k := by
  refine Or.inr (mem_openAt_iff.mpr ⟨(List.getElem?_eq_some_iff.mp opens).1, opens, ?_⟩)
  intro stop found
  rw [never] at found
  cases found

theorem exists_closesAt?_of_matched {b : Nat} (opens : roles[b]? = some .opens)
    (matched : ¬Unmatched roles b) : ∃ stop, closesAt? roles 0 (b + 1) = some stop := by
  cases found : closesAt? roles 0 (b + 1) with
  | some stop => exact ⟨stop, rfl⟩
  | none => exact absurd (unmatched_of_never_closed opens found) matched

/-- Counting from `k` on succeeds if no closer from there on is unmatched, and comes to the number
of blocks that are open at the end. -/
theorem depthAfter?_eq_some_iff (inside : k ≤ roles.length) {depth : Nat} :
    depthAfter? (openAt roles k).length (roles.drop k) = some depth ↔
      (∀ j, k ≤ j → roles[j]? = some .closes → openAt roles j ≠ []) ∧
        depth = (openAt roles roles.length).length := by
  -- on the number of roles that are left, with the depth at which the rest begins
  induction distance : roles.length - k generalizing k with
  | zero =>
    obtain rfl : k = roles.length := by omega
    rw [List.drop_length, depthAfter?, Option.some.injEq]
    constructor
    · intro same
      refine ⟨?_, same.symm⟩
      intro j beyond closes
      have := (List.getElem?_eq_some_iff.mp closes).1
      omega
    · exact fun h => h.2.symm
  | succ left ih =>
    have bound : k < roles.length := by omega
    have role : roles[k]? = some roles[k] := List.getElem?_eq_getElem bound
    have later := ih (k := k + 1) bound (by omega)
    have split : (∀ j, k ≤ j → roles[j]? = some .closes → openAt roles j ≠ []) ↔
        (roles[k]? = some .closes → openAt roles k ≠ []) ∧
          ∀ j, k + 1 ≤ j → roles[j]? = some .closes → openAt roles j ≠ [] := by
      constructor
      · exact fun h => ⟨h k (Nat.le_refl k), fun j le => h j (Nat.le_of_succ_le le)⟩
      · rintro ⟨here, rest⟩ j le
        rcases Nat.lt_or_eq_of_le le with less | rfl
        · exact rest j less
        · exact here
    rw [drop_of_getElem? role, split]
    cases own : roles[k] with
    | opens =>
      rw [own] at role
      rw [openAt_opens role, List.length_cons] at later
      rw [depthAfter?, later, role]
      simp
    | closes =>
      rw [own] at role
      cases around : openAt roles k with
      | nil => simp [depthAfter?, role]
      | cons b below =>
        rw [openAt_closes role, around, List.tail_cons] at later
        rw [List.length_cons, depthAfter?, later]
        simp
    | neutral =>
      rw [own] at role
      rw [openAt_neutral role] at later
      rw [depthAfter?, later, role]
      simp

theorem balanced_iff : Balanced roles ↔ ∀ k, ¬Unmatched roles k := by
  have count := @depthAfter?_eq_some_iff roles 0 (Nat.zero_le _) 0
  rw [openAt, List.length_nil, List.drop_zero] at count
  rw [Balanced, count]
  constructor
  · rintro ⟨found, none⟩ k (⟨closes, empty⟩ | member)
    · exact found k (Nat.zero_le k) closes empty
    · rw [List.length_eq_zero_iff.mp none.symm] at member
      cases member
  · intro matched
    refine ⟨fun j _ closes empty => matched j (Or.inl ⟨closes, empty⟩), ?_⟩
    have nothing : openAt roles roles.length = [] :=
      List.eq_nil_iff_forall_not_mem.mpr fun b member => matched b (Or.inr member)
    rw [nothing, List.length_nil]

theorem not_balanced_of_unmatched (unmatched : Unmatched roles k) : ¬Balanced roles :=
  fun balanced => balanced_iff.mp balanced k unmatched

section Extension
variable {more : List Role}

theorem openAt_of_front (front : roles <+: more) (inside : k ≤ roles.length) :
    openAt more k = openAt roles k := by
  induction k with
  | zero => rfl
  | succ k ih =>
    have same : more[k]? = roles[k]? := by
      obtain ⟨rest, rfl⟩ := front
      exact List.getElem?_append_left inside
    rw [openAt, openAt, same, ih (Nat.le_of_succ_le inside)]

/-- A closer that finds no block open among the first roles finds none among more, and if it is the
first bracket without a partner there, it stays the first. -/
theorem firstUnmatched_of_front (front : roles <+: more) (closes : roles[k]? = some .closes)
    (empty : openAt roles k = []) (least : ∀ j < k, ¬Unmatched roles j) :
    FirstUnmatched more k := by
  have bound := (List.getElem?_eq_some_iff.mp closes).1
  have size := front.length_le
  have same : ∀ j < roles.length, more[j]? = roles[j]? := by
    obtain ⟨rest, rfl⟩ := front
    exact fun j inside => List.getElem?_append_left inside
  have here : openAt more k = [] := by rw [openAt_of_front front (Nat.le_of_lt bound), empty]
  refine ⟨Or.inl ⟨by rw [same k bound, closes], here⟩, ?_⟩
  rintro j before (⟨role, none⟩ | member)
  · rw [same j (by omega)] at role
    rw [openAt_of_front front (by omega)] at none
    exact least j before (Or.inl ⟨role, none⟩)
  · have := mem_openAt_of_le member before (by omega)
    rw [here] at this
    cases this

end Extension

section Items
variable {α ε : Type} {role : α → Except ε Role} {items : List α}

/-- The roles of all items, where one without a role is no bracket. -/
def rolesOf (role : α → Except ε Role) (items : List α) : List Role :=
  items.map fun a =>
    match role a with
    | .ok r => r
    | .error _ => .neutral

theorem known_front (role : α → Except ε Role) (items : List α) :
    known role items <+: rolesOf role items := by
  induction items with
  | nil => exact List.prefix_refl _
  | cons a rest ih =>
    rw [known, rolesOf, List.map_cons]
    cases role a with
    | ok r => exact List.cons_prefix_cons.mpr ⟨rfl, ih⟩
    | error e => exact List.nil_prefix

theorem rolesOf_eq_known (all : (known role items).length = items.length) :
    rolesOf role items = known role items := by
  refine ((known_front role items).eq_of_length ?_).symm
  rw [all, rolesOf, List.length_map]

theorem length_known_of_obstacle? (clear : obstacle? role items = none) :
    (known role items).length = items.length := by
  induction items with
  | nil => rfl
  | cons a rest ih =>
    rw [obstacle?] at clear
    rw [known]
    cases own : role a with
    | ok r =>
      rw [own] at clear
      rw [List.length_cons, List.length_cons, ih clear]
    | error e =>
      rw [own] at clear
      cases clear

/-- A search that finds a block unclosed has seen the roles of all items behind its opener. -/
theorem closer_eq_unclosed {b : Nat} (inside : b < (known role items).length)
    (failure : closer role items b = .error .unclosed) :
    (known role items).length = items.length ∧ closesAt? (known role items) 0 (b + 1) = none := by
  have start : (0 : Int) ≤ (b : Int) + 1 := by omega
  have first : ((b : Int) + 1).toNat = b + 1 := by omega
  simp only [closer, itemsFrom?, start, if_true, first] at failure
  cases found : closerIn? 0 (known role (items.drop (b + 1))) with
  | some j => simp [found] at failure
  | none =>
    rw [found] at failure
    cases clear : obstacle? role (items.drop (b + 1)) with
    | some reason => simp [clear] at failure
    | none =>
      have rest := length_known_of_obstacle? clear
      rw [known_drop inside] at rest found
      rw [closesAt?, found]
      rw [List.length_drop, List.length_drop] at rest
      have := length_known_le role items
      exact ⟨by omega, rfl⟩

end Items

end TurtleGraphics.Block
