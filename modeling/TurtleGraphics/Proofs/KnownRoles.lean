import TurtleGraphics.Proofs.OpenBlocks
/-!
The roles of a list of items up to the first item that has none.

The search for a closer never gets beyond them, so for a block that is opened among them it is the
search on the roles alone. It ends alike on all items with the same roles.
-/
set_option autoImplicit false

namespace TurtleGraphics.Block

variable {α ε : Type} {role : α → Except ε Role} {items : List α}

theorem length_known_le (role : α → Except ε Role) (items : List α) :
    (known role items).length ≤ items.length := by
  induction items with
  | nil => exact Nat.le_refl 0
  | cons a rest ih =>
    rw [known]
    cases role a with
    | ok r => exact Nat.succ_le_succ ih
    | error e => exact Nat.zero_le _

theorem known_drop {n : Nat} (inside : n ≤ (known role items).length) :
    known role (items.drop n) = (known role items).drop n := by
  induction n generalizing items with
  | zero => rfl
  | succ n ih =>
    cases items with
    | nil => simp [known] at inside
    | cons a rest =>
      rw [known] at inside ⊢
      cases found : role a with
      | ok r =>
        rw [found] at inside
        exact ih (Nat.le_of_succ_le_succ inside)
      | error e =>
        rw [found] at inside
        exact absurd inside (Nat.not_succ_le_zero n)

/-- The first position that is not known has no role. -/
theorem known_getElem? {k : Nat} {a : α} {r : Role} (inside : k ≤ (known role items).length)
    (item : items[k]? = some a) (found : role a = .ok r) : (known role items)[k]? = some r := by
  have here := known_drop inside
  have head : items.drop k = a :: items.drop (k + 1) := by
    obtain ⟨bound, exact⟩ := List.getElem?_eq_some_iff.mp item
    rw [List.drop_eq_getElem_cons bound, exact]
  rw [head, known, found] at here
  rw [← Nat.add_zero k, ← List.getElem?_drop, ← here]
  rfl

theorem role_of_known {k : Nat} {r : Role} (found : (known role items)[k]? = some r) :
    ∃ a, items[k]? = some a ∧ role a = .ok r := by
  obtain ⟨bound, _⟩ := List.getElem?_eq_some_iff.mp found
  have inside : k < items.length := Nat.lt_of_lt_of_le bound (length_known_le role items)
  have here := known_drop (Nat.le_of_lt bound)
  rw [drop_of_getElem? found, List.drop_eq_getElem_cons inside, known] at here
  cases own : role items[k] with
  | ok s =>
    rw [own] at here
    obtain rfl : s = r := (List.cons.inj here).1
    exact ⟨items[k], List.getElem?_eq_getElem inside, own⟩
  | error e =>
    rw [own] at here
    cases here

theorem closerIn?_neutral (depth : Nat) (roles : List Role) :
    closerIn? depth (.neutral :: roles) = (closerIn? depth roles).map (· + 1) := by
  cases depth <;> rfl

/-- The search for a closer begins behind the opener. -/
theorem closer_eq_drop (items : List α) (b : Nat) :
    closer role items b =
      match closerIn? 0 (known role (items.drop (b + 1))) with
      | some n => .ok (b + 1 + n)
      | none =>
        match obstacle? role (items.drop (b + 1)) with
        | some reason => .error (.noRole reason)
        | none => .error .unclosed := by
  have start : (0 : Int) ≤ (b : Int) + 1 := by omega
  have first : ((b : Int) + 1).toNat = b + 1 := by omega
  have rest : itemsFrom? items (b + 1) = some (items.drop (b + 1)) := by
    rw [itemsFrom?, if_pos start, first]
  cases found : closerIn? 0 (known role (items.drop (b + 1))) with
  | some n => simp only [closer, rest, found]
  | none =>
    cases stopped : obstacle? role (items.drop (b + 1)) <;> simp only [closer, rest, found, stopped]

/-- The search for a closer among the positions with a role. -/
theorem closer_eq_ok_iff {b : Nat} {position : Int} (inside : b < (known role items).length) :
    closer role items b = .ok position ↔
      ∃ stop : Nat, closesAt? (known role items) 0 (b + 1) = some stop ∧ position = stop := by
  rw [closer_eq_drop, known_drop inside, closesAt?]
  cases closerIn? 0 ((known role items).drop (b + 1)) with
  | none =>
    constructor
    · intro found
      cases reason : obstacle? role (items.drop (b + 1)) <;> simp [reason] at found
    · rintro ⟨stop, found, _⟩
      cases found
  | some j =>
    simp only [Except.ok.injEq, Option.map_some, Option.some.injEq, exists_eq_left']
    push_cast
    exact eq_comm

section Roles
variable {others : List α}

theorem known_congr (same : others.map role = items.map role) :
    known role others = known role items := by
  induction items generalizing others with
  | nil =>
    rw [List.map_nil, List.map_eq_nil_iff] at same
    rw [same]
  | cons a rest ih =>
    cases others with
    | nil => cases same
    | cons b more =>
      obtain ⟨head, tail⟩ := List.cons.inj same
      rw [known, known, head, ih tail]

theorem obstacle?_congr (same : others.map role = items.map role) :
    obstacle? role others = obstacle? role items := by
  induction items generalizing others with
  | nil =>
    rw [List.map_nil, List.map_eq_nil_iff] at same
    rw [same]
  | cons a rest ih =>
    cases others with
    | nil => cases same
    | cons b more =>
      obtain ⟨head, tail⟩ := List.cons.inj same
      rw [obstacle?, obstacle?, head, ih tail]

theorem itemsFrom?_map {β : Type} (f : α → β) (items : List α) (first : Int) :
    itemsFrom? (items.map f) first = (itemsFrom? items first).map (List.map f) := by
  simp only [itemsFrom?, List.length_map]
  split
  · rw [Option.map_some, List.map_drop]
  · split
    · rw [Option.map_some, List.map_append, List.map_drop]
    · rfl

/-- Only the roles of the items count for the end of a block. -/
theorem closer_congr (same : others.map role = items.map role) (start : Int) :
    closer role others start = closer role items start := by
  have rest : (itemsFrom? others (start + 1)).map (List.map role) =
      (itemsFrom? items (start + 1)).map (List.map role) := by
    rw [← itemsFrom?_map, ← itemsFrom?_map, same]
  unfold closer
  cases after : itemsFrom? items (start + 1) with
  | none =>
    rw [after, Option.map_none, Option.map_eq_none_iff] at rest
    rw [rest]
  | some tail =>
    rw [after, Option.map_some, Option.map_eq_some_iff] at rest
    obtain ⟨other, found, alike⟩ := rest
    simp only [found, known_congr alike, obstacle?_congr alike]

end Roles

end TurtleGraphics.Block
