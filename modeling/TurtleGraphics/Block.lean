/-!
The block structure of a program: which position closes the block that another one opens.

Only the role of each position counts. The block opened at a position is closed by the first closer
after it that ends more blocks than were opened on the way. A position may be without a role; the
search ends at the first such position that it comes to.
-/
set_option autoImplicit false

namespace TurtleGraphics.Block

/-- What a position of a program means to its block structure. -/
inductive Role where
  | opens | closes | neutral
  deriving DecidableEq, Repr

/-- Where in `roles` the block is closed around which `depth` further blocks are open. -/
def closerIn? : Nat → List Role → Option Nat
  | _, [] => none
  | depth, .opens :: rest => (closerIn? (depth + 1) rest).map (· + 1)
  | 0, .closes :: _ => some 0
  | depth + 1, .closes :: rest => (closerIn? depth rest).map (· + 1)
  | depth, .neutral :: rest => (closerIn? depth rest).map (· + 1)

theorem closerIn?_lt {depth k : Nat} {roles : List Role} (h : closerIn? depth roles = some k) :
    k < roles.length := by
  fun_induction closerIn? depth roles generalizing k <;>
    simp_all only [Option.map_eq_some_iff, List.length_cons, reduceCtorEq, Option.some.injEq] <;>
    grind

variable {α ε : Type}

/-- Why a block has no closer. -/
inductive Fault (ε : Type) where
  | unclosed
  /-- The search would begin at this position, before the program. -/
  | outside (position : Int)
  /-- A position on the way has no role, for this reason. -/
  | noRole (reason : ε)
  deriving DecidableEq, Repr

/-- The items from the position `first` on. A position below zero counts from the end, so all items
follow the positions below zero. -/
def itemsFrom? (items : List α) (first : Int) : Option (List α) :=
  if 0 ≤ first then some (items.drop first.toNat)
  else if -(items.length : Int) ≤ first then
    some (items.drop (items.length + first).toNat ++ items)
  else none

/-- The roles of `items` up to the first that has none. -/
def known (role : α → Except ε Role) : List α → List Role
  | [] => []
  | a :: rest =>
    match role a with
    | .ok r => r :: known role rest
    | .error _ => []

/-- Why the first of `items` that has no role has none. -/
def obstacle? (role : α → Except ε Role) : List α → Option ε
  | [] => none
  | a :: rest =>
    match role a with
    | .ok _ => obstacle? role rest
    | .error e => some e

/-- The position that closes the block opened at `start`. -/
def closer (role : α → Except ε Role) (items : List α) (start : Int) : Except (Fault ε) Int :=
  match itemsFrom? items (start + 1) with
  | none => .error (.outside (start + 1))
  | some rest =>
    match closerIn? 0 (known role rest) with
    | some k => .ok (start + 1 + k)
    | none =>
      match obstacle? role rest with
      | some reason => .error (.noRole reason)
      | none => .error .unclosed

@[simp] theorem known_ok (role : α → Role) (items : List α) :
    known (fun a => (.ok (role a) : Except ε Role)) items = items.map role := by
  induction items with
  | nil => rfl
  | cons a rest ih => simp [known, ih]

@[simp] theorem obstacle?_ok (role : α → Role) (items : List α) :
    obstacle? (fun a => (.ok (role a) : Except ε Role)) items = none := by
  induction items with
  | nil => rfl
  | cons a rest ih => simp [obstacle?, ih]

/-- If every item has a role, only the roles count. -/
theorem closer_ofNat (role : α → Role) (items : List α) (start : Nat) :
    closer (fun a => (.ok (role a) : Except ε Role)) items start =
      match closerIn? 0 ((items.map role).drop (start + 1)) with
      | some k => .ok (start + 1 + k)
      | none => .error .unclosed := by
  have : (0 : Int) ≤ (start : Int) + 1 := by omega
  simp only [closer, itemsFrom?, this, if_true, known_ok, obstacle?_ok, List.map_drop]
  have : ((start : Int) + 1).toNat = start + 1 := by omega
  rw [this]

end TurtleGraphics.Block
