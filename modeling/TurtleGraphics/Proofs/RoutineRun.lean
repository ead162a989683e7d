import TurtleGraphics.Drawing.Doubles
import TurtleGraphics.Proofs.Routine
import TurtleGraphics.Proofs.Steps
/-!
The machine runs the listing of a routine as the interpreter executes the routine.

The listing of a part of a routine stands at some position of a larger program, so the simulation is
stated of any program that holds a listing at `k`: the run from `k` is the interpreter on that part,
followed by the run from behind it with the same stack. It goes by induction on the budget; the
interpreter's budget is always what the machine's counter leaves of the limit.
-/
set_option autoImplicit false

namespace TurtleGraphics

section Placement
variable {ι : Type}

/-- The instructions from position `k` on begin with `part`. -/
def Program.HoldsAt (program : Program ι) (k : Nat) (part : List ι) : Prop :=
  part <+: program.instructions.drop k

namespace Program.HoldsAt

variable {program : Program ι} {k : Nat} {i : ι} {part other : List ι}

theorem get? (placed : program.HoldsAt k (i :: part)) : program.get? k = some i := by
  obtain ⟨post, split⟩ := placed
  rw [get?_ofNat, ← Nat.add_zero k, ← List.getElem?_drop, ← split]
  rfl

theorem lt_size (placed : program.HoldsAt k (i :: part)) : k < program.size := by
  have fetched := placed.get?
  rw [get?_ofNat] at fetched
  exact (List.getElem?_eq_some_iff.mp fetched).1

theorem left (placed : program.HoldsAt k (part ++ other)) : program.HoldsAt k part :=
  (List.prefix_append part other).trans placed

theorem right (placed : program.HoldsAt k (part ++ other)) :
    program.HoldsAt (k + part.length) other := by
  obtain ⟨post, split⟩ := placed
  refine ⟨post, ?_⟩
  rw [← List.drop_drop, ← split, List.append_assoc, List.drop_left]

theorem tail (placed : program.HoldsAt k (i :: part)) : program.HoldsAt (k + 1) part :=
  @right ι program k [i] part placed

/-- What follows a block of the program. -/
theorem behind {opener closer : ι} {body rest : List ι}
    (placed : program.HoldsAt k (opener :: (body ++ closer :: rest))) :
    program.HoldsAt (k + body.length + 2) rest := by
  have last := placed.tail.right.tail
  rwa [show k + 1 + body.length + 1 = k + body.length + 2 by omega] at last

end Program.HoldsAt

end Placement

open Machine (Ending Fault State run step)

theorem Statement.role_instruction (first : Statement) : first.instruction.role = .neutral := by
  cases first <;> rfl

/-- The search for a closer passes over a listing. -/
theorem Block.closerIn?_listing (r : Routine) (depth : Nat) (rest : List Block.Role) :
    closerIn? depth (r.listing.map Instruction.role ++ rest) =
      (closerIn? depth rest).map (· + r.listing.length) := by
  induction r generalizing depth rest with
  | done => simp [Routine.listing]
  | simple first tail ih =>
    rw [Routine.listing, List.map_cons, first.role_instruction, List.cons_append, closerIn?, ih,
      Option.map_map]
    rfl
  | branch condition body tail bodyIH tailIH =>
    simp only [Routine.listing, List.map_cons, List.map_append, List.cons_append,
      List.append_assoc, Instruction.role, closerIn?, bodyIH, tailIH, Option.map_map]
    congr 1
    funext j
    simp only [Function.comp_apply, List.length_cons, List.length_append]
    omega
  | loop condition body tail bodyIH tailIH =>
    simp only [Routine.listing, List.map_cons, List.map_append, List.cons_append,
      List.append_assoc, Instruction.role, closerIn?, bodyIH, tailIH, Option.map_map]
    congr 1
    funext j
    simp only [Function.comp_apply, List.length_cons, List.length_append]
    omega

/-- A block whose body is a listing ends right behind the body. -/
theorem blockEnd_listing {program : Program Instruction} {k : Nat} {opener : Instruction}
    {body : Routine} {after : List Instruction}
    (placed : program.HoldsAt k (opener :: (body.listing ++ .close :: after))) :
    Machine.blockEnd Instruction.language program k =
      .ok ((k + 1 + body.listing.length : Nat) : Int) := by
  obtain ⟨post, split⟩ := placed.tail
  have found : Block.closer Instruction.language.role program.instructions k =
      .ok ((k : Int) + 1 + body.listing.length) := by
    rw [show Instruction.language.role = fun i => .ok i.role from rfl, Block.closer_ofNat,
      ← List.map_drop, ← split]
    simp [Block.closerIn?_listing, Instruction.role, Block.closerIn?]
  rw [Machine.blockEnd, found]
  push_cast
  rfl

variable {P H : Type}

namespace Store

/-- The machine at position `k` with this store. -/
def stateAt (store : Store P H) (jumps : List Int) (k steps : Nat) : State Env P H :=
  ⟨store.env, jumps, k, steps, store.recorder⟩

end Store

/-- What an ending of a machine tells, apart from its position and its stack. -/
def Machine.Ending.conclusion : Ending Env Empty P H → Conclusion P H
  | finished s => .finished ⟨s.env, s.recorder⟩ s.steps
  | failed fault s => .failed fault ⟨s.env, s.recorder⟩

section Steps
variable {plane : Plane P H} {program : Program Instruction} {limit : Int}
variable {k steps : Nat} {store : Store P H} {jumps : List Int}

theorem step_stateAt {i : Instruction} {part : List Instruction}
    (placed : program.HoldsAt k (i :: part)) (within : (steps : Int) + 1 ≤ limit) :
    step Instruction.language plane program limit (store.stateAt jumps k steps) =
      .ofOutcome (k + 1) (store.stateAt jumps k (steps + 1))
        (Machine.execute Instruction.language plane program
          (store.stateAt jumps k (steps + 1)) i) := by
  have running : (k : Int) < program.size := by exact_mod_cast placed.lt_size
  exact Machine.step_of_get? (s := store.stateAt jumps k steps) running within placed.get?

/-- The machine moves as the store does. -/
theorem moved_stateAt (cause : Cause) (outcome : Except Plane.Fault (Recorder P H)) :
    Machine.Step.ofOutcome (k + 1) (store.stateAt jumps k steps)
        (Machine.moved (ε := Empty) (store.stateAt jumps k steps) cause outcome) =
      match (movementAt (k + 1) cause outcome).map fun recorder => { store with recorder } with
      | .ok store' => .next (store'.stateAt jumps (k + 1) steps)
      | .error fault => .failed fault (store.stateAt jumps k steps) := by
  cases outcome with
  | ok recorder => rfl
  | error e => cases e <;> rfl

theorem step_statement {first : Statement} {part : List Instruction}
    (placed : program.HoldsAt k (first.instruction :: part)) (within : (steps : Int) + 1 ≤ limit) :
    step Instruction.language plane program limit (store.stateAt jumps k steps) =
      match first.exec plane (k + 1) store with
      | .ok store' => .next (store'.stateAt jumps (k + 1) (steps + 1))
      | .error fault => .failed fault (store.stateAt jumps k (steps + 1)) := by
  rw [step_stateAt placed within]
  cases first with
  | move length =>
    simp only [Machine.execute, Instruction.language, Statement.instruction, Instruction.action,
      Statement.exec, Store.stateAt]
    cases length.eval store.env with
    | error u => rfl
    | ok n => exact moved_stateAt .lengthTooLarge (store.recorder.move plane n)
  | rotate angle =>
    simp only [Machine.execute, Instruction.language, Statement.instruction, Instruction.action,
      Statement.exec, Store.stateAt]
    cases angle.eval store.env with
    | error u => rfl
    | ok n => exact moved_stateAt .angleTooLarge (store.recorder.rotate plane n)
  | lift => rfl
  | place => rfl
  | set name value =>
    simp only [Machine.execute, Instruction.language, Statement.instruction, Instruction.action,
      Statement.exec, Store.stateAt]
    cases value.eval store.env <;> rfl
  | blank => rfl

/-- Entering a block or passing it by, at the opener of a listing. -/
theorem perform_enter {opener : Instruction} {body : Routine} {after : List Instruction}
    (holds again : Bool)
    (placed : program.HoldsAt k (opener :: (body.listing ++ .close :: after))) :
    Machine.perform Instruction.language plane program (store.stateAt jumps k steps)
        (.enter holds again) =
      .ok (if holds then
          store.stateAt (((if again then k else k + body.listing.length + 2 : Nat) : Int) :: jumps)
            (k + 1) steps
        else store.stateAt jumps (k + body.listing.length + 2) steps) := by
  have behind : ((k + 1 + body.listing.length : Nat) : Int) + 1 =
      ((k + body.listing.length + 2 : Nat) : Int) := by
    push_cast
    omega
  simp only [Machine.perform, Store.stateAt, blockEnd_listing placed, bind, Except.bind, behind]
  cases holds with
  | true => cases again <;> rfl
  | false => rfl

theorem step_opener {opener : Instruction} {condition : Cond} {again : Bool} {body : Routine}
    {after : List Instruction}
    (meaning : ∀ env, opener.action env =
      (Instruction.evaluated (condition.eval env)).map (.enter · again))
    (placed : program.HoldsAt k (opener :: (body.listing ++ .close :: after)))
    (within : (steps : Int) + 1 ≤ limit) :
    step Instruction.language plane program limit (store.stateAt jumps k steps) =
      match valueAt (k + 1) (condition.eval store.env) with
      | .ok true =>
        .next (store.stateAt
          (((if again then k else k + body.listing.length + 2 : Nat) : Int) :: jumps)
          (k + 1) (steps + 1))
      | .ok false => .next (store.stateAt jumps (k + body.listing.length + 2) (steps + 1))
      | .error fault => .failed fault (store.stateAt jumps k (steps + 1)) := by
  rw [step_stateAt placed within, Machine.execute]
  have action := meaning store.env
  cases value : condition.eval store.env with
  | error u =>
    rw [value] at action
    rw [show Instruction.language.action (store.stateAt jumps k (steps + 1)).env opener = _
      from action]
    rfl
  | ok holds =>
    rw [value] at action
    rw [show Instruction.language.action (store.stateAt jumps k (steps + 1)).env opener = _
      from action]
    cases holds with
    | true => exact congrArg (Machine.Step.ofOutcome _ _) (perform_enter true again placed)
    | false => exact congrArg (Machine.Step.ofOutcome _ _) (perform_enter false again placed)

theorem step_close {position : Nat} {part : List Instruction}
    (placed : program.HoldsAt k (.close :: part)) (within : (steps : Int) + 1 ≤ limit) :
    step Instruction.language plane program limit
        (store.stateAt ((position : Int) :: jumps) k steps) =
      .next (store.stateAt jumps position (steps + 1)) := by
  rw [step_stateAt placed within]
  rfl

end Steps

/-- What the run from position `k` comes to. -/
def runFrom (plane : Plane P H) (program : Program Instruction) (limit : Int) (store : Store P H)
    (jumps : List Int) (k steps : Nat) : Conclusion P H :=
  (run Instruction.language plane program limit (store.stateAt jumps k steps)).conclusion

section RunFrom
variable {plane : Plane P H} {program : Program Instruction} {limit : Int}
variable {k steps : Nat} {store : Store P H} {jumps : List Int}
variable {i : Instruction} {part : List Instruction}

theorem runFrom_next {store' : Store P H} {jumps' : List Int} {k' steps' : Nat}
    (success : step Instruction.language plane program limit (store.stateAt jumps k steps) =
      .next (store'.stateAt jumps' k' steps')) :
    runFrom plane program limit store jumps k steps =
      runFrom plane program limit store' jumps' k' steps' := by
  rw [runFrom, Machine.run_of_step_eq_next success, runFrom]

theorem runFrom_failed {fault : Fault Empty} (placed : program.HoldsAt k (i :: part))
    (failure : step Instruction.language plane program limit (store.stateAt jumps k steps) =
      .failed fault (store.stateAt jumps k (steps + 1))) :
    runFrom plane program limit store jumps k steps = .failed fault store := by
  have running : (k : Int) < program.size := by exact_mod_cast placed.lt_size
  rw [runFrom, Machine.run_of_step_eq_failed running failure]
  rfl

/-- Nothing is executed once the limit is spent. -/
theorem runFrom_spent (placed : program.HoldsAt k (i :: part))
    (nothing : 0 = (limit - steps).toNat) :
    runFrom plane program limit store jumps k steps =
      .failed (Routine.spent limit (k + 1)) store := by
  have running : (k : Int) < program.size := by exact_mod_cast placed.lt_size
  have exhausted : limit < (steps : Int) + 1 := by omega
  exact runFrom_failed placed (Machine.step_of_limit_lt running exhausted)

end RunFrom

/-- Of a budget and the steps made before, only the sum counts. -/
theorem Outlay.conclude_paid {less budget paid steps : Nat} (least : less ≤ budget)
    (account : paid + less = steps + budget) (next : Store P H → Nat → Conclusion P H)
    (result : Outlay P H less) :
    (result.conclude fun store left => next store (paid + (less - left))) =
      (result.after budget least).conclude fun store left =>
        next store (steps + (budget - left)) := by
  cases result with
  | done store left within =>
    have same : paid + (less - left) = steps + (budget - left) := by omega
    simp only [Outlay.after, Outlay.conclude, same]
  | failed fault store => rfl

/-- The run through a body whose own run is known, up to where its end returns to. -/
theorem runFrom_body {plane : Plane P H} {program : Program Instruction} {limit : Int}
    {budget k steps position : Nat} {store : Store P H} {jumps : List Int} {body : Routine}
    {after : List Instruction} (placed : program.HoldsAt k (body.listing ++ .close :: after))
    (account : budget = (limit - steps).toNat)
    (inside : runFrom plane program limit store (position :: jumps) k steps =
      (body.exec plane limit budget (k + 1) store).conclude fun store' left =>
        runFrom plane program limit store' (position :: jumps) (k + body.listing.length)
          (steps + (budget - left))) :
    runFrom plane program limit store (position :: jumps) k steps =
      match body.exec plane limit budget (k + 1) store with
      | .failed fault store' => .failed fault store'
      | .done store' 0 _ => .failed (Routine.spent limit (k + body.listing.length + 1)) store'
      | .done store' (left + 1) _ =>
        runFrom plane program limit store' jumps position (steps + (budget - left)) := by
  rw [inside]
  cases body.exec plane limit budget (k + 1) store with
  | failed fault store' => rfl
  | done store' left within =>
    cases left with
    | zero => exact runFrom_spent placed.right (by omega)
    | succ left =>
      -- the closer is a step of its own
      have paid : steps + (budget - (left + 1)) + 1 = steps + (budget - left) := by omega
      have closed : step Instruction.language plane program limit
          (store'.stateAt (position :: jumps) (k + body.listing.length)
            (steps + (budget - (left + 1)))) = _ :=
        step_close placed.right (by omega)
      rw [Outlay.conclude, runFrom_next closed, paid]

/-- The run through a block whose body's own run is known, up to where it goes on. -/
theorem runFrom_block {plane : Plane P H} {program : Program Instruction} {limit : Int}
    {budget k steps : Nat} {store : Store P H} {jumps : List Int} {opener : Instruction}
    {condition : Cond} {again : Bool} {body : Routine} {after : List Instruction}
    (meaning : ∀ env, opener.action env =
      (Instruction.evaluated (condition.eval env)).map (.enter · again))
    (placed : program.HoldsAt k (opener :: (body.listing ++ .close :: after)))
    (account : budget + 1 = (limit - steps).toNat)
    (inside : ∀ jumps : List Int,
      runFrom plane program limit store jumps (k + 1) (steps + 1) =
        (body.exec plane limit budget (k + 1 + 1) store).conclude fun store' left =>
          runFrom plane program limit store' jumps (k + 1 + body.listing.length)
            (steps + 1 + (budget - left))) :
    runFrom plane program limit store jumps k steps =
      match valueAt (k + 1) (condition.eval store.env) with
      | .error fault => .failed fault store
      | .ok false =>
        runFrom plane program limit store jumps (k + body.listing.length + 2) (steps + 1)
      | .ok true =>
        match body.exec plane limit budget (k + 1 + 1) store with
        | .failed fault store' => .failed fault store'
        | .done store' 0 _ =>
          .failed (Routine.spent limit (k + 1 + body.listing.length + 1)) store'
        | .done store' (left + 1) _ =>
          runFrom plane program limit store' jumps
            (if again then k else k + body.listing.length + 2) (steps + 1 + (budget - left)) := by
  have within : (steps : Int) + 1 ≤ limit := by omega
  have opened : step Instruction.language plane program limit (store.stateAt jumps k steps) = _ :=
    step_opener meaning placed within
  cases value : valueAt (k + 1) (condition.eval store.env) with
  | error fault =>
    rw [value] at opened
    exact runFrom_failed placed opened
  | ok holds =>
    rw [value] at opened
    cases holds with
    | false => exact runFrom_next opened
    | true =>
      rw [runFrom_next opened]
      exact runFrom_body placed.tail (by omega) (inside _)

/-- With `budget` steps left, the run from the place of a listing is the interpreter on its routine,
and then the run from behind it. -/
def Simulates (plane : Plane P H) (program : Program Instruction) (limit : Int) (budget : Nat)
    (r : Routine) : Prop :=
  ∀ (k steps : Nat) (store : Store P H) (jumps : List Int),
    program.HoldsAt k r.listing → budget = (limit - steps).toNat →
    runFrom plane program limit store jumps k steps =
      (r.exec plane limit budget (k + 1) store).conclude fun store' left =>
        runFrom plane program limit store' jumps (k + r.listing.length) (steps + (budget - left))

section Simulates
variable {plane : Plane P H} {program : Program Instruction} {limit : Int} {budget : Nat}
variable {condition : Cond} {body rest : Routine}

theorem simulates_done : Simulates plane program limit budget .done := by
  intro k steps store jumps placed account
  simp [Routine.exec, Outlay.conclude, Routine.listing]

theorem simulates_zero (r : Routine) : Simulates plane program limit 0 r := by
  cases r with
  | done => exact simulates_done
  | simple | branch | loop =>
    intro k steps store jumps placed account
    simp only [runFrom_spent placed account, Routine.exec, Outlay.conclude]

theorem simulates_simple {first : Statement} (ih : Simulates plane program limit budget rest) :
    Simulates plane program limit (budget + 1) (.simple first rest) := by
  intro k steps store jumps placed account
  have executed : step Instruction.language plane program limit
      (store.stateAt jumps k steps) = _ := step_statement placed (by omega)
  have size : k + (Routine.simple first rest).listing.length = k + 1 + rest.listing.length := by
    rw [Routine.listing, List.length_cons]
    omega
  simp only [Routine.exec, size]
  cases outcome : first.exec plane (k + 1) store with
  | error fault =>
    rw [outcome] at executed
    exact runFrom_failed placed executed
  | ok store' =>
    rw [outcome] at executed
    rw [runFrom_next executed]
    exact (ih _ _ store' jumps placed.tail (by omega)).trans
      (Outlay.conclude_paid _ (by omega) _ _)

theorem simulates_branch
    (ih : ∀ less ≤ budget, ∀ r : Routine, Simulates plane program limit less r) :
    Simulates plane program limit (budget + 1) (.branch condition body rest) := by
  intro k steps store jumps placed account
  have size : k + (Routine.branch condition body rest).listing.length =
      k + body.listing.length + 2 + rest.listing.length := by
    simp only [Routine.listing, List.length_cons, List.length_append]
    omega
  have line : k + 1 + body.listing.length + 2 = k + body.listing.length + 2 + 1 := by omega
  rw [runFrom_block (fun _ => rfl) placed account fun jumps =>
    ih budget (Nat.le_refl _) body _ _ store jumps placed.tail.left (by omega)]
  simp only [Routine.exec, size, line]
  cases valueAt (k + 1) (condition.eval store.env) with
  | error fault => rfl
  | ok holds =>
    cases holds with
    | false =>
      exact (ih budget (Nat.le_refl _) rest _ _ store jumps placed.behind (by omega)).trans
        (Outlay.conclude_paid _ (by omega) _ _)
    | true =>
      cases body.exec plane limit budget (k + 1 + 1) store with
      | failed fault store' => rfl
      | done store' left inside =>
        cases left with
        | zero => rfl
        | succ left =>
          exact (ih left (by omega) rest _ _ store' jumps placed.behind (by omega)).trans
            (Outlay.conclude_paid _ (by omega) _ _)

theorem simulates_loop
    (ih : ∀ less ≤ budget, ∀ r : Routine, Simulates plane program limit less r) :
    Simulates plane program limit (budget + 1) (.loop condition body rest) := by
  intro k steps store jumps placed account
  have size : k + (Routine.loop condition body rest).listing.length =
      k + body.listing.length + 2 + rest.listing.length := by
    simp only [Routine.listing, List.length_cons, List.length_append]
    omega
  have line : k + 1 + body.listing.length + 2 = k + body.listing.length + 2 + 1 := by omega
  rw [runFrom_block (fun _ => rfl) placed account fun jumps =>
    ih budget (Nat.le_refl _) body _ _ store jumps placed.tail.left (by omega)]
  simp only [Routine.exec, line]
  cases valueAt (k + 1) (condition.eval store.env) with
  | error fault => rfl
  | ok holds =>
    cases holds with
    | false =>
      rw [size]
      exact (ih budget (Nat.le_refl _) rest _ _ store jumps placed.behind (by omega)).trans
        (Outlay.conclude_paid _ (by omega) _ _)
    | true =>
      cases body.exec plane limit budget (k + 1 + 1) store with
      | failed fault store' => rfl
      | done store' left inside =>
        cases left with
        | zero => rfl
        | succ left =>
          -- a further round starts from the same place with less to spend
          exact (ih left (by omega) (.loop condition body rest) _ _ store' jumps placed
            (by omega)).trans (Outlay.conclude_paid _ (by omega) _ _)

end Simulates

theorem runFrom_listing (plane : Plane P H) (program : Program Instruction) (limit : Int)
    (budget : Nat) (r : Routine) : Simulates plane program limit budget r := by
  -- every step spends from the budget, a further round of a loop included
  induction budget using Nat.strongRecOn generalizing r with
  | ind budget ih =>
    cases budget with
    | zero => exact simulates_zero r
    | succ budget =>
      have less : ∀ less ≤ budget, ∀ r : Routine, Simulates plane program limit less r :=
        fun less bound r => ih less (Nat.lt_succ_of_le bound) r
      cases r with
      | done => exact simulates_done
      | simple first rest => exact simulates_simple (less budget (Nat.le_refl _) rest)
      | branch condition body rest => exact simulates_branch less
      | loop condition body rest => exact simulates_loop less

/-- A whole program runs as the routine that it lists. -/
theorem conclusion_run_of_listing (plane : Plane P H) (program : Program Instruction) (limit : Int)
    (r : Routine) (listed : r.listing = program.instructions) :
    (run Instruction.language plane program limit
      (Machine.start Instruction.language plane)).conclusion = r.interpret plane limit := by
  have placed : program.HoldsAt 0 r.listing := by
    rw [Program.HoldsAt, listed]
    exact List.prefix_refl _
  have simulated := runFrom_listing plane program limit limit.toNat r 0 0
    ⟨.empty, .start plane⟩ [] placed (by omega)
  refine simulated.trans (Outlay.conclude_congr _ ?_)
  intro store left within
  have size : program.size = 0 + r.listing.length := by
    rw [Program.size, listed, Nat.zero_add]
  have finished : (program.size : Int) ≤ ((0 + r.listing.length : Nat) : Int) :=
    Int.ofNat_le.mpr (Nat.le_of_eq size)
  rw [runFrom, Machine.run_of_size_le finished]
  exact congrArg (Conclusion.finished store) (Nat.zero_add (limit.toNat - left))

theorem Instruction.statement_or_bracket (i : Instruction) :
    (∃ first : Statement, i = first.instruction) ∨ (∃ condition, i = .conditional condition) ∨
      (∃ condition, i = .loop condition) ∨ i = .close := by
  cases i with
  | move length => exact Or.inl ⟨.move length, rfl⟩
  | rotate angle => exact Or.inl ⟨.rotate angle, rfl⟩
  | lift => exact Or.inl ⟨.lift, rfl⟩
  | place => exact Or.inl ⟨.place, rfl⟩
  | set name value => exact Or.inl ⟨.set name value, rfl⟩
  | conditional condition => exact Or.inr (Or.inl ⟨condition, rfl⟩)
  | loop condition => exact Or.inr (Or.inr (Or.inl ⟨condition, rfl⟩))
  | close => exact Or.inr (Or.inr (Or.inr rfl))
  | blank => exact Or.inl ⟨.blank, rfl⟩

/-- Instructions after which `depth` blocks are still to be closed are one listing for each of
them, up to its closer, and one more. -/
theorem exists_listing_of_depthAfter? {instructions : List Instruction} {depth : Nat}
    (closed : Block.depthAfter? depth (instructions.map Instruction.role) = some 0) :
    ∃ (first : Routine) (others : List Routine), others.length = depth ∧
      first.listing ++ others.flatMap (fun r => .close :: r.listing) = instructions := by
  -- an opener takes the first listing behind it for its body and the second for what comes after
  induction instructions generalizing depth with
  | nil =>
    cases depth with
    | zero => exact ⟨.done, [], rfl, rfl⟩
    | succ depth => simp [Block.depthAfter?] at closed
  | cons i rest ih =>
    rcases i.statement_or_bracket with ⟨first, rfl⟩ | ⟨condition, rfl⟩ | ⟨condition, rfl⟩ | rfl
    · rw [List.map_cons, first.role_instruction, Block.depthAfter?] at closed
      obtain ⟨tail, others, count, rfl⟩ := ih closed
      exact ⟨.simple first tail, others, count, rfl⟩
    · have inner : Block.depthAfter? (depth + 1) (rest.map Instruction.role) = some 0 := closed
      obtain ⟨body, others, count, rfl⟩ := ih inner
      obtain ⟨tail, others, rfl⟩ := List.exists_cons_of_length_eq_add_one count
      refine ⟨.branch condition body tail, others, by simpa using count, ?_⟩
      simp [Routine.listing]
    · have inner : Block.depthAfter? (depth + 1) (rest.map Instruction.role) = some 0 := closed
      obtain ⟨body, others, count, rfl⟩ := ih inner
      obtain ⟨tail, others, rfl⟩ := List.exists_cons_of_length_eq_add_one count
      refine ⟨.loop condition body tail, others, by simpa using count, ?_⟩
      simp [Routine.listing]
    · cases depth with
      | zero => simp [Block.depthAfter?, Instruction.role] at closed
      | succ depth =>
        have outer : Block.depthAfter? depth (rest.map Instruction.role) = some 0 := closed
        obtain ⟨first, others, count, rfl⟩ := ih outer
        exact ⟨.done, first :: others, by rw [List.length_cons, count], rfl⟩

/-- Every list of instructions with balanced blocks lists a routine. -/
theorem exists_listing_of_balanced {instructions : List Instruction}
    (balanced : Block.Balanced (instructions.map Instruction.role)) :
    ∃ r : Routine, r.listing = instructions := by
  obtain ⟨first, others, none, split⟩ := exists_listing_of_depthAfter? balanced
  obtain rfl := List.length_eq_zero_iff.mp none
  exact ⟨first, by simpa using split⟩

/-- The machine on a program with balanced blocks and the interpreter on the routine that the
program lists come to the same: the same store and count of steps, or the same fault and store. -/
theorem run_eq_interpret (plane : Plane P H) (program : Program Instruction) (limit : Int)
    (balanced : Block.Balanced (program.instructions.map Instruction.role)) :
    (∃ r : Routine, r.listing = program.instructions) ∧
      ∀ r : Routine, r.listing = program.instructions →
        (run Instruction.language plane program limit
          (Machine.start Instruction.language plane)).conclusion = r.interpret plane limit := by
  refine ⟨exists_listing_of_balanced balanced, ?_⟩
  intro r listed
  exact conclusion_run_of_listing plane program limit r listed

/-- A branch inside a loop. -/
def staircase : List Instruction :=
  [.set "n" (.int 3), .loop (.compare (.var "n") .gt (.int 0)),
    .conditional (.compare (.var "n") .eq (.int 2)), .lift, .close, .move (.var "n"),
    .set "n" (.binary (.var "n") .sub (.int 1)), .close, .place]

theorem run_staircase_eq_interpret :
    Block.Balanced (staircase.map Instruction.role) ∧ ∃ r : Routine, r.listing = staircase ∧
      (run Instruction.language Plane.doubles ⟨staircase, []⟩ 100
        (Machine.start Instruction.language Plane.doubles)).conclusion =
          r.interpret Plane.doubles 100 := by
  have balanced : Block.Balanced (staircase.map Instruction.role) := by decide
  obtain ⟨⟨r, listed⟩, same⟩ := run_eq_interpret Plane.doubles ⟨staircase, []⟩ 100 balanced
  exact ⟨balanced, r, listed, same r listed⟩

end TurtleGraphics
