import TurtleGraphics.Instruction.Action
import TurtleGraphics.Machine.Basic
/-!
Structured programs, and an interpreter for them by recursion.

A routine is a sequence of statements; a branch or a loop holds its body as a routine of its own, so
there are no positions to jump to and no stack. The interpreter has a budget. It pays one step for
each statement, one for each time a condition is evaluated, and one for the end of a body that was
entered. A result carries what is left of the budget, which is never more than there was; this is
why the interpreter ends.

`listing` writes a routine as a flat list of instructions. The main statement is that every list of
instructions whose blocks are balanced is the listing of a routine.
-/
set_option autoImplicit false

namespace TurtleGraphics

namespace Block

/-- How many blocks are open after `roles` if `depth` were open before. There is no answer if a
closer finds no block open. -/
def depthAfter? : Nat → List Role → Option Nat
  | depth, [] => some depth
  | depth, .opens :: rest => depthAfter? (depth + 1) rest
  | 0, .closes :: _ => none
  | depth + 1, .closes :: rest => depthAfter? depth rest
  | depth, .neutral :: rest => depthAfter? depth rest

/-- Every closer closes an earlier opener, and every opener is closed. -/
def Balanced (roles : List Role) : Prop := depthAfter? 0 roles = some 0

instance (roles : List Role) : Decidable (Balanced roles) :=
  inferInstanceAs (Decidable (depthAfter? 0 roles = some 0))

end Block

/-- The statements that neither open nor close a block. -/
inductive Statement where
  | move (length : Expr)
  | rotate (angle : Expr)
  | lift
  | place
  | set (name : String) (value : Expr)
  | blank
  deriving DecidableEq, Repr

def Statement.instruction : Statement → Instruction
  | move length => .move length
  | rotate angle => .rotate angle
  | lift => .lift
  | place => .place
  | set name value => .set name value
  | blank => .blank

inductive Routine where
  | done
  | simple (first : Statement) (rest : Routine)
  | branch (condition : Cond) (body rest : Routine)
  | loop (condition : Cond) (body rest : Routine)
  deriving DecidableEq, Repr

/-- The instructions of a routine, one per line. -/
def Routine.listing : Routine → List Instruction
  | done => []
  | simple first rest => first.instruction :: rest.listing
  | branch condition body rest => .conditional condition :: (body.listing ++ .close :: rest.listing)
  | loop condition body rest => .loop condition :: (body.listing ++ .close :: rest.listing)

/-- What a routine reads and writes. -/
structure Store (P H : Type) where
  env : Env
  recorder : Recorder P H
  deriving DecidableEq, Repr

/-- How a routine ends that was given `budget` steps. -/
inductive Outlay (P H : Type) (budget : Nat) where
  | done (store : Store P H) (left : Nat) (within : left ≤ budget)
  | failed (fault : Machine.Fault Empty) (store : Store P H)

/-- What can be told of a run when it is over. -/
inductive Conclusion (P H : Type) where
  | finished (store : Store P H) (steps : Nat)
  | failed (fault : Machine.Fault Empty) (store : Store P H)
  deriving DecidableEq, Repr

variable {P H : Type}

namespace Outlay

/-- The same result under a greater budget, of which the difference was spent before. -/
def after {budget : Nat} (more : Nat) (least : budget ≤ more) : Outlay P H budget → Outlay P H more
  | done store left within => .done store left (Nat.le_trans within least)
  | failed fault store => .failed fault store

/-- Goes on with the store and what is left of the budget. -/
def conclude {budget : Nat} (next : Store P H → Nat → Conclusion P H) :
    Outlay P H budget → Conclusion P H
  | done store left _ => next store left
  | failed fault store => .failed fault store

theorem conclude_congr {budget : Nat} {next other : Store P H → Nat → Conclusion P H}
    (result : Outlay P H budget)
    (same : ∀ store left, left ≤ budget → next store left = other store left) :
    result.conclude next = result.conclude other := by
  cases result with
  | done store left within => exact same store left within
  | failed fault store => rfl

end Outlay

/-- The value of an expression or a condition at `line`. -/
def valueAt {α : Type} (line : Nat) : Except Unbound α → Except (Machine.Fault Empty) α
  | .ok a => .ok a
  | .error u => .error (.run ⟨.unknownVariable u.name, some line⟩)

/-- The movement made at `line`. -/
def movementAt (line : Nat) (tooLarge : Cause) :
    Except Plane.Fault (Recorder P H) → Except (Machine.Fault Empty) (Recorder P H)
  | .ok recorder => .ok recorder
  | .error .tooLarge => .error (.run ⟨tooLarge, some line⟩)
  | .error .noDirection => .error .noDirection

/-- The store after a statement that stands at `line`. -/
def Statement.exec (plane : Plane P H) (line : Nat) (store : Store P H) :
    Statement → Except (Machine.Fault Empty) (Store P H)
  | move length => do
    let n ← valueAt line (length.eval store.env)
    let recorder ← movementAt line .lengthTooLarge (store.recorder.move plane n)
    return { store with recorder }
  | rotate angle => do
    let n ← valueAt line (angle.eval store.env)
    let recorder ← movementAt line .angleTooLarge (store.recorder.rotate plane n)
    return { store with recorder }
  | lift => .ok { store with recorder := store.recorder.pen false }
  | place => .ok { store with recorder := store.recorder.pen true }
  | set name value => do
    let n ← valueAt line (value.eval store.env)
    return { store with env := store.env.set name n }
  | blank => .ok store

namespace Routine

/-- The failure to pay for the step at `line` out of `limit` steps. -/
def spent (limit : Int) (line : Nat) : Machine.Fault Empty := .run ⟨.stepLimit limit, some line⟩

/-- Executes the routine that begins at `line` with a budget, which is what is left of `limit`. -/
def exec (plane : Plane P H) (limit : Int) :
    (budget : Nat) → (line : Nat) → Routine → Store P H → Outlay P H budget
  | budget, _, done, store => .done store budget (Nat.le_refl budget)
  | 0, line, _, store => .failed (spent limit line) store
  | budget + 1, line, simple first rest, store =>
    match first.exec plane line store with
    | .error fault => .failed fault store
    | .ok store => (exec plane limit budget (line + 1) rest store).after (budget + 1) (by omega)
  | budget + 1, line, branch condition body rest, store =>
    let next := line + body.listing.length + 2
    match valueAt line (condition.eval store.env) with
    | .error fault => .failed fault store
    | .ok false => (exec plane limit budget next rest store).after (budget + 1) (by omega)
    | .ok true =>
      match exec plane limit budget (line + 1) body store with
      | .failed fault store => .failed fault store
      | .done store 0 _ => .failed (spent limit (line + body.listing.length + 1)) store
      | .done store (left + 1) within =>
        (exec plane limit left next rest store).after (budget + 1) (by omega)
  | budget + 1, line, loop condition body rest, store =>
    match valueAt line (condition.eval store.env) with
    | .error fault => .failed fault store
    | .ok false =>
      (exec plane limit budget (line + body.listing.length + 2) rest store).after (budget + 1)
        (by omega)
    | .ok true =>
      match exec plane limit budget (line + 1) body store with
      | .failed fault store => .failed fault store
      | .done store 0 _ => .failed (spent limit (line + body.listing.length + 1)) store
      | .done store (left + 1) within =>
        (exec plane limit left line (loop condition body rest) store).after (budget + 1)
          (by omega)

/-- What a routine comes to that may take `limit` steps. -/
def interpret (plane : Plane P H) (limit : Int) (r : Routine) : Conclusion P H :=
  (r.exec plane limit limit.toNat 1 ⟨.empty, .start plane⟩).conclude fun store left =>
    .finished store (limit.toNat - left)

end Routine

end TurtleGraphics
