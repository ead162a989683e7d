/-!
Bindings of names to values, each name once, in the order in which the names were first set.

Names are compared with `==`. The main statement is that a lookup gives the value that was set last,
if `==` is an equivalence.
-/
set_option autoImplicit false

namespace TurtleGraphics

variable {N V : Type}

structure Bindings (N V : Type) where
  entries : List (N × V)
  deriving DecidableEq, Repr

namespace Bindings

def empty : Bindings N V := ⟨[]⟩

def get? [BEq N] (b : Bindings N V) (name : N) : Option V := b.entries.lookup name

/-- Replaces the value of `name`, or adds it at the end. A name that is bound stays as it was first
written. -/
def setIn [BEq N] (name : N) (value : V) : List (N × V) → List (N × V)
  | [] => [(name, value)]
  | (other, old) :: rest =>
    if name == other then (other, value) :: rest else (other, old) :: setIn name value rest

def set [BEq N] (b : Bindings N V) (name : N) (value : V) : Bindings N V :=
  ⟨setIn name value b.entries⟩

theorem lookup_setIn [BEq N] [EquivBEq N] (name other : N) (value : V) (entries : List (N × V)) :
    (setIn name value entries).lookup other =
      if other == name then some value else entries.lookup other := by
  induction entries with
  | nil =>
    rw [setIn, List.lookup_cons]
    cases other == name <;> rfl
  | cons entry rest ih =>
    obtain ⟨key, old⟩ := entry
    rw [setIn]
    cases replaces : name == key with
    | true =>
      have alike : (other == name) = (other == key) := BEq.congr_right replaces
      rw [if_pos rfl, List.lookup_cons, List.lookup_cons, alike]
      cases other == key <;> rfl
    | false =>
      rw [if_neg Bool.false_ne_true, List.lookup_cons, List.lookup_cons, ih]
      cases found : other == key with
      | false => rfl
      | true =>
        have differs : (other == name) = false := by
          rw [BEq.congr_left found, BEq.comm, replaces]
        rw [differs]
        rfl

@[simp] theorem get?_set [BEq N] [EquivBEq N] (b : Bindings N V) (name other : N) (value : V) :
    (b.set name value).get? other = if other == name then some value else b.get? other :=
  lookup_setIn name other value b.entries

@[simp] theorem get?_empty [BEq N] (name : N) : (empty : Bindings N V).get? name = none := rfl

end Bindings

end TurtleGraphics
