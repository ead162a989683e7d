import TurtleGraphics.Matcher.Basic
import TurtleGraphics.Text.Quoted
/-!
Ordered choice, built one step at a time.

A choice belongs to a text. An alternative is begun with a matcher on the whole text, extended with
matchers on what is left, and may be reshaped, after which it can no longer be extended. A function
that reshapes may fail, and then there is no next choice. Beginning the next alternative with
`otherwise` settles the choice on an alternative that succeeded, and a settled choice never changes
again.
-/
set_option autoImplicit false

namespace TurtleGraphics

/-- What an alternative has produced: the values of its matchers in order, or what a reshaping made
of them. -/
inductive Yield (α β : Type) where
  | values (vs : List α)
  | shaped (b : β)
  deriving DecidableEq, Repr

namespace Choice

/-- Where a choice stands. `live` is an alternative that has matched every step so far, `settled`
one that is the result. -/
inductive Stage (α β : Type) where
  | failed
  | live (produced : Yield α β) (length : Nat)
  | settled (produced : Yield α β) (length : Nat)
  deriving DecidableEq, Repr

def Stage.name {α β : Type} : Stage α β → String
  | .failed => "failed"
  | .live .. => "live"
  | .settled .. => "sealed"

/-- Why a step cannot be taken. -/
inductive Fault (ε : Type) where
  | extendedAfterReshape
  | overlong (digits : Nat)
  /-- The function that was to reshape failed. -/
  | failed (e : ε)
  deriving DecidableEq, Repr

end Choice

structure Choice (α β : Type) where
  text : List Char
  stage : Choice.Stage α β
  deriving DecidableEq, Repr

namespace Choice

variable {α β γ ε : Type}

/-- A choice without alternatives. -/
def ofText (text : List Char) : Choice α β := ⟨text, .failed⟩

def isSettled (c : Choice α β) : Bool :=
  match c.stage with
  | .settled .. => true
  | _ => false

def isLive (c : Choice α β) : Bool :=
  match c.stage with
  | .live .. => true
  | _ => false

/-- Applies `m` to what the live alternative has left. -/
def extend (c : Choice α β) (m : Matcher α) : Except (Fault ε) (Choice α β) :=
  match c.stage with
  | .live (.values vs) n =>
    match m (c.text.drop n) with
    | .matched v k => .ok { c with stage := .live (.values (vs ++ [v])) (n + k) }
    | .refused => .ok { c with stage := .failed }
    | .overlong d => .error (.overlong d)
  | .live (.shaped _) _ => .error .extendedAfterReshape
  | _ => .ok c

/-- Begins an alternative with `m`, always from the whole text. -/
def attempt (c : Choice α β) (m : Matcher α) : Except (Fault ε) (Choice α β) :=
  match c.stage with
  | .settled .. => .ok c
  | _ => extend { c with stage := .live (.values []) 0 } m

/-- Makes the live alternative the result. -/
def settle (c : Choice α β) : Choice α β :=
  match c.stage with
  | .live y n => { c with stage := .settled y n }
  | _ => c

/-- Settles on the live alternative if there is one, and begins another with `m` if not. -/
def otherwise (c : Choice α β) (m : Matcher α) : Except (Fault ε) (Choice α β) := c.settle.attempt m

/-- Replaces what the live alternative has produced. -/
def reshape (c : Choice α β) (f : Yield α β → Except ε β) : Except (Fault ε) (Choice α β) :=
  match c.stage with
  | .live y n =>
    match f y with
    | .ok b => .ok { c with stage := .live (.shaped b) n }
    | .error e => .error (.failed e)
  | _ => .ok c

/-- What the winning alternative produced, and how many characters it took. -/
def result (c : Choice α β) : Option (Yield α β × Nat) :=
  match c.settle.stage with
  | .settled y n => some (y, n)
  | _ => none

/-- The result, with `f` applied to what was produced. -/
def complete (c : Choice α β) (f : Yield α β → Except ε γ) : Except ε (Option (γ × Nat)) :=
  match c.result with
  | none => .ok none
  | some (y, n) => (f y).map fun v => some (v, n)

/-- One step of the building of a choice. -/
inductive Step (α β ε : Type) where
  | attempt (m : Matcher α)
  | extend (m : Matcher α)
  | otherwise (m : Matcher α)
  | reshape (f : Yield α β → Except ε β)

def apply (c : Choice α β) : Step α β ε → Except (Fault ε) (Choice α β)
  | .attempt m => c.attempt m
  | .extend m => c.extend m
  | .otherwise m => c.otherwise m
  | .reshape f => c.reshape f

/-- The text that a step's matcher is applied to, if the step applies it at all. -/
def consulted (c : Choice α β) : Step α β ε → Option (List Char)
  | .attempt _ => if c.isSettled then none else some c.text
  | .extend _ =>
    match c.stage with
    | .live (.values _) n => some (c.text.drop n)
    | _ => none
  | .otherwise _ => if c.settle.isSettled then none else some c.text
  | .reshape _ => none

/-- Takes the steps in order, up to the first that cannot be taken. -/
def applyAll (c : Choice α β) (steps : List (Step α β ε)) : Except (Fault ε) (Choice α β) :=
  steps.foldlM apply c

def display (c : Choice α β) : String :=
  "Choice(" ++ Text.quoted (String.ofList c.text) ++ ", " ++ c.stage.name ++ ")"

def Fault.message (tell : ε → String) : Fault ε → String
  | .extendedAfterReshape => "Cannot extend an alternative after transform()"
  | .overlong digits => Numeral.overlongMessage digits
  | .failed e => tell e

end Choice

end TurtleGraphics
