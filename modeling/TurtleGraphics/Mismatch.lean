import TurtleGraphics.Template.Filling
/-!
The refusal of a value that is not among those on offer.

The message of a refusal follows a template with places for the value and for what was on offer.
-/
set_option autoImplicit false

namespace TurtleGraphics.Mismatch

inductive Fault where
  /-- The value is not on offer. -/
  | refused (message : String)
  /-- The value cannot be looked for in what is on offer. -/
  | unfit (e : Setting.Unfit)
  /-- The message of the refusal cannot be written. -/
  | template (e : Template.Fault)
  deriving DecidableEq, Repr

def Fault.message : Fault → String
  | refused m => m
  | unfit e => e.message
  | template e => e.message

def defaultTemplate : String := "Got %r, expected one of %s"

/-- Refuses a value that `options` does not offer, with a message after the given template. -/
def check (template : String) (value options : Setting) : Except Fault Unit :=
  match options.offers value with
  | .error e => .error (.unfit e)
  | .ok true => .ok ()
  | .ok false =>
    match Template.fill template [value, options] with
    | .ok message => .error (.refused message)
    | .error e => .error (.template e)

end TurtleGraphics.Mismatch
