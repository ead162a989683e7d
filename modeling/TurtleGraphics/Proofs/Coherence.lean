import TurtleGraphics.Instruction.Action
import TurtleGraphics.Tree.Action
/-!
What a language has to respect for the blocks of its programs to mean anything: the action of an
instruction fits its role, and an opener either always repeats its block or never does. The
languages of instructions and of trees respect it, which is read off the list of what their
instructions do.
-/
set_option autoImplicit false

namespace TurtleGraphics

namespace Machine

variable {ι E ε : Type}

/-- What an action means to the block structure. -/
def Action.role : Action E ε → Block.Role
  | enter _ _ => .opens
  | close => .closes
  | _ => .neutral

/-- An action has the role of its instruction, and repeats a block only if the instruction satisfies
`again`. -/
def Coherent (lang : Language ι E ε) (again : ι → Bool) : Prop :=
  ∀ (env : E) (i : ι) (action : Action E ε), lang.action env i = .ok action →
    lang.role i = .ok action.role ∧
      ∀ holds repeats, action = .enter holds repeats → repeats = again i

end Machine

namespace Instruction

/-- Whether an instruction goes back to its condition at the end of its block. -/
def repeats : Instruction → Bool
  | loop _ => true
  | _ => false

/-- What an instruction does when its operands have values. -/
inductive Does (env : Env) : Instruction → Machine.Action Env Empty → Prop
  | move {length : Expr} {n : Int} (value : length.eval env = .ok n) :
      Does env (.move length) (.move n)
  | rotate {angle : Expr} {n : Int} (value : angle.eval env = .ok n) :
      Does env (.rotate angle) (.rotate n)
  | lift : Does env .lift (.pen false)
  | place : Does env .place (.pen true)
  | set (name : String) {operand : Expr} {n : Int} (value : operand.eval env = .ok n) :
      Does env (.set name operand) (.assign (env.set name n))
  | conditional {condition : Cond} {holds : Bool} (value : condition.eval env = .ok holds) :
      Does env (.conditional condition) (.enter holds false)
  | loop {condition : Cond} {holds : Bool} (value : condition.eval env = .ok holds) :
      Does env (.loop condition) (.enter holds true)
  | close : Does env .close .close
  | blank : Does env .blank .skip

theorem evaluated_map_eq_ok {α β : Type} {value : Except Unbound α} {f : α → β} {b : β}
    (success : (evaluated value).map f = .ok b) : ∃ a, value = .ok a ∧ b = f a := by
  cases value with
  | ok a => exact ⟨a, rfl, (Except.ok.inj success).symm⟩
  | error u => cases success

theorem does_of_action {env : Env} {i : Instruction} {action : Machine.Action Env Empty}
    (meaning : language.action env i = .ok action) : Does env i action := by
  cases i with
  | move length =>
    obtain ⟨n, value, rfl⟩ := evaluated_map_eq_ok meaning
    exact .move value
  | rotate angle =>
    obtain ⟨n, value, rfl⟩ := evaluated_map_eq_ok meaning
    exact .rotate value
  | lift =>
    cases meaning
    exact .lift
  | place =>
    cases meaning
    exact .place
  | set name operand =>
    obtain ⟨n, value, rfl⟩ := evaluated_map_eq_ok meaning
    exact .set name value
  | conditional condition =>
    obtain ⟨holds, value, rfl⟩ := evaluated_map_eq_ok meaning
    exact .conditional value
  | loop condition =>
    obtain ⟨holds, value, rfl⟩ := evaluated_map_eq_ok meaning
    exact .loop value
  | close =>
    cases meaning
    exact .close
  | blank =>
    cases meaning
    exact .blank

theorem language_coherent : Machine.Coherent language repeats := by
  intro env i action meaning
  cases does_of_action meaning with
  | move | rotate | lift | place | set | close | blank => exact ⟨rfl, nofun⟩
  | conditional | loop => exact ⟨rfl, fun _ _ same => by cases same; rfl⟩

end Instruction

namespace Tree

/-- Whether a tree is an instruction that goes back to its condition at the end of its block. -/
def repeats : Tree → Bool
  | node (.instruction .loop) _ => true
  | _ => false

/-- What a tree does that is an instruction whose operands have values. -/
inductive Does (env : Env) : Tree → Machine.Action Env Misuse → Prop
  | move {length : Tree} {v : Value} (value : length.eval env = .ok v) :
      Does env (node (.instruction .move) [length]) (moveBy v)
  | rotate {angle : Tree} {v : Value} {n : Int} (value : angle.eval env = .ok v)
      (number : v.toInt? = some n) : Does env (node (.instruction .rotate) [angle]) (.rotate n)
  | lift : Does env (node (.instruction .lift) []) (.pen false)
  | place : Does env (node (.instruction .place) []) (.pen true)
  | set (name : Tree) {operand : Tree} {v : Value} (value : operand.eval env = .ok v) :
      Does env (node (.instruction .set) [name, operand]) (.assign (env.set name v))
  | conditional {condition : Tree} {v : Value} (value : condition.eval env = .ok v) :
      Does env (node (.instruction .conditional) [condition]) (.enter v.truth false)
  | loop {condition : Tree} {v : Value} (value : condition.eval env = .ok v) :
      Does env (node (.instruction .loop) [condition]) (.enter v.truth true)
  | close : Does env (node (.instruction .close) []) .close
  | blank : Does env (node (.instruction .blank) []) .skip

theorem evaluated_eq_ok {env : Env} {t : Tree} {v : Value} (success : evaluated env t = .ok v) :
    t.eval env = .ok v := by
  rw [evaluated] at success
  cases value : t.eval env with
  | ok w =>
    rw [value] at success
    rw [Except.ok.inj success]
  | error e =>
    rw [value] at success
    cases e <;> cases success

theorem evaluated_map_eq_ok {env : Env} {t : Tree} {α : Type} {f : Value → α} {a : α}
    (success : (evaluated env t).map f = .ok a) : ∃ v, t.eval env = .ok v ∧ a = f v := by
  cases value : evaluated env t with
  | ok v =>
    rw [value] at success
    exact ⟨v, evaluated_eq_ok value, (Except.ok.inj success).symm⟩
  | error e =>
    rw [value] at success
    cases success

theorem moveBy_eq (length : Value) :
    (∃ n, moveBy length = .move n) ∨ ∃ m, moveBy length = .stray m := by
  unfold moveBy
  split
  · exact Or.inl ⟨_, rfl⟩
  · exact Or.inr ⟨_, rfl⟩

theorem rotateBy_eq_ok {angle : Except (Machine.Failure Misuse) Value}
    {action : Machine.Action Env Misuse} (success : angle.bind rotateBy = .ok action) :
    ∃ v n, angle = .ok v ∧ v.toInt? = some n ∧ action = .rotate n := by
  cases angle with
  | error e => cases success
  | ok v =>
    simp only [Except.bind, rotateBy] at success
    split at success
    · rename_i n number
      exact ⟨v, n, rfl, number, (Except.ok.inj success).symm⟩
    · cases success

theorem does_of_action {env : Env} {t : Tree} {action : Machine.Action Env Misuse}
    (meaning : language.action env t = .ok action) : Does env t action := by
  change Tree.action env t = .ok action at meaning
  -- one case for each form of tree that stands for an action
  unfold Tree.action at meaning
  split at meaning
  · obtain ⟨v, value, rfl⟩ := evaluated_map_eq_ok meaning
    exact .move value
  · obtain ⟨v, n, value, number, rfl⟩ := rotateBy_eq_ok meaning
    exact .rotate (evaluated_eq_ok value) number
  · cases meaning
    exact .lift
  · cases meaning
    exact .place
  · obtain ⟨v, value, rfl⟩ := evaluated_map_eq_ok meaning
    exact .set _ value
  · obtain ⟨v, value, rfl⟩ := evaluated_map_eq_ok meaning
    exact .conditional value
  · obtain ⟨v, value, rfl⟩ := evaluated_map_eq_ok meaning
    exact .loop value
  · cases meaning
    exact .close
  · cases meaning
    exact .blank
  · cases meaning

theorem language_coherent : Machine.Coherent language repeats := by
  intro env t action meaning
  cases does_of_action meaning with
  | @move length v value =>
    rcases moveBy_eq v with ⟨n, same⟩ | ⟨m, same⟩
    · rw [same]
      exact ⟨rfl, nofun⟩
    · rw [same]
      exact ⟨rfl, nofun⟩
  | rotate | lift | place | set | close | blank => exact ⟨rfl, nofun⟩
  | conditional | loop => exact ⟨rfl, fun _ _ same => by cases same; rfl⟩

end Tree

end TurtleGraphics
