import TurtleGraphics.Tree.Conversion
/-!
What evaluation comes to.

Once every name stands for an integer, an expression stands for one too (`Expr.meaning`) and a
condition for a proposition (`Cond.Holds`). Evaluation gives this meaning if all variables have a
value, and otherwise reports the first from the left that has none, even on a side that could not
change the result any more. An evaluation that leaves such sides out gives the same value wherever
there is one.

Every node evaluates its parts from left to right and then puts their values together, so there is
one lemma for two parts (`Accounts.both`) and the rest is an induction on the tree.
-/
set_option autoImplicit false

namespace TurtleGraphics

variable {α β γ : Type}

namespace Bindings
variable {N V : Type} [BEq N] {b : Bindings N V} {names more : List N} {name : N}

/-- `name` is the first of `names` that is not bound. -/
def FirstMissing (b : Bindings N V) (names : List N) (name : N) : Prop :=
  ∃ before after, names = before ++ name :: after ∧ b.get? name = none ∧
    ∀ other ∈ before, b.get? other ≠ none

theorem FirstMissing.append (first : b.FirstMissing names name) (more : List N) :
    b.FirstMissing (names ++ more) name := by
  obtain ⟨before, after, rfl, missing, bound⟩ := first
  exact ⟨before, after ++ more, by simp, missing, bound⟩

theorem FirstMissing.behind (bound : ∀ name ∈ names, b.get? name ≠ none)
    (first : b.FirstMissing more name) : b.FirstMissing (names ++ more) name := by
  obtain ⟨before, after, rfl, missing, others⟩ := first
  refine ⟨names ++ before, after, by simp, missing, ?_⟩
  intro other member
  rcases List.mem_append.mp member with member | member
  · exact bound other member
  · exact others other member

theorem FirstMissing.exists_mem (first : b.FirstMissing names name) :
    ∃ other ∈ names, b.get? other = none := by
  obtain ⟨before, after, rfl, missing, -⟩ := first
  exact ⟨name, List.mem_append_right before List.mem_cons_self, missing⟩

end Bindings

/-- The integer that an expression stands for when `reading` tells what the names stand for. -/
def Expr.meaning (reading : String → Int) : Expr → Int
  | int n => n
  | var name => reading name
  | binary left op right =>
    match op with
    | .add => left.meaning reading + right.meaning reading
    | .sub => left.meaning reading - right.meaning reading
    | .mul => left.meaning reading * right.meaning reading

/-- What a condition says when `reading` tells what the names stand for. -/
def Cond.Holds (reading : String → Int) : Cond → Prop
  | compare left c right =>
    match c with
    | .le => left.meaning reading ≤ right.meaning reading
    | .ge => right.meaning reading ≤ left.meaning reading
    | .lt => left.meaning reading < right.meaning reading
    | .gt => right.meaning reading < left.meaning reading
    | .eq => left.meaning reading = right.meaning reading
  | not operand => ¬operand.Holds reading
  | combine left c right =>
    match c with
    | .and => left.Holds reading ∧ right.Holds reading
    | .or => left.Holds reading ∨ right.Holds reading

/-- Evaluation that leaves out the right side of a combination which the left side has decided. -/
def Cond.evalLazily (env : Env) : Cond → Except Unbound Bool
  | compare left c right => (compare left c right).eval env
  | not operand => do
    let a ← operand.evalLazily env
    return !a
  | combine left c right => do
    let a ← left.evalLazily env
    match c, a with
    | .and, false => return false
    | .or, true => return true
    | _, _ => right.evalLazily env

/-- The variables called `names` have the values that `reading` tells. -/
def ReadAs (env : Env) (names : List String) (reading : String → Int) : Prop :=
  ∀ name ∈ names, env.get? name = some (reading name)

/-- The outcome of an evaluation that needs the variables called `names`. -/
inductive Accounts (env : Env) (names : List String) (Means : (String → Int) → α → Prop) :
    Except Unbound α → Prop
  | ok {a : α} (bound : ∀ name ∈ names, env.get? name ≠ none)
      (means : ∀ reading, ReadAs env names reading → Means reading a) :
      Accounts env names Means (.ok a)
  | error {name : String} (first : env.FirstMissing names name) :
      Accounts env names Means (.error ⟨name⟩)

section Parts
variable {env env' : Env} {names more : List String} {name : String}
variable {Means : (String → Int) → α → Prop} {Means' : (String → Int) → β → Prop}
variable {Joined : (String → Int) → γ → Prop}

/-- Two parts, evaluated one after the other and put together. -/
theorem Accounts.both {first : Except Unbound α} {second : Except Unbound β} {join : α → β → γ}
    (left : Accounts env names Means first) (right : Accounts env more Means' second)
    (joins : ∀ reading a b, Means reading a → Means' reading b → Joined reading (join a b)) :
    Accounts env (names ++ more) Joined (do let a ← first; let b ← second; return join a b) := by
  cases left with
  | error unbound => exact .error (unbound.append more)
  | ok bound means =>
    cases right with
    | error unbound => exact .error (unbound.behind bound)
    | ok bound' means' =>
      refine .ok ?_ ?_
      · intro name member
        rcases List.mem_append.mp member with member | member
        · exact bound name member
        · exact bound' name member
      · intro reading reads
        refine joins reading _ _ (means reading ?_) (means' reading ?_)
        · exact fun name member => reads name (List.mem_append_left more member)
        · exact fun name member => reads name (List.mem_append_right names member)

theorem Accounts.fails_iff {outcome : Except Unbound α}
    (accounts : Accounts env names Means outcome) :
    (∃ u, outcome = .error u) ↔ ∃ name ∈ names, env.get? name = none := by
  cases accounts with
  | ok bound means =>
    constructor
    · rintro ⟨u, failure⟩
      cases failure
    · rintro ⟨name, member, unbound⟩
      exact absurd unbound (bound name member)
  | error first => exact ⟨fun _ => first.exists_mem, fun _ => ⟨_, rfl⟩⟩

theorem Accounts.firstMissing {u : Unbound} (accounts : Accounts env names Means (.error u)) :
    env.FirstMissing names u.name := by
  cases accounts with
  | error first => exact first

theorem Accounts.exists_value {outcome : Except Unbound α} {reading : String → Int}
    (accounts : Accounts env names Means outcome) (reads : ReadAs env names reading) :
    ∃ a, outcome = .ok a ∧ Means reading a := by
  cases accounts with
  | ok bound means => exact ⟨_, rfl, means reading reads⟩
  | error first =>
    obtain ⟨name, member, unbound⟩ := first.exists_mem
    rw [reads name member] at unbound
    cases unbound

theorem Expr.accounts_eval (env : Env) (e : Expr) :
    Accounts env e.variables (fun reading n => n = e.meaning reading) (e.eval env) := by
  induction e with
  | int n => exact .ok (by simp [Expr.variables]) fun _ _ => rfl
  | var name =>
    cases found : env.get? name with
    | some n =>
      rw [eval, found]
      refine .ok ?_ ?_
      · simp [Expr.variables, found]
      · intro reading reads
        have same := reads name List.mem_cons_self
        rw [found] at same
        exact Option.some.inj same
    | none =>
      rw [eval, found]
      exact .error ⟨[], [], rfl, found, nofun⟩
  | binary left op right left_ih right_ih =>
    refine left_ih.both right_ih ?_
    rintro reading a b rfl rfl
    cases op <;> rfl

theorem Cond.accounts_eval (env : Env) (c : Cond) :
    Accounts env c.variables (fun reading b => b = true ↔ c.Holds reading) (c.eval env) := by
  induction c with
  | compare left c right =>
    refine (left.accounts_eval env).both (right.accounts_eval env) ?_
    rintro reading a b rfl rfl
    cases c <;> simp [Comparator.holds, Holds]
  | not operand ih =>
    rw [eval, Cond.variables]
    generalize operand.eval env = outcome at ih
    cases ih with
    | error unbound => exact .error unbound
    | ok bound means =>
      refine .ok bound fun reading reads => ?_
      rw [Bool.not_eq_true', ← Bool.not_eq_true, means reading reads, Holds]
  | combine left c right left_ih right_ih =>
    refine left_ih.both right_ih ?_
    intro reading a b left right
    cases c <;> simp [Combiner.apply, Holds, left, right]

end Parts

section Locality
variable {env env' : Env}

theorem Expr.eval_congr {e : Expr}
    (agree : ∀ name ∈ e.variables, env.get? name = env'.get? name) : e.eval env = e.eval env' := by
  induction e with
  | int n => rfl
  | var name => rw [eval, eval, agree name List.mem_cons_self]
  | binary left op right left_ih right_ih =>
    rw [eval, eval, left_ih fun name member => agree name (List.mem_append_left _ member),
      right_ih fun name member => agree name (List.mem_append_right _ member)]

theorem Cond.eval_congr {c : Cond}
    (agree : ∀ name ∈ c.variables, env.get? name = env'.get? name) : c.eval env = c.eval env' := by
  induction c with
  | compare left c right =>
    rw [eval, eval,
      Expr.eval_congr fun name member => agree name (List.mem_append_left _ member),
      Expr.eval_congr fun name member => agree name (List.mem_append_right _ member)]
  | not operand ih => rw [eval, eval, ih agree]
  | combine left c right left_ih right_ih =>
    rw [eval, eval, left_ih fun name member => agree name (List.mem_append_left _ member),
      right_ih fun name member => agree name (List.mem_append_right _ member)]

end Locality

/-- Evaluation of a tree with the variables called `names`, as a function of the values that are
set: it fails if and only if one of them has none, and then for the first of them, it gives what the
tree means otherwise, and it reads nothing else. -/
structure EvaluatesExactly (names : List String) (eval : Env → Except Unbound α)
    (Means : (String → Int) → α → Prop) : Prop where
  fails_iff : ∀ env, (∃ u, eval env = .error u) ↔ ∃ name ∈ names, env.get? name = none
  names_first : ∀ env u, eval env = .error u → env.FirstMissing names u.name
  gives_meaning : ∀ env reading, ReadAs env names reading →
    ∃ a, eval env = .ok a ∧ Means reading a
  reads_only : ∀ env env', (∀ name ∈ names, env.get? name = env'.get? name) →
    eval env = eval env'

theorem evaluatesExactly_of_accounts {names : List String} {eval : Env → Except Unbound α}
    {Means : (String → Int) → α → Prop} (accounts : ∀ env, Accounts env names Means (eval env))
    (congr : ∀ env env', (∀ name ∈ names, env.get? name = env'.get? name) → eval env = eval env') :
    EvaluatesExactly names eval Means where
  fails_iff env := (accounts env).fails_iff
  names_first env u failure := by
    have outcome := accounts env
    rw [failure] at outcome
    exact outcome.firstMissing
  gives_meaning env _ reads := (accounts env).exists_value reads
  reads_only := congr

/-- Where evaluation gives a value, leaving out what cannot matter gives the same. -/
theorem Cond.evalLazily_of_eval {env : Env} {c : Cond} {b : Bool} (value : c.eval env = .ok b) :
    c.evalLazily env = .ok b := by
  induction c generalizing b with
  | compare left c right => exact value
  | not operand ih =>
    cases inner : operand.eval env with
    | error u => simp [eval, inner, bind, Except.bind] at value
    | ok a =>
      rw [eval, inner] at value
      rw [evalLazily, ih inner]
      exact value
  | combine left c right left_ih right_ih =>
    cases first : left.eval env with
    | error u => simp [eval, first, bind, Except.bind] at value
    | ok a =>
      cases second : right.eval env with
      | error u => simp [eval, first, second, bind, Except.bind] at value
      | ok a' =>
        rw [eval, first, second] at value
        rw [evalLazily, left_ih first]
        cases value
        -- either the left side decides or the result is that of the right side
        cases c with
        | and =>
          cases a with
          | false => rfl
          | true => exact right_ih second
        | or =>
          cases a with
          | false => exact right_ih second
          | true => rfl

namespace Tree

/-- Induction on a tree along its evaluation: it stands for a value, it negates or joins what its
parts stand for, or it has no value. -/
@[elab_as_elim]
theorem eval_induction {motive : Tree → Prop}
    (value : ∀ v isVariable, motive (node .value [v, isVariable]))
    (negation : ∀ operand, motive operand → motive (node .negation [operand]))
    (operation : ∀ label left op right,
      (∀ env, (node label [left, text op, right]).eval env = do
        let a ← left.eval env
        let b ← right.eval env
        reported (joinValues label op a b)) →
      motive left → motive right → motive (node label [left, text op, right]))
    (none : ∀ t m, (∀ env, t.eval env = .error (.misuse m)) → motive t) (t : Tree) : motive t := by
  fun_induction eval Bindings.empty t with
  | case1 v isVariable | case2 v isVariable | case3 v isVariable => exact value v isVariable
  | case4 parts => exact none _ .abstract fun env => by rw [eval]
  | case5 operand ih => exact negation operand ih
  | case6 k parts => exact none _ _ fun env => by rw [eval, noValue]
  | case7 label left op right abstract instruction left_ih right_ih =>
    refine operation label left op right (fun env => ?_) left_ih right_ih
    rw [eval]
    · exact abstract
    · exact instruction
  | case8 t =>
    refine none t (.lacks t.sortName "evaluate") fun env => ?_
    rw [eval, noValue]
    all_goals assumption

/-- The variables of expressions, as variables of trees. -/
def Env.ofVariables (env : TurtleGraphics.Env) : Env :=
  ⟨env.entries.map fun entry => (text entry.1, .int entry.2)⟩

/-- The outcome of an evaluation, as that of a tree. -/
def answered (form : α → Value) : Except Unbound α → Except EvalFault Value
  | .ok a => .ok (form a)
  | .error u => .error (.unbound (text u.name))

theorem get?_ofVariables (env : TurtleGraphics.Env) (name : String) :
    (Env.ofVariables env).get? (text name) = (env.get? name).map .int := by
  obtain ⟨entries⟩ := env
  simp only [Env.ofVariables, Bindings.get?]
  induction entries with
  | nil => rfl
  | cons entry rest ih =>
    have same : (text name == text entry.1) = (name == entry.1) := rfl
    rw [List.map_cons, List.lookup_cons, List.lookup_cons, same, ih]
    cases name == entry.1 <;> rfl

theorem compareValues_int (c : Comparator) (m n : Int) :
    compareValues c (.int m) (.int n) = .ok (c.holds m n) := by
  have order : ordering? (.int m) (.int n) = some (compare m n) := rfl
  rcases Int.lt_trichotomy m n with less | rfl | greater
  · rw [Int.compare_eq_lt.mpr less] at order
    cases c <;> simp [compareValues, order, Comparator.holds, Value.same, Value.toInt?] <;> omega
  · rw [Int.compare_eq_eq.mpr rfl] at order
    cases c <;> simp [compareValues, order, Comparator.holds, Value.same, Value.toInt?]
  · rw [Int.compare_eq_gt.mpr greater] at order
    cases c <;> simp [compareValues, order, Comparator.holds, Value.same, Value.toInt?] <;> omega

theorem joinValues_arithmetic (op : Operator) (m n : Int) :
    joinValues .arithmetic (String.ofList op.spelling) (.int m) (.int n) =
      .ok (.int (op.apply m n)) := by
  cases op <;> rfl

theorem joinValues_comparison (c : Comparator) (m n : Int) :
    joinValues .comparison (String.ofList c.spelling) (.int m) (.int n) =
      .ok (.bool (c.holds m n)) := by
  have spelled : ofSpelling? Comparator.spelling Comparator.all (String.ofList c.spelling) =
      some c := by
    cases c <;> rfl
  simp only [joinValues, spelled, compareValues_int, Except.map]

theorem joinValues_combination (c : Combiner) (a b : Bool) :
    joinValues .combination (String.ofList c.spelling) (.bool a) (.bool b) =
      .ok (.bool (c.apply a b)) := by
  cases c <;> rfl

/-- A node that joins two parts evaluates them in order, as an evaluation of parts that answer
alike. -/
theorem answered_both {env : Env} {label : Label} {op : String} {left right : Tree}
    {first second : Except Unbound α} {form : α → Value} {result : β → Value} {join : α → α → β}
    (joining : (node label [left, text op, right]).eval env = do
      let a ← left.eval env
      let b ← right.eval env
      reported (joinValues label op a b))
    (left_eq : left.eval env = answered form first)
    (right_eq : right.eval env = answered form second)
    (joined : ∀ a b, joinValues label op (form a) (form b) = .ok (result (join a b))) :
    (node label [left, text op, right]).eval env =
      answered result (do let a ← first; let b ← second; return join a b) := by
  rw [joining, left_eq, right_eq]
  cases first with
  | error u => rfl
  | ok a =>
    cases second with
    | error u => rfl
    | ok b =>
      have together := joined a b
      simp only [answered, bind, Except.bind, together, reported, pure, Except.pure]

theorem eval_ofExpr (env : TurtleGraphics.Env) (e : Expr) :
    (ofExpr e).eval (Env.ofVariables env) = answered .int (e.eval env) := by
  induction e with
  | int n => rfl
  | var name =>
    have isVariable : (Value.ofTree (bool true)).truth = true := rfl
    rw [Expr.eval, ofExpr, eval, if_pos isVariable, get?_ofVariables]
    cases env.get? name <;> rfl
  | binary left op right left_ih right_ih =>
    exact answered_both (by simp [eval]) left_ih right_ih (joinValues_arithmetic op)

theorem eval_ofCond (env : TurtleGraphics.Env) (c : Cond) :
    (ofCond c).eval (Env.ofVariables env) = answered .bool (c.eval env) := by
  induction c with
  | compare left c right =>
    exact answered_both (by simp [eval]) (eval_ofExpr env left) (eval_ofExpr env right)
      (joinValues_comparison c)
  | not operand ih =>
    rw [ofCond, eval, ih, Cond.eval]
    cases operand.eval env <;> rfl
  | combine left c right left_ih right_ih =>
    exact answered_both (by simp [eval]) left_ih right_ih (joinValues_combination c)

end Tree

/-- Expressions and conditions are evaluated exactly, eagerly and locally; leaving out sides of a
condition that are decided changes no value; and the trees of expressions and conditions are
evaluated like these. -/
theorem evaluation_exact_eager_local :
    (∀ e : Expr, EvaluatesExactly e.variables (fun env => e.eval env)
      fun reading n => n = e.meaning reading) ∧
    (∀ c : Cond, EvaluatesExactly c.variables (fun env => c.eval env)
      fun reading b => b = true ↔ c.Holds reading) ∧
    (∀ (env : Env) (c : Cond) (b : Bool), c.eval env = .ok b → c.evalLazily env = .ok b) ∧
    ∀ env : Env,
      (∀ e : Expr, (Tree.ofExpr e).eval (Tree.Env.ofVariables env) =
        Tree.answered .int (e.eval env)) ∧
      ∀ c : Cond, (Tree.ofCond c).eval (Tree.Env.ofVariables env) =
        Tree.answered .bool (c.eval env) := by
  refine ⟨?_, ?_, ?_, ?_⟩
  · intro e
    refine evaluatesExactly_of_accounts (fun env => e.accounts_eval env) ?_
    exact fun _ _ agree => Expr.eval_congr agree
  · intro c
    refine evaluatesExactly_of_accounts (fun env => c.accounts_eval env) ?_
    exact fun _ _ agree => Cond.eval_congr agree
  · intro env c b value
    exact Cond.evalLazily_of_eval value
  · intro env
    exact ⟨Tree.eval_ofExpr env, Tree.eval_ofCond env⟩

/-- Its left side decides, and its right side needs another variable. -/
def decidedLeft : Cond :=
  .combine (.compare (.var "a") .gt (.int 0)) .or (.compare (.var "b") .eq (.var "c"))

example : decidedLeft.evalLazily (Bindings.empty.set "a" 1) = .ok true := rfl

example : decidedLeft.eval (Bindings.empty.set "a" 1) = .error ⟨"b"⟩ := rfl

theorem decidedLeft_evalLazily :
    decidedLeft.eval (((Bindings.empty.set "a" 1).set "b" 2).set "c" 3) = .ok true ∧
      decidedLeft.evalLazily (((Bindings.empty.set "a" 1).set "b" 2).set "c" 3) = .ok true := by
  have value : decidedLeft.eval (((Bindings.empty.set "a" 1).set "b" 2).set "c" 3) = .ok true :=
    rfl
  exact ⟨value, evaluation_exact_eager_local.2.2.1 _ _ _ value⟩

end TurtleGraphics
