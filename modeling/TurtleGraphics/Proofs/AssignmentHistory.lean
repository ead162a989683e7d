import TurtleGraphics.Drawing.Doubles
import TurtleGraphics.Proofs.Evaluation
import TurtleGraphics.Proofs.EventTrace
import TurtleGraphics.Proofs.TreeEquality
/-!
The variables of a machine are the history of its assignments.

A call of `step` changes the variables in one way: if it executes an instruction that sets one, that
variable gets the value which the instruction has computed from the variables before
(`env_afterCalls_succ`). So a variable has a value if some call has set it, and then that of the
last such call, whatever blocks and loops the machine went through. A variable that an error reports
is the first that its instruction reads and that no call has set.
-/
set_option autoImplicit false

namespace TurtleGraphics

namespace Bindings
variable {N V : Type} [BEq N] {b : Bindings N V} {name : N} {value : V}

/-- The bindings after an assignment, if there is one. -/
def assign (b : Bindings N V) : Option (N × V) → Bindings N V
  | some (name, value) => b.set name value
  | none => b

/-- No name is bound twice. -/
def Distinct (b : Bindings N V) : Prop :=
  b.entries.Pairwise fun first second => (first.1 == second.1) = false

theorem key_of_mem_setIn {entries : List (N × V)} {entry : N × V}
    (member : entry ∈ setIn name value entries) :
    entry.1 = name ∨ ∃ old ∈ entries, old.1 = entry.1 := by
  induction entries with
  | nil =>
    rw [setIn, List.mem_singleton] at member
    exact Or.inl (congrArg Prod.fst member)
  | cons first rest ih =>
    rw [setIn] at member
    split at member
    · rcases List.mem_cons.mp member with rfl | later
      · exact Or.inr ⟨first, List.mem_cons_self, rfl⟩
      · exact Or.inr ⟨entry, List.mem_cons_of_mem _ later, rfl⟩
    · rcases List.mem_cons.mp member with rfl | later
      · exact Or.inr ⟨first, List.mem_cons_self, rfl⟩
      · rcases ih later with own | ⟨old, inside, key⟩
        · exact Or.inl own
        · exact Or.inr ⟨old, List.mem_cons_of_mem _ inside, key⟩

theorem Distinct.set [EquivBEq N] (distinct : b.Distinct) (name : N) (value : V) :
    (b.set name value).Distinct := by
  obtain ⟨entries⟩ := b
  simp only [Distinct, Bindings.set] at distinct ⊢
  induction entries with
  | nil => exact List.pairwise_singleton _ _
  | cons first rest ih =>
    obtain ⟨apart, others⟩ := List.pairwise_cons.mp distinct
    rw [setIn]
    split
    · exact List.pairwise_cons.mpr ⟨apart, others⟩
    · rename_i differs
      refine List.pairwise_cons.mpr ⟨?_, ih others⟩
      intro entry member
      rcases key_of_mem_setIn member with own | ⟨old, inside, key⟩
      · rw [own, BEq.comm]
        exact Bool.eq_false_iff.mpr differs
      · rw [← key]
        exact apart old inside

theorem Distinct.assign [EquivBEq N] (distinct : b.Distinct) (assignment : Option (N × V)) :
    (b.assign assignment).Distinct := by
  cases assignment with
  | none => exact distinct
  | some pair => exact distinct.set pair.1 pair.2

end Bindings

namespace Machine

variable {ι N V ε P H : Type}

/-- The variables after an action that is performed while they are `before`. -/
def Action.env {E : Type} (before : E) : Action E ε → E
  | assign env => env
  | _ => before

theorem Performed.env {E : Type} {lang : Language ι E ε} {plane : Plane P H} {program : Program ι}
    {s s' : State E P H} {action : Action E ε}
    (performed : Performed lang plane program s action s') : s'.env = action.env s.env := by
  cases performed <;> rfl

/-- How instructions use variables. -/
structure VariableUse (ι N V : Type) where
  /-- The variable that an instruction sets, with the value that it computes. -/
  assigned? : Bindings N V → ι → Option (N × V)
  /-- The names of the variables that an instruction reads, in order. -/
  reads : ι → List N
  /-- How an error calls a variable. -/
  write : N → String

section History
variable [BEq N]

/-- The instructions of a language use variables in this way and in no other. -/
structure UsesVariables (lang : Language ι (Bindings N V) ε) (use : VariableUse ι N V) : Prop where
  blank : lang.blank = .empty
  assigns : ∀ env i action, lang.action env i = .ok action →
    action.env env = env.assign (use.assigned? env i)
  unbound : ∀ env i text, lang.action env i = .error (.unbound text) →
    ∃ name, use.write name = text ∧ env.FirstMissing (use.reads i) name

/-- The assignment that is completed by the call of `step` after so many others. -/
def completed? (use : VariableUse ι N V) (lang : Language ι (Bindings N V) ε) (plane : Plane P H)
    (program : Program ι) (limit : Int) (call : Nat) : Option (N × V) :=
  (executed? lang plane program limit (afterCalls lang plane program limit call)).bind
    (use.assigned? (afterCalls lang plane program limit call).env)

/-- The call of `step` after so many others sets the variable called `name`. -/
def SetsAt (use : VariableUse ι N V) (lang : Language ι (Bindings N V) ε) (plane : Plane P H)
    (program : Program ι) (limit : Int) (call : Nat) (name : N) (value : V) : Prop :=
  ∃ own, completed? use lang plane program limit call = some (own, value) ∧ (name == own) = true

/-- Among so many calls, `value` is what the last one that sets the variable gives it. -/
def LastSet (sets : Nat → N → V → Prop) (calls : Nat) (name : N) (value : V) : Prop :=
  ∃ call < calls, sets call name value ∧
    ∀ later, call < later → later < calls → ∀ other, ¬sets later name other

/-- Among the variables that `reads` calls, one that errors call `text` has never been set, and all
before it have been. -/
def FirstUnset (sets : Nat → N → V → Prop) (calls : Nat) (reads : List N) (write : N → String)
    (text : String) : Prop :=
  ∃ before name after, reads = before ++ name :: after ∧ write name = text ∧
    (∀ call < calls, ∀ value, ¬sets call name value) ∧
    ∀ other ∈ before, ∃ call < calls, ∃ value, sets call other value

/-- The variables are what the assignments so far have made of them, and errors call the first
variable that none of them has set. -/
structure RecallsAssignments (use : VariableUse ι N V) (lang : Language ι (Bindings N V) ε)
    (plane : Plane P H) (program : Program ι) (limit : Int) : Prop where
  bound_iff : ∀ calls name value,
    (afterCalls lang plane program limit calls).env.get? name = some value ↔
      LastSet (SetsAt use lang plane program limit) calls name value
  unbound_iff : ∀ calls name,
    (afterCalls lang plane program limit calls).env.get? name = none ↔
      ∀ call < calls, ∀ value, ¬SetsAt use lang plane program limit call name value
  distinct : ∀ calls, (afterCalls lang plane program limit calls).env.Distinct
  step_reports : ∀ calls error after message text,
    step lang plane program limit (afterCalls lang plane program limit calls) =
        .failed (.run error) after →
      error.cause.report = .evaluation message (some text) →
      ∃ i, program.get? (afterCalls lang plane program limit calls).index = some i ∧
        FirstUnset (SetsAt use lang plane program limit) calls (use.reads i) use.write text
  run_reports : ∀ error after message text,
    run lang plane program limit (start lang plane) = .failed (.run error) after →
      error.cause.report = .evaluation message (some text) →
      ∃ calls i, after = afterCalls lang plane program limit (calls + 1) ∧
        program.get? (afterCalls lang plane program limit calls).index = some i ∧
        FirstUnset (SetsAt use lang plane program limit) calls (use.reads i) use.write text

variable {use : VariableUse ι N V} {lang : Language ι (Bindings N V) ε} {plane : Plane P H}
variable {program : Program ι} {limit : Int} {call calls : Nat} {name : N}
variable {value : V}

/-- A call of `step` completes an assignment or leaves the variables as they are. -/
theorem env_afterCalls_succ (uses : UsesVariables lang use) (call : Nat) :
    (afterCalls lang plane program limit (call + 1)).env =
      (afterCalls lang plane program limit call).env.assign
        (completed? use lang plane program limit call) := by
  rw [afterCalls, completed?, executed?]
  cases outcome : step lang plane program limit (afterCalls lang plane program limit call) with
  | next s' =>
    obtain ⟨-, -, i, action, fetched, meaning, performed⟩ := step_eq_next outcome
    simp only [fetched, Option.bind_some]
    rw [← uses.assigns _ i action meaning]
    exact performed.env
  | failed fault s' =>
    rcases state_of_step_eq_failed outcome with rfl | rfl <;> rfl

section Lookup
variable [EquivBEq N]

theorem get?_of_setsAt (uses : UsesVariables lang use)
    (sets : SetsAt use lang plane program limit call name value) :
    (afterCalls lang plane program limit (call + 1)).env.get? name = some value := by
  obtain ⟨own, completed, called⟩ := sets
  rw [env_afterCalls_succ uses, completed, Bindings.assign, Bindings.get?_set, if_pos called]

theorem get?_of_not_setsAt (uses : UsesVariables lang use)
    (never : ∀ value, ¬SetsAt use lang plane program limit call name value) :
    (afterCalls lang plane program limit (call + 1)).env.get? name =
      (afterCalls lang plane program limit call).env.get? name := by
  rw [env_afterCalls_succ uses]
  cases completed : completed? use lang plane program limit call with
  | none => rfl
  | some pair =>
    have other : ¬(name == pair.1) = true := fun called => never pair.2 ⟨pair.1, completed, called⟩
    rw [Bindings.assign, Bindings.get?_set, if_neg other]

/-- A variable keeps its value through calls that do not set it. -/
theorem get?_stable (uses : UsesVariables lang use) {first last : Nat} (le : first ≤ last)
    (never : ∀ call, first ≤ call → call < last →
      ∀ value, ¬SetsAt use lang plane program limit call name value) :
    (afterCalls lang plane program limit last).env.get? name =
      (afterCalls lang plane program limit first).env.get? name := by
  induction le with
  | refl => rfl
  | @step last le ih =>
    rw [get?_of_not_setsAt uses (never last le (Nat.lt_succ_self last))]
    exact ih fun call late early => never call late (Nat.lt_succ_of_lt early)

theorem get?_of_lastSet (uses : UsesVariables lang use)
    (last : LastSet (SetsAt use lang plane program limit) calls name value) :
    (afterCalls lang plane program limit calls).env.get? name = some value := by
  obtain ⟨call, before, sets, later⟩ := last
  rw [get?_stable uses (Nat.succ_le_of_lt before) fun call late early => later call late early]
  exact get?_of_setsAt uses sets

theorem lastSet_of_get? (uses : UsesVariables lang use)
    (found : (afterCalls lang plane program limit calls).env.get? name = some value) :
    LastSet (SetsAt use lang plane program limit) calls name value := by
  induction calls with
  | zero =>
    rw [afterCalls, start, uses.blank] at found
    cases found
  | succ calls ih =>
    by_cases sets : ∃ other, SetsAt use lang plane program limit calls name other
    · obtain ⟨other, sets⟩ := sets
      rw [get?_of_setsAt uses sets, Option.some.injEq] at found
      subst found
      exact ⟨calls, Nat.lt_succ_self calls, sets, fun later late early => by omega⟩
    · have never := not_exists.mp sets
      rw [get?_of_not_setsAt uses never] at found
      obtain ⟨call, before, sets, latest⟩ := ih found
      refine ⟨call, Nat.lt_succ_of_lt before, sets, ?_⟩
      intro later late early
      rcases Nat.lt_succ_iff_lt_or_eq.mp early with early | rfl
      · exact latest later late early
      · exact never

theorem get?_eq_none_iff (uses : UsesVariables lang use) :
    (afterCalls lang plane program limit calls).env.get? name = none ↔
      ∀ call < calls, ∀ value, ¬SetsAt use lang plane program limit call name value := by
  constructor
  · intro unbound call before value sets
    -- what was set once may be set again, but stays bound
    have bound : (afterCalls lang plane program limit calls).env.get? name ≠ none := by
      have late := Nat.succ_le_of_lt before
      clear before
      induction late with
      | refl =>
        rw [get?_of_setsAt uses sets]
        exact Option.some_ne_none value
      | @step calls le ih =>
        by_cases again : ∃ other, SetsAt use lang plane program limit calls name other
        · obtain ⟨other, again⟩ := again
          rw [get?_of_setsAt uses again]
          exact Option.some_ne_none other
        · rw [get?_of_not_setsAt uses (not_exists.mp again)] at unbound ⊢
          exact ih unbound
    exact bound unbound
  · intro never
    rw [get?_stable uses (Nat.zero_le calls) fun call _ early => never call early, afterCalls,
      start, uses.blank]
    rfl

theorem distinct_afterCalls (uses : UsesVariables lang use) (calls : Nat) :
    (afterCalls lang plane program limit calls).env.Distinct := by
  induction calls with
  | zero =>
    rw [afterCalls, start, uses.blank]
    exact .nil
  | succ calls ih =>
    rw [env_afterCalls_succ uses]
    exact ih.assign _

theorem firstUnset_of_failed (uses : UsesVariables lang use) {error : RunError}
    {after : State (Bindings N V) P H} {message text : String}
    (failure : step lang plane program limit (afterCalls lang plane program limit calls) =
      .failed (.run error) after)
    (report : error.cause.report = .evaluation message (some text)) :
    ∃ i, program.get? (afterCalls lang plane program limit calls).index = some i ∧
      FirstUnset (SetsAt use lang plane program limit) calls (use.reads i) use.write text := by
  obtain ⟨i, fetched, meaning⟩ := (step_eq_failed failure).unbound report
  obtain ⟨name, called, before, rest, reads, missing, bound⟩ := uses.unbound _ i text meaning
  refine ⟨i, fetched, before, name, rest, reads, called, (get?_eq_none_iff uses).mp missing, ?_⟩
  intro other earlier
  obtain ⟨value, found⟩ := Option.ne_none_iff_exists'.mp (bound other earlier)
  obtain ⟨call, early, sets, -⟩ := lastSet_of_get? uses found
  exact ⟨call, early, value, sets⟩

theorem recallsAssignments (uses : UsesVariables lang use) (plane : Plane P H)
    (program : Program ι) (limit : Int) : RecallsAssignments use lang plane program limit where
  bound_iff _ _ _ := ⟨lastSet_of_get? uses, get?_of_lastSet uses⟩
  unbound_iff _ _ := get?_eq_none_iff uses
  distinct := distinct_afterCalls uses
  step_reports _ _ _ _ _ failure report := firstUnset_of_failed uses failure report
  run_reports error after message text failure report := by
    obtain ⟨calls, t, chain, ends⟩ := exists_endsAt_run lang plane program limit (start lang plane)
    obtain rfl := afterCalls_of_stepMany chain
    rw [failure] at ends
    cases ends with
    | failed running failed =>
      obtain ⟨i, fetched, unset⟩ := firstUnset_of_failed uses failed report
      refine ⟨calls, i, ?_, fetched, unset⟩
      rw [afterCalls, failed]
      rfl

end Lookup

end History

end Machine

namespace Instruction

def variableUse : Machine.VariableUse Instruction String Int where
  assigned? env
    | set name value =>
      match value.eval env with
      | .ok n => some (name, n)
      | .error _ => none
    | _ => none
  reads
    | move e | rotate e | set _ e => e.variables
    | conditional c | loop c => c.variables
    | lift | place | close | blank => []
  write := id

theorem eval_of_unbound {α β : Type} {value : Except Unbound α} {f : α → β} {text : String}
    (failure : (evaluated value).map f = .error (.unbound text)) : value = .error ⟨text⟩ := by
  cases value with
  | ok a => cases failure
  | error u =>
    cases failure
    rfl

theorem language_usesVariables : Machine.UsesVariables language variableUse where
  blank := rfl
  assigns env i action meaning := by
    cases does_of_action meaning with
    | set name value =>
      simp only [variableUse, value]
      rfl
    | move | rotate | lift | place | conditional | loop | close | blank => rfl
  unbound env i text meaning := by
    change Instruction.action env i = .error (.unbound text) at meaning
    refine ⟨text, rfl, ?_⟩
    cases i with
    | move e | rotate e | set name e =>
      have outcome := e.accounts_eval env
      rw [eval_of_unbound meaning] at outcome
      exact outcome.firstMissing
    | conditional c | loop c =>
      have outcome := c.accounts_eval env
      rw [eval_of_unbound meaning] at outcome
      exact outcome.firstMissing
    | lift | place | close | blank => cases meaning

end Instruction

namespace Tree

/-- The names of the variables that the evaluation of a tree reads, in order. -/
def namesRead : Tree → List Tree
  | node .value [v, isVariable] => if (Value.ofTree isVariable).truth then [v] else []
  | node .abstract _ => []
  | node .negation [operand] => operand.namesRead
  | node (.instruction _) _ => []
  | node _ [left, text _, right] => left.namesRead ++ right.namesRead
  | _ => []

/-- The outcome of an evaluation that reads the variables called `names`. -/
inductive Reads (env : Env) (names : List Tree) : Except EvalFault Value → Prop
  | ok {v : Value} (bound : ∀ name ∈ names, env.get? name ≠ none) : Reads env names (.ok v)
  | unbound {name : Tree} (first : env.FirstMissing names name) :
      Reads env names (.error (.unbound name))
  | misuse (m : Misuse) : Reads env names (.error (.misuse m))

theorem Reads.both {env : Env} {names more : List Tree} {first second : Except EvalFault Value}
    {join : Value → Value → Except Misuse Value} (left : Reads env names first)
    (right : Reads env more second) :
    Reads env (names ++ more) (do let a ← first; let b ← second; reported (join a b)) := by
  cases left with
  | unbound missing => exact .unbound (missing.append more)
  | misuse m => exact .misuse m
  | @ok a bound =>
    cases right with
    | unbound missing => exact .unbound (missing.behind bound)
    | misuse m => exact .misuse m
    | @ok b bound' =>
      simp only [bind, Except.bind]
      cases join a b with
      | error m => exact .misuse m
      | ok v =>
        refine .ok fun name member => ?_
        rcases List.mem_append.mp member with member | member
        · exact bound name member
        · exact bound' name member

theorem reads_eval (env : Env) (t : Tree) : Reads env t.namesRead (t.eval env) := by
  fun_induction eval env t with
  | case1 v isVariable named a found =>
    rw [namesRead, if_pos named]
    refine .ok fun name member => ?_
    rw [List.mem_singleton.mp member, found]
    exact Option.some_ne_none a
  | case2 v isVariable named missing =>
    rw [namesRead, if_pos named]
    exact .unbound ⟨[], [], rfl, missing, by simp⟩
  | case3 v isVariable plain =>
    rw [namesRead, if_neg plain]
    exact .ok (by simp)
  | case4 | case6 | case8 => exact .misuse _
  | case5 operand ih =>
    rw [namesRead]
    generalize operand.eval env = outcome at ih
    cases ih with
    | ok bound => exact .ok bound
    | unbound first => exact .unbound first
    | misuse m => exact .misuse m
  | case7 label left op right abstract instruction left_ih right_ih =>
    rw [namesRead]
    · exact left_ih.both right_ih
    · exact abstract
    · exact instruction

def variableUse : Machine.VariableUse Tree Tree Value where
  assigned? env
    | node (.instruction .set) [name, value] =>
      match value.eval env with
      | .ok v => some (name, v)
      | .error _ => none
    | _ => none
  reads
    | node (.instruction .set) [_, operand] => operand.namesRead
    | node (.instruction _) [operand] => operand.namesRead
    | _ => []
  write := write

theorem firstMissing_of_evaluated {env : Env} {t : Tree} {text : String}
    (failure : evaluated env t = .error (.unbound text)) :
    ∃ name, name.write = text ∧ env.FirstMissing t.namesRead name := by
  have reads := reads_eval env t
  rw [evaluated] at failure
  generalize t.eval env = outcome at failure reads
  cases reads with
  | ok bound => cases failure
  | @unbound name first =>
    cases failure
    exact ⟨name, rfl, first⟩
  | misuse m => cases failure

theorem eq_error_of_map {α β ε : Type} {outcome : Except ε α} {f : α → β} {e : ε}
    (failure : outcome.map f = .error e) : outcome = .error e := by
  cases outcome with
  | ok a => cases failure
  | error e =>
    cases failure
    rfl

/-- An angle that has a value names no variable. -/
theorem eq_unbound_of_rotateBy {angle : Except (Machine.Failure Misuse) Value} {text : String}
    (failure : angle.bind rotateBy = .error (.unbound text)) : angle = .error (.unbound text) := by
  cases angle with
  | ok v =>
    simp only [Except.bind, rotateBy] at failure
    split at failure <;> cases failure
  | error e =>
    cases failure
    rfl

theorem language_usesVariables : Machine.UsesVariables language variableUse where
  blank := rfl
  assigns env t action meaning := by
    cases does_of_action meaning with
    | @move length v value =>
      rcases moveBy_eq v with ⟨n, same⟩ | ⟨m, same⟩ <;> rw [same] <;> rfl
    | set name value =>
      simp only [variableUse, value]
      rfl
    | rotate | lift | place | conditional | loop | close | blank => rfl
  unbound env t text meaning := by
    change Tree.action env t = .error (.unbound text) at meaning
    unfold Tree.action at meaning
    split at meaning
    · exact firstMissing_of_evaluated (eq_error_of_map meaning)
    · exact firstMissing_of_evaluated (eq_unbound_of_rotateBy meaning)
    · cases meaning
    · cases meaning
    · exact firstMissing_of_evaluated (eq_error_of_map meaning)
    · exact firstMissing_of_evaluated (eq_error_of_map meaning)
    · exact firstMissing_of_evaluated (eq_error_of_map meaning)
    · cases meaning
    · cases meaning
    · cases meaning

end Tree

/-- On every program, of instructions or of trees, the variables after any calls of `step` are those
that completed assignments have set, each with the value that the last of them has computed. If a
call or a run reports a variable, then no call before has set it, while all variables that its
instruction reads earlier have been set. -/
theorem environment_recalls_assignments {P H : Type} (plane : Plane P H) (limit : Int) :
    (∀ program : Program Instruction, Machine.RecallsAssignments Instruction.variableUse
      Instruction.language plane program limit) ∧
    ∀ program : Program Tree, Machine.RecallsAssignments Tree.variableUse Tree.language plane
      program limit :=
  ⟨fun program =>
      Machine.recallsAssignments Instruction.language_usesVariables plane program limit,
    fun program => Machine.recallsAssignments Tree.language_usesVariables plane program limit⟩

/-- A variable is set twice, the second time from its own value, and then a move also needs another
one. -/
def halfSet : Program Instruction :=
  ⟨[.set "x" (.int 1), .set "x" (.binary (.var "x") .add (.int 1)),
    .move (.binary (.var "x") .sub (.var "y"))], []⟩

example : (List.range 3).map (Machine.completed? Instruction.variableUse Instruction.language
    Plane.doubles halfSet 10) = [some ("x", 1), some ("x", 2), none] := by rfl

theorem halfSet_reports :
    (∃ after, Machine.step Instruction.language Plane.doubles halfSet 10
        (Machine.afterCalls Instruction.language Plane.doubles halfSet 10 2) =
      .failed (.run ⟨.unknownVariable "y", some 3⟩) after) ∧
    Machine.FirstUnset (Machine.SetsAt Instruction.variableUse Instruction.language Plane.doubles
      halfSet 10) 2 ["x", "y"] id "y" := by
  have recalls := (environment_recalls_assignments Plane.doubles 10).1 halfSet
  obtain ⟨i, fetched, unset⟩ := recalls.step_reports 2 ⟨.unknownVariable "y", some 3⟩ _ _ _ rfl rfl
  cases fetched
  exact ⟨⟨_, rfl⟩, unset⟩

end TurtleGraphics
