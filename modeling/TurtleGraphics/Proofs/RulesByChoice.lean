import Mathlib.Data.List.Forall2
import TurtleGraphics.Proofs.Alternatives
import TurtleGraphics.Proofs.Listing
import TurtleGraphics.Proofs.OrderedChoice
import TurtleGraphics.Tree.Conversion
/-!
The rules of the grammar as ordered choices over trees.

Each rule is written down as the steps of a choice: the matchers of its alternatives, and after them
a function that picks some of the values and puts a tree together. Such a function can fail, for a
value that is not there or parts that do not fit, and so can a step after it. With the matchers of
the parser in place of the rules that a rule refers to, no choice fails in these ways on any text:
it comes to the tree of what the parser reads.
-/
set_option autoImplicit false

namespace TurtleGraphics

open Text Lexeme

namespace Tree

open Choice (Alternative alternatives inOrder matchers reportFrom reshaped reshapings)

/-- Why no tree is made of what an alternative has produced. -/
inductive Unmade where
  /-- There is no value at this position. -/
  | missing (position : Nat)
  /-- There are several values where there should be one tree. -/
  | loose (values : List Tree)
  /-- There is one tree where there should be several values. -/
  | reshaped (t : Tree)
  | unbuilt (e : Tree.Fault)

abbrev Making : Type := Yield Tree Tree → Except Unmade Tree

abbrev Steps : Type := List (Choice.Step Tree Tree Unmade)

section Makings

def one : Making
  | .values vs => .error (.loose vs)
  | .shaped t => .ok t

def valueAt (position : Nat) : Making
  | .values vs =>
    match vs[position]? with
    | some t => .ok t
    | none => .error (.missing position)
  | .shaped t => .error (.reshaped t)

/-- A node of the values at these positions, and of `more` after them. -/
def nodeOf (label : Label) (positions : List Nat) (more : List Tree) : Making := fun y => do
  let parts ← positions.mapM fun position => valueAt position y
  (build label (parts ++ more)).mapError .unbuilt

/-- A node of the values that `choose` leaves of all values. -/
def nodeOfAll (label : Label) (choose : List Tree → List Tree) : Making
  | .values vs => (build label (choose vs)).mapError .unbuilt
  | .shaped t => .error (.reshaped t)

/-- All values but the first and the last. -/
def inner (values : List Tree) : List Tree := (values.drop 1).dropLast

end Makings

section Steps

def bracket (c : Char) : Matcher Tree := (symbol c).map fun d => ofSpelling [d]

def sign {α : Type} (spelling : α → List Char) (m : Matcher α) : Matcher Tree :=
  m.map fun a => ofSpelling (spelling a)

/-- The steps for a parenthesis behind its opening. -/
def group (m : Matcher Tree) : Steps := [.extend m, .extend (bracket ')')]

def valueSteps : Steps :=
  [.attempt (integer.map int), .reshape (nodeOf .value [0] []),
    .otherwise (word.map text), .reshape (nodeOf .value [0] [bool true])]

def atomSteps (expression value : Matcher Tree) : Steps :=
  .attempt (bracket '(') :: group expression ++ [.reshape (valueAt 1),
    .otherwise value, .reshape (valueAt 0)]

def expressionSteps (atom : Matcher Tree) : Steps :=
  [.attempt atom, .extend (sign Operator.spelling operator), .extend atom,
    .reshape (nodeOfAll .arithmetic id),
    .otherwise atom, .reshape (valueAt 0)]

def comparisonSteps (atom : Matcher Tree) : Steps :=
  [.attempt atom, .extend (sign Comparator.spelling comparator), .extend atom]

def logicSteps (logic comparison : Matcher Tree) : Steps :=
  .attempt (bracket '!') :: .extend (bracket '(') :: group logic ++
    [.reshape (nodeOf .negation [2] [])] ++
  .otherwise (bracket '(') :: group logic ++ .extend (sign Combiner.spelling combiner) ::
    .extend (bracket '(') :: group logic ++ [.reshape (nodeOf .combination [1, 3, 5] [])] ++
  [.otherwise comparison, .reshape (valueAt 0)] ++
  .otherwise (bracket '(') :: group logic ++ [.reshape (valueAt 1)]

/-- The matchers for the operands of a kind. -/
def operandMatchers : Instruction.Kind → List (Matcher Tree)
  | .move | .rotate => [Matcher.map ofExpr Expr.expression]
  | .set => [word.map text, Matcher.map ofExpr Expr.expression]
  | .conditional | .loop => [Matcher.map ofCond Cond.logic]
  | .lift | .place | .close | .blank => []

def formSteps (strict : Bool) (k : Instruction.Kind) (name : String) : Steps :=
  .otherwise (sign id (keyword strict name.toList)) ::
    (operandMatchers k).map .extend ++ [.extend (sign id endOfLine)]

def kindSteps (strict : Bool) (k : Instruction.Kind) : Steps :=
  match k.keywords with
  | [] => [.attempt (sign id endOfLine)]
  | names => names.flatMap (formSteps strict k)

/-- Puts an instruction together; the blank one of nothing. -/
def kindNode (k : Instruction.Kind) : Making :=
  match k.keywords with
  | [] => fun _ => (build (.instruction k) []).mapError .unbuilt
  | _ => nodeOfAll (.instruction k) inner

def lineSteps (strict : Bool) : Steps :=
  Instruction.Kind.all.map fun k =>
    .otherwise (Matcher.map ofInstruction (Instruction.ofKind strict k))

end Steps

/-- What a choice on `text` by these steps comes to, once `finish` has made a tree of what it has
produced. -/
def comesTo (finish : Making) (steps : Steps) (text : List Char) :
    Except (Choice.Fault Unmade) (Option (Tree × Nat)) :=
  match (Choice.ofText text).applyAll steps with
  | .ok c => (c.complete finish).mapError .failed
  | .error e => .error e

/-- The outcome of a matcher as a choice tells it. -/
def told {α : Type} : Outcome α → Except (Choice.Fault Unmade) (Option (α × Nat))
  | .matched a n => .ok (some (a, n))
  | .refused => .ok none
  | .overlong d => .error (.overlong d)

section Choices
variable {γ : Type} {text : List Char}

theorem verdict_eq {a : Alternative Tree Tree Unmade} {m : Matcher γ} {values : γ → List Tree}
    {y : γ → Yield Tree Tree} (ordered : inOrder (a.opener :: matchers a.links) = m.map values)
    (shape : ∀ c n, m text = .matched c n →
      reshaped (reshapings a.links) (.values (values c)) = .ok (y c)) :
    a.verdict text = told ((m.map y) text) := by
  rw [Alternative.verdict, ordered]
  simp only [Matcher.map]
  cases found : m text with
  | matched c n =>
    simp only [Outcome.map, shape c n found]
    rfl
  | refused => rfl
  | overlong d => rfl

/-- A choice whose alternatives are confirmed up to the last is the first of them that matches. -/
theorem reportFrom_eq_firstOf {alts : List (Alternative Tree Tree Unmade)}
    {ms : List (Matcher (Yield Tree Tree))}
    (verdicts : List.Forall₂ (fun a m => a.verdict text = told (m text)) alts ms)
    (confirmed : alts.dropLast.all (·.confirmed) = true) :
    (reportFrom text none alts).outcome = told (Matcher.firstOf ms text) := by
  induction verdicts with
  | nil => rfl
  | @cons a m rest others verdict tail ih =>
    rw [Matcher.firstOf, List.foldr_cons, Matcher.orElse]
    cases found : m text with
    | matched y n =>
      rw [found] at verdict
      have wins := Choice.wins_of_ok verdict
      rw [Option.isSome_some, Bool.and_true] at wins
      cases rest with
      | nil =>
        cases own : a.confirmed with
        | true =>
          rw [Choice.reportFrom_of_wins verdict (wins.trans own)]
          rfl
        | false =>
          rw [Choice.reportFrom_of_passed verdict (wins.trans own)]
          rfl
      | cons b more =>
        have own : a.confirmed = true := List.all_eq_true.mp confirmed a List.mem_cons_self
        rw [Choice.reportFrom_of_wins verdict (wins.trans own)]
        rfl
    | refused =>
      rw [found] at verdict
      have loses := Choice.wins_of_ok verdict
      rw [Option.isSome_none, Bool.and_false] at loses
      have later : rest.dropLast.all (·.confirmed) = true := by
        cases rest with
        | nil => rfl
        | cons c more =>
          rw [List.dropLast_cons_cons, List.all_cons, Bool.and_eq_true] at confirmed
          exact confirmed.2
      rw [Choice.reportFrom_of_passed verdict loses]
      exact ih later
    | overlong d =>
      rw [found] at verdict
      rw [Choice.reportFrom_of_error verdict]
      rfl

theorem comesTo_eq {steps : Steps} {finish : Making} {m : Matcher γ} {y : γ → Yield Tree Tree}
    {t : γ → Tree}
    (outcome : (reportFrom text none (alternatives steps)).outcome = told ((m.map y) text))
    (finishes : ∀ c n, m text = .matched c n → finish (y c) = .ok (t c)) :
    comesTo finish steps text = told ((m.map t) text) := by
  rw [← Choice.report_ofText, Choice.report_outcome] at outcome
  rw [comesTo]
  simp only [Matcher.map] at outcome ⊢
  cases taken : (Choice.ofText text).applyAll steps with
  | error e =>
    rw [taken] at outcome
    cases found : m text with
    | matched c n =>
      rw [found] at outcome
      cases outcome
    | refused =>
      rw [found] at outcome
      cases outcome
    | overlong d =>
      rw [found] at outcome
      cases outcome
      rfl
  | ok choice =>
    rw [taken] at outcome
    cases found : m text with
    | matched c n =>
      rw [found] at outcome
      have result : choice.result = some (y c, n) := Except.ok.inj outcome
      simp only [Choice.complete, result, finishes c n found]
      rfl
    | refused =>
      rw [found] at outcome
      have result : choice.result = none := Except.ok.inj outcome
      simp only [Choice.complete, result]
      rfl
    | overlong d =>
      rw [found] at outcome
      cases outcome

end Choices

section Values
variable {γ : Type}

theorem inOrder_one (m : Matcher γ) (f : γ → Tree) : inOrder [m.map f] = m.map fun c => [f c] := by
  simp only [inOrder, Matcher.map_succeed, Matcher.andThen_succeed, Matcher.map_map]
  rfl

theorem inOrder_cons (m : Matcher γ) (f : γ → Tree) (ms : List (Matcher Tree)) :
    inOrder (m.map f :: ms) = m.andThen fun c => (inOrder ms).map (f c :: ·) := by
  rw [inOrder, Matcher.andThen_map]

theorem bracket_eq (c : Char) : bracket c = (symbol c).map fun _ => ofSpelling [c] :=
  symbol_map c fun d => ofSpelling [d]

/-- The values of a parenthesis are the brackets and what stands between them. -/
theorem inOrder_between (m : Matcher γ) (f : γ → Tree) (ms : List (Matcher Tree)) :
    inOrder (bracket '(' :: m.map f :: bracket ')' :: ms) =
      (Matcher.between m).andThen fun c =>
        (inOrder ms).map fun vs => ofSpelling ['('] :: f c :: ofSpelling [')'] :: vs := by
  rw [bracket_eq, bracket_eq, inOrder_cons, inOrder_cons, inOrder_cons, Matcher.between,
    Matcher.andThen_assoc]
  simp only [Matcher.map_andThen, Matcher.andThen_assoc, Matcher.andThen_map, Matcher.map_map]
  rfl

theorem inOrder_group (m : Matcher γ) (f : γ → Tree) :
    inOrder [bracket '(', m.map f, bracket ')'] =
      (Matcher.between m).map fun c => [ofSpelling ['('], f c, ofSpelling [')']] := by
  rw [inOrder_between]
  simp only [inOrder, Matcher.map_succeed, Matcher.andThen_succeed]

/-- An operation is put together if what stands between its operands is one of the operators. -/
theorem buildOperation_eq {label : Label} {middle : String} {spellings : List (List Char)}
    {spelling : List Char} (left right : Tree) (listed : spelling ∈ spellings) :
    buildOperation label middle spellings [left, ofSpelling spelling, right] =
      .ok (node label [left, ofSpelling spelling, right]) := by
  have parts : partsFor (operationSignature label middle) [left, ofSpelling spelling, right] =
      .ok [left, ofSpelling spelling, right] := rfl
  have operator : isOneOf (ofSpelling spelling) spellings = true := by
    rw [ofSpelling, isOneOf, String.toList_ofList]
    exact List.elem_eq_true_of_mem listed
  simp only [buildOperation, parts, List.getElem?_cons_succ, List.getElem?_cons_zero,
    Option.getD_some, operator, if_true]

theorem build_arithmetic (left right : Expr) (op : Operator) :
    build .arithmetic [ofExpr left, ofSpelling op.spelling, ofExpr right] =
      .ok (ofExpr (.binary left op right)) :=
  buildOperation_eq _ _ (List.mem_map_of_mem (by cases op <;> decide))

theorem build_comparison (left right : Expr) (c : Comparator) :
    build .comparison [ofExpr left, ofSpelling c.spelling, ofExpr right] =
      .ok (ofCond (.compare left c right)) :=
  buildOperation_eq _ _ (List.mem_map_of_mem (by cases c <;> decide))

theorem build_combination (left right : Cond) (c : Combiner) :
    build .combination [ofCond left, ofSpelling c.spelling, ofCond right] =
      .ok (ofCond (.combine left c right)) :=
  buildOperation_eq _ _ (List.mem_map_of_mem (by cases c <;> decide))

end Values

section Rules
variable (text : List Char)

def shapedExpr (e : Expr) : Yield Tree Tree := .shaped (ofExpr e)

def shapedCond (c : Cond) : Yield Tree Tree := .shaped (ofCond c)

theorem value_comesTo :
    comesTo one valueSteps text = told (Matcher.map ofExpr Expr.value text) := by
  apply comesTo_eq (y := shapedExpr) ?_ (fun _ _ _ => rfl)
  have rule : Matcher.map shapedExpr Expr.value =
      .firstOf [integer.map (shapedExpr ∘ .int), word.map (shapedExpr ∘ .var)] := by
    simp only [Expr.value, Matcher.map_orElse, Matcher.map_map, Matcher.firstOf, List.foldr_cons,
      List.foldr_nil, Matcher.orElse_refuse]
  rw [rule]
  refine reportFrom_eq_firstOf (.cons ?_ (.cons ?_ .nil)) ?_
  · exact verdict_eq (inOrder_one integer int) fun _ _ _ => rfl
  · exact verdict_eq (inOrder_one word Tree.text) fun _ _ _ => rfl
  · rfl

theorem atom_comesTo :
    comesTo one (atomSteps (Matcher.map ofExpr Expr.expression) (Matcher.map ofExpr Expr.value))
      text = told (Matcher.map ofExpr Expr.atom text) := by
  apply comesTo_eq (y := shapedExpr) ?_ (fun _ _ _ => rfl)
  have rule : Matcher.map shapedExpr Expr.atom =
      .firstOf [(Matcher.between Expr.expression).map shapedExpr, Expr.value.map shapedExpr] := by
    rw [Expr.atom_eq_orElse]
    simp only [Matcher.map_orElse, Matcher.firstOf, List.foldr_cons, List.foldr_nil,
      Matcher.orElse_refuse]
  rw [rule]
  refine reportFrom_eq_firstOf (.cons ?_ (.cons ?_ .nil)) ?_
  · exact verdict_eq (inOrder_group Expr.expression ofExpr) fun _ _ _ => rfl
  · exact verdict_eq (inOrder_one Expr.value ofExpr) fun _ _ _ => rfl
  · rfl

/-- Two operands and what stands between them, as they are read. -/
def triple {α β : Type} (operand : Matcher α) (between : Matcher β) : Matcher (α × β × α) :=
  operand.andThen fun a => between.andThen fun b => operand.map fun c => (a, b, c)

theorem inOrder_triple {α β : Type} (operand : Matcher α) (between : Matcher β) (f : α → Tree)
    (g : β → Tree) :
    inOrder [operand.map f, between.map g, operand.map f] =
      (triple operand between).map fun t => [f t.1, g t.2.1, f t.2.2] := by
  rw [inOrder_cons, inOrder_cons, inOrder_one, triple]
  simp only [Matcher.map_andThen, Matcher.map_map]
  rfl

theorem expression_comesTo :
    comesTo one (expressionSteps (Matcher.map ofExpr Expr.atom)) text =
      told (Matcher.map ofExpr Expr.expression text) := by
  apply comesTo_eq (y := shapedExpr) ?_ (fun _ _ _ => rfl)
  have rule : Matcher.map shapedExpr Expr.expression =
      .firstOf [(triple Expr.atom operator).map fun t => shapedExpr (.binary t.1 t.2.1 t.2.2),
        Matcher.map shapedExpr Expr.atom] := by
    rw [Expr.expression_eq_orElse, triple]
    simp only [Matcher.map_orElse, Matcher.firstOf, List.foldr_cons, List.foldr_nil,
      Matcher.orElse_refuse, Matcher.map_andThen, Matcher.map_map]
    rfl
  rw [rule]
  refine reportFrom_eq_firstOf (.cons ?_ (.cons ?_ .nil)) ?_
  · refine verdict_eq (inOrder_triple Expr.atom operator ofExpr _) fun t n found => ?_
    change reshaped [.reshape (nodeOfAll .arithmetic id)] _ = _
    rw [reshaped, nodeOfAll, id, build_arithmetic]
    rfl
  · exact verdict_eq (inOrder_one Expr.atom ofExpr) fun _ _ _ => rfl
  · rfl

theorem comparison_comesTo :
    comesTo (nodeOfAll .comparison id) (comparisonSteps (Matcher.map ofExpr Expr.atom)) text =
      told (Matcher.map ofCond Cond.comparison text) := by
  have rule : Matcher.map ofCond Cond.comparison =
      (triple Expr.atom comparator).map fun t => ofCond (.compare t.1 t.2.1 t.2.2) := by
    rw [Cond.comparison, triple]
    simp only [Matcher.map_andThen, Matcher.map_map]
    rfl
  rw [rule]
  apply comesTo_eq (y := fun t =>
    .values [ofExpr t.1, ofSpelling (Comparator.spelling t.2.1), ofExpr t.2.2])
  · rw [← Matcher.orElse_refuse (Matcher.map _ (triple _ _))]
    refine reportFrom_eq_firstOf (.cons ?_ .nil) rfl
    exact verdict_eq (inOrder_triple Expr.atom comparator ofExpr _) fun _ _ _ => rfl
  · intro t n found
    rw [nodeOfAll, id, build_comparison]
    rfl

/-- Two conditions in parentheses and the combiner between them, as they are read. -/
def combination : Matcher (Cond × Combiner × Cond) := triple (Matcher.between Cond.logic) combiner

theorem inOrder_negation :
    inOrder [bracket '!', bracket '(', Matcher.map ofCond Cond.logic, bracket ')'] =
      (negator.andThen fun _ => Matcher.between Cond.logic).map fun c =>
        [ofSpelling ['!'], ofSpelling ['('], ofCond c, ofSpelling [')']] := by
  rw [bracket_eq '!', inOrder_cons, inOrder_group]
  simp only [Matcher.map_andThen, Matcher.map_map]
  rfl

theorem inOrder_combination :
    inOrder [bracket '(', Matcher.map ofCond Cond.logic, bracket ')',
        sign Combiner.spelling combiner, bracket '(', Matcher.map ofCond Cond.logic, bracket ')'] =
      combination.map fun t =>
        [ofSpelling ['('], ofCond t.1, ofSpelling [')'], ofSpelling t.2.1.spelling,
          ofSpelling ['('], ofCond t.2.2, ofSpelling [')']] := by
  rw [inOrder_between, sign, inOrder_cons, inOrder_group, combination, triple]
  simp only [Matcher.map_andThen, Matcher.map_map]
  rfl

theorem logic_comesTo :
    comesTo one
        (logicSteps (Matcher.map ofCond Cond.logic) (Matcher.map ofCond Cond.comparison)) text =
      told (Matcher.map ofCond Cond.logic text) := by
  apply comesTo_eq (y := shapedCond) ?_ (fun _ _ _ => rfl)
  have rule : Matcher.map shapedCond Cond.logic =
      .firstOf [(negator.andThen fun _ => Matcher.between Cond.logic).map (shapedCond ∘ .not),
        combination.map fun t => shapedCond (.combine t.1 t.2.1 t.2.2),
        Cond.comparison.map shapedCond, (Matcher.between Cond.logic).map shapedCond] := by
    refine (congrArg (Matcher.map shapedCond) Cond.logic_eq_firstOf).trans ?_
    rw [combination, triple]
    simp only [Matcher.map_orElse, Matcher.firstOf, List.foldr_cons, List.foldr_nil,
      Matcher.orElse_refuse, Matcher.map_andThen, Matcher.map_map]
    rfl
  rw [rule]
  refine reportFrom_eq_firstOf (.cons ?_ (.cons ?_ (.cons ?_ (.cons ?_ .nil)))) ?_
  · exact verdict_eq inOrder_negation fun _ _ _ => rfl
  · refine verdict_eq inOrder_combination fun t _ _ => ?_
    change reshaped [.reshape (nodeOf .combination [1, 3, 5] [])] _ = _
    have picked : nodeOf .combination [1, 3, 5] []
        (.values [ofSpelling ['('], ofCond t.1, ofSpelling [')'], ofSpelling t.2.1.spelling,
          ofSpelling ['('], ofCond t.2.2, ofSpelling [')']]) =
        (build .combination [ofCond t.1, ofSpelling t.2.1.spelling, ofCond t.2.2]).mapError
          .unbuilt := rfl
    rw [reshaped, picked, build_combination]
    rfl
  · exact verdict_eq (inOrder_one Cond.comparison ofCond) fun _ _ _ => rfl
  · exact verdict_eq (inOrder_group Cond.logic ofCond) fun _ _ _ => rfl
  · rfl

end Rules

section Instructions
variable {k : Instruction.Kind} {strict : Bool} {name : String} {text : List Char}

theorem inOrder_append (ms others : List (Matcher Tree)) :
    inOrder (ms ++ others) =
      (inOrder ms).andThen fun vs => (inOrder others).map (vs ++ ·) := by
  induction ms with
  | nil =>
    rw [inOrder, Matcher.succeed_andThen]
    exact (Matcher.map_id _).symm
  | cons m rest ih =>
    simp only [List.cons_append, inOrder, ih, Matcher.andThen_assoc, Matcher.andThen_map,
      Matcher.map_andThen, Matcher.map_map]
    rfl

def operandTrees : Instruction → List Tree
  | .move e | .rotate e => [ofExpr e]
  | .set name e => [Tree.text name, ofExpr e]
  | .conditional c | .loop c => [ofCond c]
  | .lift | .place | .close | .blank => []

theorem ofInstruction_eq (i : Instruction) :
    ofInstruction i = node (.instruction i.kind) (operandTrees i) := by
  cases i <;> rfl

theorem inOrder_operands (k : Instruction.Kind) :
    inOrder (operandMatchers k) = (Instruction.operands k).map operandTrees := by
  cases k with
  | move | rotate =>
    rw [operandMatchers, inOrder_one, Instruction.operands, Matcher.map_map]
    rfl
  | conditional | loop =>
    rw [operandMatchers, inOrder_one, Instruction.operands, Matcher.map_map]
    rfl
  | set =>
    rw [operandMatchers, inOrder_cons, inOrder_one, Instruction.operands, Matcher.map_andThen]
    simp only [Matcher.map_map]
    rfl
  | lift | place | close | blank => rfl

/-- A line of a kind as it is read: the keyword, the instruction and the comment. -/
def whole (strict : Bool) (k : Instruction.Kind) (name : String) :
    Matcher (List Char × Instruction × List Char) :=
  (keyword strict name.toList).andThen fun w =>
    (Instruction.operands k).andThen fun i => endOfLine.map fun r => (w, i, r)

def wholeValues (t : List Char × Instruction × List Char) : List Tree :=
  ofSpelling t.1 :: (operandTrees t.2.1 ++ [ofSpelling t.2.2])

theorem form_eq (strict : Bool) (k : Instruction.Kind) (name : String) :
    Instruction.form strict k name = (whole strict k name).map (·.2.1) := by
  simp only [Instruction.form, Instruction.tail, whole, Matcher.map_andThen, Matcher.map_map]
  rfl

theorem matchers_extends (ms : List (Matcher Tree)) (rest : List (Choice.Link Tree Tree Unmade)) :
    matchers (ms.map .extend ++ rest) = ms ++ matchers rest := by
  induction ms with
  | nil => rfl
  | cons m others ih => rw [List.map_cons, List.cons_append, matchers, ih, List.cons_append]

theorem reshapings_extends (ms : List (Matcher Tree))
    (rest : List (Choice.Link Tree Tree Unmade)) :
    reshapings (ms.map .extend ++ rest) = reshapings rest := by
  induction ms with
  | nil => rfl
  | cons m others ih => rw [List.map_cons, List.cons_append, reshapings, ih]

theorem inOrder_whole (strict : Bool) (k : Instruction.Kind) (name : String) :
    inOrder (sign id (keyword strict name.toList) :: (operandMatchers k ++ [sign id endOfLine])) =
      (whole strict k name).map wholeValues := by
  rw [sign, inOrder_cons, inOrder_append, inOrder_operands, sign, inOrder_one, whole]
  simp only [Matcher.map_andThen, Matcher.andThen_map, Matcher.map_map]
  rfl

theorem form_verdict {a : Alternative Tree Tree Unmade}
    (opener : a.opener = sign id (keyword strict name.toList))
    (links : a.links = (operandMatchers k).map .extend ++ [.extend (sign id endOfLine)]) :
    a.verdict text = told ((whole strict k name).map (fun t => .values (wholeValues t)) text) := by
  have asked : matchers a.links = operandMatchers k ++ [sign id endOfLine] := by
    rw [links, matchers_extends]
    rfl
  have unshaped : reshapings a.links = [] := by
    rw [links, reshapings_extends]
    rfl
  have ordered :
      inOrder (a.opener :: matchers a.links) = (whole strict k name).map wholeValues := by
    rw [opener, asked, inOrder_whole]
  apply verdict_eq ordered
  intro t n found
  rw [unshaped]
  rfl

theorem build_operandTrees {i : Instruction} (kind : i.kind = k) :
    build (.instruction k) (operandTrees i) = .ok (ofInstruction i) := by
  subst kind
  rw [ofInstruction_eq, build, buildPlain, if_pos]
  cases i <;> rfl

theorem kindNode_eq {i : Instruction} (w r : Tree) (worded : k.keywords ≠ []) (kind : i.kind = k) :
    kindNode k (.values (w :: (operandTrees i ++ [r]))) = .ok (ofInstruction i) := by
  rw [kindNode]
  cases listed : k.keywords with
  | nil => exact absurd listed worded
  | cons name short =>
    dsimp only
    rw [nodeOfAll, inner, List.drop_succ_cons, List.drop_zero, List.dropLast_concat,
      build_operandTrees kind]
    rfl

theorem kind_of_whole {t : List Char × Instruction × List Char} {n : Nat}
    (found : whole strict k name text = .matched t n) : t.2.1.kind = k := by
  obtain ⟨w, _, _, -, rest⟩ := exists_of_andThen found
  obtain ⟨i, _, _, operands, ending⟩ := exists_of_andThen rest
  obtain ⟨r, -, rfl⟩ := exists_of_map ending
  exact Instruction.kind_of_operands operands

theorem kind_comesTo (strict : Bool) (k : Instruction.Kind) (text : List Char) :
    comesTo (kindNode k) (kindSteps strict k) text =
      told (Matcher.map ofInstruction (Instruction.ofKind strict k) text) := by
  by_cases bare : k.keywords = []
  · obtain rfl : k = .blank := by
      cases k <;> first | rfl | cases bare
    have rule : Matcher.map ofInstruction (Instruction.ofKind strict .blank) =
        endOfLine.map fun _ => ofInstruction .blank := by
      change Matcher.map ofInstruction (Instruction.tail .blank) = _
      rw [Instruction.tail, Instruction.operands, Matcher.succeed_andThen, Matcher.map_map]
      rfl
    rw [rule]
    apply comesTo_eq (y := fun r => .values [ofSpelling r])
    · rw [← Matcher.orElse_refuse (Matcher.map _ endOfLine)]
      refine reportFrom_eq_firstOf (.cons ?_ .nil) rfl
      exact verdict_eq (inOrder_one endOfLine ofSpelling) fun _ _ _ => rfl
    · intro r n found
      rfl
  · have rule : Matcher.map ofInstruction (Instruction.ofKind strict k) =
        (Matcher.firstOf (k.keywords.map (whole strict k))).map fun t => ofInstruction t.2.1 := by
      rw [Instruction.ofKind_eq_firstOf bare, Matcher.map_firstOf, Matcher.map_firstOf,
        List.map_map, List.map_map]
      congr 2
      funext name
      rw [Function.comp_apply, form_eq, Matcher.map_map]
      rfl
    rw [rule]
    apply comesTo_eq (y := fun t => .values (wholeValues t))
    · rw [Matcher.map_firstOf, List.map_map]
      cases k with
      | blank => exact absurd rfl bare
      | move | rotate | lift | place | set | close =>
        exact reportFrom_eq_firstOf
          (.cons (form_verdict rfl rfl) (.cons (form_verdict rfl rfl) .nil)) rfl
      | conditional | loop => exact reportFrom_eq_firstOf (.cons (form_verdict rfl rfl) .nil) rfl
    · intro t n found
      obtain ⟨m, inside, success⟩ := exists_of_firstOf found
      obtain ⟨name, -, rfl⟩ := List.mem_map.mp inside
      exact kindNode_eq _ _ bare (kind_of_whole success)

theorem verdicts_otherwise (ms : List (Matcher Tree)) (text : List Char) :
    List.Forall₂ (fun a m => a.verdict text = told (m text))
      (alternatives (ms.map Choice.Step.otherwise : Steps))
      (ms.map fun m => m.map fun t => .values [t]) := by
  induction ms with
  | nil => exact .nil
  | cons m rest ih =>
    have none : Choice.links (rest.map Choice.Step.otherwise : Steps) = [] := by
      cases rest <;> rfl
    have ordered : inOrder (m :: matchers (Choice.links (rest.map Choice.Step.otherwise : Steps))) =
        m.map fun t => [t] := by
      rw [none]
      simp only [matchers, inOrder, Matcher.map_succeed, Matcher.andThen_succeed]
    refine .cons (verdict_eq ordered ?_) ih
    intro t n found
    dsimp only
    rw [none]
    rfl

theorem confirmed_otherwise (ms : List (Matcher Tree)) :
    (alternatives (ms.map Choice.Step.otherwise : Steps)).dropLast.all (·.confirmed) = true := by
  induction ms with
  | nil => rfl
  | cons m rest ih =>
    cases rest with
    | nil => rfl
    | cons next more => exact ih

theorem line_comesTo (strict : Bool) (text : List Char) :
    comesTo (valueAt 0) (lineSteps strict) text =
      told (Matcher.map ofInstruction (Instruction.any strict) text) := by
  have rule : Matcher.map ofInstruction (Instruction.any strict) =
      (Matcher.firstOf (Instruction.Kind.all.map fun k =>
        Matcher.map ofInstruction (Instruction.ofKind strict k))).map fun t => t := by
    rw [Matcher.map_id, Instruction.any, Instruction.among, Matcher.map_firstOf, List.map_map]
    rfl
  rw [rule]
  apply comesTo_eq (y := fun t => .values [t])
  · rw [Matcher.map_firstOf]
    have steps : lineSteps strict = (Instruction.Kind.all.map fun k =>
        Matcher.map ofInstruction (Instruction.ofKind strict k)).map .otherwise := by
      rw [lineSteps, List.map_map]
      rfl
    rw [steps]
    exact reportFrom_eq_firstOf (verdicts_otherwise _ text) (confirmed_otherwise _)
  · intro t n found
    rfl

end Instructions

/-- The choices by which the grammar is written, on a text. Each comes to what the parser makes of
the text, and so to a tree, to nothing or to a numeral that is too long. -/
structure ByChoice (strict : Bool) (text : List Char) : Prop where
  value : comesTo one valueSteps text = told (Matcher.map ofExpr Expr.value text)
  atom : comesTo one
      (atomSteps (Matcher.map ofExpr Expr.expression) (Matcher.map ofExpr Expr.value)) text =
    told (Matcher.map ofExpr Expr.atom text)
  expression : comesTo one (expressionSteps (Matcher.map ofExpr Expr.atom)) text =
    told (Matcher.map ofExpr Expr.expression text)
  comparison :
    comesTo (nodeOfAll .comparison id) (comparisonSteps (Matcher.map ofExpr Expr.atom)) text =
      told (Matcher.map ofCond Cond.comparison text)
  logic : comesTo one
      (logicSteps (Matcher.map ofCond Cond.logic) (Matcher.map ofCond Cond.comparison)) text =
    told (Matcher.map ofCond Cond.logic text)
  kind : ∀ k, comesTo (kindNode k) (kindSteps strict k) text =
    told (Matcher.map ofInstruction (Instruction.ofKind strict k) text)
  line : comesTo (valueAt 0) (lineSteps strict) text =
    told (Matcher.map ofInstruction (Instruction.any strict) text)

theorem byChoice (strict : Bool) (text : List Char) : ByChoice strict text where
  value := value_comesTo text
  atom := atom_comesTo text
  expression := expression_comesTo text
  comparison := comparison_comesTo text
  logic := logic_comesTo text
  kind := fun k => kind_comesTo strict k text
  line := line_comesTo strict text

end Tree

end TurtleGraphics
