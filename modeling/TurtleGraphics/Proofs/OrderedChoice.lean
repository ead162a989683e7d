import TurtleGraphics.Matcher.Choice
/-!
Ordered choice, told by its alternatives.

A list of steps is cut into alternatives, a new one at each `attempt` and each `otherwise`. An
alternative has a verdict of its own: its matchers in order, then its reshapings in order. The main
statement is that the steps come to the first alternative that succeeds and is followed by an
`otherwise`, or else to the last one, and that nothing is called but what the alternatives up to
there call.

`Observed` is the same choice with a log of the calls of its matchers and functions.
-/
set_option autoImplicit false

namespace TurtleGraphics

namespace Choice

variable {α β γ ε : Type}

/-- A matcher or a function, and what it is applied to. -/
inductive Call (α β ε : Type) where
  | matcher (m : Matcher α) (text : List Char)
  | function (f : Yield α β → Except ε β) (produced : Yield α β)

abbrev Observed (α β ε γ : Type) : Type := EStateM (Fault ε) (List (Call α β ε)) γ

namespace Observed

def ask (m : Matcher α) (text : List Char) : Observed α β ε (Outcome α) := do
  modify (· ++ [.matcher m text])
  return m text

def compute (f : Yield α β → Except ε β) (produced : Yield α β) : Observed α β ε β := do
  modify (· ++ [.function f produced])
  match f produced with
  | .ok b => return b
  | .error e => throw (.failed e)

def extend (c : Choice α β) (m : Matcher α) : Observed α β ε (Choice α β) :=
  match c.stage with
  | .live (.values vs) n => do
    match ← ask m (c.text.drop n) with
    | .matched v k => return { c with stage := .live (.values (vs ++ [v])) (n + k) }
    | .refused => return { c with stage := .failed }
    | .overlong d => throw (.overlong d)
  | .live (.shaped _) _ => throw .extendedAfterReshape
  | _ => return c

def attempt (c : Choice α β) (m : Matcher α) : Observed α β ε (Choice α β) :=
  match c.stage with
  | .settled .. => return c
  | _ => extend { c with stage := .live (.values []) 0 } m

def reshape (c : Choice α β) (f : Yield α β → Except ε β) : Observed α β ε (Choice α β) :=
  match c.stage with
  | .live y n => do
    let b ← compute f y
    return { c with stage := .live (.shaped b) n }
  | _ => return c

def apply (c : Choice α β) : Step α β ε → Observed α β ε (Choice α β)
  | .attempt m => attempt c m
  | .extend m => extend c m
  | .otherwise m => attempt c.settle m
  | .reshape f => reshape c f

def applyAll (c : Choice α β) (steps : List (Step α β ε)) : Observed α β ε (Choice α β) :=
  steps.foldlM apply c

/-- The result of an observed computation that comes to `outcome` with these calls. -/
def seen (calls : List (Call α β ε)) :
    Except (Fault ε) γ → EStateM.Result (Fault ε) (List (Call α β ε)) γ
  | .ok a => .ok a calls
  | .error e => .error e calls

end Observed

/-- A step that belongs to the alternative begun before it. -/
inductive Link (α β ε : Type) where
  | extend (m : Matcher α)
  | reshape (f : Yield α β → Except ε β)

structure Alternative (α β ε : Type) where
  opener : Matcher α
  links : List (Link α β ε)
  /-- The next alternative is begun with `otherwise`. -/
  confirmed : Bool

/-- The steps up to the next alternative. -/
def links : List (Step α β ε) → List (Link α β ε)
  | .extend m :: rest => .extend m :: links rest
  | .reshape f :: rest => .reshape f :: links rest
  | _ => []

/-- Whether the next alternative is begun with `otherwise`. -/
def confirms : List (Step α β ε) → Bool
  | .extend _ :: rest | .reshape _ :: rest => confirms rest
  | .otherwise _ :: _ => true
  | _ => false

def alternatives : List (Step α β ε) → List (Alternative α β ε)
  | [] => []
  | .attempt m :: rest | .otherwise m :: rest => ⟨m, links rest, confirms rest⟩ :: alternatives rest
  | .extend _ :: rest | .reshape _ :: rest => alternatives rest

/-- The matchers before the first reshaping. -/
def matchers : List (Link α β ε) → List (Matcher α)
  | .extend m :: rest => m :: matchers rest
  | _ => []

/-- The links from the first reshaping on. -/
def reshapings : List (Link α β ε) → List (Link α β ε)
  | .extend _ :: rest => reshapings rest
  | rest => rest

/-- The matchers one after the other, the first on the whole text and each next on what is left. -/
def inOrder : List (Matcher α) → Matcher (List α)
  | [] => .succeed []
  | m :: ms => m.andThen fun v => (inOrder ms).map (v :: ·)

/-- What the reshapings make of what was produced. There is nothing to match after them. -/
def reshaped : List (Link α β ε) → Yield α β → Except (Fault ε) (Yield α β)
  | [], y => .ok y
  | .reshape f :: rest, y =>
    match f y with
    | .ok b => reshaped rest (.shaped b)
    | .error e => .error (.failed e)
  | .extend _ :: _, _ => .error .extendedAfterReshape

/-- The calls of matchers in order, up to the first that does not match. -/
def asked : List (Matcher α) → List Char → List (Call α β ε)
  | [], _ => []
  | m :: ms, text =>
    .matcher m text ::
      match m text with
      | .matched _ k => asked ms (text.drop k)
      | _ => []

/-- The calls of reshapings in order, up to the first that fails. -/
def computed : List (Link α β ε) → Yield α β → List (Call α β ε)
  | .reshape f :: rest, y =>
    .function f y ::
      match f y with
      | .ok b => computed rest (.shaped b)
      | .error _ => []
  | _, _ => []

namespace Alternative

variable (text : List Char) (a : Alternative α β ε)

/-- What the alternative produces and how much it takes, if it succeeds. -/
def verdict : Except (Fault ε) (Option (Yield α β × Nat)) :=
  match inOrder (a.opener :: matchers a.links) text with
  | .matched vs n => (reshaped (reshapings a.links) (.values vs)).map fun y => some (y, n)
  | .refused => .ok none
  | .overlong d => .error (.overlong d)

def calls : List (Call α β ε) :=
  asked (a.opener :: matchers a.links) text ++
    match inOrder (a.opener :: matchers a.links) text with
    | .matched vs _ => computed (reshapings a.links) (.values vs)
    | _ => []

def success? : Option (Yield α β × Nat) :=
  match a.verdict text with
  | .ok r => r
  | .error _ => none

def fault? : Option (Fault ε) :=
  match a.verdict text with
  | .ok _ => none
  | .error e => some e

/-- The alternative succeeds and is followed by an `otherwise`. -/
def wins : Bool := a.confirmed && (a.success? text).isSome

/-- Nothing after the alternative is tried. -/
def decides : Bool := a.wins text || (a.fault? text).isSome

end Alternative

/-- The alternatives up to the first that decides. -/
def tried (text : List Char) (alternatives : List (Alternative α β ε)) :
    List (Alternative α β ε) :=
  alternatives.take (alternatives.findIdx (·.decides text) + 1)

/-- What a list of steps comes to, and the calls on the way. -/
structure Report (α β ε : Type) where
  calls : List (Call α β ε)
  outcome : Except (Fault ε) (Option (Yield α β × Nat))

namespace Report

/-- The report after one more call at its start. -/
def note (call : Call α β ε) (r : Report α β ε) : Report α β ε := ⟨call :: r.calls, r.outcome⟩

/-- Goes on with `next` after the report on one alternative, unless that decides. -/
def goOn (r : Report α β ε) (confirmed : Bool)
    (next : Option (Yield α β × Nat) → Report α β ε) : Report α β ε :=
  match r.outcome with
  | .error e => ⟨r.calls, .error e⟩
  | .ok produced =>
    if confirmed && produced.isSome then ⟨r.calls, .ok produced⟩
    else ⟨r.calls ++ (next produced).calls, (next produced).outcome⟩

theorem goOn_note (call : Call α β ε) (r : Report α β ε) (confirmed : Bool)
    (next : Option (Yield α β × Nat) → Report α β ε) :
    (r.note call).goOn confirmed next = (r.goOn confirmed next).note call := by
  obtain ⟨calls, outcome⟩ := r
  cases outcome with
  | error e => rfl
  | ok produced =>
    simp only [note, goOn]
    split <;> rfl

end Report

/-- The report on the alternatives when the one before them has produced `pending`. -/
def reportFrom (text : List Char) (pending : Option (Yield α β × Nat)) :
    List (Alternative α β ε) → Report α β ε
  | [] => ⟨[], .ok pending⟩
  | a :: rest =>
    Report.goOn ⟨a.calls text, a.verdict text⟩ a.confirmed fun produced =>
      reportFrom text produced rest

/-- The report on a live alternative that has produced `y` from the first `n` characters. -/
def proceed (text : List Char) (rest : List (Link α β ε)) : Yield α β → Nat → Report α β ε
  | .values vs, n =>
    ⟨asked (matchers rest) (text.drop n) ++
        match inOrder (matchers rest) (text.drop n) with
        | .matched ws _ => computed (reshapings rest) (.values (vs ++ ws))
        | _ => [],
      match inOrder (matchers rest) (text.drop n) with
      | .matched ws k =>
        (reshaped (reshapings rest) (.values (vs ++ ws))).map fun y => some (y, n + k)
      | .refused => .ok none
      | .overlong d => .error (.overlong d)⟩
  | .shaped b, n =>
    ⟨computed rest (.shaped b), (reshaped rest (.shaped b)).map fun y => some (y, n)⟩

section Proceed
variable {text : List Char} {rest : List (Link α β ε)} {m : Matcher α} {vs : List α} {n : Nat}

theorem proceed_nil (text : List Char) (y : Yield α β) (n : Nat) :
    proceed text ([] : List (Link α β ε)) y n = ⟨[], .ok (some (y, n))⟩ := by
  cases y with
  | values vs =>
    simp [proceed, matchers, reshapings, asked, inOrder, Matcher.succeed, computed, reshaped,
      Except.map]
  | shaped b => rfl

theorem proceed_extend_matched {v : α} {k : Nat} (matched : m (text.drop n) = .matched v k) :
    proceed text (.extend m :: rest) (.values vs) n =
      (proceed text rest (.values (vs ++ [v])) (n + k)).note (.matcher m (text.drop n)) := by
  simp only [proceed, Report.note, matchers, reshapings, asked, inOrder, Matcher.andThen, matched,
    Outcome.andThen, Matcher.map, List.drop_drop, List.cons_append, List.append_assoc,
    List.nil_append]
  cases inOrder (matchers rest) (text.drop (n + k)) with
  | matched ws j => simp only [Outcome.map_matched, Nat.add_assoc]
  | refused => rfl
  | overlong d => rfl

theorem proceed_extend_refused (refused : m (text.drop n) = .refused) :
    proceed text (.extend m :: rest) (.values vs) n =
      ⟨[.matcher m (text.drop n)], .ok none⟩ := by
  simp only [proceed, matchers, asked, inOrder, Matcher.andThen, refused, Outcome.andThen,
    List.append_nil]

theorem proceed_extend_overlong {d : Nat} (overlong : m (text.drop n) = .overlong d) :
    proceed text (.extend m :: rest) (.values vs) n =
      ⟨[.matcher m (text.drop n)], .error (.overlong d)⟩ := by
  simp only [proceed, matchers, asked, inOrder, Matcher.andThen, overlong, Outcome.andThen,
    List.append_nil]

theorem proceed_reshape {f : Yield α β → Except ε β} (y : Yield α β) :
    proceed text (.reshape f :: rest) y n =
      match f y with
      | .ok b => (proceed text rest (.shaped b) n).note (.function f y)
      | .error e => ⟨[.function f y], .error (.failed e)⟩ := by
  cases y with
  | values vs =>
    simp only [proceed, matchers, reshapings, asked, inOrder, Matcher.succeed, computed, reshaped,
      List.append_nil, List.nil_append, Nat.add_zero]
    cases f (.values vs) <;> rfl
  | shaped b =>
    simp only [proceed, computed, reshaped]
    cases f (.shaped b) <;> rfl

/-- An alternative is begun like one that has produced nothing yet. -/
theorem report_alternative (text : List Char) (a : Alternative α β ε) :
    (⟨a.calls text, a.verdict text⟩ : Report α β ε) =
      proceed text (.extend a.opener :: a.links) (.values []) 0 := by
  simp only [proceed, Alternative.calls, Alternative.verdict, matchers, reshapings, List.drop_zero,
    List.nil_append, Nat.zero_add]

end Proceed

/-- The calls that a step makes. -/
def called (c : Choice α β) (step : Step α β ε) : List (Call α β ε) :=
  match step with
  | .attempt m | .extend m | .otherwise m => (c.consulted step).toList.map (.matcher m)
  | .reshape f =>
    match c.stage with
    | .live y _ => [.function f y]
    | _ => []

def report (c : Choice α β) : List (Step α β ε) → Report α β ε
  | [] => ⟨[], .ok c.result⟩
  | step :: rest =>
    match c.apply step with
    | .ok next => ⟨called c step ++ (report next rest).calls, (report next rest).outcome⟩
    | .error e => ⟨called c step, .error e⟩

section Steps
variable {text : List Char} {rest : List (Step α β ε)} {c next : Choice α β} {step : Step α β ε}

theorem report_of_ok (taken : c.apply step = .ok next) :
    report c (step :: rest) =
      ⟨called c step ++ (report next rest).calls, (report next rest).outcome⟩ := by
  rw [report, taken]

theorem report_of_error {e : Fault ε} (stopped : c.apply step = .error e) :
    report c (step :: rest) = ⟨called c step, .error e⟩ := by
  rw [report, stopped]

/-- A step that calls nothing and leads to `next`. -/
theorem report_of_silent (taken : c.apply step = .ok next) (silent : called c step = []) :
    report c (step :: rest) = report next rest := by
  rw [report_of_ok taken, silent]
  rfl

/-- A step that applies `m` to what a live alternative has left. -/
theorem report_of_extend {m : Matcher α} {vs : List α} {n : Nat}
    (failed : report ⟨text, .failed⟩ rest = reportFrom text none (alternatives rest))
    (live : ∀ y n, report ⟨text, .live y n⟩ rest =
      (proceed text (links rest) y n).goOn (confirms rest) fun produced =>
        reportFrom text produced (alternatives rest))
    (taken : c.apply step = extend ⟨text, .live (.values vs) n⟩ m)
    (calls : called c step = [.matcher m (text.drop n)]) :
    report c (step :: rest) =
      (proceed text (.extend m :: links rest) (.values vs) n).goOn (confirms rest) fun produced =>
        reportFrom text produced (alternatives rest) := by
  cases found : m (text.drop n) with
  | matched v k =>
    have moved : c.apply step = .ok ⟨text, .live (.values (vs ++ [v])) (n + k)⟩ := by
      rw [taken]
      simp only [extend, found]
    rw [report_of_ok moved, calls, live, proceed_extend_matched found, Report.goOn_note]
    rfl
  | refused =>
    have moved : c.apply step = .ok ⟨text, .failed⟩ := by
      rw [taken]
      simp only [extend, found]
    rw [report_of_ok moved, calls, failed, proceed_extend_refused found]
    simp [Report.goOn]
  | overlong d =>
    have stopped : c.apply step = .error (.overlong d) := by
      rw [taken]
      simp only [extend, found]
    rw [report_of_error stopped, calls, proceed_extend_overlong found]
    rfl

end Steps

/-- The alternative begun with `m`, whatever was produced before it. -/
theorem reportFrom_cons (text : List Char) (pending : Option (Yield α β × Nat)) (m : Matcher α)
    (rest : List (Step α β ε)) :
    reportFrom text pending (⟨m, links rest, confirms rest⟩ :: alternatives rest) =
      (proceed text (.extend m :: links rest) (.values []) 0).goOn (confirms rest) fun produced =>
        reportFrom text produced (alternatives rest) := by
  rw [reportFrom, report_alternative]

/-- What the steps come to from each stage on, by induction on the steps. -/
theorem report_eq_reportFrom (text : List Char) (steps : List (Step α β ε)) :
    report ⟨text, .failed⟩ steps = reportFrom text none (alternatives steps) ∧
      (∀ y n, report ⟨text, .settled y n⟩ steps = ⟨[], .ok (some (y, n))⟩) ∧
      ∀ y n, report ⟨text, .live y n⟩ steps =
        (proceed text (links steps) y n).goOn (confirms steps) fun produced =>
          reportFrom text produced (alternatives steps) := by
  induction steps with
  | nil =>
    refine ⟨rfl, fun y n => rfl, ?_⟩
    intro y n
    show _ = (proceed text [] y n).goOn false _
    rw [proceed_nil]
    rfl
  | cons step rest ih =>
    obtain ⟨failed, settled, live⟩ := ih
    cases step with
    | attempt m =>
      refine ⟨?_, ?_, ?_⟩
      · rw [report_of_extend failed live rfl rfl, alternatives, reportFrom_cons]
      · intro y n
        rw [report_of_silent rfl rfl, settled]
      · intro y n
        -- what was produced before is lost
        have begun : report ⟨text, .live y n⟩ (.attempt m :: rest) =
            reportFrom text (some (y, n)) (alternatives (.attempt m :: rest)) := by
          rw [report_of_extend failed live rfl rfl, alternatives, reportFrom_cons]
        rw [begun]
        show _ = (proceed text [] y n).goOn false _
        rw [proceed_nil]
        rfl
    | extend m =>
      refine ⟨?_, ?_, ?_⟩
      · rw [report_of_silent rfl rfl, failed, alternatives]
      · intro y n
        rw [report_of_silent rfl rfl, settled]
      · intro y n
        cases y with
        | values vs => rw [report_of_extend failed live rfl rfl, links, confirms, alternatives]
        | shaped b =>
          rw [report_of_error rfl]
          rfl
    | otherwise m =>
      refine ⟨?_, ?_, ?_⟩
      · rw [report_of_extend failed live rfl rfl, alternatives, reportFrom_cons]
      · intro y n
        exact (report_of_silent rfl rfl).trans (settled y n)
      · intro y n
        rw [(report_of_silent rfl rfl).trans (settled y n)]
        show _ = (proceed text [] y n).goOn true _
        rw [proceed_nil]
        rfl
    | reshape f =>
      refine ⟨?_, ?_, ?_⟩
      · rw [report_of_silent rfl rfl, failed, alternatives]
      · intro y n
        rw [report_of_silent rfl rfl, settled]
      · intro y n
        rw [links, confirms, alternatives, proceed_reshape]
        cases made : f y with
        | ok b =>
          have taken : apply (ε := ε) ⟨text, .live y n⟩ (.reshape f) =
              .ok ⟨text, .live (.shaped b) n⟩ := by
            simp only [apply, reshape, made]
          rw [report_of_ok taken, live, Report.goOn_note]
          rfl
        | error e =>
          have stopped : apply (ε := ε) ⟨text, .live y n⟩ (.reshape f) = .error (.failed e) := by
            simp only [apply, reshape, made]
          rw [report_of_error stopped]
          rfl

/-- The steps on a text come to what its alternatives come to. -/
theorem report_ofText (text : List Char) (steps : List (Step α β ε)) :
    report (ofText text) steps = reportFrom text none (alternatives steps) :=
  (report_eq_reportFrom text steps).1

theorem report_outcome (c : Choice α β) (steps : List (Step α β ε)) :
    (report c steps).outcome = (c.applyAll steps).map result := by
  induction steps generalizing c with
  | nil => rfl
  | cons step rest ih =>
    rw [applyAll, List.foldlM_cons]
    cases taken : c.apply step with
    | ok next =>
      rw [report_of_ok taken, ih]
      rfl
    | error e =>
      rw [report_of_error taken]
      rfl

section Verdicts
variable {text : List Char} {pending r : Option (Yield α β × Nat)} {e : Fault ε}
variable {a : Alternative α β ε} {rest alts : List (Alternative α β ε)}

theorem tried_of_decides (decides : a.decides text = true) : tried text (a :: rest) = [a] := by
  rw [tried, List.findIdx_cons, decides]
  rfl

theorem tried_of_passed (passed : a.decides text = false) :
    tried text (a :: rest) = a :: tried text rest := by
  rw [tried, List.findIdx_cons, passed]
  rfl

theorem wins_of_ok (success : a.verdict text = .ok r) :
    a.wins text = (a.confirmed && r.isSome) := by
  rw [Alternative.wins, Alternative.success?, success]

theorem decides_of_ok (success : a.verdict text = .ok r) : a.decides text = a.wins text := by
  rw [Alternative.decides, Alternative.fault?, success]
  exact Bool.or_false _

theorem decides_of_error (fault : a.verdict text = .error e) : a.decides text = true := by
  rw [Alternative.decides, Alternative.fault?, fault]
  exact Bool.or_true _

theorem reportFrom_of_error (fault : a.verdict text = .error e) :
    reportFrom text pending (a :: rest) = ⟨a.calls text, .error e⟩ := by
  rw [reportFrom, Report.goOn, fault]

theorem reportFrom_of_wins (success : a.verdict text = .ok r) (wins : a.wins text = true) :
    reportFrom text pending (a :: rest) = ⟨a.calls text, .ok r⟩ := by
  rw [wins_of_ok success] at wins
  rw [reportFrom, Report.goOn, success]
  exact if_pos wins

theorem reportFrom_of_passed (success : a.verdict text = .ok r) (loses : a.wins text = false) :
    reportFrom text pending (a :: rest) =
      ⟨a.calls text ++ (reportFrom text r rest).calls, (reportFrom text r rest).outcome⟩ := by
  rw [wins_of_ok success] at loses
  rw [reportFrom, Report.goOn, success]
  exact if_neg (by simp [loses])

theorem calls_reportFrom (text : List Char) (pending : Option (Yield α β × Nat))
    (alts : List (Alternative α β ε)) :
    (reportFrom text pending alts).calls = (tried text alts).flatMap (·.calls text) := by
  induction alts generalizing pending with
  | nil => rfl
  | cons a rest ih =>
    cases outcome : a.verdict text with
    | error e =>
      rw [reportFrom_of_error outcome, tried_of_decides (decides_of_error outcome)]
      simp
    | ok r =>
      have decides := decides_of_ok outcome
      cases wins : a.wins text with
      | true =>
        rw [reportFrom_of_wins outcome wins, tried_of_decides (decides.trans wins)]
        simp
      | false =>
        rw [reportFrom_of_passed outcome wins, tried_of_passed (decides.trans wins),
          List.flatMap_cons, ih]

/-- What was produced at the end: by the first alternative that wins, or else by the last one. -/
def produced? (text : List Char) (pending : Option (Yield α β × Nat))
    (alts : List (Alternative α β ε)) : Option (Yield α β × Nat) :=
  ((alts.find? (·.wins text)).or alts.getLast?).elim pending (·.success? text)

theorem produced?_of_wins (wins : a.wins text = true) :
    produced? text pending (a :: rest) = a.success? text := by
  rw [produced?, List.find?_cons_of_pos wins]
  rfl

theorem produced?_of_loses (loses : a.wins text = false) :
    produced? text pending (a :: rest) = produced? text (a.success? text) rest := by
  rw [produced?, List.find?_cons_of_neg (by simp [loses]), produced?, List.getLast?_cons]
  cases rest.find? (·.wins text) with
  | some b => rfl
  | none => cases rest.getLast? <;> rfl

theorem produced?_of_reportFrom (outcome : (reportFrom text pending alts).outcome = .ok r) :
    r = produced? text pending alts := by
  induction alts generalizing pending with
  | nil =>
    cases outcome
    rfl
  | cons a rest ih =>
    cases verdict : a.verdict text with
    | error e =>
      rw [reportFrom_of_error verdict] at outcome
      cases outcome
    | ok own =>
      have success : a.success? text = own := by rw [Alternative.success?, verdict]
      cases wins : a.wins text with
      | true =>
        rw [reportFrom_of_wins verdict wins] at outcome
        cases outcome
        rw [produced?_of_wins wins, success]
      | false =>
        rw [reportFrom_of_passed verdict wins] at outcome
        rw [produced?_of_loses wins, success]
        exact ih outcome

/-- Something fails exactly if an alternative does before another has decided. -/
theorem reportFrom_eq_error_iff :
    (reportFrom text pending alts).outcome = .error e ↔
      ∃ before a after, alts = before ++ a :: after ∧ (∀ b ∈ before, b.decides text = false) ∧
        a.verdict text = .error e := by
  constructor
  · intro outcome
    induction alts generalizing pending with
    | nil => cases outcome
    | cons a rest ih =>
      cases verdict : a.verdict text with
      | error other =>
        rw [reportFrom_of_error verdict] at outcome
        cases outcome
        exact ⟨[], a, rest, rfl, fun b absent => absurd absent List.not_mem_nil, verdict⟩
      | ok own =>
        cases wins : a.wins text with
        | true =>
          rw [reportFrom_of_wins verdict wins] at outcome
          cases outcome
        | false =>
          rw [reportFrom_of_passed verdict wins] at outcome
          obtain ⟨before, b, after, rfl, passed, fault⟩ := ih outcome
          refine ⟨a :: before, b, after, rfl, ?_, fault⟩
          intro other member
          rcases List.mem_cons.mp member with rfl | member
          · rw [decides_of_ok verdict, wins]
          · exact passed other member
  · rintro ⟨before, a, after, rfl, passed, fault⟩
    induction before generalizing pending with
    | nil =>
      rw [List.nil_append, reportFrom_of_error fault]
    | cons b before ih =>
      have passedFirst := passed b List.mem_cons_self
      cases verdict : b.verdict text with
      | error other =>
        rw [decides_of_error verdict] at passedFirst
        cases passedFirst
      | ok own =>
        rw [decides_of_ok verdict] at passedFirst
        rw [List.cons_append, reportFrom_of_passed verdict passedFirst]
        exact ih fun other member => passed other (List.mem_cons_of_mem b member)

end Verdicts

namespace Observed

open EStateM (run_bind)

variable (c : Choice α β) (m : Matcher α) (log : List (Call α β ε))

theorem run_ask (text : List Char) :
    (ask m text).run log = .ok (m text) (log ++ [.matcher m text]) := rfl

theorem run_compute (f : Yield α β → Except ε β) (produced : Yield α β) :
    (compute f produced).run log =
      seen (log ++ [.function f produced]) ((f produced).mapError .failed) := by
  simp only [compute, run_bind, EStateM.run_modify]
  cases f produced <;> rfl

theorem run_extend :
    (extend c m).run log = seen (log ++ called c (.extend m)) (c.extend m) := by
  obtain ⟨text, stage⟩ := c
  have unchanged : log = log ++ [] := (List.append_nil log).symm
  cases stage with
  | failed => exact congrArg _ unchanged
  | settled y n => exact congrArg _ unchanged
  | live y n =>
    cases y with
    | shaped b => exact congrArg _ unchanged
    | values vs =>
      simp only [extend, Choice.extend, run_bind, run_ask]
      cases m (text.drop n) <;> rfl

theorem run_attempt :
    (attempt c m).run log = seen (log ++ called c (.attempt m)) (c.attempt m) := by
  obtain ⟨text, stage⟩ := c
  cases stage with
  | settled y n => exact congrArg _ (List.append_nil log).symm
  | failed => exact run_extend ⟨text, .live (.values []) 0⟩ m log
  | live y n => exact run_extend ⟨text, .live (.values []) 0⟩ m log

theorem run_reshape (f : Yield α β → Except ε β) :
    (reshape c f).run log = seen (log ++ called c (.reshape f)) (c.reshape f) := by
  obtain ⟨text, stage⟩ := c
  cases stage with
  | failed => exact congrArg _ (List.append_nil log).symm
  | settled y n => exact congrArg _ (List.append_nil log).symm
  | live y n =>
    simp only [reshape, Choice.reshape, run_bind, run_compute]
    cases f y <;> rfl

theorem run_apply (step : Step α β ε) :
    (apply c step).run log = seen (log ++ called c step) (c.apply step) := by
  cases step with
  | attempt m => exact run_attempt c m log
  | extend m => exact run_extend c m log
  | otherwise m =>
    have same : called c (.otherwise m : Step α β ε) = called c.settle (.attempt m) := by
      obtain ⟨text, stage⟩ := c
      cases stage <;> rfl
    rw [same]
    exact run_attempt c.settle m log
  | reshape f => exact run_reshape c log f

theorem run_applyAll (steps : List (Step α β ε)) :
    (applyAll c steps).run log = seen (log ++ (report c steps).calls) (c.applyAll steps) := by
  induction steps generalizing c log with
  | nil => exact congrArg _ (List.append_nil log).symm
  | cons step rest ih =>
    rw [applyAll, List.foldlM_cons, run_bind, run_apply, Choice.applyAll, List.foldlM_cons]
    cases taken : c.apply step with
    | ok next =>
      rw [report_of_ok taken, ← List.append_assoc]
      exact ih next (log ++ called c step)
    | error e =>
      rw [report_of_error taken]
      rfl

end Observed

/-- What the steps come to when they are applied to a choice on `text`, told by the alternatives
that they make up. -/
structure Ordered (text : List Char) (steps : List (Step α β ε)) : Prop where
  result : ∀ c, (ofText text).applyAll steps = .ok c →
    c.result = (((alternatives steps).find? (·.wins text)).or (alternatives steps).getLast?).bind
      (·.success? text)
  /-- The steps fail if an alternative does before another has decided. -/
  fault_iff : ∀ e, (ofText text).applyAll steps = .error e ↔
    ∃ before a after, alternatives steps = before ++ a :: after ∧
      (∀ b ∈ before, b.decides text = false) ∧ a.verdict text = .error e
  /-- The log has the calls of the alternatives up to the first that decides, and no others. -/
  calls : (Observed.applyAll (ofText text) steps).run [] =
    Observed.seen ((tried text (alternatives steps)).flatMap (·.calls text))
      ((ofText text).applyAll steps)

end Choice

open Choice (Ordered Step ofText)

/-- A choice comes to its first alternative that succeeds and is followed by an `otherwise`, or else
to the last one if that succeeds, and calls only what the alternatives up to there call. -/
theorem alternatives_decide {α β ε : Type} (text : List Char) (steps : List (Step α β ε)) :
    Ordered text steps := by
  have outcome := Choice.report_outcome (ofText text) steps
  rw [Choice.report_ofText] at outcome
  refine ⟨?_, ?_, ?_⟩
  · intro c taken
    rw [taken] at outcome
    have produced := Choice.produced?_of_reportFrom outcome
    rw [produced, Choice.produced?]
    cases ((Choice.alternatives steps).find? (·.wins text)).or
      (Choice.alternatives steps).getLast? <;> rfl
  · intro e
    have fails : (Choice.reportFrom text none (Choice.alternatives steps)).outcome = .error e ↔ _ :=
      Choice.reportFrom_eq_error_iff
    rw [← fails, outcome]
    cases (ofText text).applyAll steps <;> simp [Except.map]
  · rw [Choice.Observed.run_applyAll, List.nil_append, Choice.report_ofText,
      Choice.calls_reportFrom]

end TurtleGraphics
