import TurtleGraphics.Proofs.RoundTrip
/-!
Strict keywords.

The two ways to match keywords differ in one thing: in strict mode a keyword with a letter right
after it is refused. A short keyword is the beginning of the long one of its kind, so at most one
keyword of a kind is found without a letter behind it, and the keywords of different kinds start
differently. So the strict mode reads a line as the default mode does, or not at all.
-/
set_option autoImplicit false

namespace TurtleGraphics

open Text Lexeme

section Matchers

variable {α : Type} {text : List Char} {before after : List (Matcher α)} {m : Matcher α}

/-- A choice whose other alternatives all refuse is no choice. -/
theorem firstOf_eq_of_refused (earlier : ∀ m ∈ before, m text = .refused)
    (later : ∀ m ∈ after, m text = .refused) :
    Matcher.firstOf (before ++ m :: after) text = m text := by
  rw [firstOf_append earlier, firstOf_cons, firstOf_refused later]
  cases m text <;> rfl

end Matchers

namespace Lexeme

variable {c : Char} {literal tail text : List Char} {strict : Bool}

/-- Right after `literal`, where the text begins with it, there is a letter. -/
def runsOn (literal text : List Char) : Bool :=
  ((skipBlanks text).drop literal.length).head?.any Char.isAlpha

theorem keywordOffset?_eq (visible : isBlank c = false) :
    keywordOffset? strict (c :: tail) text =
      if opensWith strict (c :: tail) (skipBlanks text) then some (indent text) else none := by
  induction text with
  | nil => rfl
  | cons d more ih =>
    rw [keywordOffset?]
    by_cases blank : isBlank d = true
    · have closed : opensWith strict (c :: tail) (d :: more) ≠ true := by
        intro opens
        obtain rfl := opensWith_cons opens
        rw [visible] at blank
        cases blank
      have solid : skipBlanks (d :: more) = skipBlanks more := by simp [skipBlanks, blank]
      have moved : indent (d :: more) = indent more + 1 := by simp [indent, blank]
      rw [if_pos blank, if_neg closed, ih, solid, moved]
      cases opensWith strict (c :: tail) (skipBlanks more) <;> rfl
    · have solid : skipBlanks (d :: more) = d :: more := by simp [skipBlanks, blank]
      have here : indent (d :: more) = 0 := by simp [indent, blank]
      rw [if_neg blank, solid, here]

/-- A keyword that starts with no blank is found after all blanks or not at all. -/
theorem keyword_eq (visible : isBlank c = false) :
    keyword strict (c :: tail) text =
      if opensWith strict (c :: tail) (skipBlanks text) then
        .matched (c :: tail) (indent text + (c :: tail).length)
      else .refused := by
  rw [keyword, keywordOffset?_eq visible]
  cases opensWith strict (c :: tail) (skipBlanks text) <;> rfl

theorem keyword_strict (visible : isBlank c = false) :
    keyword true (c :: tail) text =
      if runsOn (c :: tail) text then .refused else keyword false (c :: tail) text := by
  rw [keyword_eq visible, keyword_eq visible]
  simp only [opensWith, Bool.true_and, Bool.false_and, Bool.not_false, Bool.and_true]
  change (if _ && !runsOn (c :: tail) text then _ else _) = _
  cases runsOn (c :: tail) text <;> simp

/-- A word of letters runs on behind each of its beginnings. -/
theorem runsOn_of_longer {d : Char} {rest : List Char} (letter : d.isAlpha = true)
    (starts : literal ++ d :: rest <+: skipBlanks text) : runsOn literal text = true := by
  obtain ⟨more, whole⟩ := starts
  rw [runsOn, ← whole, List.append_assoc, List.drop_left, List.cons_append, List.head?_cons,
    Option.any_some, letter]

end Lexeme

def Outcome.isMatched {α : Type} : Outcome α → Bool
  | matched _ _ => true
  | _ => false

namespace Lexeme

/-- A line does not end before a solid character, unless that begins a comment. -/
theorem endOfLine_refuses {c : Char} {text : List Char} (first : first? text = some c)
    (noComment : c ≠ '#') : endOfLine text = .refused := by
  rw [first?] at first
  cases solid : skipBlanks text with
  | nil =>
    rw [solid] at first
    cases first
  | cons d rest =>
    rw [solid] at first
    obtain rfl : d = c := Option.some.inj first
    have visible := isBlank_of_skipBlanks_cons solid
    have none : comment (d :: rest) = [] := by simp [comment, noComment]
    rw [endOfLine, solid, none]
    simp only [List.length_nil, List.drop_zero]
    split
    · rename_i nothing
      cases nothing
    · rename_i feed
      cases feed
      cases visible
    · rfl

end Lexeme

namespace Instruction

variable {strict : Bool} {text : List Char} {k : Kind} {name : String} {i : Instruction} {n : Nat}

/-- The line holds nothing, or nothing but a comment. -/
def Bare (line : String) : Prop := first? line.toList = none ∨ first? line.toList = some '#'

/-- The first of the keywords of a kind after which the default mode reads the whole line. -/
def keywordUsed? (k : Kind) (line : String) : Option String :=
  k.keywords.find? fun name => (form false k name line.toList).isMatched

/-- How the strict mode reads a line that the default mode reads as the instruction `i`. -/
inductive ReadStrictly (line : String) (i : Instruction) :
    Except Overlong (Option Instruction) → Prop
  | bare (bare : Bare line) : ReadStrictly line i (.ok (some i))
  | kept {name : String} (used : keywordUsed? i.kind line = some name)
      (ends : runsOn name.toList line.toList = false) : ReadStrictly line i (.ok (some i))
  | lost {name : String} (solid : ¬Bare line) (used : keywordUsed? i.kind line = some name)
      (runsOn : runsOn name.toList line.toList = true) : ReadStrictly line i (.ok none)

section Forms

theorem form_strict (listed : name ∈ k.keywords) :
    form true k name text =
      if runsOn name.toList text then .refused else form false k name text := by
  obtain ⟨c, rest, letters, -, visible⟩ := Kind.initial_of_mem listed
  rw [form, form, Matcher.andThen, Matcher.andThen, letters, keyword_strict visible]
  cases runsOn (c :: rest) text <;> rfl

theorem prefix_of_form (listed : name ∈ k.keywords)
    (found : form strict k name text ≠ .refused) : name.toList <+: skipBlanks text := by
  obtain ⟨c, rest, letters, -, visible⟩ := Kind.initial_of_mem listed
  rw [form, Matcher.andThen, letters, keyword_eq visible] at found
  rw [letters]
  by_cases opens : opensWith strict (c :: rest) (skipBlanks text) = true
  · rw [opensWith, Bool.and_eq_true] at opens
    exact List.isPrefixOf_iff_prefix.mp opens.1
  · rw [if_neg opens] at found
    exact absurd rfl found

/-- Each keyword of a kind is the beginning of those before it, which go on with a letter. -/
theorem Kind.keywords_pairwise (k : Kind) :
    k.keywords.Pairwise fun long short =>
      ∃ d rest, long.toList = short.toList ++ d :: rest ∧ d.isAlpha = true := by
  cases k with
  | blank => exact .nil
  | conditional | loop => exact List.pairwise_singleton _ _
  | move | rotate | lift | place | set | close =>
    exact List.pairwise_pair.mpr ⟨_, _, rfl, by decide⟩

/-- Where a keyword stands, the later ones of its kind run on. -/
theorem runsOn_of_prefix {before after : List String}
    (split : k.keywords = before ++ name :: after) (starts : name.toList <+: skipBlanks text) :
    ∀ short ∈ after, runsOn short.toList text = true := by
  intro short inside
  have ordered := k.keywords_pairwise
  rw [split, List.pairwise_append, List.pairwise_cons] at ordered
  obtain ⟨d, rest, longer, letter⟩ := ordered.2.1.1 short inside
  apply runsOn_of_longer letter
  rwa [← longer]

theorem runsOn_of_form {before after : List String} (split : k.keywords = before ++ name :: after)
    (found : form strict k name text ≠ .refused) :
    ∀ short ∈ after, runsOn short.toList text = true := by
  have listed : name ∈ k.keywords := by simp [split]
  exact runsOn_of_prefix split (prefix_of_form listed found)

/-- Where a keyword ends, the earlier ones of its kind are not found. -/
theorem form_refuses_of_ends {before after : List String}
    (split : k.keywords = before ++ name :: after) (ends : runsOn name.toList text = false) :
    ∀ long ∈ before, form strict k long text = .refused := by
  intro long inside
  by_cases found : form strict k long text = .refused
  · exact found
  have listed : long ∈ k.keywords := by
    rw [split]
    exact List.mem_append_left _ inside
  have ordered := k.keywords_pairwise
  rw [split, List.pairwise_append] at ordered
  obtain ⟨d, rest, longer, letter⟩ := ordered.2.2 long inside name List.mem_cons_self
  have starts := prefix_of_form listed found
  rw [longer] at starts
  rw [runsOn_of_longer letter starts] at ends
  cases ends

end Forms

section Kinds

theorem exists_split_of_ofKind (worded : k.keywords ≠ [])
    (success : ofKind strict k text = .matched i n) :
    ∃ before name after, k.keywords = before ++ name :: after ∧
      (∀ other ∈ before, form strict k other text = .refused) ∧
      form strict k name text = .matched i n := by
  rw [ofKind_eq_firstOf worded] at success
  obtain ⟨before, m, after, split, refuses, found⟩ := exists_split_of_firstOf success
  obtain ⟨names, others, names_eq, rfl, rest⟩ := List.map_eq_append_iff.mp split
  obtain ⟨name, later, rfl, rfl, rfl⟩ := List.map_eq_cons_iff.mp rest
  refine ⟨names, name, later, names_eq, ?_, found⟩
  intro other inside
  exact refuses _ (List.mem_map_of_mem inside)

theorem ofKind_eq_form {before after : List String} (split : k.keywords = before ++ name :: after)
    (earlier : ∀ other ∈ before, form strict k other text = .refused)
    (later : ∀ other ∈ after, form strict k other text = .refused) :
    ofKind strict k text = form strict k name text := by
  rw [ofKind_eq_firstOf (by simp [split]), split, List.map_append, List.map_cons]
  apply firstOf_eq_of_refused
  · intro m inside
    obtain ⟨other, listed, rfl⟩ := List.mem_map.mp inside
    exact earlier other listed
  · intro m inside
    obtain ⟨other, listed, rfl⟩ := List.mem_map.mp inside
    exact later other listed

theorem form_strict_refuses (listed : name ∈ k.keywords) (runsOn : runsOn name.toList text = true) :
    form true k name text = .refused := by
  rw [form_strict listed, if_pos runsOn]

/-- What the strict mode reads of a kind, the default mode reads too. -/
theorem ofKind_of_strict (success : ofKind true k text = .matched i n) :
    ofKind false k text = .matched i n := by
  by_cases bare : k.keywords = []
  · rw [ofKind, bare] at success ⊢
    exact success
  obtain ⟨before, name, after, split, -, found⟩ := exists_split_of_ofKind bare success
  have listed : name ∈ k.keywords := by simp [split]
  cases follows : runsOn name.toList text with
  | true =>
    rw [form_strict_refuses listed follows] at found
    cases found
  | false =>
    rw [form_strict listed, follows, if_neg Bool.false_ne_true] at found
    -- the default mode tries longer keywords first, but where one of them stands this one runs on
    have refuses : ∀ long ∈ before, form false k long text = .refused :=
      form_refuses_of_ends split follows
    rw [ofKind_eq_firstOf bare, split, List.map_append, List.map_cons]
    apply firstOf_of_matched ?_ found
    intro m inside
    obtain ⟨other, listed, rfl⟩ := List.mem_map.mp inside
    exact refuses other listed

/-- What the strict mode makes of a line that the default mode reads behind a keyword. -/
theorem ofKind_strict (worded : k.keywords ≠ []) (success : ofKind false k text = .matched i n) :
    ∃ name, (k.keywords.find? fun name => (form false k name text).isMatched) = some name ∧
      ofKind true k text =
        if runsOn name.toList text then .refused else .matched i n := by
  obtain ⟨before, name, after, split, refuses, found⟩ := exists_split_of_ofKind worded success
  have listed : name ∈ k.keywords := by simp [split]
  refine ⟨name, ?_, ?_⟩
  · rw [split, List.find?_eq_some_iff_append]
    refine ⟨by rw [found]; rfl, before, after, rfl, ?_⟩
    intro other inside
    rw [refuses other inside]
    rfl
  · have earlier : ∀ other ∈ before, form true k other text = .refused := by
      intro other inside
      rw [form_strict (by simp [split, inside]), refuses other inside, ite_self]
    have later : ∀ other ∈ after, form true k other text = .refused := by
      intro other inside
      apply form_strict_refuses (by simp [split, inside])
      exact runsOn_of_form split (by rw [found]; nofun) other inside
    rw [ofKind_eq_form split earlier later, form_strict listed, found]

end Kinds

section Lines

/-- The kind whose keywords start as the text does, and the blank kind if there is none. -/
def leadingKind (text : List Char) : Kind :=
  (Kind.all.find? fun k => k.initial? == first? text).getD .blank

theorem Kind.exists_initial (worded : k ≠ .blank) :
    ∃ c, k.initial? = some c ∧ c ≠ '#' ∧ k.keywords ≠ [] := by
  cases k with
  | blank => exact absurd rfl worded
  | move | rotate | lift | place | set | conditional | loop | close =>
    exact ⟨_, rfl, by decide, List.cons_ne_nil _ _⟩

theorem leadingKind_eq (worded : k ≠ .blank) (starts : first? text = k.initial?) :
    leadingKind text = k := by
  rw [leadingKind, starts]
  cases k with
  | blank => exact absurd rfl worded
  | move | rotate | lift | place | set | conditional | loop | close => rfl

theorem first?_of_leadingKind (worded : leadingKind text ≠ .blank) :
    first? text = (leadingKind text).initial? := by
  rw [leadingKind] at worded ⊢
  cases found : Kind.all.find? fun k => k.initial? == first? text with
  | none =>
    rw [found] at worded
    exact absurd rfl worded
  | some k =>
    have same := List.find?_some found
    exact (eq_of_beq same).symm

theorem tail_blank_refuses {c : Char} (first : first? text = some c) (noComment : c ≠ '#') :
    tail .blank text = .refused := by
  rw [tail, Matcher.andThen, operands, Matcher.succeed, Outcome.andThen, List.drop_zero,
    Matcher.map, endOfLine_refuses first noComment]
  rfl

theorem ofKind_refuses_of_ne (differs : k ≠ leadingKind text) :
    ofKind strict k text = .refused := by
  by_cases blank : k = .blank
  · subst blank
    obtain ⟨c, initial, noComment, -⟩ := Kind.exists_initial differs.symm
    have first := first?_of_leadingKind differs.symm
    exact tail_blank_refuses (first.trans initial) noComment
  · obtain ⟨c, initial, -, worded⟩ := Kind.exists_initial blank
    apply ofKind_refuses worded
    intro starts
    exact differs (leadingKind_eq blank starts).symm

/-- Of some kinds, in any order, a line is read as the one that its first character tells. -/
theorem among_eq {kinds : List Kind} (distinct : kinds.Nodup) (listed : leadingKind text ∈ kinds) :
    among strict kinds text = ofKind strict (leadingKind text) text := by
  obtain ⟨before, after, rfl⟩ := List.append_of_mem listed
  rw [List.perm_middle.nodup_iff, List.nodup_cons] at distinct
  have refuses : ∀ k ∈ before ++ after, ofKind strict k text = .refused := by
    intro k inside
    apply ofKind_refuses_of_ne
    rintro rfl
    exact distinct.1 inside
  rw [among, List.map_append, List.map_cons]
  apply firstOf_eq_of_refused
  · intro m inside
    obtain ⟨k, earlier, rfl⟩ := List.mem_map.mp inside
    exact refuses k (List.mem_append_left _ earlier)
  · intro m inside
    obtain ⟨k, later, rfl⟩ := List.mem_map.mp inside
    exact refuses k (List.mem_append_right _ later)

theorem Kind.mem_all (k : Kind) : k ∈ all := by
  cases k <;> decide

theorem any_eq (strict : Bool) (text : List Char) :
    any strict text = ofKind strict (leadingKind text) text :=
  among_eq (by decide) (Kind.mem_all _)

theorem any_of_strict (success : any true text = .matched i n) : any false text = .matched i n := by
  rw [any_eq] at success ⊢
  exact ofKind_of_strict success

theorem kind_of_tail (success : tail k text = .matched i n) : i.kind = k := by
  obtain ⟨j, _, _, found, ending⟩ := exists_of_andThen success
  obtain ⟨_, _, rfl⟩ := exists_of_map ending
  exact kind_of_operands found

theorem kind_of_ofKind (success : ofKind strict k text = .matched i n) : i.kind = k := by
  by_cases bare : k.keywords = []
  · rw [ofKind, bare] at success
    exact kind_of_tail success
  · obtain ⟨_, name, _, _, _, found⟩ := exists_split_of_ofKind bare success
    obtain ⟨_, _, _, _, rest⟩ := exists_of_andThen found
    exact kind_of_tail rest

variable {line : String}

theorem bare_of_blank (success : ofKind strict .blank line.toList = .matched i n) : Bare line := by
  cases first : first? line.toList with
  | none => exact Or.inl first
  | some c =>
    by_cases noComment : c = '#'
    · rw [noComment] at first
      exact Or.inr first
    · have refused : ofKind strict .blank line.toList = .refused :=
        tail_blank_refuses first noComment
      rw [refused] at success
      cases success

theorem parse?_of_strict (success : parse? true line = .ok (some i)) :
    parse? false line = .ok (some i) := by
  obtain ⟨n, found⟩ := matched_of_parse? success
  rw [parse?, any_of_strict found]

theorem readStrictly_parse? (success : parse? false line = .ok (some i)) :
    ReadStrictly line i (parse? true line) := by
  obtain ⟨n, found⟩ := matched_of_parse? success
  rw [any_eq] at found
  have kind := kind_of_ofKind found
  rw [parse?, any_eq]
  by_cases blank : leadingKind line.toList = .blank
  · rw [blank] at found ⊢
    have same : ofKind true .blank line.toList = .matched i n := found
    rw [same]
    exact .bare (bare_of_blank found)
  · obtain ⟨c, initial, noComment, worded⟩ := Kind.exists_initial blank
    have first := first?_of_leadingKind blank
    obtain ⟨name, used, outcome⟩ := ofKind_strict worded found
    rw [← kind] at used
    rw [outcome]
    cases follows : runsOn name.toList line.toList with
    | false => exact .kept used follows
    | true =>
      refine .lost ?_ used follows
      rintro (nothing | comment)
      · rw [first, initial] at nothing
        cases nothing
      · rw [first, initial] at comment
        exact noComment (Option.some.inj comment)

end Lines

end Instruction

namespace Script

theorem parse_of_strict {text : String} {p : Program Instruction}
    (success : parse true text = .ok p) : parse false text = .ok p := by
  rw [parse_ok_iff] at success ⊢
  obtain ⟨lines, each⟩ := success
  exact ⟨lines, each.imp fun _ _ => Instruction.parse?_of_strict⟩

end Script

/-- The strict mode restricts the default mode: what it reads, the default mode reads alike, and of
what the default mode reads it loses exactly the lines in which a letter follows the keyword that
the default mode used. -/
theorem strict_restricts_default :
    (∀ (text : String) (program : Program Instruction),
      Script.parse true text = .ok program → Script.parse false text = .ok program) ∧
    ∀ (line : String) (i : Instruction), Instruction.parse? false line = .ok (some i) →
      Instruction.ReadStrictly line i (Instruction.parse? true line) := by
  refine ⟨?_, ?_⟩
  · intro text program success
    exact Script.parse_of_strict success
  · intro line i success
    exact Instruction.readStrictly_parse? success

/-- With the short keyword `S`, the variable `x` is set in the default mode only. -/
theorem short_set_restricted :
    Instruction.parse? false "Sx 1" = .ok (some (.set "x" (.int 1))) ∧
      Instruction.parse? true "Sx 1" = .ok none ∧
      Instruction.ReadStrictly "Sx 1" (.set "x" (.int 1)) (Instruction.parse? true "Sx 1") ∧
      Script.parse true "LIFT" = .ok ⟨[.lift], ["LIFT"]⟩ ∧
      Script.parse false "LIFT" = .ok ⟨[.lift], ["LIFT"]⟩ := by
  have value : Expr.expression [' ', '1'] = .matched (.int 1) 2 :=
    Expr.expression_write (a := .int 1) (by decide)
  have operands : Instruction.operands .set ['x', ' ', '1'] = .matched (.set "x" (.int 1)) 3 := by
    have name : word ['x', ' ', '1'] = .matched "x" 1 := by decide
    rw [Instruction.operands, Matcher.andThen, name, Outcome.andThen, Matcher.map,
      List.drop_succ_cons, List.drop_zero, value]
    rfl
  have read : Instruction.parse? false "Sx 1" = .ok (some (.set "x" (.int 1))) := by
    have short : Instruction.form false .set "S" ['S', 'x', ' ', '1'] =
        .matched (.set "x" (.int 1)) 4 := by
      have letter : keyword false "S".toList ['S', 'x', ' ', '1'] = .matched ['S'] 1 := by decide
      rw [Instruction.form, Matcher.andThen, letter, Outcome.andThen, List.drop_succ_cons,
        List.drop_zero, Instruction.tail, Matcher.andThen, operands]
      rfl
    have long : Instruction.form false .set "SET" ['S', 'x', ' ', '1'] = .refused := by decide
    have text : "Sx 1".toList = ['S', 'x', ' ', '1'] := by decide
    have kind : Instruction.leadingKind ['S', 'x', ' ', '1'] = .set := by decide
    have split : Instruction.Kind.set.keywords = ["SET"] ++ "S" :: [] := rfl
    rw [Instruction.parse?, text, Instruction.any_eq, kind,
      Instruction.ofKind_eq_form split (by simpa using long) (by simp), short]
  have lost : Instruction.parse? true "Sx 1" = .ok none := rfl
  have lift : Script.parse true "LIFT" = .ok ⟨[.lift], ["LIFT"]⟩ := rfl
  exact ⟨read, lost, strict_restricts_default.2 _ _ read, lift, strict_restricts_default.1 _ _ lift⟩

end TurtleGraphics
