import TurtleGraphics.Proofs.Evaluation
/-!
Operations on texts that are not written out.

How a long text is cut into stretches makes no difference: joining, repeating, measuring and ordering
come to what they come to for the characters. Ordering is the delicate one, since two stretches are
compared on a sample. A stretch repeats itself after each of its words, and two texts that agree on as
many characters as both words have together go on to agree: what stands further on in one stands a
word before in it, and so in the other.
-/
set_option autoImplicit false

namespace TurtleGraphics

namespace LongText

section Words
variable {α : Type} {x y : List α} {n p q : Nat}

/-- By strong induction on the position: behind both words one can go back by the one word in the
first text, and then by the other word in the second. -/
theorem getElem?_eq_of_sample (turn : 0 < p) (turn' : 0 < q)
    (repeats : ∀ i, i + p < n → x[i + p]? = x[i]?) (repeats' : ∀ i, i + q < n → y[i + q]? = y[i]?)
    (sample : ∀ i, i < n → i < p + q → x[i]? = y[i]?) {i : Nat} (inside : i < n) :
    x[i]? = y[i]? := by
  induction i using Nat.strongRecOn with
  | ind i ih =>
    by_cases early : i < p + q
    · exact sample i inside early
    · obtain ⟨k, rfl⟩ : ∃ k, i = k + p + q := ⟨i - (p + q), by omega⟩
      calc
        x[k + p + q]? = x[k + q + p]? := by rw [Nat.add_right_comm]
        _ = x[k + q]? := repeats (k + q) (by omega)
        _ = y[k + q]? := ih (k + q) (by omega) (by omega)
        _ = y[k]? := repeats' k (by omega)
        _ = x[k]? := (ih k (by omega) (by omega)).symm
        _ = x[k + p]? := (repeats k (by omega)).symm
        _ = y[k + p]? := ih (k + p) (by omega) (by omega)
        _ = y[k + p + q]? := (repeats' (k + p) (by omega)).symm

theorem compareLex_append {cmp : α → α → Ordering} {first second : List α}
    (same : first.length = second.length) :
    List.compareLex cmp (first ++ x) (second ++ y) =
      (List.compareLex cmp first second).then (List.compareLex cmp x y) := by
  induction first generalizing second with
  | nil =>
    obtain rfl : second = [] := List.eq_nil_of_length_eq_zero same.symm
    rfl
  | cons a first ih =>
    cases second with
    | nil => simp at same
    | cons b second =>
      have same : first.length = second.length := by simpa using same
      rw [List.cons_append, List.cons_append, List.compareLex_cons_cons, List.compareLex_cons_cons,
        ih same, Ordering.then_assoc]

theorem flatten_replicate_turned (back front : List α) (n : Nat) :
    (List.replicate n (back ++ front)).flatten ++ back =
      back ++ (List.replicate n (front ++ back)).flatten := by
  induction n with
  | zero => simp
  | succ n ih => simp [List.replicate_succ, ih]

end Words

namespace Stretch
variable {s t : Stretch} {n : Nat}

theorem chars_add (word : List Char) (m n : Nat) :
    chars ⟨word, m + n⟩ = chars ⟨word, m⟩ ++ chars ⟨word, n⟩ := by
  simp only [chars, ← List.flatten_append, List.replicate_append_replicate]

theorem chars_getElem?_add {i : Nat} (inside : i + s.word.length < s.length) :
    s.chars[i + s.word.length]? = s.chars[i]? := by
  obtain ⟨word, times⟩ := s
  cases times with
  | zero => simp [length] at inside
  | succ n =>
    have once : chars ⟨word, 1⟩ = word := by simp [chars]
    have before : i < (chars ⟨word, n⟩).length := by
      rw [length_chars]
      simp only [length, Nat.mul_succ] at inside ⊢
      omega
    have ahead : chars ⟨word, n + 1⟩ = word ++ chars ⟨word, n⟩ := by
      rw [Nat.add_comm, chars_add, once]
    rw [ahead, Nat.add_comm, List.getElem?_append_right (Nat.le_add_right ..),
      Nat.add_sub_cancel_left, ← ahead, chars_add, List.getElem?_append_left before]

theorem word_length_pos (some : s.length ≠ 0) : 0 < s.word.length := by
  rw [length] at some
  exact Nat.pos_of_ne_zero (Nat.ne_zero_of_mul_ne_zero_left some)

theorem take_eq (filled : 0 < s.word.length) : s.take n = s.chars.take n := by
  obtain ⟨word, times⟩ := s
  rw [take]
  by_cases few : times ≤ n / word.length + 1
  · rw [Nat.min_eq_left few]
    rfl
  · obtain ⟨more, rfl⟩ : ∃ more, times = n / word.length + 1 + more :=
      ⟨times - (n / word.length + 1), by omega⟩
    have enough : n ≤ (chars ⟨word, n / word.length + 1⟩).length := by
      rw [length_chars, length]
      exact Nat.le_of_lt (Nat.lt_mul_div_succ n filled)
    rw [Nat.min_eq_right (Nat.le_add_right ..), chars_add, List.take_append_of_le_length enough]
    rfl

theorem chars_drop (filled : 0 < s.word.length) :
    (s.drop n).flatMap chars = s.chars.drop n := by
  obtain ⟨word, times⟩ := s
  have parts := Nat.div_add_mod n word.length
  have bound := Nat.mod_lt n filled
  simp only [drop]
  generalize n / word.length = whole at parts
  generalize n % word.length = inside at parts bound
  split
  · rename_i few
    have short : (chars ⟨word, times⟩).length ≤ n := by
      rw [length_chars, length, ← parts]
      exact Nat.le_trans (Nat.mul_le_mul_left _ few) (Nat.le_add_right ..)
    rw [List.drop_eq_nil_of_le short, List.flatMap_nil]
  · obtain ⟨more, rfl⟩ : ∃ more, times = whole + (1 + more) := ⟨times - whole - 1, by omega⟩
    have first : (chars ⟨word, whole⟩).length = word.length * whole := length_chars _
    have left : whole + (1 + more) - whole = 1 + more := by omega
    rw [chars_add, ← parts, ← first, List.drop_length_add_append, left]
    split
    · rename_i aligned
      rw [aligned]
      simp
    · have cut := List.take_append_drop inside word
      have once : chars ⟨word, 1⟩ = word := by simp [chars]
      rw [chars_add, once, List.drop_append_of_le_length (Nat.le_of_lt bound), Nat.add_sub_cancel_left]
      simpa [chars, cut] using flatten_replicate_turned (word.drop inside) (word.take inside) more

/-- Two stretches that agree on a sample agree as far as both go. -/
theorem chars_take_eq_of_sample (filled : 0 < s.word.length) (filled' : 0 < t.word.length)
    (within : n ≤ s.length) (within' : n ≤ t.length)
    (sample : s.chars.take (min n (s.word.length + t.word.length)) =
      t.chars.take (min n (s.word.length + t.word.length))) :
    s.chars.take n = t.chars.take n := by
  apply List.ext_getElem?
  intro i
  by_cases inside : i < n
  · rw [List.getElem?_take_of_lt inside, List.getElem?_take_of_lt inside]
    refine getElem?_eq_of_sample filled filled' ?_ ?_ ?_ inside
    · exact fun k before => chars_getElem?_add (Nat.lt_of_lt_of_le before within)
    · exact fun k before => chars_getElem?_add (Nat.lt_of_lt_of_le before within')
    · intro k before early
      have here : k < min n (s.word.length + t.word.length) := by omega
      rw [← List.getElem?_take_of_lt here, sample, List.getElem?_take_of_lt here]
  · have behind : n ≤ i := Nat.le_of_not_lt inside
    rw [List.getElem?_take_eq_none behind, List.getElem?_take_eq_none behind]

end Stretch

section Order
variable {t u : LongText}

theorem chars_eq_nil_iff {stretches : List Stretch} :
    stretches.flatMap Stretch.chars = [] ↔ lengthOf stretches = 0 := by
  have counted : (stretches.flatMap Stretch.chars).length = lengthOf stretches :=
    length_chars ⟨stretches⟩
  rw [← List.length_eq_zero_iff, counted]

theorem flatMap_chars_cons {s : Stretch} (empty : s.length = 0) (rest : List Stretch) :
    (s :: rest).flatMap Stretch.chars = rest.flatMap Stretch.chars := by
  have nothing : s.chars = [] := List.eq_nil_of_length_eq_zero (by rw [Stretch.length_chars, empty])
  rw [List.flatMap_cons, nothing, List.nil_append]

/-- The order of two texts is that of the first `n` characters, and then that of the rest. -/
theorem compare_cut {first second : List Char} {n : Nat} (within : n ≤ first.length)
    (within' : n ≤ second.length) (rest others : List Char) :
    Ord.compare (first ++ rest) (second ++ others) =
      (Ord.compare (first.take n) (second.take n)).then
        (Ord.compare (first.drop n ++ rest) (second.drop n ++ others)) := by
  have same : (first.take n).length = (second.take n).length := by
    rw [List.length_take_of_le within, List.length_take_of_le within']
  calc
    Ord.compare (first ++ rest) (second ++ others) =
        Ord.compare (first.take n ++ (first.drop n ++ rest))
          (second.take n ++ (second.drop n ++ others)) := by
      rw [← List.append_assoc, ← List.append_assoc, List.take_append_drop, List.take_append_drop]
    _ = _ := compareLex_append same

theorem compareStretches_eq (stretches others : List Stretch) :
    compareStretches stretches others =
      Ord.compare (stretches.flatMap Stretch.chars) (others.flatMap Stretch.chars) := by
  fun_induction compareStretches stretches others with
  | case1 others empty =>
    rw [chars_eq_nil_iff.mpr empty]
    rfl
  | case2 others filled =>
    cases rest : others.flatMap Stretch.chars with
    | nil => exact absurd (chars_eq_nil_iff.mp rest) filled
    | cons c cs => rfl
  | case3 s rest empty =>
    rw [chars_eq_nil_iff.mpr empty]
    rfl
  | case4 s rest filled =>
    cases rest : (s :: rest).flatMap Stretch.chars with
    | nil => exact absurd (chars_eq_nil_iff.mp rest) filled
    | cons c cs => rfl
  | case5 s rest t others empty ih => rw [ih, flatMap_chars_cons empty]
  | case6 s rest t others _ empty ih => rw [ih, flatMap_chars_cons empty others]
  | case7 s rest t others some some' common sample alike ih =>
    have filled := Stretch.word_length_pos some
    have filled' := Stretch.word_length_pos some'
    have within : common ≤ s.length := Nat.min_le_left ..
    have within' : common ≤ t.length := Nat.min_le_right ..
    have equal := Std.LawfulEqOrd.eq_of_compare alike
    rw [Stretch.take_eq filled, Stretch.take_eq filled'] at equal
    have front := Stretch.chars_take_eq_of_sample filled filled' within within' equal
    rw [← Stretch.length_chars] at within within'
    rw [ih, List.flatMap_append, List.flatMap_append, Stretch.chars_drop filled,
      Stretch.chars_drop filled', List.flatMap_cons, List.flatMap_cons,
      compare_cut within within', front, Std.ReflOrd.compare_self, Ordering.eq_then]
  | case8 s rest t others some some' common sample differ =>
    have filled := Stretch.word_length_pos some
    have filled' := Stretch.word_length_pos some'
    have within : sample ≤ s.chars.length := by
      rw [Stretch.length_chars]
      exact Nat.le_trans (Nat.min_le_left ..) (Nat.min_le_left ..)
    have within' : sample ≤ t.chars.length := by
      rw [Stretch.length_chars]
      exact Nat.le_trans (Nat.min_le_left ..) (Nat.min_le_right ..)
    rw [Stretch.take_eq filled, Stretch.take_eq filled'] at differ ⊢
    rw [List.flatMap_cons, List.flatMap_cons, compare_cut within within']
    cases order : Ord.compare (s.chars.take sample) (t.chars.take sample) with
    | eq => exact absurd order differ
    | lt | gt => rfl

theorem compare_eq (t u : LongText) : t.compare u = Ord.compare t.chars u.chars :=
  compareStretches_eq t.stretches u.stretches

theorem same_iff : t.same u = true ↔ t.chars = u.chars := by
  rw [same, compare_eq, beq_iff_eq, Std.LawfulEqOrd.compare_eq_iff_eq]

end Order

section Congruence
variable {t t' u u' : LongText}

theorem length_congr (same : t.chars = u.chars) : t.length = u.length := by
  rw [← length_chars, ← length_chars, same]

theorem compare_congr (left : t.chars = t'.chars) (right : u.chars = u'.chars) :
    t.compare u = t'.compare u' := by
  rw [compare_eq, compare_eq, left, right]

theorem same_congr (left : t.chars = t'.chars) (right : u.chars = u'.chars) :
    t.same u = t'.same u' := by
  rw [Bool.eq_iff_iff, same_iff, same_iff, left, right]

end Congruence

end LongText

namespace Tree

namespace Value

/-- Two values that are the same once they are written out. -/
inductive Alike : Value → Value → Prop
  | refl (a : Value) : Alike a a
  | text {t u : LongText} (same : t.chars = u.chars) : Alike (.text t) (.text u)

variable {a a' b b' : Value}

theorem alike_iff : a.Alike b ↔ a.toTree = b.toTree := by
  constructor
  · rintro (_ | same)
    · rfl
    · simp [toTree, LongText.toString, same]
  · intro same
    cases a with
    | text t =>
      cases b with
      | text u =>
        rw [toTree, toTree, Tree.text.injEq] at same
        have chars := congrArg String.toList same
        rw [LongText.toString, LongText.toString, String.toList_ofList, String.toList_ofList] at chars
        exact .text chars
      | int | bool | node => cases same
    | int | bool | node =>
      cases b with
      | text u => cases same
      | int | bool | node => cases same <;> exact .refl _

theorem Alike.toInt?_eq (alike : a.Alike b) : a.toInt? = b.toInt? := by
  cases alike <;> rfl

theorem Alike.sortName_eq (alike : a.Alike b) : a.sortName = b.sortName := by
  cases alike <;> rfl

theorem Alike.truth_eq (alike : a.Alike b) : a.truth = b.truth := by
  cases alike with
  | refl => rfl
  | text same => simp [truth, LongText.isEmpty, LongText.length_congr same]

theorem Alike.same_eq (left : a.Alike a') (right : b.Alike b') : a.same b = a'.same b' := by
  cases left with
  | refl a =>
    cases right with
    | refl b => rfl
    | text same =>
      cases a with
      | text t => exact LongText.same_congr rfl same
      | int | bool | node => rfl
  | text same =>
    cases right with
    | refl b =>
      cases b with
      | text t => exact LongText.same_congr same rfl
      | int | bool | node => rfl
    | text same' => exact LongText.same_congr same same'

end Value

open Value (Alike)

variable {a a' b b' : Value} {t u : LongText}

/-- Two outcomes are the same failure, or values that are the same once they are written out. -/
inductive AlikeOutcomes {ε : Type} : Except ε Value → Except ε Value → Prop
  | ok {a b : Value} (alike : a.Alike b) : AlikeOutcomes (.ok a) (.ok b)
  | error (e : ε) : AlikeOutcomes (.error e) (.error e)

theorem AlikeOutcomes.refl {ε : Type} (outcome : Except ε Value) :
    AlikeOutcomes outcome outcome := by
  cases outcome with
  | ok a => exact .ok (.refl a)
  | error e => exact .error e

theorem AlikeOutcomes.map_toTree {ε : Type} {first second : Except ε Value}
    (alike : AlikeOutcomes first second) : first.map Value.toTree = second.map Value.toTree := by
  cases alike with
  | ok alike => exact congrArg Except.ok (Value.alike_iff.mp alike)
  | error e => rfl

section Operations

theorem housed_alike (same : t.chars = u.chars) : AlikeOutcomes (housed t) (housed u) := by
  rw [housed, housed, LongText.length_congr same]
  split
  · exact .error _
  · exact .ok (.text same)

theorem repeatText_alike (same : t.chars = u.chars) (n : Int) :
    AlikeOutcomes (repeatText t n) (repeatText u n) := by
  rw [repeatText, repeatText, LongText.length_congr same]
  split
  · exact .error _
  split
  · exact .error _
  split
  · exact .error _
  · exact .ok (.text (by rw [LongText.chars_repeated, LongText.chars_repeated, same]))

theorem repeatedBy_alike (same : t.chars = u.chars) (counts : a.Alike b) :
    AlikeOutcomes (repeatedBy t a) (repeatedBy u b) := by
  rw [repeatedBy, repeatedBy, counts.toInt?_eq, counts.sortName_eq]
  cases b.toInt? with
  | none => exact .error _
  | some n => exact repeatText_alike same n

theorem operate_text_alike (o : Operator) (same : t.chars = u.chars) (right : b.Alike b') :
    AlikeOutcomes (operate o (.text t) b) (operate o (.text u) b') := by
  cases o with
  | add =>
    cases right with
    | refl b =>
      cases b with
      | text w => exact housed_alike (by rw [LongText.chars_append, LongText.chars_append, same])
      | int | bool | node => exact .error _
    | text same' =>
      exact housed_alike (by rw [LongText.chars_append, LongText.chars_append, same, same'])
  | sub =>
    cases right with
    | refl b => cases b <;> exact .error _
    | text same' => exact .error _
  | mul =>
    have repeats : ∀ (w : LongText) (c : Value), operate .mul (.text w) c = repeatedBy w c := by
      intro w c
      cases c <;> rfl
    rw [repeats, repeats]
    exact repeatedBy_alike same right

theorem operate_alike (o : Operator) (left : a.Alike a') (right : b.Alike b') :
    AlikeOutcomes (operate o a b) (operate o a' b') := by
  cases left with
  | text same => exact operate_text_alike o same right
  | refl a =>
    cases right with
    | refl b => exact .refl _
    | text same =>
      have repeated := repeatedBy_alike same (.refl a)
      cases a with
      | text w => exact operate_text_alike o rfl (.text same)
      | int | bool | node =>
        cases o with
        | add | sub => exact .error _
        | mul => exact repeated

theorem ordering?_eq (left : a.Alike a') (right : b.Alike b') :
    ordering? a b = ordering? a' b' := by
  cases left with
  | refl a =>
    cases right with
    | refl b => rfl
    | text same =>
      cases a with
      | text t => exact congrArg Option.some (LongText.compare_congr rfl same)
      | int | bool | node => rfl
  | text same =>
    cases right with
    | refl b =>
      cases b with
      | text t => exact congrArg Option.some (LongText.compare_congr same rfl)
      | int | bool | node => rfl
    | text same' => exact congrArg Option.some (LongText.compare_congr same same')

theorem compareValues_eq (c : Comparator) (left : a.Alike a') (right : b.Alike b') :
    compareValues c a b = compareValues c a' b' := by
  simp only [compareValues, ordering?_eq left right, left.same_eq right, left.sortName_eq,
    right.sortName_eq]

theorem joinValues_alike (label : Label) (op : String) (left : a.Alike a') (right : b.Alike b') :
    AlikeOutcomes (joinValues label op a b) (joinValues label op a' b') := by
  simp only [joinValues, left.sortName_eq, right.sortName_eq, left.truth_eq, right.truth_eq,
    compareValues_eq _ left right]
  cases label with
  | arithmetic =>
    dsimp only
    cases ofSpelling? Operator.spelling Operator.all op with
    | none => exact .error _
    | some o => exact operate_alike o left right
  | abstract | value | comparison | negation | combination | instruction => exact .refl _

end Operations

theorem reported_alike {first second : Except Misuse Value} (alike : AlikeOutcomes first second) :
    AlikeOutcomes (reported first) (reported second) := by
  cases alike with
  | ok alike => exact .ok alike
  | error m => exact .error (EvalFault.misuse m)

/-- Environments whose values are alike give a tree values that are alike. -/
theorem eval_alike {env env' : Env}
    (alike : ∀ name, (env.get? name).map Value.toTree = (env'.get? name).map Value.toTree)
    (t : Tree) : AlikeOutcomes (t.eval env) (t.eval env') := by
  induction t using eval_induction with
  | value v isVariable =>
    by_cases named : (Value.ofTree isVariable).truth = true
    · have found := alike v
      rw [eval, eval, if_pos named, if_pos named]
      cases here : env.get? v with
      | none =>
        rw [here, Option.map_none, eq_comm, Option.map_eq_none_iff] at found
        rw [found]
        exact .error _
      | some a =>
        rw [here, Option.map_some, eq_comm, Option.map_eq_some_iff] at found
        obtain ⟨b, there, same⟩ := found
        rw [there]
        exact .ok (Value.alike_iff.mpr same.symm)
    · rw [eval, eval, if_neg named, if_neg named]
      exact .refl _
  | negation operand ih =>
    rw [eval, eval]
    generalize operand.eval env = first at ih
    generalize operand.eval env' = second at ih
    cases ih with
    | ok alike => exact .ok (by rw [alike.truth_eq]; exact .refl _)
    | error e => exact .error e
  | operation label left op right joins left_ih right_ih =>
    rw [joins, joins]
    generalize left.eval env = first at left_ih
    generalize left.eval env' = first' at left_ih
    generalize right.eval env = second at right_ih
    generalize right.eval env' = second' at right_ih
    cases left_ih with
    | error e => exact .error e
    | ok left_alike =>
      cases right_ih with
      | error e => exact .error e
      | ok right_alike => exact reported_alike (joinValues_alike label op left_alike right_alike)
  | none t m fails =>
    rw [fails, fails]
    exact .error _

/-- The environment with every text written out. -/
def Env.writtenOut (env : Env) : Env :=
  ⟨env.entries.map fun entry => (entry.1, .ofTree entry.2.toTree)⟩

theorem get?_writtenOut (env : Env) (name : Tree) :
    env.writtenOut.get? name = (env.get? name).map fun v => .ofTree v.toTree := by
  obtain ⟨entries⟩ := env
  simp only [Env.writtenOut, Bindings.get?]
  induction entries with
  | nil => rfl
  | cons entry rest ih =>
    rw [List.map_cons, List.lookup_cons, List.lookup_cons, ih]
    cases name == entry.1 <;> rfl

/-- A tree has the same value, written out, whether or not the texts in the environment are. -/
theorem eval_writtenOut (env : Env) (t : Tree) :
    (t.eval env.writtenOut).map Value.toTree = (t.eval env).map Value.toTree := by
  refine (eval_alike ?_ t).map_toTree
  intro name
  rw [get?_writtenOut, Option.map_map]
  exact congrArg (Option.map · (env.get? name)) (funext fun v => Value.toTree_ofTree v.toTree)

end Tree

end TurtleGraphics
