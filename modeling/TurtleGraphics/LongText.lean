/-!
Texts that may be too long to be written out.

A long text is kept in stretches, each of them a word and how often it is written. Texts are joined,
repeated, measured and ordered without writing them out. Two stretches are compared on as many
characters as both words have together: if they agree there, they agree as far as both go.

The main statements say that joining, repeating and measuring mean what they mean for the characters
that a long text stands for.
-/
set_option autoImplicit false

namespace TurtleGraphics

structure LongText.Stretch where
  word : List Char
  times : Nat
  deriving DecidableEq, Repr

structure LongText where
  stretches : List LongText.Stretch
  deriving DecidableEq, Repr

namespace LongText

namespace Stretch

def chars (s : Stretch) : List Char := (List.replicate s.times s.word).flatten

def length (s : Stretch) : Nat := s.word.length * s.times

/-- The first `n` characters. -/
def take (s : Stretch) (n : Nat) : List Char :=
  (List.replicate (min s.times (n / s.word.length + 1)) s.word).flatten.take n

/-- All but the first `n` characters. What begins within the word is a turned word as often as it
goes, and the rest of the word at the end. -/
def drop (s : Stretch) (n : Nat) : List Stretch :=
  let whole := n / s.word.length
  let inside := n % s.word.length
  if s.times ≤ whole then []
  else if inside = 0 then [⟨s.word, s.times - whole⟩]
  else
    [⟨s.word.drop inside ++ s.word.take inside, s.times - whole - 1⟩, ⟨s.word.drop inside, 1⟩]

theorem length_chars (s : Stretch) : s.chars.length = s.length := by
  obtain ⟨word, times⟩ := s
  simp only [chars, length]
  induction times with
  | zero => rfl
  | succ n ih =>
    rw [List.replicate_succ, List.flatten_cons, List.length_append, ih, Nat.mul_succ, Nat.add_comm]

end Stretch

/-- The characters that a text stands for. -/
def chars (t : LongText) : List Char := t.stretches.flatMap Stretch.chars

def toString (t : LongText) : String := String.ofList t.chars

def lengthOf : List Stretch → Nat
  | [] => 0
  | s :: rest => s.length + lengthOf rest

def length (t : LongText) : Nat := lengthOf t.stretches

def isEmpty (t : LongText) : Bool := t.length == 0

/-- The longest text that there is room for. -/
def maxLength : Nat := 4294967296

/-- The longest word that is put together from others. -/
def maxWord : Nat := 65536

/-- The text of these stretches, as one word if it is short. -/
def ofStretches (stretches : List Stretch) : LongText :=
  let t : LongText := ⟨stretches⟩
  if t.length ≤ maxWord then ⟨[⟨t.chars, 1⟩]⟩ else t

def ofString (s : String) : LongText := ⟨[⟨s.toList, 1⟩]⟩

def append (t u : LongText) : LongText := ofStretches (t.stretches ++ u.stretches)

/-- The text written `n` times. -/
def repeated (t : LongText) (n : Nat) : LongText :=
  if t.length = 0 then ⟨[]⟩
  else
    match t.stretches with
    | [s] => ⟨[⟨s.word, s.times * n⟩]⟩
    | stretches => ⟨(List.replicate n stretches).flatten⟩

theorem chars_ofStretches (stretches : List Stretch) :
    (ofStretches stretches).chars = stretches.flatMap Stretch.chars := by
  simp only [ofStretches]
  split
  · simp [chars, Stretch.chars]
  · rfl

theorem chars_append (t u : LongText) : (t.append u).chars = t.chars ++ u.chars := by
  rw [append, chars_ofStretches, List.flatMap_append]
  rfl

theorem length_chars (t : LongText) : t.chars.length = t.length := by
  obtain ⟨stretches⟩ := t
  simp only [chars, length]
  induction stretches with
  | nil => rfl
  | cons s rest ih => simp [lengthOf, ih, Stretch.length_chars]

theorem chars_repeated (t : LongText) (n : Nat) :
    (t.repeated n).chars = (List.replicate n t.chars).flatten := by
  by_cases empty : t.length = 0
  · have : t.chars = [] := List.eq_nil_of_length_eq_zero (by rw [length_chars, empty])
    rw [this, repeated, if_pos empty]
    simp [chars]
  rw [repeated, if_neg empty]
  obtain ⟨stretches⟩ := t
  split
  · rename_i single
    obtain rfl : stretches = _ := single
    simp only [chars, Stretch.chars, List.flatMap_cons, List.flatMap_nil, List.append_nil]
    induction n with
    | zero => simp
    | succ n ih =>
      rw [List.replicate_succ, List.flatten_cons, ← ih, ← List.flatten_append,
        List.replicate_append_replicate, Nat.mul_succ, Nat.add_comm]
  · simp only [chars]
    induction n with
    | zero => rfl
    | succ n ih => simp [List.replicate_succ, ih]

/-! ### The order of texts -/

theorem lengthOf_append (stretches others : List Stretch) :
    lengthOf (stretches ++ others) = lengthOf stretches + lengthOf others := by
  induction stretches with
  | nil => simp [lengthOf]
  | cons s rest ih => simp [lengthOf, ih, Nat.add_assoc]

theorem lengthOf_drop (s : Stretch) (n : Nat) (positive : 0 < n) (within : n ≤ s.length) :
    lengthOf (s.drop n) < s.length := by
  obtain ⟨word, times⟩ := s
  simp only [Stretch.length] at within
  have filled : 0 < word.length := by
    rcases Nat.eq_zero_or_pos word.length with h | h
    · rw [h, Nat.zero_mul] at within
      omega
    · exact h
  have parts := Nat.div_add_mod n word.length
  have bound := Nat.mod_lt n filled
  simp only [Stretch.drop, Stretch.length]
  split
  · simp only [lengthOf]
    omega
  · rename_i goesOn
    obtain ⟨k, rfl⟩ : ∃ k, times = n / word.length + 1 + k :=
      ⟨times - n / word.length - 1, by omega⟩
    split
    · rename_i aligned
      have rest : n / word.length + 1 + k - n / word.length = 1 + k := by omega
      simp only [lengthOf, Stretch.length, rest, Nat.mul_add, Nat.mul_one, Nat.add_zero]
      omega
    · have rest : n / word.length + 1 + k - n / word.length - 1 = k := by omega
      have turned : (word.drop (n % word.length) ++ word.take (n % word.length)).length =
          word.length := by
        simp only [List.length_append, List.length_drop, List.length_take]
        omega
      simp only [lengthOf, Stretch.length, turned, List.length_drop, rest, Nat.mul_add,
        Nat.mul_one, Nat.add_zero]
      omega

/-- The order of two texts in stretches: that of the first characters that differ, and a text that
ends comes before one that goes on. -/
def compareStretches : List Stretch → List Stretch → Ordering
  | [], others => if lengthOf others = 0 then .eq else .lt
  | s :: rest, [] => if lengthOf (s :: rest) = 0 then .eq else .gt
  | s :: rest, t :: others =>
    if s.length = 0 then compareStretches rest (t :: others)
    else if t.length = 0 then compareStretches (s :: rest) others
    else
      let common := min s.length t.length
      let sample := min common (s.word.length + t.word.length)
      match compare (s.take sample) (t.take sample) with
      | .eq => compareStretches (s.drop common ++ rest) (t.drop common ++ others)
      | order => order
termination_by stretches others =>
  (lengthOf stretches + lengthOf others, stretches.length + others.length)
decreasing_by
  · rename_i empty
    simp only [lengthOf, List.length_cons, empty, Nat.zero_add]
    exact Prod.Lex.right _ (by omega)
  · rename_i empty
    simp only [lengthOf, List.length_cons, empty, Nat.zero_add]
    exact Prod.Lex.right _ (by omega)
  · have positive : 0 < min s.length t.length := by omega
    have left := lengthOf_drop s _ positive (Nat.min_le_left ..)
    have right := lengthOf_drop t _ positive (Nat.min_le_right ..)
    apply Prod.Lex.left
    simp only [lengthOf_append, lengthOf]
    omega

def compare (t u : LongText) : Ordering := compareStretches t.stretches u.stretches

/-- Whether two texts have the same characters. -/
def same (t u : LongText) : Bool := t.compare u == .eq

end LongText

end TurtleGraphics
