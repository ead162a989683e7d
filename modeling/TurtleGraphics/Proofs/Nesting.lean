import Mathlib.Data.Nat.Find
import Mathlib.Order.Bounds.Basic
import TurtleGraphics.Proofs.StructuralFaults
/-!
Where a block ends, told by counting, and how the blocks of a program lie to each other.

The search for the end of a block keeps only a depth and begins anew for each opener. It stops at
the first position up to which more blocks have ended than begun (`Surplus`), and what it has passed
is balanced. The separate searches fit together: two closed blocks lie apart or one inside the
other, and no closed block reaches beyond an opener that is never closed. This holds of any list of
roles, balanced or not.
-/
set_option autoImplicit false

namespace TurtleGraphics

namespace Block

/-- More blocks end in `part` than begin there and `depth` more. -/
def Surplus (depth : Nat) (part : List Role) : Prop :=
  part.count .opens + depth < part.count .closes

/-- The roles behind position `start`, up to position `stop` and with it. -/
def between (roles : List Role) (start stop : Nat) : List Role :=
  (roles.drop (start + 1)).take (stop - start)

/-- The positions behind `start` up to which more blocks end than begin. -/
def surpluses (roles : List Role) (start : Nat) : Set Nat :=
  {stop | start < stop ∧ stop < roles.length ∧ Surplus 0 (between roles start stop)}

section Counting
variable {depth : Nat} {part roles : List Role}

theorem not_surplus_nil (depth : Nat) : ¬Surplus depth [] := by
  simp [Surplus]

theorem surplus_opens : Surplus depth (.opens :: part) ↔ Surplus (depth + 1) part := by
  have other : Role.opens ≠ .closes := nofun
  simp only [Surplus, List.count_cons_self, List.count_cons_of_ne other]
  omega

theorem surplus_closes : Surplus (depth + 1) (.closes :: part) ↔ Surplus depth part := by
  have other : Role.closes ≠ .opens := nofun
  simp only [Surplus, List.count_cons_self, List.count_cons_of_ne other]
  omega

theorem surplus_neutral : Surplus depth (.neutral :: part) ↔ Surplus depth part := by
  have other : ∀ r, r ≠ Role.neutral → (Role.neutral :: part).count r = part.count r :=
    fun _ differs => List.count_cons_of_ne differs.symm
  rw [Surplus, Surplus, other .opens nofun, other .closes nofun]

/-- The least number with a property that no number below `n` has. -/
theorem isLeast_add_iff {P Q : Nat → Prop} {n k : Nat} (below : ∀ j < n, ¬P j)
    (shift : ∀ j, P (n + j) ↔ Q j) :
    IsLeast {j | P j} k ↔ ∃ j, IsLeast {j | Q j} j ∧ n + j = k := by
  constructor
  · rintro ⟨holds, least⟩
    have beyond : n ≤ k := Nat.not_lt.mp fun less => below k less holds
    obtain ⟨j, rfl⟩ := Nat.exists_eq_add_of_le beyond
    refine ⟨j, ⟨(shift j).mp holds, ?_⟩, rfl⟩
    intro i other
    exact Nat.le_of_add_le_add_left (least ((shift i).mpr other))
  · rintro ⟨j, ⟨holds, least⟩, rfl⟩
    refine ⟨(shift j).mpr holds, ?_⟩
    intro i other
    have beyond : n ≤ i := Nat.not_lt.mp fun less => below i less other
    obtain ⟨i, rfl⟩ := Nat.exists_eq_add_of_le beyond
    exact Nat.add_le_add_left (least ((shift i).mp other)) n

/-- The search passes a role that brings no surplus, and goes on at another depth. -/
theorem isLeast_cons_iff {depth' k : Nat} {r : Role} {rest : List Role}
    (passes : ∀ part, Surplus depth (r :: part) ↔ Surplus depth' part) :
    IsLeast {j | j < (r :: rest).length ∧ Surplus depth ((r :: rest).take (j + 1))} k ↔
      ∃ j, IsLeast {j | j < rest.length ∧ Surplus depth' (rest.take (j + 1))} j ∧ j + 1 = k := by
  simp only [Nat.add_comm _ 1]
  refine isLeast_add_iff ?_ ?_
  · rintro j less ⟨-, surplus⟩
    obtain rfl : j = 0 := by omega
    exact not_surplus_nil depth' ((passes []).mp surplus)
  · intro j
    rw [List.length_cons, Nat.add_comm 1 (1 + j), List.take_succ_cons, passes,
      Nat.add_comm 1 j, Nat.add_lt_add_iff_right]

/-- The search at `depth` stops at the first surplus over it. -/
theorem closerIn?_eq_some_iff {k : Nat} :
    closerIn? depth roles = some k ↔
      IsLeast {j | j < roles.length ∧ Surplus depth (roles.take (j + 1))} k := by
  induction roles generalizing depth k with
  | nil => simp [closerIn?, IsLeast]
  | cons r rest ih =>
    cases r with
    | opens =>
      rw [closerIn?, Option.map_eq_some_iff, isLeast_cons_iff fun _ => surplus_opens]
      simp only [ih]
    | closes =>
      cases depth with
      | zero =>
        have first : IsLeast {j | j < (Role.closes :: rest).length ∧
            Surplus 0 ((Role.closes :: rest).take (j + 1))} 0 :=
          ⟨⟨Nat.succ_pos _, by simp [Surplus]⟩, fun _ _ => Nat.zero_le _⟩
        rw [closerIn?, Option.some.injEq]
        constructor
        · rintro rfl
          exact first
        · exact first.unique
      | succ depth =>
        rw [closerIn?, Option.map_eq_some_iff, isLeast_cons_iff fun _ => surplus_closes]
        simp only [ih]
    | neutral =>
      rw [closerIn?_neutral, Option.map_eq_some_iff, isLeast_cons_iff fun _ => surplus_neutral]
      simp only [ih]

/-- What the search passes closes all blocks that are open where it begins, and no others. -/
theorem depthAfter?_take_of_closerIn? {k : Nat} (found : closerIn? depth roles = some k) :
    depthAfter? depth (roles.take k) = some 0 := by
  fun_induction closerIn? depth roles generalizing k with
  | case1 => cases found
  | case2 depth rest ih =>
    obtain ⟨j, inner, rfl⟩ := Option.map_eq_some_iff.mp found
    rw [List.take_succ_cons, depthAfter?, ih inner]
  | case3 rest =>
    cases found
    rfl
  | case4 rest depth ih =>
    obtain ⟨j, inner, rfl⟩ := Option.map_eq_some_iff.mp found
    rw [List.take_succ_cons, depthAfter?, ih inner]
  | case5 depth rest ih =>
    obtain ⟨j, inner, rfl⟩ := Option.map_eq_some_iff.mp found
    rw [List.take_succ_cons, depthAfter?, ih inner]

theorem closesAt?_eq_some_iff {start stop : Nat} :
    closesAt? roles 0 (start + 1) = some stop ↔ IsLeast (surpluses roles start) stop := by
  rw [closesAt?, Option.map_eq_some_iff]
  simp only [closerIn?_eq_some_iff]
  refine (isLeast_add_iff ?_ ?_).symm
  · rintro j less ⟨beyond, -⟩
    omega
  · intro j
    have size : start + 1 + j - start = j + 1 := by omega
    rw [between, size, List.length_drop]
    constructor
    · rintro ⟨-, inside, surplus⟩
      exact ⟨by omega, surplus⟩
    · rintro ⟨inside, surplus⟩
      exact ⟨by omega, by omega, surplus⟩

theorem closesAt?_eq_none_iff {start : Nat} :
    closesAt? roles 0 (start + 1) = none ↔ surpluses roles start = ∅ := by
  rw [Option.eq_none_iff_forall_ne_some, Set.eq_empty_iff_forall_notMem]
  constructor
  · intro never stop surplus
    -- a surplus anywhere means that there is a first one
    classical
    have some : ∃ stop, stop ∈ surpluses roles start := ⟨stop, surplus⟩
    refine never (Nat.find some) (closesAt?_eq_some_iff.mpr ⟨Nat.find_spec some, ?_⟩)
    exact fun other found => Nat.find_min' some found
  · intro nothing stop found
    exact nothing stop (closesAt?_eq_some_iff.mp found).1

theorem balanced_between {start stop : Nat} (found : closesAt? roles 0 (start + 1) = some stop) :
    Balanced (between roles start (stop - 1)) := by
  obtain ⟨j, inner, rfl⟩ := Option.map_eq_some_iff.mp found
  have size : start + 1 + j - 1 - start = j := by omega
  rw [Balanced, between, size]
  exact depthAfter?_take_of_closerIn? inner

end Counting

section Nesting
variable {roles : List Role} {a b p q : Nat}

/-- Of two closed blocks the one that begins first ends before the other, or around it. -/
theorem apart_or_inside (before : a < b) (opens : roles[b]? = some .opens)
    (opens' : roles[a]? = some .opens) (closed : closesAt? roles 0 (a + 1) = some p)
    (closed' : closesAt? roles 0 (b + 1) = some q) : p < b ∨ q < p := by
  by_cases apart : p < b
  · exact Or.inl apart
  refine Or.inr ?_
  have around : a ∈ openAt roles b := by
    refine mem_openAt_iff.mpr ⟨before, opens', ?_⟩
    intro stop found
    rw [closed] at found
    cases found
    exact Nat.not_lt.mp apart
  -- what is open at the inner opener is still open behind its closer
  have behind := (openAt_of_closesAt? closed').2
  rw [openAt_opens opens, List.drop_succ_cons, List.drop_zero] at behind
  rw [← behind] at around
  exact (mem_openAt_iff.mp around).2.2 p closed

/-- A closed block ends before every later opener that is never closed. -/
theorem lt_of_never_closed (before : a < b) (opens : roles[b]? = some .opens)
    (opens' : roles[a]? = some .opens) (closed : closesAt? roles 0 (a + 1) = some p)
    (never : closesAt? roles 0 (b + 1) = none) : p < b := by
  by_contra reaches
  exact not_unmatched_inside opens' closed (Nat.le_of_lt before) (Nat.not_lt.mp reaches)
    (unmatched_of_never_closed opens never)

/-- No position closes two blocks. -/
theorem eq_of_closesAt? (opens : roles[a]? = some .opens) (opens' : roles[b]? = some .opens)
    (closed : closesAt? roles 0 (a + 1) = some p) (closed' : closesAt? roles 0 (b + 1) = some p) :
    a = b := by
  have less := (closesAt?_bounds closed).1
  have less' := (closesAt?_bounds closed').1
  rcases Nat.lt_trichotomy a b with before | same | after
  · have := apart_or_inside before opens' opens closed closed'
    omega
  · exact same
  · have := apart_or_inside after opens opens' closed' closed
    omega

end Nesting

theorem obstacle?_eq_none {α ε : Type} {role : α → Except ε Role} {items : List α}
    (each : ∀ a ∈ items, ∃ r, role a = .ok r) : obstacle? role items = none := by
  induction items with
  | nil => rfl
  | cons a rest ih =>
    obtain ⟨r, own⟩ := each a List.mem_cons_self
    rw [obstacle?, own]
    exact ih fun b inside => each b (List.mem_cons_of_mem a inside)

end Block

namespace Machine

open Block (Balanced Role between closesAt? surpluses)

variable {ι E ε : Type}

/-- The search for the ends of blocks finds them by counting in `roles`, and pairs openers with ends
without crossing. -/
structure PairsBlocks (lang : Language ι E ε) (program : Program ι) (roles : List Role) :
    Prop where
  found_iff : ∀ start < program.size, ∀ position, blockEnd lang program start = .ok position ↔
    ∃ stop : Nat, IsLeast (surpluses roles start) stop ∧ position = stop
  unclosed_iff : ∀ start < program.size,
    (∃ error : RunError, blockEnd lang program start = .error (.run error) ∧
      error.cause.kind = .structural ∧ error.line = some ((start : Int) + 1)) ↔
        surpluses roles start = ∅
  balanced : ∀ start < program.size, ∀ stop : Nat, blockEnd lang program start = .ok stop →
    Balanced (between roles start (stop - 1))
  injective : ∀ a b : Nat, roles[a]? = some .opens → roles[b]? = some .opens → ∀ p : Int,
    blockEnd lang program a = .ok p → blockEnd lang program b = .ok p → a = b
  nested : ∀ a b : Nat, a < b → roles[a]? = some .opens → roles[b]? = some .opens →
    ∀ p q : Int, blockEnd lang program a = .ok p → blockEnd lang program b = .ok q →
      p < b ∨ q < p
  unclosed_outside : ∀ a b : Nat, a < b → roles[a]? = some .opens → roles[b]? = some .opens →
    ∀ p : Int, blockEnd lang program a = .ok p → (∀ q, blockEnd lang program b ≠ .ok q) →
      p < b

section Search
variable {lang : Language ι E ε} {program : Program ι} {start : Nat}

theorem blockEnd_of_closesAt?_eq_none (each : ∀ i ∈ program.instructions, ∃ r, lang.role i = .ok r)
    (inside : start < (knownRoles lang program).length)
    (never : closesAt? (knownRoles lang program) 0 (start + 1) = none) :
    blockEnd lang program start =
      .error (.run ⟨.unclosedBlock (start + 1), some (start + 1)⟩) := by
  have clear : Block.obstacle? lang.role (program.instructions.drop (start + 1)) = none :=
    Block.obstacle?_eq_none fun i member => each i (List.mem_of_mem_drop member)
  have nothing : Block.closerIn? 0
      (Block.known lang.role (program.instructions.drop (start + 1))) = none := by
    rw [Block.known_drop inside]
    exact Option.map_eq_none_iff.mp never
  have search : Block.closer lang.role program.instructions start = .error .unclosed := by
    simp only [Block.closer_eq_drop, nothing, clear]
  rw [blockEnd, search]

/-- A program in which every item has a role pairs its blocks. -/
theorem pairsBlocks (each : ∀ i ∈ program.instructions, ∃ r, lang.role i = .ok r) :
    PairsBlocks lang program (roles lang program) := by
  have all : (knownRoles lang program).length = program.size :=
    Block.length_known_of_obstacle? (Block.obstacle?_eq_none each)
  rw [roles, Block.rolesOf_eq_known all, ← knownRoles]
  have bound : ∀ {b : Nat}, (knownRoles lang program)[b]? = some .opens →
      b < (knownRoles lang program).length :=
    fun role => (List.getElem?_eq_some_iff.mp role).1
  refine ⟨?_, ?_, ?_, ?_, ?_, ?_⟩
  · intro start inside position
    rw [← all] at inside
    simp only [blockEnd_eq_ok_iff inside, Block.closesAt?_eq_some_iff]
  · intro start inside
    rw [← all] at inside
    rw [← Block.closesAt?_eq_none_iff]
    constructor
    · rintro ⟨error, failure, -⟩
      cases found : closesAt? (knownRoles lang program) 0 (start + 1) with
      | none => rfl
      | some stop =>
        rw [(blockEnd_eq_ok_iff inside).mpr ⟨stop, found, rfl⟩] at failure
        cases failure
    · intro never
      exact ⟨_, blockEnd_of_closesAt?_eq_none each inside never, rfl, rfl⟩
  · intro start inside stop ends
    rw [← all] at inside
    obtain ⟨other, found, same⟩ := (blockEnd_eq_ok_iff inside).mp ends
    obtain rfl : stop = other := by omega
    exact Block.balanced_between found
  · intro a b opens opens' p ends ends'
    obtain ⟨stop, closed, rfl⟩ := (blockEnd_eq_ok_iff (bound opens)).mp ends
    obtain ⟨stop', closed', same⟩ := (blockEnd_eq_ok_iff (bound opens')).mp ends'
    obtain rfl : stop = stop' := by omega
    exact Block.eq_of_closesAt? opens opens' closed closed'
  · intro a b before opens opens' p q ends ends'
    obtain ⟨stop, closed, rfl⟩ := (blockEnd_eq_ok_iff (bound opens)).mp ends
    obtain ⟨stop', closed', rfl⟩ := (blockEnd_eq_ok_iff (bound opens')).mp ends'
    have := Block.apart_or_inside before opens' opens closed closed'
    omega
  · intro a b before opens opens' p ends unended
    obtain ⟨stop, closed, rfl⟩ := (blockEnd_eq_ok_iff (bound opens)).mp ends
    have never : closesAt? (knownRoles lang program) 0 (b + 1) = none := by
      refine Option.eq_none_iff_forall_ne_some.mpr fun other found => ?_
      exact unended other ((blockEnd_eq_ok_iff (bound opens')).mpr ⟨other, found, rfl⟩)
    have := Block.lt_of_never_closed before opens' opens closed never
    omega

end Search

end Machine

/-- The search for the end of a block finds the first position up to which more blocks end than
begin, passes balanced instructions on the way, and fails with an error of structure at the line
where it began if there is no such position. Blocks nest: no two have the same end, two closed ones
do not cross, and no closed one holds an opener without an end. -/
theorem blocks_pair_and_nest :
    (∀ program : Program Instruction,
      Machine.PairsBlocks Instruction.language program
        (program.instructions.map Instruction.role)) ∧
    ∀ program : Program Tree, (∀ t ∈ program.instructions, ∃ r, t.role = .ok r) →
      Machine.PairsBlocks Tree.language program (Machine.roles Tree.language program) :=
  ⟨fun _ => Machine.pairsBlocks fun i _ => ⟨i.role, rfl⟩,
    fun _ each => Machine.pairsBlocks each⟩

/-- A closed block, an opener without an end, and a closed block behind it. -/
def gappedTrees : Program Tree :=
  ⟨[.node (.instruction .loop) [], .node (.instruction .close) [],
    .node (.instruction .conditional) [], .node (.instruction .loop) [],
    .node (.instruction .lift) [], .node (.instruction .close) []], []⟩

theorem gappedTrees_pair_and_nest :
    (∀ t ∈ gappedTrees.instructions, ∃ r, t.role = .ok r) ∧
      Machine.PairsBlocks Tree.language gappedTrees
        (Machine.roles Tree.language gappedTrees) := by
  have each : ∀ t ∈ gappedTrees.instructions, ∃ r, t.role = .ok r := by
    simp [gappedTrees, Tree.role]
  exact ⟨each, blocks_pair_and_nest.2 gappedTrees each⟩

end TurtleGraphics
