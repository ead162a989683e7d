import TurtleGraphics.Drawing.Doubles
import TurtleGraphics.Proofs.Nesting
/-!
A run depends on the instructions that it executes and on the roles of the others.

A step reads the instruction at its position. Of the other instructions it only asks for the roles,
when it looks for the end of a block. So programs with the same roles have the same run if they
agree at the positions that the run of one of them visits.

A block that is never entered holds no such position. Nothing else leads into it: a step goes on to
the next position, behind a block or back to an opener, and blocks do not cross.
-/
set_option autoImplicit false

namespace TurtleGraphics

namespace Machine

open Block (closesAt?)

variable {ι E ε P H : Type}

/-- The programs have the same roles, position by position. -/
def SameRoles (lang : Language ι E ε) (program other : Program ι) : Prop :=
  other.instructions.map lang.role = program.instructions.map lang.role

/-- From the state `s` the programs are run through the same states to the same end. -/
structure SameRun (lang : Language ι E ε) (plane : Plane P H) (program other : Program ι)
    (limit : Int) (s : State E P H) : Prop where
  states : ∀ n, stepMany lang plane other limit n s = stepMany lang plane program limit n s
  ending : run lang plane other limit s = run lang plane program limit s

/-- The block from the opener `b` to its end `stop` is skipped whenever the run comes to it. -/
structure AlwaysSkipped (lang : Language ι E ε) (plane : Plane P H) (program : Program ι)
    (limit : Int) (b : Nat) (stop : Int) : Prop where
  opens : ∃ i, program.get? b = some i ∧ lang.role i = .ok .opens
  ends : blockEnd lang program b = .ok stop
  skipped : ∀ n t, stepMany lang plane program limit n (start lang plane) = .next t →
    t.index = b → ∀ i, program.get? b = some i →
      ∀ repeats, lang.action t.env i ≠ .ok (.enter true repeats)

/-- What the run of a program does not depend on. -/
structure RunsByExecuted (lang : Language ι E ε) (plane : Plane P H) (program : Program ι)
    (limit : Int) : Prop where
  executed : ∀ other, SameRoles lang program other →
    (∀ position ∈ visits lang plane program limit (start lang plane),
      other.get? position = program.get? position) →
    SameRun lang plane program other limit (start lang plane)
  unvisited : ∀ b stop, AlwaysSkipped lang plane program limit b stop →
    ∀ position ∈ visits lang plane program limit (start lang plane),
      position ≤ b ∨ stop < position
  skipped : ∀ b stop, AlwaysSkipped lang plane program limit b stop →
    ∀ other, SameRoles lang program other →
      (∀ k : Nat, k ≤ b ∨ stop < k → other.get? k = program.get? k) →
      SameRun lang plane program other limit (start lang plane)

section Agreement
variable {lang : Language ι E ε} {plane : Plane P H} {program other : Program ι} {limit : Int}
variable {s : State E P H}

theorem SameRoles.size (roles : SameRoles lang program other) : other.size = program.size := by
  have lengths := congrArg List.length roles
  rwa [List.length_map, List.length_map] at lengths

theorem execute_congr (roles : SameRoles lang program other) (i : ι) :
    execute lang plane other s i = execute lang plane program s i := by
  rw [execute, execute]
  cases lang.action s.env i with
  | ok action => exact perform_congr fun _ _ _ => blockEnd_congr roles s.index
  | error e => rfl

theorem SameRun.of_step (size : other.size = program.size)
    (same : step lang plane other limit s = step lang plane program limit s)
    (later : ∀ s', step lang plane program limit s = .next s' →
      SameRun lang plane program other limit s') : SameRun lang plane program other limit s where
  states n := by
    cases n with
    | zero => rfl
    | succ n =>
      rw [stepMany, stepMany, same]
      cases first : step lang plane program limit s with
      | next s' => exact (later s' first).states n
      | failed fault after => rfl
  ending := by
    cases first : step lang plane program limit s with
    | next s' =>
      rw [run_of_step_eq_next first, run_of_step_eq_next (same.trans first),
        (later s' first).ending]
    | failed fault after =>
      by_cases ended : program.size ≤ s.index
      · rw [run_of_size_le ended, run_of_size_le (by omega)]
      · rw [run_of_step_eq_failed (by omega) first,
          run_of_step_eq_failed (by omega) (same.trans first)]

/-- By induction along the run: as long as the programs agree at the position of the machine, the
next step is the same, and so is what is left to visit. -/
theorem sameRun_of_agree (roles : SameRoles lang program other)
    (agree : ∀ position ∈ visits lang plane program limit s,
      other.get? position = program.get? position) :
    SameRun lang plane program other limit s := by
  induction left : (limit - s.steps).toNat using Nat.strongRecOn generalizing s with
  | ind left ih =>
    have here : step lang plane other limit s = step lang plane program limit s := by
      refine step_congr (by rw [roles.size]) ?_ fun i _ => execute_congr roles i
      intro running within
      obtain ⟨rest, visited⟩ : ∃ rest, visits lang plane program limit s = s.index :: rest :=
        visits_of_running running within
      apply agree
      rw [visited]
      exact List.mem_cons_self
    refine .of_step roles.size here fun s' first => ?_
    have fewer := sub_steps_lt first
    rw [left] at fewer
    refine ih _ fewer ?_ rfl
    intro position later
    apply agree
    rw [visits_of_step_eq_next first]
    exact List.mem_cons_of_mem _ later

end Agreement

section Skipped
variable {lang : Language ι E ε} {again : ι → Bool} {plane : Plane P H} {program : Program ι}
variable {limit : Int} {s s' : State E P H}

theorem exists_of_mem_visits {position : Int}
    (visited : position ∈ visits lang plane program limit s) :
    ∃ n t, stepMany lang plane program limit n s = .next t ∧ t.index = position := by
  fun_induction visits lang plane program limit s with
  | case1 => cases visited
  | case2 s going ih =>
    rcases List.mem_cons.mp visited with rfl | later
    · exact ⟨0, s, rfl, rfl⟩
    · split at later
      · rename_i s' first
        obtain ⟨n, t, rest, reached⟩ := ih s' first later
        exact ⟨n + 1, t, by rw [stepMany_succ_of_step first, rest], reached⟩
      · cases later

/-- A step from outside of a block leads to the outside, unless it enters the block. -/
theorem outside_step {b stop : Nat} (coherent : Coherent lang again)
    (mirrored : Mirrored lang again program s)
    (opens : (knownRoles lang program)[b]? = some .opens)
    (closed : closesAt? (knownRoles lang program) 0 (b + 1) = some stop)
    (skipped : s.index = b → ∀ i, program.get? b = some i →
      ∀ repeats, lang.action s.env i ≠ .ok (.enter true repeats))
    (outside : s.index ≤ b ∨ stop < s.index)
    (success : step lang plane program limit s = .next s') : s'.index ≤ b ∨ stop < s'.index := by
  obtain ⟨k, index, inside, stack⟩ := mirrored
  obtain ⟨-, -, i, action, fetched, meaning, performed⟩ := step_eq_next success
  have position : s.counted.index = k := index
  have role := role_of_action coherent index inside fetched meaning
  have beyond := (Block.closesAt?_bounds closed).1
  -- an instruction at the opener opens a block
  have elsewhere : action.role ≠ .opens → k ≠ b := by
    rintro other rfl
    rw [opens] at role
    exact other (Option.some.inj role).symm
  cases performed with
  | move | rotate | pen | assign | skip =>
    have := elsewhere nofun
    simp only [position]
    omega
  | enter repeats closer =>
    have : k ≠ b := by
      rintro rfl
      exact skipped index i (by rw [← index, fetched]) repeats meaning
    simp only [position]
    omega
  | pass repeats closer =>
    rw [position] at closer
    obtain ⟨stop', closed', rfl⟩ :=
      (blockEnd_eq_ok_iff (List.getElem?_eq_some_iff.mp role).1).mp closer
    have beyond' := (Block.closesAt?_bounds closed').1
    simp only
    rcases Nat.lt_trichotomy k b with before | rfl | after
    · have := Block.apart_or_inside before opens role closed' closed
      omega
    · obtain rfl : stop = stop' := Option.some.inj (closed.symm.trans closed')
      omega
    · omega
  | @close target rest top =>
    have := elsewhere nofun
    have jumps : s.jumps = target :: rest := top
    rw [jumps] at stack
    obtain ⟨a, item, block, closer, rfl, -⟩ := exists_opener_of_close role stack
    have before := block.before
    simp only
    cases again item with
    | false =>
      simp only [Bool.false_eq_true, if_false]
      omega
    | true =>
      simp only [if_true]
      by_cases early : a ≤ b
      · omega
      · -- an opener inside the block has its end inside as well
        have ends : a ≠ stop := by
          rintro rfl
          have clash := (Block.openAt_of_closesAt? closed).1
          rw [block.opens] at clash
          cases clash
        have := Block.apart_or_inside (Nat.not_le.mp early) block.opens opens closed closer
        omega

theorem outside_of_alwaysSkipped {b : Nat} {stop : Int} (coherent : Coherent lang again)
    (never : AlwaysSkipped lang plane program limit b stop) {n : Nat} {t : State E P H}
    (chain : stepMany lang plane program limit n (start lang plane) = .next t) :
    t.index ≤ b ∨ stop < t.index := by
  by_cases known : b < (knownRoles lang program).length
  · obtain ⟨i, item, opener⟩ := never.opens
    rw [Program.get?_ofNat] at item
    have opens := Block.known_getElem? (Nat.le_of_lt known) item opener
    obtain ⟨stop, closed, rfl⟩ := (blockEnd_eq_ok_iff known).mp never.ends
    induction n generalizing t with
    | zero =>
      cases chain
      exact Or.inl (Int.natCast_nonneg b)
    | succ n ih =>
      obtain ⟨u, before, success⟩ := exists_last_of_stepMany chain
      exact outside_step coherent (mirrored_of_stepMany coherent before) opens closed
        (never.skipped n u before) (ih before) success
  · -- the machine never gets beyond the known roles
    obtain ⟨k, index, inside, -⟩ := mirrored_of_stepMany coherent chain
    omega

theorem runsByExecuted (coherent : Coherent lang again) (plane : Plane P H) (program : Program ι)
    (limit : Int) : RunsByExecuted lang plane program limit := by
  have unvisited : ∀ b stop, AlwaysSkipped lang plane program limit b stop →
      ∀ position ∈ visits lang plane program limit (start lang plane),
        position ≤ b ∨ stop < position := by
    intro b stop never position visited
    obtain ⟨n, t, chain, rfl⟩ := exists_of_mem_visits visited
    exact outside_of_alwaysSkipped coherent never chain
  refine ⟨fun other roles agree => sameRun_of_agree roles agree, unvisited, ?_⟩
  intro b stop never other roles agree
  apply sameRun_of_agree roles
  intro position visited
  have outside := unvisited b stop never position visited
  obtain ⟨n, t, chain, rfl⟩ := exists_of_mem_visits visited
  obtain ⟨k, index, -⟩ := mirrored_of_stepMany coherent chain
  rw [index] at outside ⊢
  exact agree k (by omega)

end Skipped

end Machine

/-- A run depends only on the instructions that it executes and on the roles of the others: a
program with the same roles and the same instructions at the visited positions has the same run. A
block that is skipped whenever the run comes to it is never visited inside, so its contents do not
matter. -/
theorem only_executed_matters {P H : Type} (plane : Plane P H) (limit : Int) :
    (∀ program : Program Instruction,
      Machine.RunsByExecuted Instruction.language plane program limit) ∧
    ∀ program : Program Tree, Machine.RunsByExecuted Tree.language plane program limit :=
  ⟨fun program => Machine.runsByExecuted Instruction.language_coherent plane program limit,
    fun program => Machine.runsByExecuted Tree.language_coherent plane program limit⟩

/-- An instruction in a block whose condition never holds. -/
def guarded (i : Instruction) : Program Instruction :=
  ⟨[.conditional (.compare (.int 1) .gt (.int 2)), i, .close], []⟩

/-- A move by an unknown variable is skipped, and may as well be any instruction but a bracket. -/
theorem guarded_move_ignored :
    Machine.AlwaysSkipped Instruction.language Plane.doubles (guarded (.move (.var "x"))) 10 0 2 ∧
      Machine.SameRun Instruction.language Plane.doubles (guarded (.move (.var "x")))
        (guarded .lift) 10 (Machine.start Instruction.language Plane.doubles) := by
  have skipped : Machine.AlwaysSkipped Instruction.language Plane.doubles
      (guarded (.move (.var "x"))) 10 0 2 := by
    refine ⟨⟨_, rfl, rfl⟩, rfl, ?_⟩
    intro n t _ _ i item repeats entered
    cases item
    cases entered
  have agree : ∀ k : Nat, k ≤ 0 ∨ (2 : Int) < k →
      (guarded .lift).get? k = (guarded (.move (.var "x"))).get? k := by
    intro k outside
    rw [Program.get?_ofNat, Program.get?_ofNat]
    rcases k with _ | _ | k
    · rfl
    · omega
    · rfl
  have executed := (only_executed_matters Plane.doubles 10).1 (guarded (.move (.var "x")))
  exact ⟨skipped, executed.skipped 0 2 skipped (guarded .lift) rfl agree⟩

end TurtleGraphics
