import TurtleGraphics.Proofs.JumpStack
/-!
The events of a drawing as the trace of a cursor with a pen.

A list of events is the trail of a cursor (`Trail`) if it tells where the pen is, draws only while
the pen is down, and joins each line to the one before it unless the pen was lifted in between.
Every action keeps this, because it adds at most one event, and that one from the cursor before it.
So the events of a machine are a trail after any calls of `step`, and a call adds to them what the
instruction that it executes leaves on the paper, and nothing if it fails.
-/
set_option autoImplicit false

namespace TurtleGraphics

section Events
variable {P H : Type}

/-- Where an event about the pen leaves it. -/
def Event.pen? : Event P → Option Bool
  | segment _ _ => none
  | pen down => some down

/-- Where the last event about the pen leaves it. -/
def lastPen? (events : List (Event P)) : Option Bool := (events.filterMap Event.pen?).getLast?

/-- The last event about the pen puts it down, or there is none. -/
def DownAfter (events : List (Event P)) : Prop :=
  lastPen? events = some true ∨ lastPen? events = none

/-- Nothing is drawn and the pen is not lifted. -/
def Quiet (events : List (Event P)) : Prop :=
  ∀ e ∈ events, e.isSegment = false ∧ e ≠ .pen false

/-- The events are what a cursor has left behind that started at home with its pen down. -/
structure Trail (plane : Plane P H) (events : List (Event P)) (cursor : Cursor P H) : Prop where
  pen : cursor.penDown = true ↔ DownAfter events
  drawn : ∀ before p q after, events = before ++ .segment p q :: after → DownAfter before
  joined : ∀ before p q between p' q' after,
    events = before ++ .segment p q :: between ++ .segment p' q' :: after → Quiet between → p' = q
  current : ∀ before p q after, events = before ++ .segment p q :: after → Quiet after →
    cursor.position = q
  first : ∀ before p q after, events = before ++ .segment p q :: after → Quiet before →
    p = plane.home
  idle : Quiet events → cursor.position = plane.home

theorem lastPen?_append (first second : List (Event P)) :
    lastPen? (first ++ second) = (lastPen? second).or (lastPen? first) := by
  rw [lastPen?, List.filterMap_append, List.getLast?_append]
  rfl

theorem downAfter_segment {events : List (Event P)} {p q : P} :
    DownAfter (events ++ [.segment p q]) ↔ DownAfter events := by
  simp [DownAfter, lastPen?, Event.pen?]

theorem downAfter_pen {events : List (Event P)} {down : Bool} :
    DownAfter (events ++ [.pen down]) ↔ down = true := by
  simp [DownAfter, lastPen?, Event.pen?]

/-- A pen that is not lifted stays down. -/
theorem downAfter_append {before after : List (Event P)} (down : DownAfter before)
    (kept : .pen false ∉ after) : DownAfter (before ++ after) := by
  unfold DownAfter
  rw [lastPen?_append]
  cases last : lastPen? after with
  | none => exact down
  | some b =>
    have member : b ∈ after.filterMap Event.pen? := List.mem_of_getLast? last
    obtain ⟨e, among, about⟩ := List.mem_filterMap.mp member
    cases e with
    | segment p q => cases about
    | pen state =>
      cases about
      cases b with
      | true => exact Or.inl rfl
      | false => exact absurd among kept

theorem Quiet.not_mem_pen {events : List (Event P)} (quiet : Quiet events) :
    .pen false ∉ events := by
  intro member
  exact (quiet _ member).2 rfl

theorem Quiet.left {first second : List (Event P)} (quiet : Quiet (first ++ second)) :
    Quiet first := by
  intro e member
  exact quiet e (List.mem_append_left second member)

theorem not_quiet_of_segment {events : List (Event P)} {p q : P} :
    ¬Quiet (events ++ [.segment p q]) := by
  intro quiet
  have drawn := (quiet (.segment p q) (by simp)).1
  simp [Event.isSegment] at drawn

/-- An item of a list with one more item at its end is that item, or it is one of the list. -/
theorem split_concat {α : Type} {items before after : List α} {last x : α}
    (split : items ++ [last] = before ++ x :: after) :
    (before = items ∧ x = last ∧ after = []) ∨
      ∃ rest, after = rest ++ [last] ∧ items = before ++ x :: rest := by
  rcases List.eq_nil_or_concat after with rfl | ⟨rest, other, rfl⟩
  · obtain ⟨same, ends⟩ := List.append_inj' split rfl
    exact Or.inl ⟨same.symm, (List.singleton_inj.mp ends).symm, rfl⟩
  · rw [List.concat_eq_append, ← List.cons_append, ← List.append_assoc] at split
    obtain ⟨same, ends⟩ := List.append_inj' split rfl
    exact Or.inr ⟨rest, by rw [List.concat_eq_append, List.singleton_inj.mp ends], same⟩

namespace Trail
variable {plane : Plane P H} {events : List (Event P)} {cursor : Cursor P H}

theorem start (plane : Plane P H) :
    Trail plane [] ⟨plane.home, plane.up, true⟩ := by
  refine ⟨by simp [DownAfter, lastPen?], ?_, ?_, ?_, ?_, fun _ => rfl⟩
  · intro before p q after split
    simp at split
  · intro before p q between p' q' after split
    simp at split
  · intro before p q after split
    simp at split
  · intro before p q after split
    simp at split

theorem turned (trail : Trail plane events cursor) (heading : H) :
    Trail plane events { cursor with heading } :=
  ⟨trail.pen, trail.drawn, trail.joined, trail.current, trail.first, trail.idle⟩

theorem penned (trail : Trail plane events cursor) (down : Bool) :
    Trail plane (events ++ [.pen down]) { cursor with penDown := down } := by
  refine ⟨downAfter_pen.symm, ?_, ?_, ?_, ?_, ?_⟩
  · intro before p q after split
    rcases split_concat split with ⟨-, other, -⟩ | ⟨rest, -, earlier⟩
    · cases other
    · exact trail.drawn before p q rest earlier
  · intro before p q between p' q' after split quiet
    rcases split_concat split with ⟨-, other, -⟩ | ⟨rest, -, earlier⟩
    · cases other
    · exact trail.joined before p q between p' q' rest earlier quiet
  · intro before p q after split quiet
    rcases split_concat split with ⟨-, other, -⟩ | ⟨rest, rfl, earlier⟩
    · cases other
    · exact trail.current before p q rest earlier quiet.left
  · intro before p q after split quiet
    rcases split_concat split with ⟨-, other, -⟩ | ⟨rest, -, earlier⟩
    · cases other
    · exact trail.first before p q rest earlier quiet
  · intro quiet
    exact trail.idle quiet.left

/-- A move with the pen down adds the line from where the cursor was. -/
theorem drew (trail : Trail plane events cursor) (down : cursor.penDown = true) (stop : P) :
    Trail plane (events ++ [.segment cursor.position stop]) { cursor with position := stop } := by
  refine ⟨?_, ?_, ?_, ?_, ?_, ?_⟩
  · rw [downAfter_segment]
    exact trail.pen
  · intro before p q after split
    rcases split_concat split with ⟨rfl, -, -⟩ | ⟨rest, -, earlier⟩
    · exact trail.pen.mp down
    · exact trail.drawn before p q rest earlier
  · intro before p q between p' q' after split quiet
    rcases split_concat split with ⟨whole, same, -⟩ | ⟨rest, -, earlier⟩
    · cases same
      exact trail.current before p q between whole.symm quiet
    · exact trail.joined before p q between p' q' rest earlier quiet
  · intro before p q after split quiet
    rcases split_concat split with ⟨-, same, -⟩ | ⟨rest, rfl, -⟩
    · cases same
      rfl
    · exact absurd quiet not_quiet_of_segment
  · intro before p q after split quiet
    rcases split_concat split with ⟨rfl, same, -⟩ | ⟨rest, -, earlier⟩
    · cases same
      exact trail.idle quiet
    · exact trail.first before p q rest earlier quiet
  · intro quiet
    exact absurd quiet not_quiet_of_segment

/-- A pen that is up was lifted after the last line. -/
theorem not_quiet_of_up (trail : Trail plane events cursor) (up : cursor.penDown = false)
    {before after : List (Event P)} (split : events = before ++ after) (down : DownAfter before) :
    ¬Quiet after := by
  intro quiet
  have still : DownAfter events := by
    rw [split]
    exact downAfter_append down quiet.not_mem_pen
  rw [trail.pen.mpr still] at up
  cases up

/-- A move with the pen up leaves no trace. -/
theorem carried (trail : Trail plane events cursor) (up : cursor.penDown = false)
    (stop : P) : Trail plane events { cursor with position := stop } := by
  refine ⟨trail.pen, trail.drawn, trail.joined, ?_, trail.first, ?_⟩
  · intro before p q after split quiet
    have down : DownAfter (before ++ [.segment p q]) :=
      downAfter_segment.mpr (trail.drawn before p q after split)
    have whole : events = (before ++ [.segment p q]) ++ after := by rw [split]; simp
    exact absurd quiet (trail.not_quiet_of_up up whole down)
  · intro quiet
    have whole : events = [] ++ events := rfl
    exact absurd quiet (trail.not_quiet_of_up up whole (Or.inr rfl))

end Trail

namespace Recorder
variable {plane : Plane P H} {r r' : Recorder P H}

theorem move_eq_ok {length : Int} (moved : r.move plane length = .ok r') :
    ∃ stop, r'.cursor = { r.cursor with position := stop } ∧
      r'.events = r.events ++
        if r.cursor.penDown then [.segment r.cursor.position stop] else [] := by
  unfold move at moved
  cases reached : plane.advance r.cursor.position r.cursor.heading length with
  | error e => simp [reached] at moved
  | ok stop =>
    rw [reached] at moved
    cases moved
    refine ⟨stop, rfl, ?_⟩
    cases r.cursor.penDown with
    | true => simp [events]
    | false => simp [events]

theorem rotate_eq_ok {degrees : Int} (turned : r.rotate plane degrees = .ok r') :
    ∃ heading, r' = { r with cursor := { r.cursor with heading } } := by
  unfold rotate at turned
  cases reached : plane.turn r.cursor.heading degrees with
  | error e => simp [reached] at turned
  | ok heading =>
    rw [reached] at turned
    cases turned
    exact ⟨heading, rfl⟩

theorem events_pen (r : Recorder P H) (down : Bool) :
    (r.pen down).events = r.events ++ [.pen down] := by
  simp [events, pen]

end Recorder

/-- What an instruction of a kind leaves on the paper while the cursor changes. -/
def Instruction.Kind.marks (before after : Cursor P H) : Instruction.Kind → List (Event P)
  | move => if before.penDown then [.segment before.position after.position] else []
  | lift => [.pen false]
  | place => [.pen true]
  | rotate | set | conditional | loop | close | blank => []

def Instruction.marks (before after : Cursor P H) (i : Instruction) : List (Event P) :=
  i.kind.marks before after

def Tree.marks (before after : Cursor P H) : Tree → List (Event P)
  | node (.instruction k) _ => k.marks before after
  | _ => []

end Events

namespace Machine

variable {ι E ε P H : Type}

/-- What an action leaves on the paper while the cursor changes. -/
def Action.marks (before after : Cursor P H) : Action E ε → List (Event P)
  | move _ | stray _ => if before.penDown then [.segment before.position after.position] else []
  | pen down => [.pen down]
  | rotate _ | assign _ | enter _ _ | close | skip => []

/-- Instructions leave the marks of the actions that they stand for. -/
def Marks (lang : Language ι E ε) (marks : Cursor P H → Cursor P H → ι → List (Event P)) : Prop :=
  ∀ (env : E) (i : ι) (action : Action E ε), lang.action env i = .ok action →
    ∀ before after, marks before after i = action.marks before after

/-- The instruction that the next step from `s` executes, if it succeeds. -/
def executed? (lang : Language ι E ε) (plane : Plane P H) (program : Program ι) (limit : Int)
    (s : State E P H) : Option ι :=
  match step lang plane program limit s with
  | .next _ => program.get? s.index
  | .failed _ _ => none

/-- What the next step from `s` leaves on the paper. -/
def recorded (lang : Language ι E ε) (marks : Cursor P H → Cursor P H → ι → List (Event P))
    (plane : Plane P H) (program : Program ι) (limit : Int) (s : State E P H) : List (Event P) :=
  match executed? lang plane program limit s with
  | some i =>
    marks s.recorder.cursor (step lang plane program limit s).state.recorder.cursor i
  | none => []

section Steps
variable {lang : Language ι E ε} {marks : Cursor P H → Cursor P H → ι → List (Event P)}
variable {plane : Plane P H} {program : Program ι} {limit : Int} {s s' : State E P H}
variable {action : Action E ε}

theorem Performed.events (performed : Performed lang plane program s action s') :
    s'.recorder.events =
      s.recorder.events ++ action.marks s.recorder.cursor s'.recorder.cursor := by
  cases performed with
  | move moved =>
    obtain ⟨stop, cursor, events⟩ := Recorder.move_eq_ok moved
    simp only [events, cursor, Action.marks]
  | rotate turned =>
    obtain ⟨heading, rfl⟩ := Recorder.rotate_eq_ok turned
    simp [Action.marks, Recorder.events]
  | pen down => exact Recorder.events_pen s.recorder down
  | assign | enter | pass | close | skip => simp [Action.marks]

theorem Performed.trail (performed : Performed lang plane program s action s')
    (trail : Trail plane s.recorder.events s.recorder.cursor) :
    Trail plane s'.recorder.events s'.recorder.cursor := by
  cases performed with
  | move moved =>
    obtain ⟨stop, cursor, events⟩ := Recorder.move_eq_ok moved
    cases down : s.recorder.cursor.penDown with
    | true =>
      rw [events, cursor, down, if_pos rfl]
      exact trail.drew down stop
    | false =>
      rw [events, cursor, down, if_neg Bool.false_ne_true, List.append_nil]
      exact trail.carried down stop
  | rotate turned =>
    obtain ⟨heading, rfl⟩ := Recorder.rotate_eq_ok turned
    exact trail.turned heading
  | pen down =>
    rw [Recorder.events_pen]
    exact trail.penned down
  | assign | enter | pass | close | skip => exact trail

theorem recorded_of_next {i : ι} (marked : Marks lang marks)
    (success : step lang plane program limit s = .next s') (fetched : program.get? s.index = some i)
    (meaning : lang.action s.env i = .ok action) :
    recorded lang marks plane program limit s =
      action.marks s.recorder.cursor s'.recorder.cursor := by
  simp only [recorded, executed?, success, fetched, Step.state]
  exact marked _ _ _ meaning _ _

theorem recorded_of_failed {fault : Fault ε}
    (failure : step lang plane program limit s = .failed fault s') :
    recorded lang marks plane program limit s = [] := by
  simp only [recorded, executed?, failure]

/-- A call of `step` only ever adds to the events, namely the marks of what it executes. -/
theorem events_state_step (marked : Marks lang marks) :
    (step lang plane program limit s).state.recorder.events =
      s.recorder.events ++ recorded lang marks plane program limit s := by
  cases outcome : step lang plane program limit s with
  | next s' =>
    obtain ⟨-, -, i, action, fetched, meaning, performed⟩ := step_eq_next outcome
    rw [recorded_of_next marked outcome fetched meaning]
    exact performed.events
  | failed fault s' =>
    rw [recorded_of_failed outcome, List.append_nil]
    rcases state_of_step_eq_failed outcome with rfl | rfl <;> rfl

theorem trail_state_step (trail : Trail plane s.recorder.events s.recorder.cursor) :
    Trail plane (step lang plane program limit s).state.recorder.events
      (step lang plane program limit s).state.recorder.cursor := by
  cases outcome : step lang plane program limit s with
  | next s' =>
    obtain ⟨-, -, i, action, -, -, performed⟩ := step_eq_next outcome
    exact performed.trail trail
  | failed fault s' => rcases state_of_step_eq_failed outcome with rfl | rfl <;> exact trail

theorem trail_afterCalls (calls : Nat) :
    Trail plane (afterCalls lang plane program limit calls).recorder.events
      (afterCalls lang plane program limit calls).recorder.cursor := by
  induction calls with
  | zero => exact Trail.start plane
  | succ calls ih => exact trail_state_step ih

end Steps

/-- After some calls of `step` the events are the trail of the cursor, and the next call only adds
the marks of the instruction that it executes. -/
structure Traced (lang : Language ι E ε) (marks : Cursor P H → Cursor P H → ι → List (Event P))
    (plane : Plane P H) (program : Program ι) (limit : Int) (calls : Nat) : Prop where
  trail : Trail plane (afterCalls lang plane program limit calls).recorder.events
    (afterCalls lang plane program limit calls).recorder.cursor
  extended : (afterCalls lang plane program limit (calls + 1)).recorder.events =
    (afterCalls lang plane program limit calls).recorder.events ++
      recorded lang marks plane program limit (afterCalls lang plane program limit calls)

end Machine

namespace Instruction

theorem marks_language {P H : Type} :
    Machine.Marks language (marks : Cursor P H → Cursor P H → Instruction → List (Event P)) := by
  intro env i action meaning before after
  cases does_of_action meaning <;> rfl

end Instruction

namespace Tree

theorem marks_language {P H : Type} :
    Machine.Marks language (marks : Cursor P H → Cursor P H → Tree → List (Event P)) := by
  intro env t action meaning before after
  cases does_of_action meaning with
  | @move length v value =>
    rcases moveBy_eq v with ⟨n, same⟩ | ⟨m, same⟩ <;> rw [same] <;> rfl
  | rotate | lift | place | set | conditional | loop | close | blank => rfl

end Tree

/-- After any calls of `step`, on a program of instructions or of trees, the events tell where the
pen is and where the cursor drew: lines are drawn with the pen down only, and each begins where the
last one ended unless the pen was lifted in between. The next call adds one event for each kind of
instruction that leaves one, and takes none away. -/
theorem events_trace_cursor {P H : Type} (plane : Plane P H) (limit : Int) (calls : Nat) :
    (∀ program : Program Instruction,
      Machine.Traced Instruction.language Instruction.marks plane program limit calls) ∧
    ∀ program : Program Tree,
      Machine.Traced Tree.language Tree.marks plane program limit calls :=
  ⟨fun _ => ⟨Machine.trail_afterCalls calls, Machine.events_state_step Instruction.marks_language⟩,
    fun _ => ⟨Machine.trail_afterCalls calls, Machine.events_state_step Tree.marks_language⟩⟩

end TurtleGraphics
