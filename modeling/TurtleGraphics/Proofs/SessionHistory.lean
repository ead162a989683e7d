import TurtleGraphics.Session
/-!
The history of a session.

Options come from settings that were checked: what they have is what was offered, a positive step
limit and the truth of the switches, and otherwise what they had before (`Takes`). `Answered` lists
what a request can come to, so that each law of sessions is a matter of its cases. Whatever a session
was asked so far, its options are sound, and its canvas has counted the drawings that runs handed to
it and shows the last one. A request that fails leaves the whole session as it was, at whatever stage
it fails.
-/
set_option autoImplicit false

namespace TurtleGraphics

namespace Options

/-- The step limit is a positive integer, and the two switches are truth values. -/
structure Sound (o : Options) : Prop where
  maxSteps : ∃ n : Int, 1 ≤ n ∧ o.get? "max_steps" = some (.int n)
  strictKeywords : ∃ b, o.get? "strict_keywords" = some (.bool b)
  debug : ∃ b, o.get? "debug" = some (.bool b)

/-- The setting `value` is accepted for the option called `name`, which then has the value `held`:
the step limit is taken as it was offered, and of a setting for a switch its truth. -/
def Accepts (name : String) (value held : Setting) : Prop :=
  if name = "max_steps" then ∃ n : Int, 1 ≤ n ∧ value = .int n ∧ held = .int n
  else held = .bool value.truth

/-- The options `o'` have what the settings ask for, and otherwise what `o` has. -/
structure Takes (settings : List (String × Setting)) (o o' : Options) : Prop where
  known : ∀ name ∈ settings.map Prod.fst, name ∈ names
  offered : ∀ name ∈ names, ∀ value, settings.lookup name = some value →
    ∃ held, Accepts name value held ∧ o'.get? name = some held
  others : ∀ name ∈ names, settings.lookup name = none → o'.get? name = o.get? name

variable {o o' : Options} {settings : List (String × Setting)} {name : String} {value : Setting}

theorem stepLimit_eq_ok {n : Int} (taken : stepLimit value = .ok n) : value = .int n ∧ 1 ≤ n := by
  unfold stepLimit at taken
  split at taken
  · split at taken
    · rename_i positive
      cases taken
      exact ⟨rfl, positive⟩
    · cases taken
  · cases taken

/-- What a setting of one option does to that option and to the others. -/
theorem set_eq_ok (changed : o.set name value = .ok o') :
    name ∈ names ∧ (∃ held, Accepts name value held ∧ o'.get? name = some held) ∧
      ∀ other ∈ names, other ≠ name → o'.get? other = o.get? other := by
  unfold set at changed
  by_cases limit : name = "max_steps"
  · subst limit
    rw [if_pos rfl] at changed
    cases taken : stepLimit value with
    | error e =>
      rw [taken] at changed
      cases changed
    | ok n =>
      rw [taken] at changed
      cases changed
      obtain ⟨rfl, positive⟩ := stepLimit_eq_ok taken
      exact ⟨by simp [names], ⟨.int n, by simpa [Accepts] using positive, by simp [get?]⟩,
        by simp [names, get?]⟩
  rw [if_neg limit] at changed
  by_cases strict : name = "strict_keywords"
  · subst strict
    cases changed
    exact ⟨by simp [names], ⟨.bool value.truth, by simp [Accepts], by simp [get?]⟩,
      by simp [names, get?]⟩
  rw [if_neg strict] at changed
  by_cases debug : name = "debug"
  · subst debug
    cases changed
    exact ⟨by simp [names], ⟨.bool value.truth, by simp [Accepts], by simp [get?]⟩,
      by simp [names, get?]⟩
  · rw [if_neg debug] at changed
    cases changed

theorem takes_set (changed : o.set name value = .ok o') : Takes [(name, value)] o o' := by
  obtain ⟨listed, ⟨held, accepts, holds⟩, others⟩ := set_eq_ok changed
  constructor
  · simpa using listed
  · intro other _ v offered
    by_cases same : other = name
    · subst same
      rw [List.lookup_cons_self] at offered
      cases offered
      exact ⟨held, accepts, holds⟩
    · have differs : (other == name) = false := beq_false_of_ne same
      rw [List.lookup_cons, differs] at offered
      cases offered
  · intro other member absent
    refine others other member ?_
    rintro rfl
    rw [List.lookup_cons_self] at absent
    cases absent

/-- By induction on the options that are gone through: each of them is set at most once. -/
theorem setGiven_eq_ok {asked : List String} (once : asked.Nodup)
    (made : setGiven settings o asked = .ok o') :
    (∀ name ∈ asked, ∀ value, settings.lookup name = some value →
      ∃ held, Accepts name value held ∧ o'.get? name = some held) ∧
    ∀ name ∈ names, name ∉ asked ∨ settings.lookup name = none → o'.get? name = o.get? name := by
  induction asked generalizing o with
  | nil =>
    cases made
    exact ⟨nofun, fun _ _ _ => rfl⟩
  | cons first rest ih =>
    obtain ⟨fresh, once⟩ := List.nodup_cons.mp once
    have later : ∀ name, name ∉ first :: rest ∨ settings.lookup name = none →
        name ∉ rest ∨ settings.lookup name = none :=
      fun name => Or.imp_left fun apart member => apart (List.mem_cons_of_mem first member)
    rw [setGiven] at made
    cases given : settings.lookup first with
    | none =>
      rw [given] at made
      obtain ⟨taken, others⟩ := ih once made
      refine ⟨?_, fun name listed apart => others name listed (later name apart)⟩
      intro name member value offered
      rcases List.mem_cons.mp member with rfl | member
      · rw [given] at offered
        cases offered
      · exact taken name member value offered
    | some value =>
      simp only [given] at made
      cases step : o.set first value with
      | error e =>
        rw [step] at made
        cases made
      | ok next =>
        rw [step] at made
        obtain ⟨listed, ⟨held, accepts, holds⟩, kept⟩ := set_eq_ok step
        obtain ⟨taken, others⟩ := ih once made
        constructor
        · intro name member v offered
          rcases List.mem_cons.mp member with rfl | member
          · rw [given] at offered
            cases offered
            exact ⟨held, accepts, by rw [others name listed (Or.inl fresh), holds]⟩
          · exact taken name member v offered
        · intro name member apart
          have other : name ≠ first := by
            rintro rfl
            simp [given] at apart
          rw [others name member (later name apart), kept name member other]

theorem takes_ofSettings {use : Use} (made : ofSettings use settings = .ok o) :
    Takes settings default o := by
  unfold ofSettings at made
  split at made
  · cases made
  cases checked : setGiven settings default names with
  | error e =>
    rw [checked] at made
    cases made
  | ok result =>
    rw [checked] at made
    simp only at made
    split at made
    · rename_i known
      cases made
      obtain ⟨taken, others⟩ := setGiven_eq_ok (by decide) checked
      refine ⟨by simpa using known, taken, ?_⟩
      exact fun name listed absent => others name listed (Or.inr absent)
    · cases made

theorem Takes.kept_or_accepted (takes : Takes settings o o') (name : String)
    (listed : name ∈ names) : o'.get? name = o.get? name ∨
      ∃ value held, Accepts name value held ∧ o'.get? name = some held := by
  cases offered : settings.lookup name with
  | none => exact Or.inl (takes.others name listed offered)
  | some value => exact Or.inr ⟨value, takes.offered name listed value offered⟩

theorem sound_default : default.Sound := ⟨⟨10000, by decide, rfl⟩, ⟨false, rfl⟩, ⟨false, rfl⟩⟩

theorem Takes.switch (takes : Takes settings o o') (listed : name ∈ names)
    (switch : name ≠ "max_steps") (before : ∃ b, o.get? name = some (.bool b)) :
    ∃ b, o'.get? name = some (.bool b) := by
  rcases takes.kept_or_accepted name listed with same | ⟨value, held, accepts, holds⟩
  · rw [same]
    exact before
  · rw [Accepts, if_neg switch] at accepts
    exact ⟨value.truth, by rw [holds, accepts]⟩

theorem Takes.sound (takes : Takes settings o o') (sound : o.Sound) : o'.Sound := by
  refine ⟨?_, takes.switch (by simp [names]) (by decide) sound.strictKeywords,
    takes.switch (by simp [names]) (by decide) sound.debug⟩
  rcases takes.kept_or_accepted "max_steps" (by simp [names]) with
    same | ⟨value, held, accepts, holds⟩
  · rw [same]
    exact sound.maxSteps
  · rw [Accepts, if_pos rfl] at accepts
    obtain ⟨n, positive, -, rfl⟩ := accepts
    exact ⟨n, positive, holds⟩

end Options

namespace Session

variable {P H : Type} {plane : Plane P H} {s : Session P H}

/-- Whether a program is to be added. -/
def Request.adds : Request → Bool
  | .parse _ | .load .. | .add _ => true
  | .create _ | .set .. | .get _ | .run .. => false

/-- What a request can come to: the answer, and the session after it. -/
inductive Answered (plane : Plane P H) (s : Session P H) :
    Request → Except Fault (Answer P H) → Session P H → Prop
  | refused (q : Request) (e : Fault) : Answered plane s q (.error e) s
  | created {settings : List (String × Setting)} {o : Options}
      (made : Options.ofSettings .create settings = .ok o) :
      Answered plane s (.create settings) (.ok (.created o)) { s with options := o }
  | changed {name : String} {value : Setting} {o : Options}
      (made : s.options.set name value = .ok o) :
      Answered plane s (.set name value) (.ok .done) { s with options := o }
  | told (name : String) (v : Setting) : Answered plane s (.get name) (.ok (.value v)) s
  | kept {q : Request} (l : Listing) (adds : q.adds = true) :
      Answered plane s q (.ok (.program l)) { s with programs := s.programs ++ [l] }
  | shown {source : Source} {d : Drawing P H} (drawn : (draw plane s.options source).1 = .ok d) :
      Answered plane s (.run source .canvas) (.ok (.drawing d)) { s with canvas := s.canvas.draw d }
  | drawn {source : Source} {d : Drawing P H} (drawn : (draw plane s.options source).1 = .ok d) :
      Answered plane s (.run source .nowhere) (.ok (.drawing d)) s

theorem answered_read {q : Request} (adds : q.adds = true) (strict : Bool) (script : String) :
    Answered plane s q (s.read strict script).answer (s.read strict script).session := by
  unfold read
  split
  · exact .kept _ adds
  · exact .refused q _

theorem answered_reply (plane : Plane P H) (s : Session P H) (q : Request) :
    Answered plane s q (s.reply plane q).answer (s.reply plane q).session := by
  cases q with
  | create settings =>
    rw [reply]
    cases made : Options.ofSettings .create settings with
    | ok o => exact .created made
    | error e => exact .refused _ _
  | set name value =>
    rw [reply]
    cases made : s.options.set name value with
    | ok o => exact .changed made
    | error e => exact .refused _ _
  | get name =>
    rw [reply]
    cases s.options.get? name with
    | some v => exact .told name v
    | none => exact .refused _ _
  | parse script => exact answered_read rfl _ _
  | load strict script => exact answered_read rfl _ _
  | add p => exact .kept _ rfl
  | run source sink =>
    rw [reply]
    cases outcome : draw plane s.options source with
    | mk result log =>
      cases result with
      | error e => exact .refused _ _
      | ok d =>
        have drawn : (draw plane s.options source).1 = .ok d := by rw [outcome]
        cases sink with
        | canvas => exact .shown drawn
        | nowhere => exact .drawn drawn
        | abstract => exact .refused _ _

/-- The drawing that the canvas gets from a request with this answer: that of a run which has the
canvas as its sink and returns a drawing. -/
def delivered? (q : Request) : Except Fault (Answer P H) → Option (Drawing P H)
  | .ok (.drawing d) =>
    match q with
    | .run _ .canvas => some d
    | _ => none
  | _ => none

/-- The session after some requests, the first one first. -/
def after (plane : Plane P H) (s : Session P H) : List Request → Session P H
  | [] => s
  | q :: rest => after plane (s.reply plane q).session rest

/-- The drawings that the canvas gets from some requests, in order. -/
def deliveries (plane : Plane P H) (s : Session P H) : List Request → List (Drawing P H)
  | [] => []
  | q :: rest =>
    (delivered? q (s.reply plane q).answer).toList ++
      deliveries plane (s.reply plane q).session rest

/-- Only a request that succeeds changes anything. A run that comes to a drawing returns it if the
sink can take one, and the canvas changes only if such a run had it as the sink. The options change
only if they were asked to, and then to what was offered. -/
structure Guarded (plane : Plane P H) (s : Session P H) (q : Request) : Prop where
  refused : ∀ e, (s.reply plane q).answer = .error e → (s.reply plane q).session = s
  delivered : ∀ d, delivered? q (s.reply plane q).answer = some d →
    ∃ source, q = .run source .canvas ∧ (draw plane s.options source).1 = .ok d
  undelivered : delivered? q (s.reply plane q).answer = none →
    (s.reply plane q).session.canvas = s.canvas
  options : (∀ settings, q ≠ .create settings) → (∀ name value, q ≠ .set name value) →
    (s.reply plane q).session.options = s.options
  returned : ∀ source sink d, q = .run source sink → sink ≠ .abstract →
    (draw plane s.options source).1 = .ok d → (s.reply plane q).answer = .ok (.drawing d)
  created : ∀ settings a, q = .create settings → (s.reply plane q).answer = .ok a →
    Options.Takes settings .default (s.reply plane q).session.options
  assigned : ∀ name value a, q = .set name value → (s.reply plane q).answer = .ok a →
    Options.Takes [(name, value)] s.options (s.reply plane q).session.options

/-- The options are sound, and the canvas has got the drawings in `history`, the first one first. -/
structure Recalls (history : List (Drawing P H)) (s : Session P H) : Prop where
  options : s.options.Sound
  updates : s.canvas.updates = history.length
  drawing : s.canvas.drawing = history.getLast?

theorem answer_of_drawn {source : Source} {sink : Sink} {d : Drawing P H} (concrete : sink ≠ .abstract)
    (drawn : (draw plane s.options source).1 = .ok d) :
    (s.reply plane (.run source sink)).answer = .ok (.drawing d) := by
  rw [reply]
  cases outcome : draw plane s.options source with
  | mk result log =>
    rw [outcome] at drawn
    subst drawn
    cases sink with
    | canvas | nowhere => rfl
    | abstract => exact absurd rfl concrete

theorem guarded (plane : Plane P H) (s : Session P H) (q : Request) : Guarded plane s q := by
  have answered := answered_reply plane s q
  constructor
  · intro e failed
    generalize (s.reply plane q).session = s' at answered ⊢
    rw [failed] at answered
    cases answered
    rfl
  · intro d delivered
    generalize (s.reply plane q).answer = answer at answered delivered
    generalize (s.reply plane q).session = s' at answered
    cases answered with
    | @shown source d' drawn =>
      cases delivered
      exact ⟨source, rfl, drawn⟩
    | refused | created | changed | told | kept | drawn => cases delivered
  · intro undelivered
    generalize (s.reply plane q).answer = answer at answered undelivered
    generalize (s.reply plane q).session = s' at answered ⊢
    cases answered with
    | shown drawn => cases undelivered
    | refused | created | changed | told | kept | drawn => rfl
  · intro notCreate notSet
    generalize (s.reply plane q).answer = answer at answered
    generalize (s.reply plane q).session = s' at answered ⊢
    cases answered with
    | created made => exact absurd rfl (notCreate _)
    | changed made => exact absurd rfl (notSet _ _)
    | refused | told | kept | shown | drawn => rfl
  · rintro source sink d rfl concrete drawn
    exact answer_of_drawn concrete drawn
  · rintro settings a rfl accepted
    generalize (s.reply plane (.create settings)).session = s' at answered ⊢
    rw [accepted] at answered
    cases answered with
    | created made => exact Options.takes_ofSettings made
    | kept l adds => cases adds
  · rintro name value a rfl accepted
    generalize (s.reply plane (.set name value)).session = s' at answered ⊢
    rw [accepted] at answered
    cases answered with
    | changed made => exact Options.takes_set made
    | kept l adds => cases adds

theorem recalls_start : Recalls [] (start : Session P H) := ⟨Options.sound_default, rfl, rfl⟩

theorem Recalls.kept {history : List (Drawing P H)} {s' : Session P H} (recalls : Recalls history s)
    (sound : s'.options.Sound) (same : s'.canvas = s.canvas) : Recalls (history ++ []) s' := by
  rw [List.append_nil]
  exact ⟨sound, by rw [same, recalls.updates], by rw [same, recalls.drawing]⟩

theorem recalls_reply {history : List (Drawing P H)} (recalls : Recalls history s) (q : Request) :
    Recalls (history ++ (delivered? q (s.reply plane q).answer).toList)
      (s.reply plane q).session := by
  have answered := answered_reply plane s q
  generalize (s.reply plane q).answer = answer at answered ⊢
  generalize (s.reply plane q).session = s' at answered ⊢
  cases answered with
  | created made => exact recalls.kept ((Options.takes_ofSettings made).sound Options.sound_default) rfl
  | changed made => exact recalls.kept ((Options.takes_set made).sound recalls.options) rfl
  | @shown source d drawn =>
    refine ⟨recalls.options, ?_, ?_⟩
    · simp [delivered?, Canvas.draw, recalls.updates]
    · simp [delivered?, Canvas.draw]
  | refused | told | kept | drawn => exact recalls.kept recalls.options rfl

/-- A session that recalls a history goes on to recall what its requests deliver. -/
theorem recalls_after {history : List (Drawing P H)} (recalls : Recalls history s)
    (requests : List Request) :
    Recalls (history ++ deliveries plane s requests) (after plane s requests) := by
  induction requests generalizing s history with
  | nil =>
    rw [deliveries, List.append_nil]
    exact recalls
  | cons q rest ih =>
    rw [deliveries, ← List.append_assoc]
    exact ih (recalls_reply recalls q)

end Session

/-- Whatever a session is asked, in any order, its options stay sound, and its canvas has been
updated once for each run into it that returned a drawing, and shows the last of these drawings.
Whatever it is asked next, a failure changes nothing at all, and options that are accepted are those
that were offered. -/
theorem session_recalls_deliveries {P H : Type} (plane : Plane P H)
    (requests : List Session.Request) :
    Session.Recalls (Session.deliveries plane .start requests)
        (Session.after plane .start requests) ∧
      ∀ q, Session.Guarded plane (Session.after plane .start requests) q :=
  ⟨Session.recalls_after Session.recalls_start requests, fun q => Session.guarded plane _ q⟩

end TurtleGraphics
