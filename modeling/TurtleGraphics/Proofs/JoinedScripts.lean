import TurtleGraphics.Proofs.LineLayout
/-!
Two scripts with a line ending between them.

The lines of the whole are those of the first script and then those of the second, but for one
character: a carriage return at the very end of the first script joins a line feed behind it to one
line ending, and so is lost to its last line. It is a blank at the end of a line there, which
nothing that can be read from the line depends on. So the whole is read as the first script and
then, with the lines counted on, as the second, whichever of the line endings stands between them.
-/
set_option autoImplicit false

namespace TurtleGraphics

namespace Text

/-- The same line, or the line without the carriage return at its end. -/
def SameButReturn (line line' : String) : Prop := line = line' ∨ line = line' ++ "\r"

section Lines

/-- A carriage return at the end of a text belongs to its last line. -/
theorem splitFeeds_append_return (text : List Char) :
    List.Forall₂ (fun line line' => line = line' ∨ line = line' ++ ['\r'])
      (splitFeeds (text ++ ['\r'])) (splitFeeds text) := by
  fun_induction splitFeeds text with
  | case1 => exact .cons (Or.inr rfl) .nil
  | case2 rest ih => exact .cons (Or.inl rfl) ih
  | case3 c rest plain line lines split ih =>
    rw [split, List.forall₂_cons_right_iff] at ih
    obtain ⟨longer, others, same, later, whole⟩ := ih
    rw [List.cons_append, splitFeeds, whole]
    · refine .cons ?_ later
      rcases same with rfl | rfl
      · exact Or.inl rfl
      · exact Or.inr rfl
    · exact plain
  | case4 c rest plain none ih => exact absurd none (splitFeeds_ne_nil rest)

theorem feed_not_mem_splitFeeds {text line : List Char} (inside : line ∈ splitFeeds text) :
    '\n' ∉ line := by
  fun_induction splitFeeds text generalizing line with
  | case1 =>
    obtain rfl := List.mem_singleton.mp inside
    exact List.not_mem_nil
  | case2 rest ih =>
    rcases List.mem_cons.mp inside with rfl | later
    · exact List.not_mem_nil
    · exact ih later
  | case3 c rest plain first lines split ih =>
    rw [split] at ih
    rcases List.mem_cons.mp inside with rfl | later
    · rw [List.mem_cons, not_or]
      exact ⟨fun feed => plain feed.symm, ih List.mem_cons_self⟩
    · exact ih (List.mem_cons_of_mem _ later)
  | case4 c rest plain none ih => exact absurd none (splitFeeds_ne_nil rest)

variable {text line a b : String}

theorem feed_not_mem_lines (inside : line ∈ lines text) : '\n' ∉ line.toList := by
  obtain ⟨letters, found, rfl⟩ := List.mem_map.mp inside
  rw [String.toList_ofList]
  exact feed_not_mem_splitFeeds found

theorem lines_append_returnFeed (a b : String) :
    lines (a ++ "\r\n" ++ b) = lines a ++ lines b := by
  have text : (a ++ "\r\n" ++ b).toList = a.toList ++ '\r' :: '\n' :: b.toList := by
    rw [String.toList_append, String.toList_append, List.append_assoc]
    rfl
  have feed : unifyEndings ('\r' :: '\n' :: b.toList) = '\n' :: unifyEndings b.toList := rfl
  rw [lines, text, unifyEndings_append (by simp), feed, splitFeeds_append_feed,
    List.map_append, lines, lines]

theorem lines_append_return (a : String) :
    List.Forall₂ SameButReturn (lines (a ++ "\r")) (lines a) := by
  have single : unifyEndings (a.toList ++ ['\r']) = unifyEndings a.toList ++ ['\r'] :=
    unifyEndings_append (by simp)
  have text : (a ++ "\r").toList = a.toList ++ ['\r'] := String.toList_append
  rw [lines, lines, text, single, List.forall₂_map_left_iff, List.forall₂_map_right_iff]
  refine (splitFeeds_append_return _).imp fun line line' same => ?_
  rcases same with rfl | rfl
  · exact Or.inl rfl
  · exact Or.inr String.ofList_append

/-- The lines of two texts with a line ending between them. -/
theorem exists_lines_append (a b : String) {ending : String}
    (ends : ending = "\n" ∨ ending = "\r\n") :
    ∃ front, lines (a ++ ending ++ b) = front ++ lines b ∧
      List.Forall₂ SameButReturn (lines a) front := by
  have same : List.Forall₂ SameButReturn (lines a) (lines a) :=
    List.forall₂_same.mpr fun _ _ => Or.inl rfl
  rcases ends with rfl | rfl
  · by_cases apart : a.toList.getLast? = some '\r'
    · -- this carriage return and the line feed become one line ending
      obtain ⟨letters, whole⟩ := List.getLast?_eq_some_iff.mp apart
      obtain rfl : a = String.ofList letters ++ "\r" := by
        rw [← String.toList_inj, whole, String.toList_append, String.toList_ofList]
        rfl
      have joined : String.ofList letters ++ "\r" ++ "\n" = String.ofList letters ++ "\r\n" := by
        rw [String.append_assoc]
        rfl
      refine ⟨lines (String.ofList letters), ?_, lines_append_return _⟩
      rw [joined, lines_append_returnFeed]
    · exact ⟨lines a, lines_append_feed apart b, same⟩
  · exact ⟨lines a, lines_append_returnFeed a b, same⟩

end Lines

end Text

/-- A carriage return at the end of a line is a blank, and nothing that is read depends on it. -/
theorem Instruction.parse?_sameButReturn (strict : Bool) {line line' : String}
    (same : Text.SameButReturn line line') (oneLine : '\n' ∉ line.toList) :
    parse? strict line' = parse? strict line := by
  rcases same with rfl | rfl
  · rfl
  · rw [String.toList_append, List.mem_append, not_or] at oneLine
    have letters : "\r".toList = ['\r'] := by decide
    have trails : Text.Trailer "\r".toList := by
      rw [letters]
      apply Text.Trailer.of_blanks
      intro c inside
      obtain rfl := List.mem_singleton.mp inside
      exact ⟨by decide, by decide⟩
    rw [parse?_append trails oneLine.1]

namespace Script

/-- The fault of a script that `n` more lines are put before. -/
def Fault.behind (n : Nat) : Fault → Fault
  | badLine e => .badLine { e with line := n + e.line }
  | overlong digits => .overlong digits

/-- The same fault at the same line, which has perhaps lost the carriage return at its end. -/
inductive Fault.SamePlace : Fault → Fault → Prop where
  | badLine {number : Int} {line line' : String} (same : Text.SameButReturn line line') :
      SamePlace (.badLine ⟨number, line⟩) (.badLine ⟨number, line'⟩)
  | overlong (digits : Nat) : SamePlace (.overlong digits) (.overlong digits)

/-- What becomes of two scripts, and of the whole that they make with a line ending in between. -/
inductive Joined : (first second whole : Except Fault (Program Instruction)) → Prop where
  | both {p q r : Program Instruction}
      (instructions : r.instructions = p.instructions ++ q.instructions)
      (lines : List.Forall₂ Text.SameButReturn (p.lines ++ q.lines) r.lines) :
      Joined (.ok p) (.ok q) (.ok r)
  | first {e e' : Fault} {second : Except Fault (Program Instruction)} (same : e.SamePlace e') :
      Joined (.error e) second (.error e')
  | second {p : Program Instruction} {e : Fault} :
      Joined (.ok p) (.error e) (.error (e.behind p.size))

theorem Joined.fails_behind {first second whole : Except Fault (Program Instruction)}
    {p : Program Instruction} {e : Fault} (joined : Joined first second whole)
    (read : first = .ok p) (failure : second = .error e) : whole = .error (e.behind p.size) := by
  subst read failure
  cases joined with
  | second => rfl

/-- The lines behind those of `first` are read where these are, and counted on. -/
theorem parseLines_append (strict : Bool) (number : Nat) (first second : List String) :
    parseLines strict number (first ++ second) =
      (parseLines strict number first).bind fun is =>
        (parseLines strict (number + first.length) second).map (is ++ ·) := by
  induction first generalizing number with
  | nil =>
    rw [List.nil_append, parseLines, Except.bind, List.length_nil, Nat.add_zero]
    cases parseLines strict number second <;> rfl
  | cons line rest ih =>
    rw [List.cons_append, parseLines, parseLines]
    cases Instruction.parse? strict line with
    | error e => rfl
    | ok found =>
      cases found with
      | none => rfl
      | some i =>
        have count : number + (line :: rest).length = number + 1 + rest.length := by
          rw [List.length_cons]
          omega
        dsimp only
        rw [ih, count]
        cases parseLines strict (number + 1) rest with
        | error e => rfl
        | ok is => cases parseLines strict (number + 1 + rest.length) second <;> rfl

theorem parseLines_behind (strict : Bool) (n number : Nat) (lines : List String) :
    parseLines strict (n + number) lines =
      (parseLines strict number lines).mapError (Fault.behind n) := by
  induction lines generalizing number with
  | nil => rfl
  | cons line rest ih =>
    rw [parseLines, parseLines]
    cases Instruction.parse? strict line with
    | error e => rfl
    | ok found =>
      cases found with
      | none => rfl
      | some i =>
        dsimp only
        rw [Nat.add_assoc, ih]
        cases parseLines strict (number + 1) rest <;> rfl

theorem parseLines_sameButReturn (strict : Bool) (number : Nat) {lines lines' : List String}
    (same : List.Forall₂ Text.SameButReturn lines lines')
    (oneLine : ∀ line ∈ lines, '\n' ∉ line.toList) :
    parseLines strict number lines' = parseLines strict number lines ∨
      ∃ e e', parseLines strict number lines = .error e ∧
        parseLines strict number lines' = .error e' ∧ e.SamePlace e' := by
  induction same generalizing number with
  | nil => exact Or.inl rfl
  | @cons line line' rest rest' here later ih =>
    have alike := Instruction.parse?_sameButReturn strict here (oneLine line List.mem_cons_self)
    rw [parseLines, parseLines, alike]
    cases Instruction.parse? strict line with
    | error e => exact Or.inl rfl
    | ok found =>
      cases found with
      | none => exact Or.inr ⟨_, _, rfl, rfl, .badLine here⟩
      | some i =>
        have rest := ih (number + 1) fun line inside => oneLine line (List.mem_cons_of_mem _ inside)
        rcases rest with same | ⟨e, e', failure, failure', same⟩
        · exact Or.inl (by rw [same])
        · exact Or.inr ⟨e, e', by rw [failure], by rw [failure'], same⟩

theorem Fault.SamePlace.refl (e : Fault) : e.SamePlace e := by
  cases e with
  | badLine e => exact .badLine (Or.inl rfl)
  | overlong digits => exact .overlong digits

/-- Reading goes line by line, whichever line ending stands between two scripts: the whole is read
if both are, as the instructions of the first and then those of the second. If the first is not
read, the whole fails at the same line. If only the second is not read, the whole fails at its line
as well, counted on behind the instructions of the first. -/
theorem scripts_join (strict : Bool) (a b : String) {ending : String}
    (ends : ending = "\n" ∨ ending = "\r\n") :
    Joined (parse strict a) (parse strict b) (parse strict (a ++ ending ++ b)) := by
  obtain ⟨front, whole, same⟩ := Text.exists_lines_append a b ends
  have alike := parseLines_sameButReturn strict 1 same
    fun line inside => Text.feed_not_mem_lines inside
  have counted := parseLines_behind strict front.length 1 (Text.lines b)
  rw [Nat.add_comm] at counted
  simp only [parse, whole, parseLines_append, counted]
  cases read : parseLines strict 1 (Text.lines a) with
  | error e =>
    have failed : ∃ e', parseLines strict 1 front = .error e' ∧ e.SamePlace e' := by
      rcases alike with alike | ⟨f, f', failure, failure', same⟩
      · exact ⟨e, alike.trans read, .refl e⟩
      · rw [read] at failure
        cases failure
        exact ⟨f', failure', same⟩
    obtain ⟨e', failure, same⟩ := failed
    rw [failure]
    exact .first same
  | ok is =>
    have readFront : parseLines strict 1 front = .ok is := by
      rcases alike with alike | ⟨f, f', failure, -, -⟩
      · exact alike.trans read
      · rw [read] at failure
        cases failure
    have size : front.length = is.length := (parseLines_ok_iff.mp readFront).length_eq
    rw [readFront, size]
    cases parseLines strict 1 (Text.lines b) with
    | error e => exact .second
    | ok js =>
      have kept : List.Forall₂ Text.SameButReturn (Text.lines b) (Text.lines b) :=
        List.forall₂_same.mpr fun _ _ => Or.inl rfl
      exact .both rfl (List.rel_append same kept)

/-- The carriage return at the end of the first script is part of its comment, and joins the line
feed behind it. The second script fails at its second line, the fourth of the whole. -/
theorem comment_return_joins :
    ("\n" = "\n" ∨ "\n" = "\r\n") ∧
      parse true "LIFT\nPLACE # down\r" = .ok ⟨[.lift, .place], ["LIFT", "PLACE # down\r"]⟩ ∧
      parse true "\rEND\nJUMP" = .error (.badLine ⟨2, "JUMP"⟩) ∧
      parse true ("LIFT\nPLACE # down\r" ++ "\n" ++ "\rEND\nJUMP") =
        .error (.badLine ⟨4, "JUMP"⟩) := by
  have ends : "\n" = "\n" ∨ "\n" = "\r\n" := Or.inl rfl
  have lines : Text.lines "LIFT\nPLACE # down\r" = ["LIFT", "PLACE # down\r"] := rfl
  have first : parse true "LIFT\nPLACE # down\r" =
      .ok ⟨[.lift, .place], ["LIFT", "PLACE # down\r"]⟩ := by
    rw [parse, lines]
    rfl
  have lines' : Text.lines "\rEND\nJUMP" = ["\rEND", "JUMP"] := rfl
  have second : parse true "\rEND\nJUMP" = .error (.badLine ⟨2, "JUMP"⟩) := by
    rw [parse, lines']
    rfl
  have joined := scripts_join true "LIFT\nPLACE # down\r" "\rEND\nJUMP" ends
  exact ⟨ends, first, second, joined.fails_behind first second⟩

end Script

end TurtleGraphics
