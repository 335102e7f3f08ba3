import VirtualShell.Result
import Mathlib.Data.List.Induction

/-!
# Results in a row

What several commands come to is described here command by command: each adds its text and its
message to what was there before, and leaves its own success and exit code (`Outcome.followedBy`).
Combining all results at once comes to the same (`outcome_combine`), because the text of a
combination does not depend on how the commands are grouped (`Text.joinLines_assoc`).
-/

namespace VirtualShell

namespace Text

/-- Two texts in a row, where the second starts on a line of its own. An empty text leaves no
trace. -/
def joinLines (a b : String) : String :=
  if a = "" ∨ b = "" ∨ hasEnd "\n" a = true then a ++ b else a ++ "\n" ++ b

/-- Nothing in front changes nothing. -/
@[simp]
theorem joinLines_empty_left (b : String) : joinLines "" b = b := by
  simp [joinLines]

/-- Nothing behind changes nothing. -/
@[simp]
theorem joinLines_empty_right (a : String) : joinLines a "" = a := by
  simp [joinLines]

/-- A text ends in a line feed just where that is its last character. -/
theorem hasEnd_newline_iff (a : String) :
    hasEnd "\n" a = true ↔ a.toList.getLast? = some '\n' := by
  rw [hasEnd, List.isSuffixOf_iff_suffix]
  exact List.singleton_suffix_iff_getLast?_eq_some

/-- How a text ends is decided by its last part that is not empty. -/
theorem hasEnd_newline_append (a : String) {b : String} (hb : b ≠ "") :
    hasEnd "\n" (a ++ b) = hasEnd "\n" b := by
  have hlist : b.toList ≠ [] := fun h => hb (String.toList_inj.mp h)
  rw [Bool.eq_iff_iff, hasEnd_newline_iff, hasEnd_newline_iff, String.toList_append,
    List.getLast?_append, List.getLast?_eq_some_getLast hlist, Option.some_or]

/-- A line feed comes between two texts unless there is one already. -/
theorem joinLines_of_ne_empty {a b : String} (ha : a ≠ "") (hb : b ≠ "") :
    joinLines a b = if hasEnd "\n" a = true then a ++ b else a ++ "\n" ++ b := by
  simp [joinLines, ha, hb]

/-- Joined lines are not empty where something stands last. -/
theorem joinLines_ne_empty {a b : String} (hb : b ≠ "") : joinLines a b ≠ "" := by
  rw [joinLines]
  split <;> simp [hb]

/-- They end as the last text does. -/
theorem hasEnd_newline_joinLines (a : String) {b : String} (hb : b ≠ "") :
    hasEnd "\n" (joinLines a b) = hasEnd "\n" b := by
  rw [joinLines]
  split <;> exact hasEnd_newline_append _ hb

/-- It does not matter how texts in a row are grouped. -/
theorem joinLines_assoc (a b c : String) :
    joinLines (joinLines a b) c = joinLines a (joinLines b c) := by
  by_cases ha : a = ""
  · rw [ha, joinLines_empty_left, joinLines_empty_left]
  by_cases hb : b = ""
  · rw [hb, joinLines_empty_left, joinLines_empty_right]
  by_cases hc : c = ""
  · rw [hc, joinLines_empty_right, joinLines_empty_right]
  -- The middle text decides alone whether a line feed comes before the last one.
  rw [joinLines_of_ne_empty (joinLines_ne_empty hb) hc, hasEnd_newline_joinLines a hb,
    joinLines_of_ne_empty ha (joinLines_ne_empty hc), joinLines_of_ne_empty ha hb,
    joinLines_of_ne_empty hb hc]
  split <;> split <;> simp only [String.append_assoc]

end Text

/-! ## Outcomes -/

/-- What commands in a row have come to: the success and the exit code of the last one, the messages
of all, and the text of their output. -/
structure Outcome where
  success : Bool
  exitCode : Int
  error : Option String
  text : String
  deriving DecidableEq, Repr

namespace Outcome

/-- The outcome of a single command; an empty message counts as none. -/
def ofCommand (r : Result) : Outcome where
  success := r.success
  exitCode := r.exitCode
  error := r.message?
  text := r.text

/-- Two messages on a line each, as far as there are any. -/
def joinErrors : Option String → Option String → Option String
  | none, e => e
  | e, none => e
  | some a, some b => some (a ++ "\n" ++ b)

/-- Messages may be joined in any grouping. -/
theorem joinErrors_assoc (a b c : Option String) :
    joinErrors (joinErrors a b) c = joinErrors a (joinErrors b c) := by
  cases a <;> cases b <;> cases c <;> simp [joinErrors, String.append_assoc]

/-- The outcome of what came before, followed by something else. -/
def followedBy (o p : Outcome) : Outcome where
  success := p.success
  exitCode := p.exitCode
  error := joinErrors o.error p.error
  text := Text.joinLines o.text p.text

/-- The outcome of one command has its exit code. -/
@[simp]
theorem exitCode_ofCommand (r : Result) : (ofCommand r).exitCode = r.exitCode := rfl

/-- The later exit code counts. -/
@[simp]
theorem exitCode_followedBy (o p : Outcome) : (o.followedBy p).exitCode = p.exitCode := rfl

/-- Outcomes may follow each other in any grouping. -/
theorem followedBy_assoc (o p q : Outcome) :
    (o.followedBy p).followedBy q = o.followedBy (p.followedBy q) := by
  simp only [followedBy, joinErrors_assoc, Text.joinLines_assoc]

end Outcome

namespace Result

/-- A result as an outcome, with its message as it is. -/
def outcome (r : Result) : Outcome where
  success := r.success
  exitCode := r.exitCode
  error := r.error
  text := r.text

/-! ## The text of a combination -/

/-- The text of segments side by side. -/
theorem plain_segments_append (parts others : List Segment) :
    (Output.segments (parts ++ others)).plain
      = (Output.segments parts).plain ++ (Output.segments others).plain := by
  simp [Output.plain, String.join_append]

/-- The parts of an output have its text. -/
theorem plain_parts (output : Output) : (Output.segments output.parts).plain = output.plain := by
  cases output with
  | text s => simp [Output.parts, Output.plain]
  | segments parts => rfl

/-- Results without any text have no segments, and others have a text. -/
theorem joinOutputs_isEmpty_iff (results : List Result) :
    (joinOutputs results).isEmpty = true ↔ (Output.segments (joinOutputs results)).plain = "" := by
  induction results with
  | nil => simp [joinOutputs, Output.plain]
  | cons r rest ih =>
    rw [joinOutputs]
    split
    · exact ih
    · rename_i htext
      have hplain : r.output.plain ≠ "" := htext
      have hparts : r.output.parts ≠ [] := by
        intro hnil
        have hempty := plain_parts r.output
        rw [hnil] at hempty
        exact hplain (hempty.symm.trans rfl)
      dsimp only
      split <;> simp [plain_segments_append, plain_parts, hplain, hparts]

/-- Segments in a row, where the later ones start on a line of their own. Segments without any text
leave no trace. -/
def joinSegments (parts later : List Segment) : List Segment :=
  if (Output.segments parts).plain = "" then later
  else if (Output.segments later).plain = "" then parts
  else if Text.hasEnd "\n" (Output.segments parts).plain = true then parts ++ later
  else parts ++ { text := "\n" } :: later

/-- Segments without text in front are dropped. -/
theorem joinSegments_of_empty_left {parts : List Segment}
    (h : (Output.segments parts).plain = "") (later : List Segment) :
    joinSegments parts later = later :=
  if_pos h

/-- So are segments without text behind. -/
theorem joinSegments_of_empty_right {parts later : List Segment}
    (hparts : (Output.segments parts).plain ≠ "") (hlater : (Output.segments later).plain = "") :
    joinSegments parts later = parts := by
  rw [joinSegments, if_neg hparts, if_pos hlater]

/-- A line feed comes between two outputs unless there is one already. -/
theorem joinSegments_of_ne_empty {parts later : List Segment}
    (hparts : (Output.segments parts).plain ≠ "") (hlater : (Output.segments later).plain ≠ "") :
    joinSegments parts later = parts ++
      (if Text.hasEnd "\n" (Output.segments parts).plain = true then [] else [{ text := "\n" }])
        ++ later := by
  rw [joinSegments, if_neg hparts, if_neg hlater]
  split <;> simp

/-- The text of segments in a row is made of their texts. -/
theorem plain_joinSegments (parts later : List Segment) :
    (Output.segments (joinSegments parts later)).plain
      = Text.joinLines (Output.segments parts).plain (Output.segments later).plain := by
  by_cases hparts : (Output.segments parts).plain = ""
  · rw [joinSegments_of_empty_left hparts, hparts, Text.joinLines_empty_left]
  by_cases hlater : (Output.segments later).plain = ""
  · rw [joinSegments_of_empty_right hparts hlater, hlater, Text.joinLines_empty_right]
  rw [joinSegments_of_ne_empty hparts hlater, Text.joinLines_of_ne_empty hparts hlater]
  simp only [plain_segments_append]
  split <;> simp [Output.plain]

/-- The segments of outputs in a row are joined one by one. -/
theorem joinOutputs_cons (r : Result) (rest : List Result) :
    joinOutputs (r :: rest) = joinSegments r.output.parts (joinOutputs rest) := by
  have hparts : (Output.segments r.output.parts).plain = r.text := plain_parts r.output
  have hempty := joinOutputs_isEmpty_iff rest
  rw [joinOutputs, joinSegments, hparts]
  split
  · rfl
  dsimp only
  by_cases htail : (Output.segments (joinOutputs rest)).plain = ""
  · have hnil : joinOutputs rest = [] := List.isEmpty_iff.mp (hempty.mpr htail)
    rw [if_pos htail, hnil]
    exact List.append_nil _
  · have hnot : (joinOutputs rest).isEmpty = false :=
      Bool.eq_false_iff.mpr fun h => htail (hempty.mp h)
    rw [if_neg htail, hnot, Bool.false_or]

/-- The text of outputs in a row is made of their texts. -/
theorem plain_joinOutputs (results : List Result) :
    (Output.segments (joinOutputs results)).plain
      = results.foldr (fun r text => Text.joinLines r.text text) "" := by
  induction results with
  | nil => rfl
  | cons r rest ih =>
    rw [joinOutputs_cons, plain_joinSegments, plain_parts, ih]
    rfl

/-- An output made of segments has their text. -/
theorem text_outputOf (parts : List Segment) :
    (outputOf parts).plain = (Output.segments parts).plain := by
  rw [outputOf]
  split <;> rfl

/-- The texts of results are joined in order, the last one last. -/
theorem foldr_joinLines_concat (results : List Result) (r : Result) :
    (results ++ [r]).foldr (fun r text => Text.joinLines r.text text) ""
      = Text.joinLines (results.foldr (fun r text => Text.joinLines r.text text) "") r.text := by
  induction results with
  | nil => simp
  | cons first rest ih =>
    rw [List.cons_append, List.foldr_cons, List.foldr_cons, ih, Text.joinLines_assoc]

/-! ## The messages of a combination -/

/-- Messages on a line each, if there are any. -/
def joinMessages (errors : List String) : Option String :=
  if errors.isEmpty then none else some (Text.joinWith "\n" errors)

/-- A further message is joined behind the others, if there is one. -/
theorem joinMessages_append_toList (errors : List String) (e : Option String) :
    joinMessages (errors ++ e.toList) = Outcome.joinErrors (joinMessages errors) e := by
  cases e with
  | none =>
    rw [Option.toList_none, List.append_nil]
    cases joinMessages errors <;> rfl
  | some message =>
    by_cases hnil : errors = []
    · simp [hnil, joinMessages, Text.joinWith, Outcome.joinErrors]
    · have hjoin := String.intercalate_append_of_ne_nil (s := "\n") hnil
        (List.cons_ne_nil message [])
      simp [joinMessages, hnil, Text.joinWith, hjoin, Outcome.joinErrors]

/-! ## Combining -/

/-- The text of combined results is that of all of them, joined. -/
theorem text_combine (first : Result) (rest : List Result) :
    (combine first rest).text
      = (first :: rest).foldr (fun r text => Text.joinLines r.text text) "" :=
  (text_outputOf _).trans (plain_joinOutputs _)

/-- So is their message. -/
theorem error_combine (first : Result) (rest : List Result) :
    (combine first rest).error = joinMessages ((first :: rest).filterMap message?) := rfl

/-- The results of commands in a row, combined at once, come to what they come to one after
another. -/
theorem outcome_combine (first : Result) (rest : List Result) :
    (combine first rest).outcome
      = rest.foldl (fun o r => o.followedBy (.ofCommand r)) (.ofCommand first) := by
  induction rest using List.reverseRecOn with
  | nil =>
    have herror := joinMessages_append_toList [] first.message?
    have htext := text_combine first []
    rw [List.foldr_cons, List.foldr_nil, Text.joinLines_empty_right] at htext
    have hmessages : [first].filterMap message? = [] ++ first.message?.toList := by
      cases h : first.message? <;> simp [h]
    simp only [outcome, error_combine, htext, hmessages, herror]
    rfl
  | append_singleton rest last ih =>
    have hlast : (first :: (rest ++ [last])).getLast (List.cons_ne_nil _ _) = last :=
      List.getLast_concat (l := first :: rest)
    have htext : (combine first (rest ++ [last])).text
        = Text.joinLines (combine first rest).text last.text := by
      rw [text_combine, text_combine, ← List.cons_append, foldr_joinLines_concat]
    have herror : (combine first (rest ++ [last])).error
        = Outcome.joinErrors (combine first rest).error last.message? := by
      have hmessages : [last].filterMap message? = last.message?.toList := by
        cases h : last.message? <;> simp [h]
      rw [error_combine, error_combine, ← List.cons_append, List.filterMap_append, hmessages,
        joinMessages_append_toList]
    rw [List.foldl_append, ← ih]
    simp only [outcome, htext, herror, List.foldl_cons, List.foldl_nil, Outcome.followedBy,
      Outcome.ofCommand]
    rw [combine, hlast]

end Result

end VirtualShell
