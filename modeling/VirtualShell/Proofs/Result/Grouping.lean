import VirtualShell.Terminal.Display
import VirtualShell.Proofs.Result

/-!
# Results can be grouped

Combining the first few results before the others comes to the same as combining all of them at
once (`combine_grouped`), so an alias that stands for a chain shows what the chain itself would
show.

The two outputs are not the same list of segments: a group without a style collapses into one text,
and where it is followed by something styled, that text is one segment in the place of several. What
is the same is whatever a view of the segments tells that does not depend on where plain text is cut
(`IgnoresCuts`). The style of every character is such a view, and so is what a terminal prints.
-/

namespace VirtualShell

/-- The characters of a segment, each with its style. -/
def Segment.styledChars (p : Segment) : List (Char × String) :=
  p.text.toList.map fun c => (c, p.style)

/-- The characters of an output, each with its style; a text has the plain style. -/
def Output.styledChars : Output → List (Char × String)
  | .text s => s.toList.map fun c => (c, "normal")
  | .segments parts => parts.flatMap Segment.styledChars

namespace Result

variable {α : Type} {view : Segment → List α}

/-! ## Groups of segments -/

/-- It does not matter how segments in a row are grouped. -/
theorem joinSegments_assoc (a b c : List Segment) :
    joinSegments (joinSegments a b) c = joinSegments a (joinSegments b c) := by
  by_cases ha : (Output.segments a).plain = ""
  · rw [joinSegments_of_empty_left ha, joinSegments_of_empty_left ha]
  by_cases hb : (Output.segments b).plain = ""
  · rw [joinSegments_of_empty_right ha hb, joinSegments_of_empty_left hb]
  have hab : (Output.segments (joinSegments a b)).plain ≠ "" := by
    rw [plain_joinSegments]
    exact Text.joinLines_ne_empty hb
  by_cases hc : (Output.segments c).plain = ""
  · rw [joinSegments_of_empty_right hab hc, joinSegments_of_empty_right hb hc]
  have hbc : (Output.segments (joinSegments b c)).plain ≠ "" := by
    rw [plain_joinSegments]
    exact Text.joinLines_ne_empty hc
  -- The middle segments decide alone whether a line feed comes before the last ones.
  rw [joinSegments_of_ne_empty hab hc, joinSegments_of_ne_empty ha hbc, plain_joinSegments,
    Text.hasEnd_newline_joinLines _ hb, joinSegments_of_ne_empty ha hb,
    joinSegments_of_ne_empty hb hc]
  simp only [List.append_assoc]

/-- The outputs of results side by side are joined in two steps. -/
theorem joinOutputs_append (results later : List Result) :
    joinOutputs (results ++ later) = joinSegments (joinOutputs results) (joinOutputs later) := by
  induction results with
  | nil => exact (joinSegments_of_empty_left rfl _).symm
  | cons r rest ih =>
    rw [List.cons_append, joinOutputs_cons, joinOutputs_cons, ih, joinSegments_assoc]

/-! ## Views of segments -/

/-- A view of segments that does not show where text of the plain style is cut. -/
def IgnoresCuts (view : Segment → List α) : Prop :=
  ∀ parts : List Segment, (∀ p ∈ parts, p.style = "normal") →
    view { text := (Output.segments parts).plain } = parts.flatMap view

/-- An output that has collapsed into a text is seen as its segments were. -/
theorem IgnoresCuts.flatMap_outputOf (h : IgnoresCuts view) (parts : List Segment) :
    (outputOf parts).parts.flatMap view = parts.flatMap view := by
  rw [outputOf]
  split
  · rename_i hall
    have hnormal : ∀ p ∈ parts, p.style = "normal" := by simpa using hall
    rw [Output.parts, List.flatMap_singleton, h parts hnormal]
  · rfl

/-- What comes behind is joined alike to outputs with the same text and view. -/
theorem flatMap_joinSegments_congr {parts others : List Segment} (later : List Segment)
    (hplain : (Output.segments parts).plain = (Output.segments others).plain)
    (hview : parts.flatMap view = others.flatMap view) :
    (joinSegments parts later).flatMap view = (joinSegments others later).flatMap view := by
  rw [joinSegments, joinSegments, hplain]
  split
  · rfl
  split
  · exact hview
  split <;> simp only [List.flatMap_append, hview]

/-- A view that does not show cuts shows the same of grouped outputs as of single ones. -/
theorem IgnoresCuts.flatMap_combine (h : IgnoresCuts view) (first : Result)
    (rest later : List Result) :
    (combine (combine first rest) later).output.parts.flatMap view
      = (combine first (rest ++ later)).output.parts.flatMap view := by
  change (outputOf (joinOutputs (combine first rest :: later))).parts.flatMap view
    = (outputOf (joinOutputs (first :: rest ++ later))).parts.flatMap view
  rw [h.flatMap_outputOf, h.flatMap_outputOf, joinOutputs_cons, joinOutputs_append]
  refine flatMap_joinSegments_congr _ ?_ (h.flatMap_outputOf _)
  exact (plain_parts _).trans (text_outputOf _)

/-- The characters with their styles do not tell how a text is cut. -/
theorem ignoresCuts_styledChars : IgnoresCuts Segment.styledChars := by
  intro parts hnormal
  induction parts with
  | nil => rfl
  | cons p rest ih =>
    obtain ⟨hp, hrest⟩ := List.forall_mem_cons.mp hnormal
    have hsplit : (Output.segments (p :: rest)).plain = p.text ++ (Output.segments rest).plain := by
      simp [Output.plain, String.join_cons]
    rw [List.flatMap_cons, ← ih hrest, hsplit]
    simp [Segment.styledChars, hp]

/-- The styled characters of an output are those of its parts. -/
theorem styledChars_eq (output : Output) :
    output.styledChars = output.parts.flatMap Segment.styledChars := by
  cases output with
  | text s => exact (List.flatMap_singleton _ _).symm
  | segments parts => rfl

/-! ## What terminals show -/

/-- The characters that a terminal prints for a segment. -/
def paintedChars (c : Terminal.Config) (p : Segment) : List Char :=
  (c.paint p.style p.text).toList

/-- Normal text is shown as it is. -/
theorem paint_normal (c : Terminal.Config) (text : String) : c.paint "normal" text = text := by
  rw [Terminal.Config.paint]
  split <;> rfl

/-- What a terminal shows does not tell how a text is cut either. -/
theorem ignoresCuts_paintedChars (c : Terminal.Config) : IgnoresCuts (paintedChars c) := by
  intro parts hnormal
  rw [paintedChars, paint_normal]
  induction parts with
  | nil => rfl
  | cons p rest ih =>
    obtain ⟨hp, hrest⟩ := List.forall_mem_cons.mp hnormal
    rw [List.flatMap_cons, ← ih hrest, paintedChars, hp, paint_normal]
    simp [Output.plain, String.join_cons]

/-- What is shown of an output depends only on the characters that its segments are printed as. -/
theorem shownOutput_eq (c : Terminal.Config) (r : Result) :
    c.shownOutput r
      = Text.dropTrailing '\n' (String.ofList (r.output.parts.flatMap (paintedChars c))) := by
  rw [Terminal.Config.shownOutput]
  cases r.output with
  | text s => simp [Output.parts, paintedChars, paint_normal]
  | segments parts =>
    have hjoin : String.join (parts.map fun p => c.paint p.style p.text)
        = String.ofList (parts.flatMap (paintedChars c)) := by
      rw [← String.toList_inj, String.toList_join, String.toList_ofList, List.flatMap_map]
      rfl
    dsimp only
    rw [hjoin, Output.parts]

/-! ## Combining in groups -/

/-- The message of a combination is never empty, so it counts as one when it is combined again. -/
theorem message?_combine (first : Result) (rest : List Result) :
    (combine first rest).message? = (combine first rest).error := by
  have hmessages : ∀ e ∈ (first :: rest).filterMap message?, e ≠ "" := by
    intro e he
    obtain ⟨r, -, hr⟩ := List.mem_filterMap.mp he
    simpa using (Option.filter_eq_some_iff.mp hr).2
  rw [message?, error_combine, joinMessages]
  generalize (first :: rest).filterMap message? = errors at hmessages
  cases errors with
  | nil => rfl
  | cons e errors =>
    have he : e ≠ "" := hmessages e List.mem_cons_self
    have hjoin : Text.joinWith "\n" (e :: errors) ≠ "" := by
      cases errors with
      | nil => simpa [Text.joinWith] using he
      | cons next errors => simp [Text.joinWith, String.intercalate_cons_cons]
    simp [hjoin]

/-- Results of which the first few have been combined already are combined to the same success, exit
code, message, request and text as all of them at once, every character of the text has the same
style, and every terminal shows the same. -/
theorem combine_grouped (first : Result) (rest later : List Result) :
    let nested := combine (combine first rest) later
    let flat := combine first (rest ++ later)
    nested.success = flat.success ∧ nested.exitCode = flat.exitCode ∧
      nested.error = flat.error ∧ nested.action = flat.action ∧ nested.text = flat.text ∧
      nested.output.styledChars = flat.output.styledChars ∧
      ∀ c : Terminal.Config, c.render nested = c.render flat := by
  intro nested flat
  have houtcome : nested.outcome = flat.outcome := by
    rw [outcome_combine, outcome_combine, List.foldl_append, ← outcome_combine first rest]
    rw [Outcome.ofCommand, message?_combine]
    rfl
  have herror : nested.error = flat.error := congrArg Outcome.error houtcome
  have haction : nested.action = flat.action := by
    change (combine first rest :: later).reverse.findSome? Result.action
      = (first :: rest ++ later).reverse.findSome? Result.action
    rw [List.reverse_cons, List.reverse_append, List.findSome?_append, List.findSome?_append,
      List.findSome?_singleton]
    rfl
  refine ⟨congrArg Outcome.success houtcome, congrArg Outcome.exitCode houtcome, herror, haction,
    congrArg Outcome.text houtcome, ?_, fun c => ?_⟩
  · rw [styledChars_eq, styledChars_eq]
    exact ignoresCuts_styledChars.flatMap_combine first rest later
  · have hshown : c.shownOutput nested = c.shownOutput flat := by
      rw [shownOutput_eq, shownOutput_eq]
      rw [(ignoresCuts_paintedChars c).flatMap_combine first rest later]
    have hmessage : nested.message? = flat.message? := congrArg (Option.filter _) herror
    rw [Terminal.Config.render, Terminal.Config.render, hmessage, hshown]

end Result

end VirtualShell
