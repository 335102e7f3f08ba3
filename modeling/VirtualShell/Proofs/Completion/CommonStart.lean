import VirtualShell.Proofs.Completion.Paths

/-!
# What all completions start with

Beside the completions of a line stands the longest text that all of them start with. It is found in
one pass over them: the first one is cut down to what it shares with the second, the rest of it to
what it shares with the third, and so on. A text is a start of what two texts share just if both
start with it (`isPrefix_commonStart₂_iff`), so after each step the starts of what is left are those
that all texts seen so far have in common (`isPrefix_foldl_commonStart₂_iff`).

This determines the result, whatever the order of the texts and however often each of them comes
(`LongestStart.unique`). Where some texts have nothing in common, none that follow need be seen
(`commonStart_append_of_eq_empty`). The completions of a path all go on with what was typed, so what
they have in common does too (`longest_common_start`).
-/

namespace VirtualShell

namespace Completion

/-! ## One pass -/

/-- A text is a start of what two texts share just if it is a start of both. -/
theorem isPrefix_commonStart₂_iff {start as bs : List Char} :
    start <+: commonStart₂ as bs ↔ start <+: as ∧ start <+: bs := by
  induction start generalizing as bs with
  | nil => exact iff_of_true List.nil_prefix ⟨List.nil_prefix, List.nil_prefix⟩
  | cons c start ih =>
    have hnil : ¬ c :: start <+: [] := fun h => nomatch List.prefix_nil.mp h
    cases as with
    | nil => exact iff_of_false hnil fun h => hnil h.1
    | cons a as =>
      cases bs with
      | nil => exact iff_of_false hnil fun h => hnil h.2
      | cons b bs =>
        rw [commonStart₂, List.cons_prefix_cons, List.cons_prefix_cons]
        by_cases hab : a = b
        · subst hab
          rw [if_pos rfl, List.cons_prefix_cons, ih, and_and_left]
        · rw [if_neg hab]
          refine iff_of_false hnil ?_
          rintro ⟨⟨rfl, -⟩, ⟨rfl, -⟩⟩
          exact hab rfl

/-- The starts of what is left after a pass are those that the first text and all others share. -/
theorem isPrefix_foldl_commonStart₂_iff {start first : List Char} {texts : List String} :
    start <+: texts.foldl (fun common text => commonStart₂ common text.toList) first ↔
      start <+: first ∧ ∀ text ∈ texts, start <+: text.toList := by
  induction texts generalizing first with
  | nil => exact (and_iff_left fun text htext => absurd htext List.not_mem_nil).symm
  | cons text texts ih =>
    rw [List.foldl_cons, ih, isPrefix_commonStart₂_iff, List.forall_mem_cons, and_assoc]

/-- What starts the common start is what starts every text. -/
theorem isPrefix_commonStart_iff {texts : List String} (hne : texts ≠ []) {start : List Char} :
    start <+: (commonStart texts).toList ↔ ∀ text ∈ texts, start <+: text.toList := by
  cases texts with
  | nil => exact absurd rfl hne
  | cons first rest =>
    rw [commonStart, String.toList_ofList, isPrefix_foldl_commonStart₂_iff, List.forall_mem_cons]

/-! ## The longest start -/

/-- The longest of the texts that some texts all start with. -/
structure LongestStart (texts : List String) (common : String) : Prop where
  /-- Each of them starts with it. -/
  starts : ∀ text ∈ texts, common.toList <+: text.toList
  /-- It starts with any other text that each of them starts with. -/
  longest : ∀ other : String, (∀ text ∈ texts, other.toList <+: text.toList) →
    other.toList <+: common.toList

/-- The common start is the longest one that the texts share. -/
theorem longestStart_commonStart {texts : List String} (hne : texts ≠ []) :
    LongestStart texts (commonStart texts) :=
  ⟨(isPrefix_commonStart_iff hne).mp List.prefix_rfl,
    fun _ hother => (isPrefix_commonStart_iff hne).mpr hother⟩

/-- Texts have at most one longest start. -/
theorem LongestStart.unique {texts : List String} {common other : String}
    (h : LongestStart texts common) (hother : LongestStart texts other) : common = other := by
  have hle : common.toList <+: other.toList := hother.longest common h.starts
  have hge : other.toList <+: common.toList := h.longest other hother.starts
  exact String.toList_inj.mp (hle.eq_of_length_le hge.length_le)

/-- Which texts there are determines it, not their order nor how often each of them comes. -/
theorem LongestStart.of_mem_iff {texts others : List String} {common : String}
    (h : LongestStart texts common) (hmem : ∀ text, text ∈ others ↔ text ∈ texts) :
    LongestStart others common := by
  constructor
  · intro text htext
    exact h.starts text ((hmem text).mp htext)
  · intro other hother
    exact h.longest other fun text htext => hother text ((hmem text).mpr htext)

/-- Behind texts that have nothing in common, no other text need be seen. -/
theorem commonStart_append_of_eq_empty {texts : List String} (hne : texts ≠ [])
    (h : commonStart texts = "") (others : List String) : commonStart (texts ++ others) = "" := by
  have hall : LongestStart (texts ++ others) (commonStart (texts ++ others)) :=
    longestStart_commonStart (List.append_ne_nil_of_left_ne_nil hne others)
  have hstart : (commonStart (texts ++ others)).toList <+: (commonStart texts).toList :=
    (longestStart_commonStart hne).longest _ fun text htext =>
      hall.starts text (List.mem_append_left others htext)
  rw [h] at hstart
  exact String.toList_eq_nil_iff.mp (List.prefix_nil.mp hstart)

/-- The common start of some texts is the longest text that all of them start with. Neither their
order nor how often each of them comes makes a difference to it. If the texts are what a path can be
completed to, then it goes on with what was typed of the path. -/
theorem longest_common_start {texts : List String} (hne : texts ≠ []) :
    LongestStart texts (commonStart texts) ∧
      (∀ others : List String, (∀ text, text ∈ others ↔ text ∈ texts) →
        commonStart others = commonStart texts) ∧
      ∀ (s : Session) (wanted : Wanted) (partialPath : List Char),
        pathCandidates s.fileSystem wanted partialPath = .ok texts →
          partialPath <+: (commonStart texts).toList := by
  have hlongest : LongestStart texts (commonStart texts) := longestStart_commonStart hne
  refine ⟨hlongest, fun others hmem => ?_, fun s wanted partialPath hfound => ?_⟩
  · obtain ⟨text, htext⟩ := List.exists_mem_of_ne_nil texts hne
    have hothers : others ≠ [] := List.ne_nil_of_mem ((hmem text).mpr htext)
    exact (longestStart_commonStart hothers).unique (hlongest.of_mem_iff hmem)
  · rw [isPrefix_commonStart_iff hne]
    exact fun text htext => isPrefix_of_mem_pathCandidates hfound htext

/-- Two directories of a new session start with one more character than was typed. -/
theorem common_start_of_directories :
    let s := Session.new (DefaultTree.fileSystem .epoch)
    let found := ["documents/", "downloads/"]
    let others := ["downloads/", "documents/", "downloads/"]
    (found ≠ [] ∧ (∀ text, text ∈ others ↔ text ∈ found) ∧
      pathCandidates s.fileSystem .directories "d".toList = .ok found) ∧
      LongestStart found "do" ∧ commonStart others = "do" ∧ "d".toList <+: "do".toList := by
  intro s found others
  have hne : found ≠ [] := List.cons_ne_nil _ _
  have hmem : ∀ text, text ∈ others ↔ text ∈ found := by
    intro text
    simp only [others, found, List.mem_cons, List.not_mem_nil, or_false]
    tauto
  have hwhole : s.fileSystem.root.Whole := (DefaultTree.sound_fileSystem .epoch).whole
  have hcut : CutAtSlash "d".toList [] "d".toList := ⟨rfl, .inl rfl, by decide⟩
  have hoffered : offered .directories [] "d".toList
      (((s.fileSystem.root.at? (searched s.fileSystem [])).map Node.entries).getD []) = found := by
    decide +kernel
  have hsorted : Text.sortTexts found = found := List.mergeSort_of_pairwise (by decide)
  have hfound : pathCandidates s.fileSystem .directories "d".toList = .ok found := by
    rw [hcut.pathCandidates_eq hwhole, hoffered, hsorted]
  have hcommon : commonStart found = "do" := by decide
  obtain ⟨hlongest, hothers, hpath⟩ := longest_common_start hne
  rw [hcommon] at hlongest hothers hpath
  exact ⟨⟨hne, hmem, hfound⟩, hlongest, hothers others hmem, hpath s .directories _ hfound⟩

end Completion

end VirtualShell
