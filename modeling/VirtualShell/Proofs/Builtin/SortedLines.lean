import Mathlib.Data.List.Sort
import VirtualShell.Proofs.Execution.Filters
import VirtualShell.Proofs.Text.Sorted

/-!
# Sorted lines without repetitions

Lines that are equal stand next to each other once they are sorted, so `uniq` behind `sort` shows
each of them once, as `sort -u` does. Both lists strictly increase and hold the same lines, hence
they are equal (`collapse_sortTexts`); neither the order in which `sort -u` drops repetitions nor
the way in which `uniq` finds its groups matters.

Between the two commands the lines are a text, which loses a last line that is empty. As the empty
line is sorted to the front, it is last only where there is no other line, and then nothing is
printed in any case (`joinLines_collapse_dropFinalEmpty`).
-/

namespace VirtualShell.Builtin

open Text

/-! ## Groups of equal lines -/

/-- The first line of each group of equal lines that stand next to each other. -/
def collapse (ls : List String) : List String :=
  (groupLines ls).map Prod.fst

/-- Collapsing keeps the first line. -/
theorem head?_collapse (ls : List String) : (collapse ls).head? = ls.head? := by
  cases ls with
  | nil => rfl
  | cons line ls =>
    rw [collapse, groupLines, List.foldr_cons, ← groupLines]
    cases groupLines ls with
    | nil => rfl
    | cons group groups =>
      rw [addToGroups]
      split
      · rename_i heq
        rw [← heq]
        rfl
      · rfl

/-- A line counts as new just where another one follows. -/
theorem collapse_cons (line : String) (ls : List String) :
    collapse (line :: ls) = if ls.head? = some line then collapse ls else line :: collapse ls := by
  rw [← head?_collapse ls, collapse, collapse, groupLines, List.foldr_cons, ← groupLines]
  cases groupLines ls with
  | nil => rfl
  | cons group groups =>
    obtain ⟨first, n⟩ := group
    simp only [addToGroups, List.map_cons, List.head?_cons, Option.some_inj]
    split <;> rfl

/-- Collapsing keeps every line once at least. -/
theorem mem_collapse {row : String} {ls : List String} : row ∈ collapse ls ↔ row ∈ ls := by
  induction ls with
  | nil => exact Iff.rfl
  | cons line ls ih =>
    rw [collapse_cons, List.mem_cons]
    split
    · rename_i hfirst
      rw [ih]
      refine ⟨.inr, ?_⟩
      rintro (rfl | hrow)
      · exact List.mem_of_head? hfirst
      · exact hrow
    · rw [List.mem_cons, ih]

/-- Of sorted lines, each is shown once. -/
theorem pairwise_collapse {ls : List String} (h : ls.Pairwise (· ≤ ·)) :
    (collapse ls).Pairwise (· < ·) := by
  induction ls with
  | nil => exact .nil
  | cons line ls ih =>
    obtain ⟨hline, hls⟩ := List.pairwise_cons.mp h
    rw [collapse_cons]
    split
    · exact ih hls
    · rename_i hfirst
      refine List.pairwise_cons.mpr ⟨fun row hrow => ?_, ih hls⟩
      rw [mem_collapse] at hrow
      refine Std.lt_of_le_of_ne (hline row hrow) ?_
      -- If this line came again, the one that follows it would lie in between.
      rintro rfl
      cases ls with
      | nil => cases hrow
      | cons next ls =>
        have hnext : next ≤ line := by
          rcases List.mem_cons.mp hrow with rfl | hlater
          · exact String.le_refl _
          · exact (List.pairwise_cons.mp hls).1 line hlater
        exact hfirst (congrArg some (String.le_antisymm hnext (hline next List.mem_cons_self)))

/-- The groups of the sorted lines are the sorted lines without repetitions. -/
theorem collapse_sortTexts (ls : List String) :
    collapse (sortTexts ls) = sortTexts ls.eraseDups := by
  have hleft := pairwise_collapse (sorted_sortTexts ls)
  have hright := pairwise_sortTexts (nodup_eraseDups ls)
  refine hleft.eq_of_mem_iff hright fun row => ?_
  rw [mem_collapse, (sortTexts_perm ls).mem_iff, (sortTexts_perm _).mem_iff, List.mem_eraseDups]

/-! ## The text in between -/

/-- Of empty lines alone nothing is printed. -/
theorem joinLines_collapse_of_empty {ls : List String} (h : ∀ line ∈ ls, line = "") :
    joinLines (collapse ls) = "" := by
  induction ls with
  | nil => rfl
  | cons line ls ih =>
    obtain ⟨rfl, hls⟩ := List.forall_mem_cons.mp h
    rw [collapse_cons]
    split
    · exact ih hls
    · rename_i hfirst
      cases ls with
      | nil => rfl
      | cons next ls => exact absurd (congrArg some (hls next List.mem_cons_self)) hfirst

/-- Sorted lines lose nothing that is printed when the last one is lost for being empty. -/
theorem joinLines_collapse_dropFinalEmpty {rows : List String} (h : rows.Pairwise (· ≤ ·)) :
    joinLines (collapse (dropFinalEmpty rows)) = joinLines (collapse rows) := by
  rw [dropFinalEmpty]
  split
  · rename_i hlast
    obtain ⟨front, rfl⟩ := List.getLast?_eq_some_iff.mp hlast
    have hempty : ∀ row ∈ front ++ [""], row = "" := by
      intro row hrow
      rcases List.mem_append.mp hrow with hfront | hrow
      · have hle := (List.pairwise_append.mp h).2.2 row hfront "" (List.mem_singleton_self _)
        exact le_empty_iff.mp hle
      · exact List.mem_singleton.mp hrow
    rw [joinLines_collapse_of_empty hempty, List.dropLast_concat]
    exact joinLines_collapse_of_empty fun row hrow => hempty row (List.mem_append_left _ hrow)
  · rfl

/-! ## The commands -/

variable {s : Session} {args : List String} {stdin : Option String}
  {sources : List (String × String)}

/-- The option `-u` in front is added to those of the other arguments. -/
theorem parse_unique (args : List String) :
    Options.parse ("-u" :: args) = (Options.parse args).addFlags ["u"] := by
  rw [Options.parse]
  rfl

/-- Without options the lines are sorted as texts. -/
theorem sortLines_plain {options : Options} (h : options.flags = []) (text : String) :
    sortLines options text = sortTexts (Text.lines text) := by
  have hhas (name : String) : options.has [name] = false := by
    rw [Options.has, h]
    rfl
  simp only [sortLines, hhas, Bool.false_eq_true, if_false]

/-- With `-u` they are sorted without repetitions. -/
theorem sortLines_unique {options : Options} (h : options.flags = []) (text : String) :
    sortLines (options.addFlags ["u"]) text = sortTexts (Text.lines text).eraseDups := by
  have hflags : (options.addFlags ["u"]).flags = ["u"] := by
    rw [Options.addFlags, h]
    rfl
  have hhas (name : String) : (options.addFlags ["u"]).has [name] = (name == "u") := by
    rw [Options.has, hflags]
    simp [Bool.beq_eq_decide_eq]
  simp only [sortLines, hhas]
  rfl

/-- The command `sort` prints the sorted lines of its sources. -/
theorem run_sort (h : Sources s "sort" stdin (Options.parse args).operands sources)
    (now : Timestamp) :
    (sort.run args stdin).run now s
      = { outcome := .ok (.say (joinLines (sortLines (Options.parse args) (sourceText sources))))
          session := s } :=
  run_filterText h _ now

/-- `uniq` behind `sort` comes to what `sort -u` comes to, whether the lines are those of a text or
of files: every line once, in the order of the code points. -/
theorem uniq_behind_sort (hplain : (Options.parse args).flags = [])
    (hsources : Sources s "sort" stdin (Options.parse args).operands sources) (now : Timestamp) :
    ∃ (sorted : Result) (rows : List String),
      (sort.run args stdin).run now s = { outcome := .ok sorted, session := s } ∧
        sorted.success = true ∧
        (uniq.run [] (some sorted.text)).run now s
          = { outcome := .ok (.say (joinLines rows)), session := s } ∧
        (sort.run ("-u" :: args) stdin).run now s
          = { outcome := .ok (.say (joinLines rows)), session := s } ∧
        rows.Pairwise (· < ·) ∧ ∀ row, row ∈ rows ↔ row ∈ Text.lines (sourceText sources) := by
  let text := sourceText sources
  let sorted := sortTexts (Text.lines text)
  let rows := sortTexts (Text.lines text).eraseDups
  have hread : Text.lines (joinLines sorted) = dropFinalEmpty sorted :=
    Text.lines_joinWith fun row hrow =>
      newline_notMem_of_mem_lines ((sortTexts_perm _).mem_iff.mp hrow)
  have hshown : joinLines (collapse (Text.lines (joinLines sorted))) = joinLines rows := by
    rw [hread, joinLines_collapse_dropFinalEmpty (sorted_sortTexts _), collapse_sortTexts]
  refine ⟨.say (joinLines sorted), rows, ?_, rfl, ?_, ?_, pairwise_sortTexts (nodup_eraseDups _),
    fun row => ?_⟩
  · rw [run_sort hsources, sortLines_plain hplain]
  · rw [← hshown]
    rfl
  · have hunique : Sources s "sort" stdin (Options.parse ("-u" :: args)).operands sources := by
      rw [parse_unique]
      exact hsources
    rw [run_sort hunique, parse_unique, sortLines_unique hplain]
  · rw [(sortTexts_perm _).mem_iff, List.mem_eraseDups]

/-- Lines that come twice, the empty one among them. -/
theorem uniq_behind_sort_of_text :
    let s := freshSession
    let text := "b\n\na\n\nb\n"
    ((Options.parse []).flags = [] ∧ Sources s "sort" (some text) [] [("", text)]) ∧
      ∃ (sorted : Result) (rows : List String),
        (sort.run [] (some text)).run .epoch s = { outcome := .ok sorted, session := s } ∧
          sorted.success = true ∧
          (uniq.run [] (some sorted.text)).run .epoch s
            = { outcome := .ok (.say (joinLines rows)), session := s } ∧
          (sort.run ["-u"] (some text)).run .epoch s
            = { outcome := .ok (.say (joinLines rows)), session := s } ∧
          rows.Pairwise (· < ·) ∧
          ∀ row, row ∈ rows ↔ row ∈ Text.lines (sourceText [("", text)]) := by
  intro s text
  have hsources : Sources s "sort" (some text) [] [("", text)] := .input rfl
  have hplain : (Options.parse []).flags = [] := rfl
  exact ⟨⟨hplain, hsources⟩, uniq_behind_sort hplain hsources .epoch⟩

end VirtualShell.Builtin
