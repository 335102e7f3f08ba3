import VirtualShell.Proofs.Builtin.Returns
import VirtualShell.Proofs.Execution.Transparent
import VirtualShell.Proofs.Text.Lines

/-!
# Lines from one filter to the next

A filter selects lines of its input and prints them joined (`run_of_filters`), and the next command
of a pipeline takes this text apart again. What the second reads is what the first has selected, all
but the last line where that is empty (`filters_hand_on_lines`): the lines of a text hold no line
feed themselves, so this is `Text.lines_joinWith`. Only the names that `grep` puts before its lines
could bring one in.
-/

namespace VirtualShell

namespace Builtin

/-! ## Filters -/

/-- A command that selects lines, with what its arguments ask for. -/
inductive LineFilter where
  | head (count : Nat)
  | tail (count : Nat)
  | sort (options : Options)
  | uniq
  | grep (pattern : Pattern) (invert : Bool)

/-- The command reads its arguments as those of a filter on files, or on the input if there are
none. A filter shows its lines as they are: `uniq` does not count them, and `grep` neither counts
nor numbers them. -/
inductive Filters : Builtin → List String → LineFilter → List String → Prop
  | head {args : List String} {cut : Cut}
      (hcut : readCut "head" args.length {} args = .ok (.ok cut)) :
      Filters .head args (.head cut.count) cut.files
  | tail {args : List String} {cut : Cut}
      (hcut : readCut "tail" args.length {} args = .ok (.ok cut)) :
      Filters .tail args (.tail cut.count) cut.files
  | sort (args : List String) :
      Filters .sort args (.sort (Options.parse args)) (Options.parse args).operands
  | uniq {args : List String} (hcounts : (Options.parse args).has ["c"] = false) :
      Filters .uniq args .uniq (Options.parse args).operands
  | grep {args files : List String} {written : String} {pattern : Pattern}
      (hoperands : (Options.parse args).operands = written :: files)
      (hpattern : Pattern.read written ((Options.parse args).has ["i"]) = .ok pattern)
      (hcounts : (Options.parse args).has ["c"] = false)
      (hnumbers : (Options.parse args).has ["n"] = false) :
      Filters .grep args (.grep pattern ((Options.parse args).has ["v"])) files

/-- The texts that a filter works on, with their names: those of its files, or the input. -/
inductive Sources (s : Session) (command : String) (stdin : Option String) :
    List String → List (String × String) → Prop
  | input {text : String} (hstdin : stdin = some text) : Sources s command stdin [] [("", text)]
  | files {files : List String} {contents : List (String × String)} (hne : files ≠ [])
      (hread : readFiles s command files = .ok (.ok contents)) :
      Sources s command stdin files contents

/-- The texts in a row. -/
def sourceText (sources : List (String × String)) : String :=
  String.join (sources.map Prod.snd)

/-- What stands before a line that was found, where several files are searched. -/
def sourceLabel (several : Bool) (name : String) : String :=
  if several && name != "" then name ++ ":" else ""

/-- The lines that a filter selects. -/
def LineFilter.select (sources : List (String × String)) : LineFilter → List String
  | head count => (Text.lines (sourceText sources)).take count
  | tail count =>
    let ls := Text.lines (sourceText sources)
    ls.drop (ls.length - count)
  | sort options => sortLines options (sourceText sources)
  | uniq => (groupLines (Text.lines (sourceText sources))).map Prod.fst
  | grep pattern invert =>
    sources.flatMap fun (name, text) =>
      ((Text.lines text).filter fun line => pattern.search line.toList != invert).map
        (sourceLabel (1 < sources.length) name ++ ·)

/-! ## What filters print -/

variable {s : Session} {now : Timestamp} {b : Builtin} {args files : List String}
  {stdin : Option String} {filter : LineFilter} {sources : List (String × String)}

/-- The input of a filter is the text of its sources. -/
theorem gatherInput_of_sources {command : String} (h : Sources s command stdin files sources) :
    gatherInput s command files stdin = .ok (.ok (sourceText sources)) := by
  cases h with
  | input hstdin =>
    subst hstdin
    simp [gatherInput, sourceText, pure, Except.pure, String.join]
  | files hne hread =>
    have hempty : files.isEmpty = false := List.isEmpty_eq_false_iff.mpr hne
    unfold gatherInput
    simp only [hempty, Bool.false_eq_true, if_false, hread]
    rfl

/-- `grep` shows the lines of a text that it finds, each behind its label. -/
theorem grepText_eq (pattern : Pattern) (invert several : Bool) (name text : String) :
    grepText pattern { invert, numbers := false, names := several } name text
      = ((Text.lines text).filter fun line => pattern.search line.toList != invert).map
          (sourceLabel several name ++ ·) := by
  have hshown : grepText pattern { invert, numbers := false, names := several } name text
      = ((Text.lines text).zipIdx.map Prod.fst).filterMap fun line =>
          if pattern.search line.toList == invert then none
          else some (sourceLabel several name ++ line) := by
    rw [List.filterMap_map]
    simp [grepText, sourceLabel]
  rw [hshown, List.zipIdx_map_fst]
  induction Text.lines text with
  | nil => rfl
  | cons line ls ih =>
    rw [List.filterMap_cons, ih, List.filter_cons]
    by_cases hsearch : pattern.search line.toList = invert
    · simp [hsearch]
    · simp [hsearch]

/-- A filter of text answers with what it makes of its sources. -/
theorem run_filterText {command : String} (h : Sources s command stdin files sources)
    (f : String → Output) (now : Timestamp) :
    (filterText command files stdin f).run now s
      = { outcome := .ok (.ok (f (sourceText sources))), session := s } := by
  unfold filterText Shell.query Shell.run
  dsimp only
  rw [gatherInput_of_sources h]
  rfl

/-- The commands `head` and `tail` print the lines that they keep. -/
theorem run_runCut {command : String} {cut : Cut}
    (hcut : readCut command args.length {} args = .ok (.ok cut))
    (h : Sources s command stdin cut.files sources) (keep : Nat → List String → List String)
    (now : Timestamp) :
    (runCut command keep args stdin).run now s
      = { outcome := .ok (.say (joinLines (keep cut.count (Text.lines (sourceText sources)))))
          session := s } := by
  unfold runCut Shell.query Shell.run
  rw [hcut]
  dsimp only [bind, Except.bind]
  rw [gatherInput_of_sources h]
  rfl

/-- The command `grep` prints the lines that match, and succeeds if there are any. -/
theorem run_runGrep {written : String} {pattern : Pattern}
    (hoperands : (Options.parse args).operands = written :: files)
    (hpattern : Pattern.read written ((Options.parse args).has ["i"]) = .ok pattern)
    (hcounts : (Options.parse args).has ["c"] = false)
    (hnumbers : (Options.parse args).has ["n"] = false)
    (h : Sources s "grep" stdin files sources) (now : Timestamp) :
    let found := LineFilter.select sources (.grep pattern ((Options.parse args).has ["v"]))
    (runGrep args stdin).run now s
      = { outcome := .ok
            { output := .text (joinLines found), exitCode := if found.isEmpty then 1 else 0 }
          session := s } := by
  intro found
  have hfound : found = sources.flatMap fun (name, text) =>
      grepText pattern { invert := (Options.parse args).has ["v"], numbers := false,
                         names := 1 < sources.length } name text := by
    simp only [grepText_eq]
    rfl
  unfold runGrep Shell.query Shell.run
  simp only [hoperands, hpattern, hcounts, hnumbers, hfound]
  cases h with
  | input hstdin =>
    subst hstdin
    rfl
  | files hne hread =>
    have hempty : files.isEmpty = false := List.isEmpty_eq_false_iff.mpr hne
    simp only [hempty, Bool.false_eq_true, if_false, hread]
    rfl

/-- A filter that finds its texts prints the lines that it selects, and nothing else happens. -/
theorem run_of_filters (hfilter : Filters b args filter files)
    (hsources : Sources s b.name stdin files sources) (now : Timestamp) :
    ∃ r, (b.run args stdin).run now s = { outcome := .ok r, session := s } ∧
      r.success = true ∧ r.text = Text.joinWith "\n" (filter.select sources) := by
  cases hfilter with
  | head hcut => exact ⟨_, run_runCut hcut hsources (fun n ls => ls.take n) now, rfl, rfl⟩
  | tail hcut =>
    exact ⟨_, run_runCut hcut hsources (fun n ls => ls.drop (ls.length - n)) now, rfl, rfl⟩
  | sort => exact ⟨_, run_filterText hsources _ now, rfl, rfl⟩
  | uniq hcounts =>
    refine ⟨_, run_filterText hsources _ now, rfl, ?_⟩
    simp only [hcounts, Bool.false_eq_true, if_false]
    rfl
  | grep hoperands hpattern hcounts hnumbers =>
    exact ⟨_, run_runGrep hoperands hpattern hcounts hnumbers hsources now, rfl, rfl⟩

/-! ## Lines without line feeds -/

/-- A group stands for one of the lines. -/
theorem mem_groupLines {row : String} {n : Nat} {ls : List String} (h : (row, n) ∈ groupLines ls) :
    row ∈ ls := by
  induction ls generalizing n with
  | nil => cases h
  | cons line ls ih =>
    rw [groupLines, List.foldr_cons, ← groupLines] at h
    cases hgroups : groupLines ls with
    | nil =>
      rw [hgroups, addToGroups] at h
      cases List.mem_singleton.mp h
      exact List.mem_cons_self
    | cons group groups =>
      obtain ⟨first, m⟩ := group
      rw [hgroups] at h ih
      rw [addToGroups] at h
      by_cases hfirst : first = line
      · rw [if_pos hfirst] at h
        rcases List.mem_cons.mp h with hrow | hrow
        · cases hrow
          exact hfirst ▸ List.mem_cons_self
        · exact List.mem_cons_of_mem line (ih (List.mem_cons_of_mem _ hrow))
      · rw [if_neg hfirst] at h
        rcases List.mem_cons.mp h with hrow | hrow
        · cases hrow
          exact List.mem_cons_self
        · exact List.mem_cons_of_mem line (ih hrow)

/-- Sorting by number keeps every line. -/
theorem mem_sortByNumber {row : String} {ls : List String} : row ∈ sortByNumber ls ↔ row ∈ ls := by
  simp [sortByNumber, List.mem_mergeSort]

/-- Sorting keeps every line, once at least. -/
theorem mem_sortLines {options : Options} {text row : String} :
    row ∈ sortLines options text ↔ row ∈ Text.lines text := by
  rw [sortLines]
  split <;> split <;> split <;>
    simp [mem_sortByNumber, Text.sortTexts, List.mem_mergeSort]

/-- No name that the filter puts before its lines holds a line feed. -/
def LineFilter.PlainLabels (sources : List (String × String)) : LineFilter → Prop
  | grep _ _ => 1 < sources.length → ∀ source ∈ sources, '\n' ∉ source.1.toList
  | _ => True

/-- No line that a filter selects holds a line feed, unless it comes in with the name of a file. -/
theorem newline_notMem_select (hlabels : filter.PlainLabels sources) {row : String}
    (h : row ∈ filter.select sources) : '\n' ∉ row.toList := by
  cases filter with
  | head count => exact Text.newline_notMem_of_mem_lines (List.mem_of_mem_take h)
  | tail count => exact Text.newline_notMem_of_mem_lines (List.mem_of_mem_drop h)
  | sort options => exact Text.newline_notMem_of_mem_lines (mem_sortLines.mp h)
  | uniq =>
    obtain ⟨⟨line, n⟩, hmem, rfl⟩ := List.mem_map.mp h
    exact Text.newline_notMem_of_mem_lines (mem_groupLines hmem)
  | grep pattern invert =>
    obtain ⟨⟨name, text⟩, hsource, hrow⟩ := List.mem_flatMap.mp h
    obtain ⟨line, hline, rfl⟩ := List.mem_map.mp hrow
    have hlabel : '\n' ∉ (sourceLabel (1 < sources.length) name).toList := by
      rw [sourceLabel]
      split
      · rename_i hseveral
        rw [Bool.and_eq_true, decide_eq_true_eq] at hseveral
        rw [String.toList_append, List.mem_append, not_or]
        exact ⟨hlabels hseveral.1 _ hsource, by decide⟩
      · exact List.not_mem_nil
    rw [String.toList_append, List.mem_append, not_or]
    exact ⟨hlabel, Text.newline_notMem_of_mem_lines (List.mem_of_mem_filter hline)⟩

/-! ## The next command -/

/-- What the next command reads of the lines that a filter selects. -/
theorem lines_of_filters (hfilter : Filters b args filter files)
    (hsources : Sources s b.name stdin files sources) (hlabels : filter.PlainLabels sources)
    (now : Timestamp) :
    ∃ r, (b.run args stdin).run now s = { outcome := .ok r, session := s } ∧ r.success = true ∧
      Text.lines r.text = Text.dropFinalEmpty (filter.select sources) := by
  obtain ⟨r, hrun, hsuccess, htext⟩ := run_of_filters hfilter hsources now
  refine ⟨r, hrun, hsuccess, ?_⟩
  rw [htext]
  exact Text.lines_joinWith fun row hrow => newline_notMem_select hlabels hrow

/-- The command `wc -l` counts the lines of its input. -/
theorem run_wc_lines (text : String) (now : Timestamp) (s : Session) :
    (wc.run ["-l"] (some text)).run now s
      = { outcome := .ok (.say (Text.padStart 8 (Text.natText (Text.lines text).length)))
          session := s } := by
  have hoptions : Options.parse ["-l"] = { flags := ["l"] } := by decide
  have hrow (c : Counts) : c.row ["l"] "" = Text.padStart 8 (Text.natText c.lines) := by
    simp [Counts.row, Counts.selected, Text.joinWith]
  rw [run, runWc, hoptions]
  simp only [hrow, List.isEmpty_nil, if_true]
  rfl

/-- `head -n COUNT FILE` keeps so many lines of the file. -/
theorem filters_head_file {file : String} (hfile : countArgument? file [] = none) {count : Nat}
    (hcount : (Text.natText count).length ≤ Text.maxDigits) :
    Filters .head ["-n", Text.natText count, file] (.head count) [file] := by
  have hread : readCount "head" (Text.natText count) = .ok (.ok count) := by
    have hdigits : (Nat.toDigits 10 count).all Text.isDecimal = true :=
      List.all_eq_true.mpr fun c hc => Text.isDecimal_of_mem_toDigits hc
    have hempty : (Nat.toDigits 10 count).isEmpty = false :=
      List.isEmpty_eq_false_iff.mpr Nat.toDigits_ne_nil
    rw [Text.natText, String.length_ofList] at hcount
    rw [readCount, Text.natText, String.toList_ofList, hempty, all_isDigitForm_of_isDecimal hdigits,
      Text.readNat_toDigits hcount]
    rfl
  have hcut : readCut "head" 3 {} ["-n", Text.natText count, file]
      = .ok (.ok { count, files := [file] }) := by
    rw [readCut, countArgument?]
    dsimp only
    rw [hread]
    dsimp only
    rw [readCut, hfile]
    rfl
  exact @Filters.head ["-n", Text.natText count, file] { count, files := [file] } hcut

/-- A file that is found is a source under its name. -/
theorem sources_file {file content : String} {info : NodeInfo}
    (h : s.fileSystem.named? file = .ok (some (.file info content))) (command : String)
    (stdin : Option String) : Sources s command stdin [file] [(file, content)] := by
  refine .files (List.cons_ne_nil _ _) ?_
  rw [readFiles, readFile, h]
  rfl

end Builtin

namespace Execution

variable {s : Session} {now : Timestamp} {b : Builtin} {args : List String} {r : Result}

/-- A command that only answers does so when it is run on arguments in which nothing is to be filled
in, and its exit code is noted. -/
theorem run_plain_builtin {stdin : Option String} (hword : s.aliases.contains b.name = false)
    (hargs : args.map (expandText s) = args) (nested : LineRunner)
    (hrun : (b.run args stdin).run now s = { outcome := .ok r, session := s }) :
    let step := (runCommand (dispatch nested) { word := b.name, args } stdin).run now s
    step.outcome = .ok r ∧ step.session = { s with lastExitCode := r.exitCode } := by
  have hagrees := agrees_runCommand_name hword args nested stdin now
  rw [hargs] at hagrees
  have hdone : (b.run args stdin >>= finish).run now s
      = { outcome := .ok r, session := { s with lastExitCode := r.exitCode } } := by
    rw [Shell.run_bind_of_run hrun]
    rfl
  rw [hdone] at hagrees
  exact ⟨hagrees.outcome_eq, hagrees.session_eq⟩

/-- A filter in front of `wc -l`: what is counted are the lines that are handed on. -/
theorem counts_lines_of_filter {filter : Builtin.LineFilter} {files : List String}
    {stdin : Option String} {sources : List (String × String)}
    (hfilter : Builtin.Filters b args filter files)
    (hsources : Builtin.Sources s b.name stdin files sources)
    (hlabels : filter.PlainLabels sources) (hword : s.aliases.contains b.name = false)
    (hwc : s.aliases.contains "wc" = false) (hargs : args.map (expandText s) = args)
    (nested : LineRunner) (now : Timestamp) :
    ((runPipeline (runCommand (dispatch nested)) .ok stdin
        [{ word := b.name, args }, { word := "wc", args := ["-l"] }]).run now s).outcome
      = .ok (.say (Text.padStart 8
          (Text.natText (Text.dropFinalEmpty (filter.select sources)).length))) := by
  obtain ⟨r, hrun, hsuccess, hlines⟩ := Builtin.lines_of_filters hfilter hsources hlabels now
  obtain ⟨hfirst, hsession⟩ := run_plain_builtin hword hargs nested hrun
  have hcount := Builtin.run_wc_lines r.text now { s with lastExitCode := r.exitCode }
  rw [hlines] at hcount
  have hoption : ["-l"].map (expandText { s with lastExitCode := r.exitCode }) = ["-l"] :=
    congrArg (fun option => [option]) (expandText_of_notMem _ (by decide))
  have hsecond := (run_plain_builtin (s := { s with lastExitCode := r.exitCode }) (b := .wc)
    hwc hoption nested hcount).1
  rw [runPipeline, Shell.outcome_bind_of_ok hfirst, hsession, if_pos hsuccess, runPipeline]
  exact (Shell.outcome_bind_of_ok hsecond _).trans rfl

/-- The lines that the next command of a pipeline reads are those that a filter has selected, all
but the last where that is empty, and otherwise just these. So `head -n COUNT FILE | wc -l` counts
as many lines as are asked for and as there are, one less where the last of them is empty. -/
theorem filters_hand_on_lines (s : Session) (now : Timestamp) :
    (∀ b args filter files stdin sources, Builtin.Filters b args filter files →
      Builtin.Sources s b.name stdin files sources → filter.PlainLabels sources →
      ∃ r, (b.run args stdin).run now s = { outcome := .ok r, session := s } ∧ r.success = true ∧
        Text.lines r.text = Text.dropFinalEmpty (filter.select sources) ∧
        (Text.lines r.text = filter.select sources ↔
          (filter.select sources).getLast? ≠ some "")) ∧
    (∀ nested count file info content, s.aliases.contains "head" = false →
      s.aliases.contains "wc" = false → expandText s file = file →
      Builtin.countArgument? file [] = none →
      (Text.natText count).length ≤ Text.maxDigits →
      s.fileSystem.named? file = .ok (some (.file info content)) →
      ((runPipeline (runCommand (dispatch nested)) .ok none
          [{ word := "head", args := ["-n", Text.natText count, file] },
            { word := "wc", args := ["-l"] }]).run now s).outcome
        = .ok (.say (Text.padStart 8 (Text.natText
            (if ((Text.lines content).take count).getLast? = some ""
              then min count (Text.lines content).length - 1
              else min count (Text.lines content).length))))) := by
  constructor
  · intro b args filter files stdin sources hfilter hsources hlabels
    obtain ⟨r, hrun, hsuccess, hlines⟩ := Builtin.lines_of_filters hfilter hsources hlabels now
    refine ⟨r, hrun, hsuccess, hlines, ?_⟩
    rw [hlines]
    exact Text.dropFinalEmpty_eq_self_iff
  · intro nested count file info content hhead hwc hexpand hfile hcount hcontent
    have hnumber : '$' ∉ (Text.natText count).toList :=
      Text.notMem_intText (by decide) (by decide) count
    have hargs : ["-n", Text.natText count, file].map (expandText s)
        = ["-n", Text.natText count, file] := by
      rw [List.map_cons, List.map_cons, List.map_singleton, hexpand,
        expandText_of_notMem s hnumber, expandText_of_notMem s (by decide)]
    have hrows : (Builtin.LineFilter.head count).select [(file, content)]
        = (Text.lines content).take count := by
      simp [Builtin.LineFilter.select, Builtin.sourceText]
    have hcounts := counts_lines_of_filter (Builtin.filters_head_file hfile hcount)
      (Builtin.sources_file hcontent "head" none) trivial hhead hwc hargs nested now
    rw [hrows, Text.length_dropFinalEmpty, List.length_take] at hcounts
    exact hcounts

/-- Of a text, `uniq` hands on what it selects, empty lines in between included; and of a file with
one line that is not empty, `head` and `wc` count that line, however many are asked for. -/
theorem hands_on_and_counts_lines :
    let s := Builtin.freshSession
    (∃ r, ((Builtin.uniq.run [] (some "a\na\n\nb\n")).run .epoch s).outcome = .ok r ∧
      Text.lines r.text = ["a", "", "b"]) ∧
    ((runPipeline (runCommand (dispatch none)) .ok none
        [{ word := "head", args := ["-n", "3", "/etc/hostname"] },
          { word := "wc", args := ["-l"] }]).run .epoch s).outcome = .ok (.say "       1") := by
  intro s
  obtain ⟨hlines, hcounts⟩ := filters_hand_on_lines s .epoch
  constructor
  · obtain ⟨r, hrun, -, hread, -⟩ := hlines .uniq [] .uniq [] (some "a\na\n\nb\n")
      [("", "a\na\n\nb\n")] (.uniq (by decide)) (.input rfl) trivial
    exact ⟨r, congrArg Step.outcome hrun, hread⟩
  · have hcontent : (s.fileSystem.named? "/etc/hostname").toOption.join.bind Node.content?
        = some "memshell\n" := by decide +kernel
    obtain ⟨info, hfile⟩ := Node.exists_eq_file hcontent
    have hexpand : expandText s "/etc/hostname" = "/etc/hostname" :=
      expandText_of_notMem s (by decide)
    exact hcounts none 3 "/etc/hostname" info "memshell\n" rfl rfl hexpand (by decide) (by decide)
      hfile

/-- An empty line that is selected last is lost: `head` selects one, and `wc` counts none. -/
theorem loses_empty_last_line :
    let s := Builtin.freshSession
    let sources := [("", "\n")]
    Builtin.Filters .head ["-n", "1"] (.head 1) [] ∧
      Builtin.Sources s "head" (some "\n") [] sources ∧
      (Builtin.LineFilter.head 1).select sources = [""] ∧
      (∃ r, ((Builtin.head.run ["-n", "1"] (some "\n")).run .epoch s).outcome = .ok r ∧
        Text.lines r.text = []) ∧
      ((runPipeline (runCommand (dispatch none)) .ok (some "\n")
          [{ word := "head", args := ["-n", "1"] },
            { word := "wc", args := ["-l"] }]).run .epoch s).outcome.toOption.map Result.text
        = some "       0" := by
  have hcut : Builtin.readCut "head" 2 {} ["-n", "1"] = .ok (.ok { count := 1 }) := rfl
  have hfilter := @Builtin.Filters.head ["-n", "1"] { count := 1 } hcut
  exact ⟨hfilter, .input rfl, by decide, ⟨_, rfl, by decide⟩, by decide +kernel⟩

end Execution

end VirtualShell
