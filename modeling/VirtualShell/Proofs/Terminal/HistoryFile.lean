import VirtualShell.Builtin.Run
import VirtualShell.Proofs.Execution.OutputFile
import VirtualShell.Proofs.Session.Change
import VirtualShell.Proofs.Terminal.Place

/-!
# The history and its file

The lines of a history are written to a file of the session, one below the other, whenever a line is
taken up. A history that is opened later reads the file, and so does the command `history`. Both
read back what was written, because no line holds a line feed and none is blank: what stands between
the line feeds are the lines and an empty rest, which counts as blank (`entryLines_fileText`).

A history is ready to be written if its lines are of that kind and no more than its limit says
(`Ready`), and a session can keep it if its tree is whole, the home directory is there, and no
directory stands in the place of the file (`CanKeep`). Both hold again after each line, so the file
mirrors the history after each line of a run (`file_mirrors_history`).
-/

namespace VirtualShell.History

open Text

/-! ## Lines in a file -/

/-- A line that a history can hold. -/
structure IsEntry (line : String) : Prop where
  newline_notMem : '\n' ∉ line.toList
  not_blank : isBlankText line = false

/-- The lines of a history file are entries. -/
theorem isEntry_of_mem_entryLines {text line : String} (h : line ∈ Builtin.entryLines text) :
    IsEntry line := by
  obtain ⟨hfield, hblank⟩ := List.mem_filter.mp h
  rw [Bool.not_eq_true'] at hblank
  exact ⟨not_mem_of_mem_splitOn hfield, hblank⟩

/-- Lines that are written are read back. -/
theorem entryLines_joinWith {entries : List String} (hne : entries ≠ [])
    (h : ∀ line ∈ entries, IsEntry line) :
    Builtin.entryLines (joinWith "\n" entries ++ "\n") = entries := by
  have htext : joinWith "\n" entries ++ "\n" = joinWith "\n" (entries ++ [""]) := by
    rw [joinWith, joinWith, String.intercalate_append_of_ne_nil hne (List.cons_ne_nil _ _)]
    simp
  have hfields : ∀ field ∈ entries ++ [""], '\n' ∉ field.toList := by
    intro field hfield
    rcases List.mem_append.mp hfield with hentry | hrest
    · exact (h field hentry).newline_notMem
    · rw [List.mem_singleton.mp hrest]
      exact List.not_mem_nil
  have hsplit : splitOn '\n' (joinWith "\n" (entries ++ [""])) = entries ++ [""] :=
    splitOn_joinWith_of_notMem (List.append_ne_nil_of_left_ne_nil hne _) hfields
  have hkept : entries.filter (fun line => !isBlankText line) = entries :=
    List.filter_eq_self.mpr fun line hline => by rw [(h line hline).not_blank, Bool.not_false]
  rw [htext, Builtin.entryLines, hsplit, List.filter_append, hkept]
  exact List.append_nil entries

/-! ## As many lines as a limit says -/

section Limit

variable {limit : Int} {lines others : List String}

/-- As many lines as fit are all kept. -/
theorem keepLast_of_length_le (hlimit : 0 < limit) (h : lines.length ≤ limit) :
    keepLast limit lines = lines := by
  rw [keepLast_of_pos hlimit, Nat.sub_eq_zero_of_le (by omega), List.drop_zero]

/-- Where there are lines, some are kept. -/
theorem keepLast_ne_nil (hlimit : 0 < limit) (h : lines ≠ []) : keepLast limit lines ≠ [] := by
  have hlength := List.length_pos_iff.mpr h
  rw [← List.length_pos_iff, keepLast_of_pos hlimit, List.length_drop]
  omega

/-- Only lines that are there are kept. -/
theorem mem_of_mem_keepLast {line : String} (h : line ∈ keepLast limit lines) : line ∈ lines := by
  rw [keepLast] at h
  split at h <;> exact List.mem_of_mem_drop h

/-- The lines that are dropped first would be dropped in the end. -/
theorem keepLast_keepLast_append (hlimit : 0 < limit) (lines others : List String) :
    keepLast limit (keepLast limit lines ++ others) = keepLast limit (lines ++ others) := by
  simp only [keepLast_of_pos hlimit, List.length_append, List.length_drop]
  obtain hroom | hfull := Nat.le_total lines.length limit.toNat
  · rw [Nat.sub_eq_zero_of_le hroom, List.drop_zero, Nat.sub_zero]
  · have hdrop : (lines ++ others).drop (lines.length + others.length - limit.toNat)
        = ((lines ++ others).drop (lines.length - limit.toNat)).drop others.length := by
      rw [List.drop_drop]
      congr 1
      omega
    rw [hdrop, List.drop_append_of_le_length (Nat.sub_le _ _)]
    congr 1
    omega

end Limit

/-! ## Histories that can be written -/

/-- The lines of a history can be written and read back, and they are no more than its limit
says. -/
structure Ready (h : History) : Prop where
  limit_pos : 0 < h.limit
  isEntry : ∀ line ∈ h.entries, IsEntry line
  length_le : h.entries.length ≤ h.limit

variable {h : History} {s : Session} {now : Timestamp} {line : String}

/-- Going to the end leaves a history ready. -/
theorem Ready.toEnd (hready : h.Ready) : h.toEnd.Ready :=
  ⟨hready.limit_pos, hready.isEntry, hready.length_le⟩

/-- A further line is put behind the entries, of which the last ones are kept. -/
theorem Ready.entries_push (hready : h.Ready) (line : String) :
    (h.push line).entries = keepLast h.limit (h.entries ++ [line]) := by
  have hlimit := hready.limit_pos
  have hlength := hready.length_le
  have hpushed : (h.entries ++ [line]).length = h.entries.length + 1 := List.length_append
  rw [push, keepLast_of_pos hlimit]
  dsimp only
  split
  · rw [← List.drop_one]
    congr 1
    omega
  · rw [Nat.sub_eq_zero_of_le (by omega), List.drop_zero]

/-- A further entry leaves a history ready. -/
theorem Ready.push (hready : h.Ready) (hline : IsEntry line) : (h.push line).Ready := by
  refine ⟨hready.limit_pos, fun other hother => ?_, ?_⟩
  · rw [hready.entries_push] at hother
    rcases List.mem_append.mp (mem_of_mem_keepLast hother) with hold | hnew
    · exact hready.isEntry other hold
    · exact List.mem_singleton.mp hnew ▸ hline
  · rw [hready.entries_push]
    exact length_keepLast_le hready.limit_pos _

/-- So does a new text of the file. -/
theorem Ready.withFileText (hready : h.Ready) (text : String) : (h.withFileText text).Ready := by
  rw [History.withFileText]
  split
  · exact hready
  · refine ⟨hready.limit_pos, fun line hline => ?_, length_keepLast_le hready.limit_pos _⟩
    exact isEntry_of_mem_entryLines (mem_of_mem_keepLast hline)

/-- The text of the file shows the entries. -/
theorem Ready.entryLines_fileText (hready : h.Ready) (hne : h.entries ≠ []) :
    h.fileText ≠ "" ∧ Builtin.entryLines h.fileText = h.entries := by
  have htext : h.fileText = joinWith "\n" h.entries ++ "\n" := by
    rw [fileText, List.isEmpty_eq_false_iff.mpr hne, if_neg (by decide)]
  have hread : Builtin.entryLines h.fileText = h.entries :=
    htext ▸ entryLines_joinWith hne hready.isEntry
  refine ⟨fun hempty => ?_, hread⟩
  rw [hempty] at hread
  exact hne hread.symm

/-! ## Sessions that can keep a history -/

/-- A tree in which the file of the history can be written. -/
structure CanKeep (root : Node) : Prop where
  whole : root.Whole
  home : root.HasDirectory Path.home
  not_directory : ¬ root.HasDirectory Builtin.historyFile

/-- The file of the history in a tree holds its lines. -/
def Mirrors (root : Node) (h : History) : Prop :=
  ∃ info, root.at? Builtin.historyFile = some (.file info h.fileText)

/-- Where the history can be kept, its file can be written. -/
theorem CanKeep.not_refused {root : Node} (hroot : CanKeep root) (text : String) :
    ¬ (FileSystem.Edit.writeFile Builtin.historyFile text).Refused root.sightAt := by
  rintro (hpath | hdir | ⟨-, hhome⟩)
  · exact absurd hpath (by decide)
  · obtain ⟨info, entries, hat⟩ := (Node.isDirectory_sightAt_iff hroot.whole _).mp hdir
    exact hroot.not_directory ⟨_, hat, rfl⟩
  · exact hhome hroot.home.sightAt

/-- Where a file has been written, its content is found. -/
theorem at?_of_writesFile {root : Node} {m : Sights} {path : Path} {content : String}
    (h : Sights.WritesFile now m root.sightAt path content) :
    ∃ info, root.at? path = some (.file info content) := by
  let found : Except TreeFault (Option Node) := .ok (root.at? path)
  have hcontent : found.toOption.join.bind Node.content? = some content := by
    change (root.at? path).bind Node.content? = some content
    rw [← Node.content?_sightAt]
    rcases h.file with ⟨info, old, -, hfile⟩ | ⟨-, hfile⟩ <;> rw [hfile] <;> rfl
  obtain ⟨info, hfound⟩ := Node.exists_eq_file hcontent
  exact ⟨info, Except.ok.inj hfound⟩

/-- A directory that the written file is not in front of is still there. -/
theorem hasDirectory_of_writesFile {root root' : Node} {path place : Path} {content : String}
    (h : Sights.WritesFile now root.sightAt root'.sightAt path content) (hwhole : root'.Whole)
    (hplace : ¬ path <+: place) (hdir : root.HasDirectory place) : root'.HasDirectory place := by
  have hsight : (root'.sightAt place).isDirectory = true := by
    have hbefore := hdir.sightAt
    rcases h.elsewhere place hplace with heq | ⟨heq, -⟩
    · rw [heq, hbefore]
    · rw [heq]
      cases hold : root.sightAt place <;> simp_all [Sight.touch, Sight.isDirectory]
  obtain ⟨info, entries, hat⟩ := (Node.isDirectory_sightAt_iff hwhole place).mp hsight
  exact ⟨_, hat, rfl⟩

/-- The file is written, and can be written again. -/
theorem run_save (hs : CanKeep s.fileSystem.root) (h : History) (now : Timestamp) :
    ∃ root, h.save.run now s
        = { outcome := .ok (), session := { s with fileSystem := { s.fileSystem with root } } } ∧
      CanKeep root ∧ Mirrors root h := by
  rcases Execution.run_writeFile now hs.whole Builtin.historyFile h.fileText with
    ⟨hrefused, -⟩ | ⟨hplace, root, hrun, hwhole, hsights⟩
  · exact absurd hrefused (hs.not_refused _)
  have hwrites : Sights.WritesFile now _ _ _ _ := Node.writesFile_update hplace
  rw [← hsights] at hwrites
  obtain ⟨info, hfile⟩ := at?_of_writesFile hwrites
  refine ⟨root, ?_, ⟨hwhole, ?_, ?_⟩, info, hfile⟩
  · rw [save, Shell.run_bind_of_run hrun]
    rfl
  · exact hasDirectory_of_writesFile hwrites hwhole (by decide) hs.home
  · rintro ⟨d, hd, hdir⟩
    rw [hfile] at hd
    cases hd
    cases hdir

/-! ## Taking up lines -/

/-- A blank line is not recorded. -/
theorem run_record_of_blank (hblank : isBlankText line = true) (h : History) (now : Timestamp)
    (s : Session) :
    (h.record line).run now s = { outcome := .ok (h.toEnd, none), session := s } := by
  rw [record, if_pos hblank]
  rfl

/-- A line that is not blank is taken up, and the file mirrors the history. -/
theorem run_record (hs : CanKeep s.fileSystem.root) (hblank : isBlankText line = false)
    (h : History) (now : Timestamp) :
    ∃ root, (h.record line).run now s
        = { outcome := .ok ((h.push line).toEnd, none)
            session := { s with fileSystem := { s.fileSystem with root } } } ∧
      CanKeep root ∧ Mirrors root (h.push line) := by
  obtain ⟨root, hrun, hroot, hmirrors⟩ := run_save hs (h.push line) now
  refine ⟨root, ?_, hroot, hmirrors⟩
  have hattempt : (Shell.attempt (h.push line).save).run now s
      = { outcome := .ok (.ok ()),
          session := { s with fileSystem := { s.fileSystem with root } } } := by
    rw [Shell.run] at hrun
    rw [Shell.run, Shell.attempt, hrun]
  rw [record, if_neg (by rw [hblank]; decide)]
  dsimp only
  rw [Shell.run_bind_of_run hattempt]
  rfl

/-- Takes up lines one after another, each at its own time, unless one of them meets a fault. -/
def recordAll (h : History) (s : Session) :
    List (Timestamp × String) → Except Fault (History × Session)
  | [] => .ok (h, s)
  | (now, line) :: rest =>
    let step := (h.record line).run now s
    match step.outcome with
    | .ok (h', none) => recordAll h' step.session rest
    | .ok (_, some fault) => .error fault
    | .error fault => .error fault

/-- The lines of some calls that are not blank. -/
def entered (calls : List (Timestamp × String)) : List String :=
  (calls.map Prod.snd).filter fun line => !isBlankText line

/-- The lines that are entered are those that are not blank, in order. -/
theorem entered_cons (now : Timestamp) (line : String) (calls : List (Timestamp × String)) :
    entered ((now, line) :: calls)
      = if isBlankText line then entered calls else line :: entered calls := by
  rw [entered, List.map_cons, List.filter_cons]
  cases isBlankText line <;> rfl

variable {h' : History} {s' : Session} {calls : List (Timestamp × String)}

/-- Recording several lines is recording the first and then the others. -/
theorem recordAll_cons_of_run
    (hrun : (h.record line).run now s = { outcome := .ok (h', none), session := s' })
    (calls : List (Timestamp × String)) :
    recordAll h s ((now, line) :: calls) = recordAll h' s' calls := by
  rw [recordAll, hrun]

/-- Lines without line feeds are all taken up, and the last of them are kept. Once one has been that
is not blank, the file mirrors the history. -/
theorem run_recordAll (hs : CanKeep s.fileSystem.root) (hready : h.Ready)
    (hcalls : ∀ call ∈ calls, '\n' ∉ call.2.toList) :
    ∃ h' s', recordAll h s calls = .ok (h', s') ∧ CanKeep s'.fileSystem.root ∧ h'.Ready ∧
      h'.limit = h.limit ∧ h'.entries = keepLast h.limit (h.entries ++ entered calls) ∧
      (Mirrors s.fileSystem.root h ∨ entered calls ≠ [] → Mirrors s'.fileSystem.root h') := by
  induction calls generalizing h s with
  | nil =>
    refine ⟨h, s, rfl, hs, hready, rfl, ?_, fun hfile => hfile.resolve_right fun hne => hne rfl⟩
    rw [entered, List.map_nil, List.filter_nil, List.append_nil,
      keepLast_of_length_le hready.limit_pos hready.length_le]
  | cons call calls ih =>
    obtain ⟨now, line⟩ := call
    obtain ⟨hline, hcalls⟩ := List.forall_mem_cons.mp hcalls
    rw [entered_cons]
    cases hblank : isBlankText line with
    | true =>
      rw [recordAll_cons_of_run (run_record_of_blank hblank h now s)]
      exact ih hs hready.toEnd hcalls
    | false =>
      obtain ⟨root, hrun, hroot, hmirrors⟩ := run_record hs hblank h now
      obtain ⟨h', s', hrest, hs', hready', hlimit, hentries, hfile⟩ :=
        ih (s := { s with fileSystem := { s.fileSystem with root } }) hroot
          (hready.push ⟨hline, hblank⟩).toEnd hcalls
      refine ⟨h', s', ?_, hs', hready', hlimit, ?_, fun _ => hfile (.inl hmirrors)⟩
      · rw [recordAll_cons_of_run hrun, hrest]
      · change h'.entries = keepLast h.limit ((h.push line).entries ++ entered calls) at hentries
        rw [hentries, hready.entries_push, keepLast_keepLast_append hready.limit_pos,
          List.append_assoc]
        rfl

/-! ## Reading the file -/

/-- The lines with their numbers, as they are shown. -/
def numbered (entries : List String) : List String :=
  (entries.zipIdx 1).map fun (line, n) => padStart 4 (natText n) ++ "  " ++ line

/-- The entries are shown in order, with their numbers from one. -/
theorem numbered_eq (entries : List String) : numbered entries
    = entries.zipIdx.map fun (line, i) => padStart 4 (natText (i + 1)) ++ "  " ++ line := by
  have hmoved : entries.zipIdx 1 = entries.zipIdx.map fun m => (m.1, 1 + m.2) :=
    List.zipIdx_eq_map_add
  rw [numbered, hmoved, List.map_map]
  simp only [Function.comp_def, Nat.add_comm]

/-- A session that can keep a history can be asked for it. -/
theorem exists_run_load (hs : CanKeep s.fileSystem.root) {limit : Int} (hlimit : 0 < limit)
    (now : Timestamp) :
    ∃ h, (load { limit }).run now s = { outcome := .ok h, session := s } ∧ h.Ready ∧
      h.limit = limit := by
  have hempty : History.Ready { limit } := ⟨hlimit, nofun, Int.le_of_lt hlimit⟩
  rw [run_load, FileSystem.node?_eq hs.whole]
  cases hat : s.fileSystem.root.at? Builtin.historyFile with
  | none => exact ⟨_, rfl, hempty.toEnd, rfl⟩
  | some n =>
    cases n with
    | file info content =>
      refine ⟨_, rfl, (hempty.withFileText content).toEnd, ?_⟩
      rw [toEnd, withFileText]
      split <;> rfl
    | directory | hollow => exact absurd ⟨_, hat, rfl⟩ hs.not_directory

/-- A history that is opened on its file is the one that has written it, behind its last line. -/
theorem Ready.run_load (hready : h.Ready) (hne : h.entries ≠ []) (hs : s.fileSystem.root.Whole)
    (hmirrors : Mirrors s.fileSystem.root h) (now : Timestamp) :
    (load { limit := h.limit }).run now s = { outcome := .ok h.toEnd, session := s } := by
  obtain ⟨info, hfile⟩ := hmirrors
  obtain ⟨hnonempty, hread⟩ := hready.entryLines_fileText hne
  rw [History.run_load, FileSystem.node?_eq hs, hfile]
  dsimp only
  rw [History.withFileText, if_neg hnonempty, hread,
    keepLast_of_length_le hready.limit_pos hready.length_le]
  rfl

/-- The command shows the lines that are written in the file. -/
theorem Ready.run_history (hready : h.Ready) (hne : h.entries ≠ [])
    (hs : s.fileSystem.root.Whole) (hmirrors : Mirrors s.fileSystem.root h) (now : Timestamp)
    (args : List String) (stdin : Option String) :
    (Builtin.history.run args stdin).run now s
      = { outcome := .ok (.say (joinWith "\n" (numbered h.entries))), session := s } := by
  obtain ⟨info, hfile⟩ := hmirrors
  obtain ⟨hnonempty, hread⟩ := hready.entryLines_fileText hne
  rw [Builtin.run, Builtin.runHistory]
  unfold Shell.query Shell.run
  dsimp only
  rw [FileSystem.node?_eq hs, hfile]
  dsimp only [Except.mapError, bind, Except.bind]
  rw [if_neg hnonempty, hread, numbered_eq]
  rfl

/-- A history is opened in a session that can keep it and takes up lines without line feeds, blank
or not. Nothing breaks off, and the last lines that are not blank are kept, as many as the limit
says. From the first of them on, hence right after each of them, a history that is opened anew has
the same lines, and the command `history` shows just these, numbered from one. -/
theorem file_mirrors_history {s : Session} (hs : s.fileSystem.Sound)
    (hhome : s.fileSystem.root.HasDirectory Path.home)
    (hfile : ¬ s.fileSystem.root.HasDirectory Builtin.historyFile) {limit : Int}
    (hlimit : 1 ≤ limit) {calls : List (Timestamp × String)}
    (hcalls : ∀ call ∈ calls, '\n' ∉ call.2.toList) (hentered : entered calls ≠ [])
    (start : Timestamp) :
    ∃ h₀ h s', (load { limit }).run start s = { outcome := .ok h₀, session := s } ∧
      recordAll h₀ s calls = .ok (h, s') ∧
      h.entries = keepLast limit (h₀.entries ++ entered calls) ∧
      ∀ later args stdin,
        (load { limit }).run later s' = { outcome := .ok h.toEnd, session := s' } ∧
        (Builtin.history.run args stdin).run later s'
          = { outcome := .ok (.say (joinWith "\n" (numbered h.entries))), session := s' } := by
  have hkeep : CanKeep s.fileSystem.root := ⟨hs.whole, hhome, hfile⟩
  obtain ⟨h₀, hload, hready₀, rfl⟩ := exists_run_load hkeep hlimit start
  obtain ⟨h, s', hrun, hs', hready, hlimit', hentries, hmirrors⟩ :=
    run_recordAll hkeep hready₀ hcalls
  have hwritten : Mirrors s'.fileSystem.root h := hmirrors (.inr hentered)
  have hne : h.entries ≠ [] := by
    rw [hentries]
    exact keepLast_ne_nil hlimit (List.append_ne_nil_of_right_ne_nil _ hentered)
  refine ⟨h₀, h, s', hload, hrun, hentries, fun later args stdin => ⟨?_, ?_⟩⟩
  · rw [← hlimit']
    exact hready.run_load hne hs'.whole hwritten later
  · exact hready.run_history hne hs'.whole hwritten later args stdin

/-- Behind the line that is found, a line, a blank one and a second line: there is room for two. -/
theorem file_mirrors_two_lines :
    let s := rememberingSession
    let calls : List (Timestamp × String) := [(.epoch, "cd /"), (.epoch, " "), (.epoch, "pwd")]
    (s.fileSystem.Sound ∧ s.fileSystem.root.HasDirectory Path.home ∧
        ¬ s.fileSystem.root.HasDirectory Builtin.historyFile ∧ (1 : Int) ≤ 2 ∧
        (∀ call ∈ calls, '\n' ∉ call.2.toList) ∧ entered calls ≠ []) ∧
      ∃ h s', recordAll { limit := 2, entries := ["ls"], position := 1 } s calls = .ok (h, s') ∧
        h.entries = ["cd /", "pwd"] ∧
        (load { limit := 2 }).run .epoch s' = { outcome := .ok h.toEnd, session := s' } ∧
        (Builtin.history.run [] none).run .epoch s'
          = { outcome := .ok (.say "   1  cd /\n   2  pwd"), session := s' } := by
  intro s calls
  have hsound : s.fileSystem.Sound :=
    ⟨rfl, Node.everywhere_of_decide (by decide), ⟨_, rfl, rfl⟩⟩
  have hhome : s.fileSystem.root.HasDirectory Path.home := ⟨_, rfl, rfl⟩
  have hfile : ¬ s.fileSystem.root.HasDirectory Builtin.historyFile := by
    rintro ⟨d, hd, hdir⟩
    cases hd
    cases hdir
  have hcalls : ∀ call ∈ calls, '\n' ∉ call.2.toList := by
    simp only [calls, List.forall_mem_cons]
    exact ⟨by decide, by decide, by decide, nofun⟩
  have hentered : entered calls ≠ [] := by decide
  have hlimit : (1 : Int) ≤ 2 := by decide
  obtain ⟨h₀, h, s', hload, hrun, hentries, hlater⟩ :=
    file_mirrors_history hsound hhome hfile hlimit hcalls hentered .epoch
  obtain ⟨hreload, hshown⟩ := hlater .epoch [] none
  have hfound : h₀ = { limit := 2, entries := ["ls"], position := 1 } := by
    have hvalue := congrArg Step.outcome hload
    exact (Except.ok.inj hvalue).symm
  subst hfound
  have hkept : h.entries = ["cd /", "pwd"] := hentries.trans (by decide)
  have hrows : joinWith "\n" (numbered ["cd /", "pwd"]) = "   1  cd /\n   2  pwd" := by decide
  rw [hkept, hrows] at hshown
  exact ⟨⟨hsound, hhome, hfile, hlimit, hcalls, hentered⟩, h, s', hrun, hkept, hreload, hshown⟩

end VirtualShell.History
