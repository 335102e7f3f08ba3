import VirtualShell.Execution
import VirtualShell.Proofs.Builtin.Limits
import VirtualShell.Proofs.Result
import VirtualShell.Proofs.Session.WholeTree

/-!
# Output is sent to one file or nowhere

A redirection looks at its target, asks the limits, and only then writes, so that a mistake leaves
no trace (`run_redirectOutput`). What is written is the text of the command, behind what the file
held if it is appended to it (`Receives`); in the map that the tree is seen as, one file has a new
content (`WritesFile`).

A file that is made changes how the walks behind its path end. Before, a name was missing on their
way; afterwards, a file is in their way. They lead to no node before or after.
-/

namespace VirtualShell

/-- The content of a file that is seen. -/
def Sight.content? : Sight → Option String
  | .file _ content => some content
  | _ => none

namespace Sights

variable {m : Sights} {now : Timestamp} {path place q : Path} {name content : String}

/-- One file has been written in a map, and nothing else. -/
structure WritesFile (now : Timestamp) (m m' : Sights) (path : Path) (content : String) :
    Prop where
  /-- The file was there and has been changed now, or is new. -/
  file : (∃ info old, m path = .file info old ∧
      m' path = .file { info with modifiedAt := now } content) ∨
    (m path).isNode = false ∧ m' path = .newFile now (path.getLast?.getD "") content
  /-- No node was behind it, and none is; if it was there, it was in the way before. -/
  below : ∀ q, path <+: q → q ≠ path → (m q).isNode = false ∧ m' q = .notADirectory ∧
    ((m path).isNode = true → m q = .notADirectory)
  /-- Elsewhere all is as before; only the directory of a new file was changed now. -/
  elsewhere : ∀ q, ¬ path <+: q → m' q = m q ∨
    m' q = (m q).touch now ∧ q = path.dropLast ∧ (m path).isNode = false

/-- At its path there is the new file. -/
theorem fileMade_self : FileSystem.Edit.fileMade now place name content m (place ++ [name])
    = .newFile now name content :=
  if_pos rfl

/-- Below it there is no directory to go through. -/
theorem fileMade_below (hq : place ++ [name] <+: q) (hne : q ≠ place ++ [name]) :
    FileSystem.Edit.fileMade now place name content m q = .notADirectory := by
  rw [FileSystem.Edit.fileMade, replace, if_neg hne, if_pos hq]

/-- Elsewhere only the time of the directory is new. -/
theorem fileMade_of_not_isPrefix (hq : ¬ place ++ [name] <+: q) :
    FileSystem.Edit.fileMade now place name content m q = m.stamp now place q := by
  have hne : q ≠ place ++ [name] := fun h => hq (h ▸ List.prefix_rfl)
  rw [FileSystem.Edit.fileMade, replace, if_neg hne, if_neg hq]

end Sights

namespace Node

variable {n : Node} {now : Timestamp} {path : Path}

/-- The content that is seen of a node is that of the node. -/
theorem content?_sightAt (n : Node) (path : Path) :
    (n.sightAt path).content? = (n.at? path).bind Node.content? := by
  cases hat : n.at? path with
  | some d =>
    rw [sightAt_of_at? hat]
    cases d <;> rfl
  | none =>
    have hnode := isNode_sightAt n path
    rw [hat] at hnode
    cases hsight : n.sightAt path with
    | file info content =>
      rw [hsight] at hnode
      cases hnode
    | directory info => rfl
    | missing => rfl
    | notADirectory => rfl

/-- Writing a file that is there writes just this file. -/
theorem writesFile_of_file {info : NodeInfo} {old : String}
    (hat : n.at? path = some (.file info old)) (content : String) :
    Sights.WritesFile now n.sightAt
      (FileSystem.Edit.update now n.sightAt (.writeFile path content)) path content := by
  have hsight : n.sightAt path = .file info old := sightAt_of_at? hat
  -- The file is in the way of all walks behind it, before and after.
  have hway (q : Path) (hq : path <+: q) (hne : q ≠ path) : n.sightAt q = .notADirectory := by
    obtain ⟨rest, rfl⟩ := hq
    cases rest with
    | nil => exact absurd (List.append_nil path) hne
    | cons name rest =>
      rw [sightAt_append hat]
      rfl
  rw [FileSystem.Edit.update, hsight]
  refine ⟨.inl ⟨info, old, hsight, Function.update_self ..⟩, fun q hq hne => ?_,
    fun q hq => .inl ?_⟩
  · have hbehind := hway q hq hne
    exact ⟨by rw [hbehind]; rfl, (Function.update_of_ne hne _ _).trans hbehind, fun _ => hbehind⟩
  · have hne : q ≠ path := fun heq => hq (heq ▸ List.prefix_rfl)
    exact Function.update_of_ne hne _ _

/-- So does writing a file that is not there yet. -/
theorem writesFile_of_missing (hroot : path ≠ []) (hat : n.at? path = none) (content : String) :
    Sights.WritesFile now n.sightAt
      (FileSystem.Edit.update now n.sightAt (.writeFile path content)) path content := by
  have hnode : (n.sightAt path).isNode = false := by
    rw [isNode_sightAt, hat]
    rfl
  rw [FileSystem.Edit.update_writeFile_of_missing now hnode]
  obtain rfl | ⟨place, name, rfl⟩ := List.eq_nil_or_concat' path
  · exact absurd rfl hroot
  rw [List.dropLast_concat, List.getLast?_concat, Option.getD_some]
  refine ⟨.inr ⟨hnode, ?_⟩, fun q hq hne => ?_, fun q hq => ?_⟩
  · rw [Sights.fileMade_self, List.getLast?_concat, Option.getD_some]
  · refine ⟨isNode_sightAt_of_isPrefix hat hq, Sights.fileMade_below hq hne, fun htrue => ?_⟩
    rw [hnode] at htrue
    cases htrue
  · rw [Sights.fileMade_of_not_isPrefix hq, Sights.stamp, List.dropLast_concat]
    by_cases hplace : q = place
    · subst hplace
      exact .inr ⟨Function.update_self .., rfl, hnode⟩
    · exact .inl (Function.update_of_ne hplace _ _)

/-- A write that is not refused writes one file. -/
theorem writesFile_update {content : String}
    (h : ¬ (FileSystem.Edit.writeFile path content).Refused n.sightAt) :
    Sights.WritesFile now n.sightAt
      (FileSystem.Edit.update now n.sightAt (.writeFile path content)) path content := by
  rw [FileSystem.Edit.Refused, not_or, not_or] at h
  obtain ⟨hroot, hdir, -⟩ := h
  cases hat : n.at? path with
  | none => exact writesFile_of_missing hroot hat content
  | some d =>
    cases d with
    | file info old => exact writesFile_of_file hat content
    | directory info entries => exact absurd (HasDirectory.sightAt ⟨_, hat, rfl⟩) hdir
    | hollow info => exact absurd (HasDirectory.sightAt ⟨_, hat, rfl⟩) hdir

end Node

namespace Execution

open Shell

variable {s : Session} {now : Timestamp} {r : Result} {path : Path} {append : Bool}
  {text content : String}

/-! ## What a file receives -/

/-- What is in a file after a text has been sent to it, by what was seen at its path before. -/
inductive Receives (append : Bool) (before : Sight) (text : String) : String → Prop
  /-- There is nothing to append to, and the file holds the text alone. -/
  | alone : append = false ∨ before.isNode = false ∨ (∃ info, before = .file info "") →
      Receives append before text text
  /-- The text follows the last line of the file. -/
  | behindLine {info : NodeInfo} {old : String} : append = true → before = .file info old →
      old.toList.getLast? = some '\n' → Receives append before text (old ++ text)
  /-- The last line of the file has no end, and gets one before the text. -/
  | behindOpenLine {info : NodeInfo} {old : String} : append = true → before = .file info old →
      old ≠ "" → old.toList.getLast? ≠ some '\n' → Receives append before text (old ++ "\n" ++ text)

/-- Appending to a text starts a new line unless one has been started. -/
theorem newContent_of_ne_empty {old : String} (h : old ≠ "") :
    newContent true (some old) text
      = if old.toList.getLast? = some '\n' then old ++ text else old ++ "\n" ++ text := by
  have hold : (old != "") = true := bne_iff_ne.mpr h
  simp only [newContent, hold, Bool.and_self, if_true, Text.hasEnd_newline_iff]
  split
  · rw [String.append_empty]
  · rfl

/-- What a file receives is its new content. -/
theorem receives_iff {before : Sight} (h : before.isDirectory = false) :
    Receives append before text content ↔ content = newContent append before.content? text := by
  constructor
  · intro hreceives
    cases hreceives with
    | alone hcase =>
      rcases hcase with rfl | hnode | ⟨info, rfl⟩
      · cases before <;> rfl
      · cases before with
        | file info old => cases hnode
        | directory info => cases hnode
        | missing => rfl
        | notADirectory => rfl
      · cases append <;> rfl
    | @behindLine info old happend hbefore hlast =>
      subst happend hbefore
      have hold : old ≠ "" := fun hempty => by
        rw [hempty] at hlast
        cases hlast
      exact ((newContent_of_ne_empty hold).trans (if_pos hlast)).symm
    | behindOpenLine happend hbefore hold hlast =>
      subst happend hbefore
      exact ((newContent_of_ne_empty hold).trans (if_neg hlast)).symm
  · rintro rfl
    cases before with
    | directory info => cases h
    | missing => exact .alone (.inr (.inl rfl))
    | notADirectory => exact .alone (.inr (.inl rfl))
    | file info old =>
      cases append with
      | false => exact .alone (.inl rfl)
      | true =>
        by_cases hold : old = ""
        · subst hold
          exact .alone (.inr (.inr ⟨info, rfl⟩))
        · rw [Sight.content?, newContent_of_ne_empty hold]
          split
          · rename_i hlast
            exact .behindLine rfl rfl hlast
          · rename_i hlast
            exact .behindOpenLine rfl rfl hold hlast

/-! ## One file or nothing -/

/-- A text can be sent to a path: a file can be written there, and with what it receives it breaks
no limit. -/
structure CanSend (fs : FileSystem) (m : Sights) (append : Bool) (text : String) (path : Path) :
    Prop where
  place : ¬ (FileSystem.Edit.writeFile path text).Refused m
  room : ∀ node content, fs.node? path = .ok node → Receives append (m path) text content →
    Limits.check fs path content.length node = .ok none

/-- Output can be sent where the edit is not refused and no limit would be exceeded. -/
theorem canSend_iff (hs : s.fileSystem.Sound) :
    CanSend s.fileSystem s.fileSystem.root.sightAt append text path ↔
      ¬ (FileSystem.Edit.writeFile path text).Refused s.fileSystem.root.sightAt ∧
        Limits.excess? s.fileSystem path
          (newContent append ((s.fileSystem.root.at? path).bind Node.content?) text).length
          (s.fileSystem.root.at? path) = none := by
  have hreceives (hplace : ¬ (FileSystem.Edit.writeFile path text).Refused
      s.fileSystem.root.sightAt) (content : String) :
      Receives append (s.fileSystem.root.sightAt path) text content ↔
        content = newContent append ((s.fileSystem.root.at? path).bind Node.content?) text := by
    rw [FileSystem.Edit.Refused, not_or, not_or, Bool.not_eq_true] at hplace
    rw [receives_iff hplace.2.1, Node.content?_sightAt]
  constructor
  · rintro ⟨hplace, hroom⟩
    have hcheck := hroom _ _ (hs.node?_eq path) ((hreceives hplace _).mpr rfl)
    rw [Limits.check_eq hs.whole] at hcheck
    exact ⟨hplace, Except.ok.inj hcheck⟩
  · rintro ⟨hplace, hexcess⟩
    refine ⟨hplace, fun node content hnode hcontent => ?_⟩
    rw [hs.node?_eq] at hnode
    cases hnode
    rw [(hreceives hplace _).mp hcontent, Limits.check_eq hs.whole, hexcess]

/-- Checking the limits answers without a change. -/
theorem run_check (h : s.fileSystem.root.Whole) (path : Path) (length : Nat)
    (existing : Option Node) :
    (Shell.ofExcept ((Limits.check s.fileSystem path length existing).mapError Fault.tree)).run
        now s
      = { outcome := .ok (Limits.excess? s.fileSystem path length existing), session := s } := by
  rw [Limits.check_eq h]
  rfl

/-- Writing a file is the edit of the tree, or is refused and changes nothing. -/
theorem run_writeFile (now : Timestamp) (h : s.fileSystem.root.Whole) (path : Path)
    (content : String) :
    let e := FileSystem.Edit.writeFile path content
    let step := (changeTree fun now fs => fs.writeFile now path content).run now s
    e.Refused s.fileSystem.root.sightAt ∧ step = { outcome := .ok false, session := s } ∨
      ¬ e.Refused s.fileSystem.root.sightAt ∧ ∃ root : Node,
        step = { outcome := .ok true,
                 session := { s with fileSystem := { s.fileSystem with root } } } ∧
          root.Whole ∧ root.sightAt = e.update now s.fileSystem.root.sightAt := by
  intro e step
  by_cases hrefused : e.Refused s.fileSystem.root.sightAt
  · exact .inl ⟨hrefused, run_changeTree_of_refused h hrefused⟩
  · exact .inr ⟨hrefused, run_changeTree_of_not_refused h hrefused⟩

/-- A redirection writes the file, or it has a message and changes nothing. -/
theorem run_redirectOutput (now : Timestamp) (hs : s.fileSystem.Sound) (hr : r.success = true)
    (redirect : OutputRedirect) :
    let path := s.fileSystem.resolve redirect.target
    let m := s.fileSystem.root.sightAt
    let step := (redirectOutput redirect r).run now s
    (CanSend s.fileSystem m redirect.append r.text path ∧ ∃ (root : Node) (content : String),
      step = { outcome := .ok { exitCode := r.exitCode, action := r.action },
               session := { s with fileSystem := { s.fileSystem with root } } } ∧
        root.Whole ∧ Receives redirect.append (m path) r.text content ∧
        Sights.WritesFile now m root.sightAt path content) ∨
    ¬ CanSend s.fileSystem m redirect.append r.text path ∧
      ∃ message, step = { outcome := .ok (.fail message), session := s } := by
  intro path m step
  have hpath : s.fileSystem.resolve redirect.target = path := rfl
  have hstep : step = (redirectOutput redirect r).run now s := rfl
  rw [redirectOutput, hr, if_neg (by decide), run_session_bind,
    run_bind_of_run (run_node? hs.whole _)] at hstep
  dsimp only at hstep
  rw [canSend_iff hs]
  rw [hpath] at hstep
  clear_value step path
  by_cases hdir : (path.isEmpty || (s.fileSystem.root.at? path).any Node.isDirectory) = true
  · -- No file can be written in the place of a directory.
    rw [if_pos hdir] at hstep
    refine .inr ⟨fun hcan => hcan.1 ?_, _, hstep⟩
    rw [Bool.or_eq_true, List.isEmpty_iff, Option.any_eq_true] at hdir
    exact hdir.imp id fun hd => .inl (Node.HasDirectory.sightAt hd)
  rw [if_neg hdir, run_bind_of_run (run_check hs.whole path _ _)] at hstep
  have hreceives (hplace : ¬ (FileSystem.Edit.writeFile path r.text).Refused m) :
      Receives redirect.append (m path) r.text
        (newContent redirect.append ((s.fileSystem.root.at? path).bind Node.content?) r.text) := by
    rw [receives_iff, Node.content?_sightAt]
    exact Bool.eq_false_iff.mpr fun hd => hplace (.inr (.inl hd))
  generalize newContent redirect.append ((s.fileSystem.root.at? path).bind Node.content?) r.text
    = content at hstep hreceives ⊢
  cases hexcess : Limits.excess? s.fileSystem path content.length (s.fileSystem.root.at? path) with
  | some excess =>
    rw [hexcess] at hstep
    exact .inr ⟨fun hcan => absurd hcan.2 (Option.some_ne_none _), _, hstep⟩
  | none =>
    rw [hexcess] at hstep
    dsimp only at hstep
    rcases run_writeFile now hs.whole path content with
      ⟨hrefused, hrun⟩ | ⟨hplace, root, hrun, hwhole, hsights⟩
    · rw [run_bind_of_run hrun] at hstep
      exact .inr ⟨fun hcan => hcan.1 hrefused, _, hstep⟩
    · rw [run_bind_of_run hrun] at hstep
      exact .inl ⟨⟨hplace, rfl⟩, root, content, hstep, hwhole, hreceives hplace,
        hsights ▸ Node.writesFile_update hplace⟩

/-- Output is sent to one file or nowhere. In a sound file system, a redirection of the output of a
command that went well returns. It succeeds just where the text can be sent to the path that its
target names. Then there is a file at this path, with the text in it, behind what was there before
if it is appended; the walks behind the path led to no node and lead to none, the file being in the
way; along every other path the same is seen as before, but that the directory in which a new file
stands was changed now; and only the tree of the session is another. Where it fails, the session is
the same as before. -/
theorem sends_to_one_file_or_nowhere (hs : s.fileSystem.Sound) (hr : r.success = true)
    (redirect : OutputRedirect) (now : Timestamp) :
    let path := s.fileSystem.resolve redirect.target
    let step := (redirectOutput redirect r).run now s
    ∃ m r', s.fileSystem.Shows m ∧ step.outcome = .ok r' ∧
      (r'.success = true ↔ CanSend s.fileSystem m redirect.append r.text path) ∧
      (r'.success = true → ∃ m' root content,
        step.session = { s with fileSystem := { s.fileSystem with root } } ∧
          step.session.fileSystem.Shows m' ∧
          Receives redirect.append (m path) r.text content ∧
          Sights.WritesFile now m m' path content) ∧
      (r'.success = false → step.session = s) := by
  intro path step
  refine ⟨s.fileSystem.root.sightAt, ?_⟩
  rcases run_redirectOutput now hs hr redirect with
    ⟨hcan, root, content, hstep, hwhole, hreceives, hwrites⟩ | ⟨hcannot, message, hstep⟩
  · have hsession : step.session = { s with fileSystem := { s.fileSystem with root } } :=
      congrArg Step.session hstep
    refine ⟨_, FileSystem.shows_of_whole hs.whole, congrArg Step.outcome hstep,
      iff_of_true rfl hcan, fun _ => ?_, nofun⟩
    refine ⟨root.sightAt, root, content, hsession, ?_, hreceives, hwrites⟩
    rw [hsession]
    exact FileSystem.shows_of_whole hwhole
  · exact ⟨_, FileSystem.shows_of_whole hs.whole, congrArg Step.outcome hstep,
      iff_of_false Bool.false_ne_true hcannot, nofun, fun _ => congrArg Step.session hstep⟩

/-- The redirection `>> a`. -/
def appendToNote : OutputRedirect :=
  { append := true, target := "a" }

/-- A second line is appended to the note, and the first one gets an end. -/
theorem line_sent_behind_note :
    noteSession.fileSystem.Sound ∧ (Result.say "world").success = true ∧
      ∃ r', ((redirectOutput appendToNote (.say "world")).run .epoch noteSession).outcome = .ok r' ∧
        r'.success = true ∧ ∃ m' info,
          ((redirectOutput appendToNote (.say "world")).run .epoch
            noteSession).session.fileSystem.Shows m' ∧
          m' ["tmp", "a"] = .file info "hello\nworld" := by
  have hresolve : noteSession.fileSystem.resolve appendToNote.target = ["tmp", "a"] := by
    decide +kernel
  have hrun : ((redirectOutput appendToNote (.say "world")).run .epoch
      noteSession).outcome.toOption.map Result.success = some true := by decide +kernel
  obtain ⟨m, r', hm, houtcome, -, hsent, -⟩ :=
    sends_to_one_file_or_nowhere sound_noteSession (r := .say "world") rfl appendToNote .epoch
  have hsuccess : r'.success = true := by
    rw [houtcome] at hrun
    exact Option.some.inj hrun
  obtain ⟨m', root, content, -, hm', hreceives, hwrites⟩ := hsent hsuccess
  rw [hresolve] at hreceives hwrites
  have hbefore : m ["tmp", "a"] = (Node.newFile .epoch "a" "hello").sight :=
    (Except.ok.inj (hm ["tmp", "a"])).symm
  have hcontent : content = "hello\nworld" := by
    rw [receives_iff (by rw [hbefore]; rfl), hbefore] at hreceives
    rw [hreceives]
    decide
  rcases hwrites.file with ⟨info, old, -, hfile⟩ | ⟨hnode, -⟩
  · exact ⟨sound_noteSession, rfl, r', houtcome, hsuccess, m', _, hm', hcontent ▸ hfile⟩
  · rw [hbefore] at hnode
    cases hnode

/-- The redirection `> b`. -/
def makeSecondNote : OutputRedirect :=
  { append := false, target := "b" }

/-- Not every path but that of the file keeps the way in which a walk along it ends: behind a file
that is made, first a name is missing, and then the file is in the way. -/
theorem walk_behind_new_file_ends_otherwise :
    let step := (redirectOutput makeSecondNote (.say "x")).run .epoch noteSession
    noteSession.fileSystem.Sound ∧ (Result.say "x").success = true ∧
      step.outcome.toOption.map Result.success = some true ∧
      noteSession.fileSystem.resolve makeSecondNote.target = ["tmp", "b"] ∧
      (noteSession.fileSystem.lookup ["tmp", "b", "c"]).map Lookup.sight = .ok .missing ∧
      (step.session.fileSystem.lookup ["tmp", "b", "c"]).map Lookup.sight
        = .ok .notADirectory := by
  intro step
  have hresolve : noteSession.fileSystem.resolve makeSecondNote.target = ["tmp", "b"] := by
    decide +kernel
  have hrun : step.outcome.toOption.map Result.success = some true := by decide +kernel
  refine ⟨sound_noteSession, rfl, hrun, hresolve, rfl, ?_⟩
  have hcases := run_redirectOutput .epoch sound_noteSession (r := .say "x") rfl
    makeSecondNote
  rw [hresolve] at hcases
  rcases hcases with ⟨-, root, content, hstep, hwhole, -, hwrites⟩ | ⟨-, message, hstep⟩
  · have hbelow := hwrites.below ["tmp", "b", "c"] (by decide) (by decide)
    rw [show step = _ from hstep, ← hbelow.2.1]
    exact FileSystem.shows_of_whole hwhole _
  · rw [show step = _ from hstep] at hrun
    cases hrun

end Execution

end VirtualShell
