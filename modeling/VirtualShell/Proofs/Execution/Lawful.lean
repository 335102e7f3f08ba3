import VirtualShell.Proofs.Builtin.Lawful
import VirtualShell.Proofs.Execution.Compositional

/-!
# Every line is lawful

A line reaches the session through its commands and through the files that their output goes to.
Being lawful is compositional, so it is enough to look at these: the commands are lawful, and output
goes to a file only where the limits allow it.
-/

namespace VirtualShell.Execution

open Shell

variable {now : Timestamp} {s : Session}

/-- Noting an exit code is lawful. -/
theorem lawful_finish (r : Result) : (finish r).Lawful := by
  intro now s _
  exact LawfulAt.modify_bind (Session.Change.exitCode r.exitCode).changes (LawfulAt.pure _)

/-- Output goes to a file that is there, or to a new one in a directory that is there; elsewhere it
is refused. -/
theorem lawfulAt_writeFile_bind {β : Type} {path : Path} {content : String} {next : Bool → Shell β}
    (hs : s.Sound) (hnames : ∀ name ∈ path, Path.IsName name) (hpath : path ≠ [])
    (hfile : (s.fileSystem.root.at? path).any Node.isDirectory = false)
    (hlimits : Limits.check s.fileSystem path content.length (s.fileSystem.root.at? path)
      = .ok none)
    (hnext : ∀ s' done, LawfulAt now s' (next done)) :
    LawfulAt now s ((Shell.changeTree fun now fs => fs.writeFile now path content) >>= next) := by
  have hwhole := hs.fileSystem.whole
  cases hat : s.fileSystem.root.at? path with
  | some node =>
    rw [hat] at hlimits hfile
    cases node with
    | file info old =>
      exact LawfulAt.changeTree_bind (FileSystem.writeFile_of_file hwhole hpath hat)
        (.write hat hlimits) (hnext _ _)
    | directory info entries => cases hfile
    | hollow info => cases hfile
  | none =>
    rw [hat] at hlimits
    rw [← Builtin.dropLast_append_lastName hpath] at hat hlimits ⊢
    have hwrite : s.fileSystem.writeFile now (path.dropLast ++ [Builtin.lastName path]) content
        = s.fileSystem.addEntry now path.dropLast (Builtin.lastName path)
          (Node.newFile now (Builtin.lastName path) content) :=
      FileSystem.writeFile_of_missing hwhole hat
    -- A missing file is made where its directory is there, and refused otherwise.
    by_cases hdir : ∃ info entries,
        s.fileSystem.root.at? path.dropLast = some (.directory info entries)
    · obtain ⟨info, entries, hparent⟩ := hdir
      have hnew : Table.find? entries (Builtin.lastName path) = none := by
        rw [← Node.at?_entry _ hparent, hat]
      exact LawfulAt.addEntry_bind hs hwrite hparent (Builtin.isName_lastName hnames hpath) hnew
        (.file content) hlimits (hnext _ _)
    · rw [FileSystem.addEntry_of_not_directory hwhole fun info entries h =>
        hdir ⟨info, entries, h⟩] at hwrite
      exact LawfulAt.changeTree_bind_none hwrite (hnext _ _)

/-- Sending output to a file is lawful. -/
theorem lawful_redirectOutput (redirect : OutputRedirect) (r : Result) :
    (redirectOutput redirect r).Lawful := by
  intro now s hs
  have hnames := hs.fileSystem.isName_of_mem_resolve redirect.target
  unfold redirectOutput
  split
  · exact LawfulAt.pure _
  refine LawfulAt.session_bind ?_
  dsimp only
  generalize s.fileSystem.resolve redirect.target = path at hnames ⊢
  refine LawfulAt.node?_bind hs ?_
  split
  · exact LawfulAt.pure _
  rename_i hfile
  rw [Bool.or_eq_true, not_or, List.isEmpty_iff, Bool.not_eq_true] at hfile
  rw [Limits.check_eq hs.fileSystem.whole]
  refine LawfulAt.ofExcept_bind (Blameless.ok _) fun excess hexcess => ?_
  cases excess with
  | some excess => exact LawfulAt.pure _
  | none =>
    -- The check saw the content that is about to be written and the node that it replaces.
    have hlimits := Limits.check_eq hs.fileSystem.whole path
      (newContent redirect.append ((s.fileSystem.root.at? path).bind Node.content?) r.text).length
      (s.fileSystem.root.at? path)
    rw [Except.ok.inj hexcess] at hlimits
    refine lawfulAt_writeFile_bind hs hnames hfile.1 hfile.2 hlimits fun s' done => ?_
    split <;> exact LawfulAt.pure _

/-- Fetching the input of a command is lawful. -/
theorem lawful_inputOf (c : Command) (stdin : Option String) : (inputOf c stdin).Lawful := by
  intro now s hs
  unfold inputOf
  split
  · exact LawfulAt.pure _
  split
  · split <;> exact LawfulAt.pure _
  refine LawfulAt.session_bind (LawfulAt.node?_bind hs ?_)
  split <;> exact LawfulAt.pure _

/-- Being lawful is a property that goes from commands to lines. -/
theorem compositional_lawful : Compositional Shell.Lawful where
  pure := Lawful.pure
  bind := Lawful.bind
  session _ s _ := ⟨Session.Changes.refl s, Blameless.ok s⟩
  note n _ _ _ := LawfulAt.note n
  noteAll ns _ _ _ := LawfulAt.noteAll ns
  parse _ _ _ _ := LawfulAt.ofExcept (Blameless.mapError (fun _ => rfl) _)
  resolve _ _ _ _ _ _ := LawfulAt.ofExcept (Blameless.mapError (fun _ => rfl) _)
  inputOf := lawful_inputOf
  builtin := Builtin.lawful_run
  redirectOutput := lawful_redirectOutput
  finish := lawful_finish

/-- Running a line is lawful, to whatever depth aliases may nest. -/
theorem lawful_runLine (depth : Nat) (line : String) (stdin : Option String) :
    (runLine depth line stdin).Lawful :=
  compositional_lawful.runLine depth line stdin

end VirtualShell.Execution
