import VirtualShell.Builtin.Run
import VirtualShell.Proofs.Builtin.Files
import VirtualShell.Proofs.Script

/-!
# Every command is lawful

The commands that only look at the session (`lawful_query`) cannot change it, and read every node
without a fault. The others change the working directory, the aliases or the variables in one of the
listed ways, or make and remove nodes.
-/

namespace VirtualShell.Builtin

open Shell

variable {α : Type} {now : Timestamp} {s : Session}

/-! ## Reading files -/

/-- An action that only looks at the session is lawful if it never blames a sound tree. -/
theorem lawful_query {f : Session → Except Fault α} (h : ∀ s, s.Sound → Blameless (f s)) :
    (Shell.query f).Lawful :=
  fun _ s hs => LawfulAt.query (h s hs)

/-- In a sound session every node is looked up without a fault. -/
theorem blameless_node? (hs : s.Sound) (path : Path) :
    Blameless ((s.fileSystem.node? path).mapError Fault.tree) := by
  rw [node?_eq hs]
  exact Blameless.ok _

/-- So is every file read. -/
theorem blameless_readFile (hs : s.Sound) (command filename : String) :
    Blameless (readFile s command filename) := by
  refine Blameless.bind (blameless_node? hs _) fun node _ => ?_
  split <;> exact Blameless.ok _

/-- So are several files, one after another. -/
theorem blameless_readFiles (hs : s.Sound) (command : String) (files : List String) :
    Blameless (readFiles s command files) := by
  induction files with
  | nil => exact Blameless.ok _
  | cons filename rest ih =>
    refine Blameless.bind (blameless_readFile hs command filename) fun content _ => ?_
    split
    · exact Blameless.ok _
    refine Blameless.bind ih fun contents _ => ?_
    split <;> exact Blameless.ok _

/-- So is the input of a filter, wherever it comes from. -/
theorem blameless_gatherInput (hs : s.Sound) (command : String) (files : List String)
    (stdin : Option String) : Blameless (gatherInput s command files stdin) := by
  unfold gatherInput
  split
  · split <;> exact Blameless.ok _
  refine Blameless.bind (blameless_readFiles hs command files) fun contents _ => ?_
  split <;> exact Blameless.ok _

/-- A filter of text only looks at the session. -/
theorem lawful_filterText (command : String) (files : List String) (stdin : Option String)
    (f : String → Output) : (filterText command files stdin f).Lawful := by
  refine lawful_query fun s hs => ?_
  refine Blameless.bind (blameless_gatherInput hs command files stdin) fun text _ => ?_
  split <;> exact Blameless.ok _

/-- The command `wc` only looks at the session. -/
theorem lawful_runWc (args : List String) (stdin : Option String) : (runWc args stdin).Lawful := by
  refine lawful_query fun s hs => ?_
  dsimp only
  split
  · split <;> exact Blameless.ok _
  refine Blameless.bind (blameless_readFiles hs "wc" _) fun contents _ => ?_
  split <;> exact Blameless.ok _

/-- A pattern that cannot be searched for is a fault of its own. -/
theorem lawful_runGrep (args : List String) (stdin : Option String) :
    (runGrep args stdin).Lawful := by
  refine lawful_query fun s hs => ?_
  dsimp only
  split
  · exact Blameless.ok _
  split
  · exact Blameless.ok _
  · exact Blameless.error rfl
  · split
    · split <;> exact Blameless.ok _
    refine Blameless.bind (blameless_readFiles hs "grep" _) fun sources _ => ?_
    cases sources <;> exact Blameless.ok _

/-- Reading a count blames the count at most, not the tree. -/
theorem blameless_readCount (command value : String) : Blameless (readCount command value) := by
  unfold readCount
  dsimp only
  split
  · exact Blameless.ok _
  · exact (Blameless.mapError (fun _ => rfl) _).map _

/-- So does reading the arguments of `head` and `tail`. -/
theorem blameless_readCut (command : String) (fuel : Nat) (cut : Cut) (args : List String) :
    Blameless (readCut command fuel cut args) := by
  induction fuel generalizing cut args with
  | zero => exact Blameless.ok _
  | succ fuel ih =>
    cases args with
    | nil => exact Blameless.ok _
    | cons arg rest =>
      rw [readCut]
      split
      · exact ih _ _
      rename_i value rest' _
      have hcount := blameless_readCount command value
      split
      · rename_i e he
        exact Blameless.error (hcount e he)
      · exact Blameless.ok _
      · exact ih _ _

/-- The commands `head` and `tail` only look at the session. -/
theorem lawful_runCut (command : String) (keep : Nat → List String → List String)
    (args : List String) (stdin : Option String) : (runCut command keep args stdin).Lawful := by
  refine lawful_query fun s hs => ?_
  refine Blameless.bind (blameless_readCut command _ _ args) fun cut _ => ?_
  split
  · exact Blameless.ok _
  refine Blameless.bind (blameless_gatherInput hs command _ stdin) fun text _ => ?_
  split <;> exact Blameless.ok _

/-! ## Looking around -/

/-- The command `ls` only looks at the session. -/
theorem lawful_runLs (args : List String) : (runLs args).Lawful := by
  refine lawful_query fun s hs => ?_
  refine Blameless.bind (blameless_node? hs _) fun node _ => ?_
  split
  · exact Blameless.ok _
  split <;> exact Blameless.ok _

/-- The command `history` only looks at the session. -/
theorem lawful_runHistory : runHistory.Lawful := by
  refine lawful_query fun s hs => ?_
  refine Blameless.bind (blameless_node? hs _) fun node _ => ?_
  split
  · split <;> exact Blameless.ok _
  · exact Blameless.ok _

/-- The command `man` looks up a page. -/
theorem lawful_runMan (args : List String) : (runMan args).Lawful := by
  refine lawful_query fun s hs => ?_
  cases args with
  | nil => exact Blameless.ok _
  | cons page rest =>
    refine Blameless.bind (blameless_node? hs _) fun node _ => ?_
    split <;> exact Blameless.ok _

/-- The command `vi` only looks at the session and asks for an editor. -/
theorem lawful_runVi (args : List String) : (runVi args).Lawful := by
  refine lawful_query fun s hs => ?_
  cases args with
  | nil => exact Blameless.ok _
  | cons filename rest =>
    refine Blameless.bind (blameless_node? hs _) fun node _ => ?_
    split <;> exact Blameless.ok _

/-- Only a directory is entered. -/
theorem lawful_runCd (args : List String) : (runCd args).Lawful := by
  intro now s hs
  have henter : ∀ (path : Path) (node : Node), s.fileSystem.root.at? path = some node →
      node.isDirectory = true → LawfulAt now s (enter path >>= fun _ => pure Result.ok) := by
    intro path node hnode hdir
    exact LawfulAt.modify_bind (Session.Change.fileSystem (.enter ⟨node, hnode, hdir⟩)).changes
      (LawfulAt.pure _)
  cases args with
  | nil =>
    refine LawfulAt.node?_bind hs ?_
    split
    · rename_i node hnode
      split
      · rename_i hdir
        exact henter _ node hnode hdir
      · exact LawfulAt.pure _
    · exact LawfulAt.pure _
  | cons target rest =>
    refine LawfulAt.session_bind (LawfulAt.node?_bind hs ?_)
    split
    · exact LawfulAt.pure _
    · rename_i node hnode
      split
      · rename_i hdir
        exact henter _ node hnode hdir
      · exact LawfulAt.pure _

/-! ## Aliases and variables -/

/-- An alias is validated before it is set. -/
theorem lawful_defineOne (name command : String) : (defineOne name command).Lawful := by
  intro now s hs
  unfold defineOne
  split
  · exact LawfulAt.pure _
  rename_i hvalid
  refine LawfulAt.now_bind (LawfulAt.session_bind ?_)
  split
  · rename_i aliases hset
    exact LawfulAt.modify_bind (Session.Change.setAlias hvalid hset).changes (LawfulAt.pure _)
  · exact LawfulAt.note_bind (LawfulAt.pure _)

/-- Each argument of `alias` shows an alias or sets a valid one. -/
theorem lawful_aliasArguments (shown args : List String) : (aliasArguments shown args).Lawful := by
  induction args generalizing shown with
  | nil => exact Lawful.pure _
  | cons arg rest ih =>
    intro now s hs
    unfold aliasArguments
    split
    · rename_i name command _
      refine (lawful_defineOne name _ now s hs).bind hs fun message => ?_
      cases message with
      | some message => exact Lawful.pure _
      | none => exact ih shown
    · refine LawfulAt.session_bind ?_
      split
      · exact LawfulAt.pure _
      · exact ih _ now s hs

/-- The command `alias` shows aliases or sets valid ones. -/
theorem lawful_runAlias (args : List String) : (runAlias args).Lawful := by
  unfold runAlias
  split
  · exact lawful_query fun _ _ => Blameless.ok _
  · exact lawful_aliasArguments [] args

/-- Removing an alias is a change of the listed kinds. -/
theorem lawful_unaliasOne (name : String) : (unaliasOne name).Lawful := by
  intro now s hs
  refine LawfulAt.session_bind ?_
  split
  · exact LawfulAt.modify_bind (Session.Change.removeAlias name).changes (LawfulAt.pure _)
  · exact LawfulAt.pure _

/-- The command `unalias` removes aliases. -/
theorem lawful_runUnalias (args : List String) : (runUnalias args).Lawful := by
  unfold runUnalias
  split
  · exact Lawful.pure _
  · intro now s hs
    exact LawfulAt.modify_bind Session.Change.clearAliases.changes (LawfulAt.pure _)
  · exact lawful_forEach _ lawful_unaliasOne

/-- Each argument of `export` sets a variable or is refused. -/
theorem lawful_exportOne (arg : String) : (exportOne arg).Lawful := by
  intro now s hs
  refine LawfulAt.session_bind ?_
  dsimp only
  split
  · exact LawfulAt.pure _
  · rename_i environment hset
    exact LawfulAt.modify_bind (Session.Change.setVariable hset).changes (LawfulAt.pure _)

/-- The command `export` shows variables or sets them. -/
theorem lawful_runExport (args : List String) : (runExport args).Lawful := by
  unfold runExport
  split
  · exact lawful_query fun _ _ => Blameless.ok _
  · exact lawful_forEach _ lawful_exportOne

/-- Removing a variable is a change of the listed kinds. -/
theorem lawful_unsetOne (name : String) : (unsetOne name).Lawful := by
  intro now s hs
  unfold unsetOne
  split
  · exact LawfulAt.pure _
  refine LawfulAt.modify_bind ?_ (LawfulAt.pure _)
  cases hunset : s.environment.unset? name with
  | none => exact Session.Changes.refl s
  | some environment => exact (Session.Change.unsetVariable hunset).changes

/-- The command `unset` removes variables. -/
theorem lawful_runUnset (args : List String) : (runUnset args).Lawful := by
  unfold runUnset
  split
  · exact Lawful.pure _
  · exact lawful_forEach _ lawful_unsetOne

/-- The command `source` applies a script. -/
theorem lawful_runSource (args : List String) : (runSource args).Lawful := by
  intro now s hs
  cases args with
  | nil => exact LawfulAt.pure _
  | cons filename rest =>
    refine LawfulAt.query_bind (blameless_readFile hs "source" filename) fun content _ => ?_
    split
    · exact LawfulAt.pure _
    refine (Session.lawful_applyScript _ now s hs).bind hs fun execution => ?_
    dsimp only
    split <;> exact Lawful.pure _

/-! ## All commands -/

/-- Every command is lawful. -/
theorem lawful_run (b : Builtin) (args : List String) (stdin : Option String) :
    (b.run args stdin).Lawful := by
  cases b with
  | defineAlias => exact lawful_runAlias args
  | cat => exact lawful_filterText _ _ _ _
  | cd => exact lawful_runCd args
  | clear => exact Lawful.pure _
  | echo => exact Lawful.pure _
  | printVariables => exact lawful_query fun _ _ => Blameless.ok _
  | exportVariables => exact lawful_runExport args
  | fail => exact Lawful.pure _
  | grep => exact lawful_runGrep args stdin
  | head => exact lawful_runCut _ _ args stdin
  | help => exact Lawful.pure _
  | history => exact lawful_runHistory
  | ls => exact lawful_runLs args
  | man => exact lawful_runMan args
  | mkdir =>
    change (runMkdir args).Lawful
    unfold runMkdir
    dsimp only
    split
    · exact Lawful.pure _
    · exact lawful_forEach _ (lawful_mkdirOne _)
  | pwd => exact lawful_query fun _ _ => Blameless.ok _
  | rm =>
    change (runRm args).Lawful
    unfold runRm
    dsimp only
    split
    · exact Lawful.pure _
    · exact lawful_forEach _ (lawful_rmOne _ _)
  | rmdir =>
    change (runRmdir args).Lawful
    unfold runRmdir
    split
    · exact Lawful.pure _
    · exact lawful_forEach _ lawful_rmdirOne
  | sort => exact lawful_filterText _ _ _ _
  | source => exact lawful_runSource args
  | tail => exact lawful_runCut _ (fun n ls => ls.drop (ls.length - n)) args stdin
  | touch =>
    change (runTouch args).Lawful
    unfold runTouch
    split
    · exact Lawful.pure _
    · exact lawful_forEach _ lawful_touchOne
  | succeed => exact Lawful.pure _
  | removeAliases => exact lawful_runUnalias args
  | uniq => exact lawful_filterText _ _ _ _
  | unsetVariables => exact lawful_runUnset args
  | vi => exact lawful_runVi args
  | wc => exact lawful_runWc args stdin

end VirtualShell.Builtin
