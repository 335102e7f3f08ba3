import VirtualShell.Builtin.Run
import VirtualShell.Proofs.Session.Settings

/-!
# Every command is orderly

In whatever session a command is run, it takes turns with the aliases and variables, and it breaks
off with faults of its own kind only (`Expects`): all commands may blame the tree, `head` and `tail`
a number, and `grep` a pattern.

Nothing is asked of the session, so the rules for sequences need not carry a property from one
action to the next, and the proofs follow the definitions of the commands line by line.
-/

namespace VirtualShell.Builtin

open Shell Session

variable {α : Type}

/-- The faults that a command can break off with. -/
def Expects (b : Builtin) : Fault → Prop
  | .number _ => b = .head ∨ b = .tail
  | .pattern _ => b = .grep
  | e => e.blamesTree = true

/-- Every command may blame the tree. -/
theorem expects_of_blamesTree (b : Builtin) {e : Fault} (h : e.blamesTree = true) :
    b.Expects e := by
  cases e with
  | number e => cases h
  | pattern e => cases h
  | line e => cases h
  | tree e => rfl
  | searchedLostEntries => rfl
  | fetchedLostEntries => rfl

section Tree

variable {Expected : Fault → Prop} (htree : ∀ e, e.blamesTree = true → Expected e)

/-! ## Reading files -/

include htree

/-- Looking up a node blames the tree at most. -/
theorem faultsIn_node? (s : Session) (path : Path) :
    FaultsIn Expected ((s.fileSystem.node? path).mapError Fault.tree) :=
  FaultsIn.mapError (fun _ => htree _ rfl) _

/-- So does reading a file. -/
theorem faultsIn_readFile (s : Session) (command filename : String) :
    FaultsIn Expected (readFile s command filename) := by
  refine (faultsIn_node? htree s _).bind fun node => ?_
  split <;> exact FaultsIn.ok _

/-- So does reading several files. -/
theorem faultsIn_readFiles (s : Session) (command : String) (files : List String) :
    FaultsIn Expected (readFiles s command files) := by
  induction files with
  | nil => exact FaultsIn.ok _
  | cons filename rest ih =>
    refine (faultsIn_readFile htree s command filename).bind fun content => ?_
    split
    · exact FaultsIn.ok _
    refine ih.bind fun contents => ?_
    split <;> exact FaultsIn.ok _

/-- So does gathering the input of a filter. -/
theorem faultsIn_gatherInput (s : Session) (command : String) (files : List String)
    (stdin : Option String) : FaultsIn Expected (gatherInput s command files stdin) := by
  unfold gatherInput
  split
  · split <;> exact FaultsIn.ok _
  refine (faultsIn_readFiles htree s command files).bind fun contents => ?_
  split <;> exact FaultsIn.ok _

/-- A filter of text is orderly. -/
theorem orderly_filterText (command : String) (files : List String) (stdin : Option String)
    (f : String → Output) : (filterText command files stdin f).Orderly Expected := by
  refine Orderly.query fun s => ?_
  refine (faultsIn_gatherInput htree s command files stdin).bind fun text => ?_
  split <;> exact FaultsIn.ok _

/-- Counting is orderly. -/
theorem orderly_runWc (args : List String) (stdin : Option String) :
    (runWc args stdin).Orderly Expected := by
  refine Orderly.query fun s => ?_
  dsimp only
  split
  · split <;> exact FaultsIn.ok _
  refine (faultsIn_readFiles htree s "wc" _).bind fun contents => ?_
  split <;> exact FaultsIn.ok _

/-- Searching is orderly if a pattern may be blamed. -/
theorem orderly_runGrep (hpattern : ∀ e, Expected (.pattern e)) (args : List String)
    (stdin : Option String) : (runGrep args stdin).Orderly Expected := by
  refine Orderly.query fun s => ?_
  dsimp only
  split
  · exact FaultsIn.ok _
  split
  · exact FaultsIn.ok _
  · exact FaultsIn.error (hpattern _)
  · split
    · split <;> exact FaultsIn.ok _
    refine (faultsIn_readFiles htree s "grep" _).bind fun sources => ?_
    cases sources <;> exact FaultsIn.ok _

omit htree in
/-- Reading a count blames the number at most. -/
theorem faultsIn_readCount (hnumber : ∀ e, Expected (.number e)) (command value : String) :
    FaultsIn Expected (readCount command value) := by
  unfold readCount
  dsimp only
  split
  · exact FaultsIn.ok _
  · exact (FaultsIn.mapError hnumber _).map _

omit htree in
/-- So does reading the arguments of `head` and `tail`. -/
theorem faultsIn_readCut (hnumber : ∀ e, Expected (.number e)) (command : String) (fuel : Nat)
    (cut : Cut) (args : List String) : FaultsIn Expected (readCut command fuel cut args) := by
  induction fuel generalizing cut args with
  | zero => exact FaultsIn.ok _
  | succ fuel ih =>
    cases args with
    | nil => exact FaultsIn.ok _
    | cons arg rest =>
      rw [readCut]
      split
      · exact ih _ _
      rename_i value rest' _
      have hcount := faultsIn_readCount hnumber command value
      split
      · rename_i e he
        exact FaultsIn.error (hcount e he)
      · exact FaultsIn.ok _
      · exact ih _ _

/-- The commands `head` and `tail` are orderly if a number may be blamed. -/
theorem orderly_runCut (hnumber : ∀ e, Expected (.number e)) (command : String)
    (keep : Nat → List String → List String) (args : List String) (stdin : Option String) :
    (runCut command keep args stdin).Orderly Expected := by
  refine Orderly.query fun s => ?_
  refine (faultsIn_readCut hnumber command _ _ args).bind fun cut => ?_
  split
  · exact FaultsIn.ok _
  refine (faultsIn_gatherInput htree s command _ stdin).bind fun text => ?_
  split <;> exact FaultsIn.ok _

/-! ## Looking around -/

/-- Listing is orderly. -/
theorem orderly_runLs (args : List String) : (runLs args).Orderly Expected := by
  refine Orderly.query fun s => ?_
  refine (faultsIn_node? htree s _).bind fun node => ?_
  split
  · exact FaultsIn.ok _
  split <;> exact FaultsIn.ok _

/-- Showing the history is orderly. -/
theorem orderly_runHistory : runHistory.Orderly Expected := by
  refine Orderly.query fun s => ?_
  refine (faultsIn_node? htree s _).bind fun node => ?_
  split
  · split <;> exact FaultsIn.ok _
  · exact FaultsIn.ok _

/-- Showing a page is orderly. -/
theorem orderly_runMan (args : List String) : (runMan args).Orderly Expected := by
  refine Orderly.query fun s => ?_
  cases args with
  | nil => exact FaultsIn.ok _
  | cons page rest =>
    refine (faultsIn_node? htree s _).bind fun node => ?_
    split <;> exact FaultsIn.ok _

/-- Asking for an editor is orderly. -/
theorem orderly_runVi (args : List String) : (runVi args).Orderly Expected := by
  refine Orderly.query fun s => ?_
  cases args with
  | nil => exact FaultsIn.ok _
  | cons filename rest =>
    refine (faultsIn_node? htree s _).bind fun node => ?_
    split <;> exact FaultsIn.ok _

omit htree in
/-- A change of the tree leaves aliases and variables alone. -/
theorem orderly_modify_tree (f : FileSystem → FileSystem) :
    (Shell.modify fun s => { s with fileSystem := f s.fileSystem }).Orderly Expected := by
  intro now s
  have hturn : s.Turn now { s with fileSystem := f s.fileSystem } := .elsewhere rfl rfl
  exact OrderlyAt.modify hturn.turns

/-- Looking up a node in the session is orderly. -/
theorem orderly_node? (path : Path) : (Shell.node? path).Orderly Expected :=
  Orderly.node? (fun _ => htree _ rfl) path

/-- A change of directory takes the turn of the variables that follow it. -/
theorem orderly_runCd (args : List String) : (runCd args).Orderly Expected := by
  have henter (path : Path) : (enter path >>= fun _ => pure Result.ok).Orderly Expected :=
    (orderly_modify_tree fun fs => { fs with cwd := path }).bind fun _ => Orderly.pure _
  cases args with
  | nil =>
    refine (orderly_node? htree Path.home).bind fun node => ?_
    split
    · split
      · exact henter _
      · exact Orderly.pure _
    · exact Orderly.pure _
  | cons target rest =>
    refine Orderly.session.bind fun s => (orderly_node? htree _).bind fun node => ?_
    split
    · exact Orderly.pure _
    · split
      · exact henter _
      · exact Orderly.pure _

/-! ## Making and removing nodes -/

/-- A change that the tree may refuse is orderly. -/
theorem orderly_changeTree (f : Timestamp → FileSystem → Except TreeFault (Option FileSystem)) :
    (Shell.changeTree f).Orderly Expected :=
  Orderly.changeTree (fun _ => htree _ rfl) f

/-- Looking for an exceeded limit is orderly. -/
theorem orderly_excessAt (path : Path) : (excessAt path).Orderly Expected :=
  Orderly.query fun _ => FaultsIn.mapError (fun _ => htree _ rfl) _

/-- A directory that has lost its entries breaks a command off. -/
theorem orderly_lost {e : Fault} (h : e.blamesTree = true) :
    (Shell.ofExcept (.error e) : Shell α).Orderly Expected :=
  Orderly.ofExcept (FaultsIn.error (htree e h))

/-- Touching a file is orderly. -/
theorem orderly_touchOne (filename : String) : (touchOne filename).Orderly Expected := by
  refine Orderly.session.bind fun s => ?_
  dsimp only
  split
  · exact Orderly.pure _
  split
  · exact Orderly.pure _
  split
  · exact Orderly.pure _
  refine (orderly_node? htree _).bind fun node => ?_
  split
  · split
    · intro now s
      refine OrderlyAt.now_bind (OrderlyAt.bind ?_ fun _ => Orderly.pure _ _ _)
      exact orderly_modify_tree (fun fs => fs.modifyAt _ (·.touch now)) now s
    · refine (orderly_excessAt htree _).bind fun excess => ?_
      split
      · exact Orderly.pure _
      · exact (orderly_changeTree htree _).bind fun _ => Orderly.pure _
  · exact orderly_lost htree rfl
  · exact Orderly.pure _

/-- Making a directory is orderly. -/
theorem orderly_makeDirectory (operand : String) (path : Path) :
    (makeDirectory operand path).Orderly Expected := by
  refine (orderly_node? htree _).bind fun node => ?_
  split
  · split
    · exact Orderly.pure _
    refine (orderly_excessAt htree _).bind fun excess => ?_
    split
    · exact Orderly.pure _
    · exact (orderly_changeTree htree _).bind fun _ => Orderly.pure _
  · exact orderly_lost htree rfl
  · exact Orderly.pure _

/-- So is making the directories above it. -/
theorem orderly_makeParents (operand : String) (made : Path) (names : List String) :
    (makeParents operand made names).Orderly Expected := by
  induction names generalizing made with
  | nil => exact Orderly.pure _
  | cons name rest ih =>
    refine (orderly_node? htree _).bind fun node => ?_
    split
    · refine (orderly_excessAt htree _).bind fun excess => ?_
      split
      · exact Orderly.pure _
      · exact (orderly_changeTree htree _).bind fun _ => ih _
    · split
      · exact ih _
      · exact Orderly.pure _

/-- So is `mkdir` with one operand. -/
theorem orderly_mkdirOne (parents : Bool) (operand : String) :
    (mkdirOne parents operand).Orderly Expected := by
  refine Orderly.session.bind fun s => ?_
  dsimp only
  split
  · exact Orderly.pure _
  split
  · exact Orderly.pure _
  split
  · exact orderly_makeParents htree operand [] _
  · exact orderly_makeDirectory htree operand _

/-- Removing an operand is orderly. -/
theorem orderly_rmOne (recursive force : Bool) (operand : String) :
    (rmOne recursive force operand).Orderly Expected := by
  refine Orderly.session.bind fun s => (orderly_node? htree _).bind fun node => ?_
  split
  · exact Orderly.pure _
  split
  · exact Orderly.pure _
  refine Orderly.session.bind fun s' => ?_
  split
  · exact Orderly.pure _
  · exact (orderly_changeTree htree _).bind fun removed => Orderly.pure _

/-- Removing a directory is orderly. -/
theorem orderly_rmdirOne (operand : String) : (rmdirOne operand).Orderly Expected := by
  refine Orderly.session.bind fun s => (orderly_node? htree _).bind fun node => ?_
  split
  · exact Orderly.pure _
  split
  · exact Orderly.pure _
  split
  · exact Orderly.pure _
  refine Orderly.session.bind fun s' => ?_
  split
  · exact Orderly.pure _
  · exact (orderly_changeTree htree _).bind fun _ => Orderly.pure _

/-! ## Aliases and variables -/

omit htree

/-- What is orderly for one operand is orderly for all of them in a row. -/
theorem orderly_forEach (operands : List String) {step : String → Shell (Option String)}
    (hstep : ∀ operand, (step operand).Orderly Expected) :
    (forEach operands step).Orderly Expected := by
  induction operands with
  | nil => exact Orderly.pure _
  | cons operand rest ih =>
    refine (hstep operand).bind fun message => ?_
    cases message with
    | some message => exact Orderly.pure _
    | none => exact ih

/-- An alias is validated before it is set, by the very text that is set. -/
theorem orderly_defineOne (name command : String) (htrimmed : Text.strip command = command) :
    (defineOne name command).Orderly Expected := by
  intro now s
  unfold defineOne
  split
  · exact Orderly.pure _ now s
  rename_i hvalid
  refine OrderlyAt.now_bind (OrderlyAt.session_bind ?_)
  split
  · rename_i aliases hset
    have hturn : s.Turn now { s with aliases } := .setAlias hvalid htrimmed hset
    exact (OrderlyAt.modify hturn.turns).bind fun _ => Orderly.pure _ _ _
  · exact (Orderly.note _).bind (fun _ => Orderly.pure _) now s

/-- The arguments of `alias` take one turn after another. -/
theorem orderly_aliasArguments (shown args : List String) :
    (aliasArguments shown args).Orderly Expected := by
  induction args generalizing shown with
  | nil => exact Orderly.pure _
  | cons arg rest ih =>
    unfold aliasArguments
    split
    · rename_i name command _
      -- The blanks around the command are gone before it is looked at.
      refine (orderly_defineOne name _ (Text.strip_strip command)).bind fun message => ?_
      cases message with
      | some message => exact Orderly.pure _
      | none => exact ih shown
    · refine Orderly.session.bind fun s => ?_
      split
      · exact Orderly.pure _
      · exact ih _

/-- The command `alias` is orderly. -/
theorem orderly_runAlias (args : List String) : (runAlias args).Orderly Expected := by
  unfold runAlias
  split
  · exact Orderly.query fun _ => FaultsIn.ok _
  · exact orderly_aliasArguments [] args

/-- Removing an alias takes a turn. -/
theorem orderly_unaliasOne (name : String) : (unaliasOne name).Orderly Expected := by
  intro now s
  refine OrderlyAt.session_bind ?_
  split
  · have hturn : s.Turn now { s with aliases := s.aliases.erase name } := .removeAlias name
    exact (OrderlyAt.modify hturn.turns).bind fun _ => Orderly.pure _ _ _
  · exact Orderly.pure _ now s

/-- The command `unalias` is orderly. -/
theorem orderly_runUnalias (args : List String) : (runUnalias args).Orderly Expected := by
  unfold runUnalias
  split
  · exact Orderly.pure _
  · intro now s
    have hturn : s.Turn now { s with aliases := [] } := .clearAliases
    exact (OrderlyAt.modify hturn.turns).bind fun _ => Orderly.pure _ _ _
  · exact orderly_forEach _ orderly_unaliasOne

/-- Setting a variable takes a turn. -/
theorem orderly_exportOne (arg : String) : (exportOne arg).Orderly Expected := by
  intro now s
  refine OrderlyAt.session_bind ?_
  dsimp only
  split
  · exact Orderly.pure _ now s
  · rename_i environment hset
    have hturn : s.Turn now { s with environment } := .setVariable hset
    exact (OrderlyAt.modify hturn.turns).bind fun _ => Orderly.pure _ _ _

/-- The command `export` is orderly. -/
theorem orderly_runExport (args : List String) : (runExport args).Orderly Expected := by
  unfold runExport
  split
  · exact Orderly.query fun _ => FaultsIn.ok _
  · exact orderly_forEach _ orderly_exportOne

/-- Removing a variable takes a turn. -/
theorem orderly_unsetOne (name : String) : (unsetOne name).Orderly Expected := by
  intro now s
  unfold unsetOne
  split
  · exact Orderly.pure _ now s
  refine (OrderlyAt.modify ?_).bind fun _ => Orderly.pure _ _ _
  cases hunset : s.environment.unset? name with
  | none => exact Turns.refl s
  | some environment => exact (Turn.unsetVariable hunset).turns

/-- The command `unset` is orderly. -/
theorem orderly_runUnset (args : List String) : (runUnset args).Orderly Expected := by
  unfold runUnset
  split
  · exact Orderly.pure _
  · exact orderly_forEach _ orderly_unsetOne

include htree in
/-- The command `source` takes one turn for each line of the script. -/
theorem orderly_runSource (args : List String) : (runSource args).Orderly Expected := by
  cases args with
  | nil => exact Orderly.pure _
  | cons filename rest =>
    have hread := fun s => faultsIn_readFile htree s "source" filename
    refine (Orderly.query hread).bind fun content => ?_
    split
    · exact Orderly.pure _
    refine (orderly_applyScript _).bind fun execution => ?_
    dsimp only
    split <;> exact Orderly.pure _

end Tree

/-! ## All commands -/

/-- Every command is orderly and breaks off with its own faults only. -/
theorem orderly_run (b : Builtin) (args : List String) (stdin : Option String) :
    (b.run args stdin).Orderly b.Expects := by
  have htree : ∀ e, e.blamesTree = true → b.Expects e := fun _ => b.expects_of_blamesTree
  cases b with
  | defineAlias => exact orderly_runAlias args
  | cat => exact orderly_filterText htree _ _ _ _
  | cd => exact orderly_runCd htree args
  | clear => exact Orderly.pure _
  | echo => exact Orderly.pure _
  | printVariables => exact Orderly.query fun _ => FaultsIn.ok _
  | exportVariables => exact orderly_runExport args
  | fail => exact Orderly.pure _
  | grep => exact orderly_runGrep htree (fun _ => rfl) args stdin
  | head => exact orderly_runCut htree (fun _ => .inl rfl) _ _ args stdin
  | help => exact Orderly.pure _
  | history => exact orderly_runHistory htree
  | ls => exact orderly_runLs htree args
  | man => exact orderly_runMan htree args
  | mkdir =>
    change (runMkdir args).Orderly _
    unfold runMkdir
    dsimp only
    split
    · exact Orderly.pure _
    · exact orderly_forEach _ (orderly_mkdirOne htree _)
  | pwd => exact Orderly.query fun _ => FaultsIn.ok _
  | rm =>
    change (runRm args).Orderly _
    unfold runRm
    dsimp only
    split
    · exact Orderly.pure _
    · exact orderly_forEach _ (orderly_rmOne htree _ _)
  | rmdir =>
    change (runRmdir args).Orderly _
    unfold runRmdir
    split
    · exact Orderly.pure _
    · exact orderly_forEach _ (orderly_rmdirOne htree)
  | sort => exact orderly_filterText htree _ _ _ _
  | source => exact orderly_runSource htree args
  | tail =>
    exact orderly_runCut htree (fun _ => .inr rfl) _ (fun n ls => ls.drop (ls.length - n)) args
      stdin
  | touch =>
    change (runTouch args).Orderly _
    unfold runTouch
    split
    · exact Orderly.pure _
    · exact orderly_forEach _ (orderly_touchOne htree)
  | succeed => exact Orderly.pure _
  | removeAliases => exact orderly_runUnalias args
  | uniq => exact orderly_filterText htree _ _ _ _
  | unsetVariables => exact orderly_runUnset args
  | vi => exact orderly_runVi htree args
  | wc => exact orderly_runWc htree args stdin

end VirtualShell.Builtin
