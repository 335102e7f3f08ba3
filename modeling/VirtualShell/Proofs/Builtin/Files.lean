import VirtualShell.Builtin.Files
import VirtualShell.Proofs.Builtin.Limits
import VirtualShell.Proofs.Session.Lawful
import VirtualShell.Proofs.Tree.Update

/-!
# Making and removing nodes is lawful

Each command that makes a node has looked at the directory it goes into and at the limits, and each
that removes one has made sure that it does not lead to the working directory. That is what the
listed changes ask for.
-/

namespace VirtualShell

variable {β : Type} {now : Timestamp} {s : Session} {path : Path} {info : NodeInfo}
  {entries : Table Node} {name : String}

namespace Builtin

/-- A path is made of the directory it lies in and its last name. -/
theorem dropLast_append_lastName (h : path ≠ []) : path.dropLast ++ [lastName path] = path := by
  rw [lastName, List.getLast?_eq_getLast_of_ne_nil h]
  exact List.dropLast_append_getLast h

/-- The last name of a path of names is a name. -/
theorem isName_lastName (hnames : ∀ name ∈ path, Path.IsName name) (h : path ≠ []) :
    Path.IsName (lastName path) := by
  refine hnames _ ?_
  rw [lastName, List.getLast?_eq_getLast_of_ne_nil h]
  exact List.getLast_mem h

end Builtin

namespace Shell

open Builtin

/-- The limits are asked without a fault, and an answer without a message means that they are
kept. -/
theorem LawfulAt.excessAt_bind {next : Option String → Shell β} (hs : s.Sound)
    (hsome : ∀ message, LawfulAt now s (next (some message)))
    (hnone : Limits.check s.fileSystem path 0 = .ok none → LawfulAt now s (next none)) :
    LawfulAt now s (excessAt path >>= next) := by
  have heq := Limits.check_eq hs.fileSystem.whole path 0 none
  refine LawfulAt.query_bind ?_ fun a ha => ?_
  · rw [heq]
    exact Blameless.ok _
  · rw [heq] at ha hnone
    cases hexcess : Limits.excess? s.fileSystem path 0 none with
    | none =>
      rw [hexcess] at ha hnone
      cases ha
      exact hnone rfl
    | some excess =>
      rw [hexcess] at ha
      cases ha
      exact hsome _

/-- A new node goes into a directory. -/
theorem LawfulAt.addEntry_bind {f : Timestamp → FileSystem → Except TreeFault (Option FileSystem)}
    {node : Node} {next : Bool → Shell β} (hs : s.Sound)
    (hf : f now s.fileSystem = s.fileSystem.addEntry now path name node)
    (hat : s.fileSystem.root.at? path = some (.directory info entries)) (hname : Path.IsName name)
    (hnew : entries.find? name = none) (hnode : node.IsNew now name)
    (hlimits : Limits.check s.fileSystem (path ++ [name]) node.totalSize = .ok none)
    (hnext : LawfulAt now { s with fileSystem := s.fileSystem.modifyAt path fun d =>
      (d.mapEntries (·.put name node)).touch now } (next true)) :
    LawfulAt now s (Shell.changeTree f >>= next) := by
  rw [FileSystem.addEntry_of_directory hs.fileSystem.whole hat] at hf
  exact LawfulAt.changeTree_bind hf (.add hat hname hnew hnode hlimits) hnext

end Shell

namespace Builtin

open Shell

/-! ## Making nodes -/

/-- Touching a file changes the time of a node or adds a file. -/
theorem lawful_touchOne (filename : String) : (touchOne filename).Lawful := by
  intro now s hs
  have hnames := hs.fileSystem.isName_of_mem_resolve filename
  refine LawfulAt.session_bind ?_
  dsimp only
  generalize s.fileSystem.resolve filename = path at hnames ⊢
  split
  · exact LawfulAt.pure _
  rename_i hpath
  rw [List.isEmpty_iff] at hpath
  split
  · exact LawfulAt.pure _
  split
  · exact LawfulAt.pure _
  refine LawfulAt.node?_bind hs ?_
  split
  · rename_i info entries hat
    split
    · exact LawfulAt.now_bind (LawfulAt.modify_bind
        (Session.Change.fileSystem (.touch path)).changes (LawfulAt.pure _))
    · rename_i hnew
      rw [Bool.not_eq_true, Table.contains_eq_false_iff] at hnew
      refine LawfulAt.excessAt_bind hs (fun _ => LawfulAt.pure _) fun hlimits => ?_
      rw [← dropLast_append_lastName hpath] at hlimits
      -- The entry is new and its directory is there, so this is a listed change.
      exact LawfulAt.addEntry_bind hs rfl hat (isName_lastName hnames hpath) hnew (.file "") hlimits
        (LawfulAt.pure _)
  · rename_i hat
    exact absurd hat (hs.fileSystem.whole _ _)
  · exact LawfulAt.pure _

/-- Making a directory adds it or changes nothing. -/
theorem lawful_makeDirectory (operand : String) (hnames : ∀ name ∈ path, Path.IsName name)
    (hpath : path ≠ []) : (makeDirectory operand path).Lawful := by
  intro now s hs
  refine LawfulAt.node?_bind hs ?_
  split
  · rename_i info entries hat
    split
    · exact LawfulAt.pure _
    · rename_i hnew
      rw [Bool.not_eq_true, Table.contains_eq_false_iff] at hnew
      refine LawfulAt.excessAt_bind hs (fun _ => LawfulAt.pure _) fun hlimits => ?_
      rw [← dropLast_append_lastName hpath] at hlimits
      exact LawfulAt.addEntry_bind hs rfl hat (isName_lastName hnames hpath) hnew .directory hlimits
        (LawfulAt.pure _)
  · rename_i hat
    exact absurd hat (hs.fileSystem.whole _ _)
  · exact LawfulAt.pure _

/-- The directories along a path are made one in the other: where the next name is looked at, the
directory it goes into is there. -/
theorem lawfulAt_makeParents (operand : String) (made : Path) (names : List String) (hs : s.Sound)
    (hnames : ∀ name ∈ names, Path.IsName name) (hmade : s.fileSystem.root.HasDirectory made) :
    LawfulAt now s (makeParents operand made names) := by
  -- Induction on the names that are left; `hmade` is the invariant, and the session is general
  -- because each directory is made in the session that the one before has left.
  induction names generalizing made s with
  | nil => exact LawfulAt.pure none
  | cons name rest ih =>
    have hrest : ∀ name ∈ rest, Path.IsName name :=
      fun other h => hnames other (List.mem_cons_of_mem _ h)
    refine LawfulAt.node?_bind hs ?_
    split
    · rename_i hmissing
      obtain ⟨info, entries, hat⟩ := hmade.eq_directory hs.fileSystem.whole
      have hnew : Table.find? entries name = none := by rw [← Node.at?_entry name hat, hmissing]
      have hname := hnames name List.mem_cons_self
      refine LawfulAt.excessAt_bind hs (fun _ => LawfulAt.pure _) fun hlimits => ?_
      have hnode : Node.IsNew now name (Node.newDirectory now name) := .directory
      have hchange := FileSystem.Change.add hat hname hnew hnode hlimits
      refine LawfulAt.addEntry_bind hs rfl hat hname hnew hnode hlimits ?_
      refine ih (made ++ [name]) (Session.Change.fileSystem hchange |>.sound hs) hrest ?_
      -- The directory that was just made is the one into which the next goes.
      refine ⟨Node.newDirectory now name, ?_, rfl⟩
      change (s.fileSystem.root.modifyAt _ made).at? (made ++ [name]) = _
      rw [Node.at?_modifyAt_append, hat, Option.bind_some, Node.at?_singleton, Node.entries_touch]
      exact Table.find?_put_self _ _ _
    · rename_i node hnode
      split
      · rename_i hdir
        exact ih (made ++ [name]) hs hrest ⟨node, hnode, hdir⟩
      · exact LawfulAt.pure _

/-- So does `mkdir` with one operand, whether it makes parents or not. -/
theorem lawful_mkdirOne (parents : Bool) (operand : String) :
    (mkdirOne parents operand).Lawful := by
  intro now s hs
  have hnames := hs.fileSystem.isName_of_mem_resolve operand
  refine LawfulAt.session_bind ?_
  dsimp only
  generalize s.fileSystem.resolve operand = path at hnames ⊢
  split
  · exact LawfulAt.pure _
  rename_i hpath
  rw [List.isEmpty_iff] at hpath
  split
  · exact LawfulAt.pure _
  split
  · exact lawfulAt_makeParents operand [] path hs hnames ⟨_, rfl, hs.fileSystem.root⟩
  · exact lawful_makeDirectory operand hnames hpath now s hs

/-! ## Removing nodes -/

/-- A node that is there and does not lead to the working directory can be removed. -/
theorem LawfulAt.removeAt_bind {next : Bool → Shell β} {node : Node} (hs : s.Sound)
    (hat : s.fileSystem.root.at? path = some node) (hbusy : ¬ isBusy s path = true)
    (hnext : ∀ s', LawfulAt now s' (next true)) :
    LawfulAt now s (removeAt path >>= next) := by
  rw [isBusy, List.isPrefixOf_iff_prefix] at hbusy
  -- The root leads to every working directory, so it is always busy.
  have hpath : path ≠ [] := by
    rintro rfl
    exact hbusy List.nil_prefix
  rw [← dropLast_append_lastName hpath] at hat hbusy
  obtain ⟨info, entries, hdir, hfind⟩ := Node.exists_directory_of_at?_entry hat
  have hmem : Table.contains entries (lastName path) = true := by
    rw [Table.contains_iff]
    exact Table.mem_names_of_mem (Table.mem_of_find? hfind)
  exact LawfulAt.changeTree_bind
    (FileSystem.deleteEntry_of_mem hs.fileSystem.whole hdir hmem) (.remove hdir hmem hbusy)
    (hnext _)

/-- Removing one operand takes a node away or changes nothing. -/
theorem lawful_rmOne (recursive force : Bool) (operand : String) :
    (rmOne recursive force operand).Lawful := by
  intro now s hs
  refine LawfulAt.session_bind ?_
  dsimp only
  generalize s.fileSystem.resolve operand = path
  refine LawfulAt.node?_bind hs ?_
  split
  · exact LawfulAt.pure _
  · rename_i node hat
    split
    · exact LawfulAt.pure _
    refine LawfulAt.session_bind ?_
    split
    · exact LawfulAt.pure _
    · rename_i hbusy
      exact LawfulAt.removeAt_bind hs hat hbusy fun _ => LawfulAt.pure _

/-- So does removing a directory, which has to be empty. -/
theorem lawful_rmdirOne (operand : String) : (rmdirOne operand).Lawful := by
  intro now s hs
  refine LawfulAt.session_bind ?_
  dsimp only
  generalize s.fileSystem.resolve operand = path
  refine LawfulAt.node?_bind hs ?_
  split
  · exact LawfulAt.pure _
  · rename_i node hat
    split
    · exact LawfulAt.pure _
    split
    · exact LawfulAt.pure _
    refine LawfulAt.session_bind ?_
    split
    · exact LawfulAt.pure _
    · rename_i hbusy
      exact LawfulAt.removeAt_bind hs hat hbusy fun _ => LawfulAt.pure _

/-! ## Operands -/

/-- What is lawful for one operand is lawful for all of them in a row. -/
theorem lawful_forEach (operands : List String) {step : String → Shell (Option String)}
    (hstep : ∀ operand, (step operand).Lawful) : (forEach operands step).Lawful := by
  induction operands with
  | nil => exact Lawful.pure _
  | cons operand rest ih =>
    refine (hstep operand).bind fun message => ?_
    cases message with
    | some message => exact Lawful.pure _
    | none => exact ih

end Builtin

end VirtualShell
