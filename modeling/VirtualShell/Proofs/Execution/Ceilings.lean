import VirtualShell.Proofs.Builtin.Limits
import VirtualShell.Proofs.Execution.Runs

/-!
# The limits hold over whole runs

A tree is within the limits if no file and no directory in it is too big, no path in it is too deep,
and all its files together are not too big. The changes that make a tree grow have passed the check
of the limits, and the size of the tree changes by exactly what the changed node gains or loses, so
a tree within the limits stays within them (`within_limits_after_each_line`).
-/

namespace VirtualShell

open Limits

/-- What the limits ask of the node at a path. -/
structure Node.Face.WithinLimits (path : Path) (face : Face) : Prop where
  depth : path.length ≤ maxDepth
  file : ∀ content, face.content = some content → content.length ≤ maxFileSize
  entries : ∀ names, face.names = some names → names.length ≤ maxEntries

instance (path : Path) (face : Node.Face) : Decidable (Node.Face.WithinLimits path face) :=
  decidable_of_iff
    (path.length ≤ maxDepth ∧ (∀ content ∈ face.content, content.length ≤ maxFileSize) ∧
      ∀ names ∈ face.names, names.length ≤ maxEntries)
    ⟨fun h => ⟨h.1, h.2.1, h.2.2⟩, fun h => ⟨h.depth, h.file, h.entries⟩⟩

/-- A tree that breaks no limit. -/
structure FileSystem.WithinLimits (fs : FileSystem) : Prop where
  nodes : fs.root.Everywhere Node.Face.WithinLimits
  size : fs.root.totalSize ≤ maxTreeSize

namespace Node

variable {n node : Node} {path : Path} {info : NodeInfo} {entries : Table Node} {name : String}
  {now : Timestamp}

/-- Touching a node leaves it within the limits. -/
theorem Face.WithinLimits.touch (h : Face.WithinLimits path n.face) :
    Face.WithinLimits path (n.touch now).face := by
  rw [face_touch]
  exact ⟨h.depth, h.file, h.entries⟩

/-! ## The nodes -/

/-- So does touching a node of a tree. -/
theorem withinLimits_touchAt (h : n.Everywhere Face.WithinLimits) (path : Path) :
    (n.modifyAt (Node.touch now) path).Everywhere Face.WithinLimits :=
  h.touchAt fun m hm => (h path m hm).touch

/-- A new node of at most the greatest size breaks no limit at a path that is not too deep. -/
theorem IsNew.withinLimits (hnode : node.IsNew now name) (hdepth : path.length ≤ maxDepth)
    (hsize : node.totalSize ≤ maxFileSize) : Face.WithinLimits path node.face := by
  refine ⟨hdepth, fun content hc => ?_, fun names hn => ?_⟩
  · cases hnode with
    | file content =>
      cases hc
      exact hsize
    | directory => cases hc
  · cases hnode with
    | file content => cases hn
    | directory =>
      cases hn
      exact Nat.zero_le _

/-- A new entry in a directory that has room, neither too deep nor too long. -/
theorem withinLimits_putAt (h : n.Everywhere Face.WithinLimits)
    (hat : n.at? path = some (.directory info entries)) (hnode : node.IsNew now name)
    (hdepth : (path ++ [name]).length ≤ maxDepth) (hsize : node.totalSize ≤ maxFileSize)
    (hroom : entries.length < maxEntries) (hnew : Table.find? entries name = none) :
    (n.modifyAt (fun d => (d.mapEntries (·.put name node)).touch now) path).Everywhere
      Face.WithinLimits := by
  have hface := h path _ hat
  refine h.putAt hat (Face.WithinLimits.touch ⟨hface.depth, nofun, fun names hn => ?_⟩) ?_
  · cases hn
    rw [Table.names_put_of_not_mem _ (Table.find?_eq_none_iff.mp hnew), List.length_append,
      Table.length_names]
    exact hroom
  · exact hnode.everywhere (hnode.withinLimits hdepth hsize)

/-- A file that is written with no more than the greatest size stays within the limits. -/
theorem withinLimits_writeAt {old content : String} (h : n.Everywhere Face.WithinLimits)
    (hat : n.at? path = some (.file info old)) (hsize : content.length ≤ maxFileSize) :
    (n.modifyAt (fun d => (d.withContent content).touch now) path).Everywhere
      Face.WithinLimits := by
  refine h.writeAt hat (Face.WithinLimits.touch ⟨(h path _ hat).depth, fun text ht => ?_, nofun⟩)
  cases ht
  exact hsize

/-- Removing an entry leaves a tree within the limits. -/
theorem withinLimits_eraseAt (h : n.Everywhere Face.WithinLimits)
    (hat : n.at? path = some (.directory info entries)) :
    (n.modifyAt (fun d => (d.mapEntries (·.erase name)).touch now) path).Everywhere
      Face.WithinLimits := by
  have hface := h path _ hat
  refine h.eraseAt hat (Face.WithinLimits.touch ⟨hface.depth, nofun, fun names hn => ?_⟩)
  cases hn
  rw [Table.names_erase]
  exact Nat.le_trans (List.length_filter_le _ _) (hface.entries _ rfl)

/-! ## The size -/

/-- Touching a node changes no size. -/
theorem totalSize_touchAt (n : Node) (path : Path) :
    (n.modifyAt (Node.touch now) path).totalSize = n.totalSize := by
  cases hat : n.at? path with
  | none => rw [modifyAt_of_at?_eq_none _ hat]
  | some m =>
    have htotal := totalSize_modifyAt (Node.touch now) hat
    rw [totalSize_touch] at htotal
    omega

/-- A new entry adds its size to that of the tree. -/
theorem totalSize_putAt (hat : n.at? path = some (.directory info entries))
    (hnew : Table.find? entries name = none) :
    (n.modifyAt (fun d => (d.mapEntries (·.put name node)).touch now) path).totalSize
      = n.totalSize + node.totalSize := by
  have htotal := totalSize_modifyAt (fun d => (d.mapEntries (·.put name node)).touch now) hat
  have hentries : totalSizes (Table.put entries name node)
      = totalSizes entries + node.totalSize := by
    rw [Table.put_of_not_mem _ (Table.find?_eq_none_iff.mp hnew), totalSizes_append]
    rfl
  rw [totalSize_touch, mapEntries, totalSize, totalSize, hentries] at htotal
  omega

/-- A new content takes the place of the old one. -/
theorem totalSize_writeAt {old : String} (hat : n.at? path = some (.file info old))
    (now : Timestamp) (content : String) :
    (n.modifyAt (fun d => (d.withContent content).touch now) path).totalSize + old.length
      = n.totalSize + content.length := by
  have htotal := totalSize_modifyAt (fun d => (d.withContent content).touch now) hat
  rw [totalSize_touch, withContent, totalSize, totalSize] at htotal
  exact htotal

/-- Removing an entry makes a tree no larger. -/
theorem totalSize_eraseAt_le (hat : n.at? path = some (.directory info entries)) (name : String) :
    (n.modifyAt (fun d => (d.mapEntries (·.erase name)).touch now) path).totalSize
      ≤ n.totalSize := by
  have htotal := totalSize_modifyAt (fun d => (d.mapEntries (·.erase name)).touch now) hat
  have hle := totalSizes_erase_le entries name
  rw [totalSize_touch, mapEntries, totalSize, totalSize] at htotal
  omega

end Node

/-! ## Changes -/

open Node

/-- A change of the listed kinds leaves a file system within the limits. -/
theorem FileSystem.Change.withinLimits {now : Timestamp} {fs fs' : FileSystem}
    (h : fs.Change now fs') (hs : fs.Sound) (hlimits : fs.WithinLimits) : fs'.WithinLimits := by
  obtain ⟨hnodes, htotal⟩ := hlimits
  cases h with
  | enter _ => exact ⟨hnodes, htotal⟩
  | touch path =>
    exact ⟨withinLimits_touchAt hnodes path, (totalSize_touchAt fs.root path).trans_le htotal⟩
  | add hat _ hnew hnode hcheck =>
    obtain ⟨hdepth, hsize, hroom, htree⟩ := (check_eq_ok_none_iff hs.whole).mp hcheck
    -- A new entry takes nothing away from the tree, so its whole length counts.
    rw [List.dropLast_concat] at hroom
    rw [Option.map_none, Option.getD_none] at htree
    refine ⟨withinLimits_putAt hnodes hat hnode hdepth hsize (hroom rfl _ hat) hnew, ?_⟩
    refine (totalSize_putAt hat hnew).trans_le ?_
    omega
  | @write path info old content hat hcheck =>
    obtain ⟨-, hsize, -, htree⟩ := (check_eq_ok_none_iff hs.whole).mp hcheck
    -- The check credits the old content, which is exactly what the tree loses.
    rw [Option.map_some, Option.getD_some, Node.size] at htree
    refine ⟨withinLimits_writeAt hnodes hat hsize, ?_⟩
    have hnew := totalSize_writeAt hat now content
    rw [FileSystem.root_modifyAt]
    omega
  | remove hat _ _ =>
    exact ⟨withinLimits_eraseAt hnodes hat, (totalSize_eraseAt_le hat _).trans htotal⟩

/-! ## Runs -/

/-- So does executing a line. -/
theorem Session.withinLimits_execute {s : Session} (hs : s.Sound)
    (hlimits : s.fileSystem.WithinLimits) (line : String) (now : Timestamp) :
    ((Execution.execute line).run now s).session.fileSystem.WithinLimits := by
  have hchange : ∀ {s s' : Session}, s.Sound → s.Change now s' →
      s.fileSystem.WithinLimits → s'.fileSystem.WithinLimits := by
    intro s s' hs hchange hlimits
    cases hchange with
    | fileSystem h => exact h.withinLimits hs.fileSystem hlimits
    | _ => exact hlimits
  have hchanges := Execution.changes_runLine hs line now
  rw [(Execution.run_execute line now s).2]
  exact (hchanges.keeps (P := fun s => s.fileSystem.WithinLimits) hchange hs hlimits).2

/-- A tree that breaks no limit breaks none after any line of any run. -/
theorem Execution.within_limits_after_each_line {s : Session} (hs : s.Sound)
    (hlimits : s.fileSystem.WithinLimits) (calls : List (Timestamp × String)) :
    (s.afterLines calls).fileSystem.WithinLimits :=
  (Session.keeps_afterLines (P := fun s => s.fileSystem.WithinLimits)
    Session.withinLimits_execute hs hlimits calls).2

/-- A small tree, in which output is appended to a file and directories are made in a row. -/
theorem Execution.within_limits_after_append :
    let file := Node.newFile .epoch "a" "hello"
    let fs : FileSystem :=
      { root := .newDirectory .epoch "/" [("tmp", .newDirectory .epoch "tmp" [("a", file)])]
        cwd := ["tmp"] }
    let s := Session.new fs
    let calls := [(.epoch, "cat a | sort >> a"), (.epoch, "mkdir -p b/c/d")]
    s.Sound ∧ fs.WithinLimits ∧ (s.afterLines calls).fileSystem.WithinLimits := by
  intro file fs s calls
  have hfs : fs.Sound := ⟨rfl, Node.everywhere_of_decide (by decide), ⟨_, rfl, rfl⟩⟩
  have hs : s.Sound := Session.sound_new hfs _ _
  have hlimits : fs.WithinLimits := ⟨Node.everywhere_of_decide (by decide), by decide⟩
  exact ⟨hs, hlimits, Execution.within_limits_after_each_line hs hlimits calls⟩

end VirtualShell
