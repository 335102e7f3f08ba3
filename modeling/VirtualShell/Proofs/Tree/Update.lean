import VirtualShell.Proofs.Tree.Position

/-!
# The four ways to change a tree

In a whole tree none of them meets a fault, and each is decided by the nodes at two paths: the
directory that is changed, and the entry in it.
-/

namespace VirtualShell.FileSystem

variable {fs : FileSystem} {now : Timestamp} {path : Path} {info : NodeInfo}
  {entries : Table Node} {name content : String}

/-- The directory at a path is found with its entries. -/
theorem directory?_of_directory (h : fs.root.Whole)
    (hat : fs.root.at? path = some (.directory info entries)) :
    fs.directory? path = .ok (some entries) := by
  rw [directory?_eq h, hat]

/-- No directory is found at a path where a file or nothing stands. -/
theorem directory?_of_not_directory (h : fs.root.Whole)
    (hat : ∀ info entries, fs.root.at? path ≠ some (.directory info entries)) :
    fs.directory? path = .ok none := by
  rw [directory?_eq h]
  cases hn : fs.root.at? path with
  | none => rfl
  | some n =>
    cases n with
    | directory info entries => exact absurd hn (hat info entries)
    | file info content => rfl
    | hollow info => rfl

/-! ## Entries -/

/-- A node is put under its name into a directory, whose time of change becomes `now`; a node that
had the name is replaced. -/
theorem addEntry_of_directory (h : fs.root.Whole)
    (hat : fs.root.at? path = some (.directory info entries)) (node : Node) :
    fs.addEntry now path name node
      = .ok (some (fs.modifyAt path fun d => (d.mapEntries (·.put name node)).touch now)) := by
  rw [addEntry, directory?_of_directory h hat]
  rfl

/-- Outside a directory nothing is added. -/
theorem addEntry_of_not_directory (h : fs.root.Whole)
    (hat : ∀ info entries, fs.root.at? path ≠ some (.directory info entries)) (node : Node) :
    fs.addEntry now path name node = .ok none := by
  rw [addEntry, directory?_of_not_directory h hat]
  rfl

/-- A name that a directory holds is taken out of it, and its time of change becomes `now`. -/
theorem deleteEntry_of_mem (h : fs.root.Whole)
    (hat : fs.root.at? path = some (.directory info entries))
    (hmem : entries.contains name = true) :
    fs.deleteEntry now path name
      = .ok (some (fs.modifyAt path fun d => (d.mapEntries (·.erase name)).touch now)) := by
  rw [deleteEntry, directory?_of_directory h hat]
  change (if entries.contains name = true then _ else _) = _
  rw [if_pos hmem]
  rfl

/-- A name that a directory does not hold is not deleted. -/
theorem deleteEntry_of_not_mem (h : fs.root.Whole)
    (hat : fs.root.at? path = some (.directory info entries))
    (hmem : entries.contains name = false) : fs.deleteEntry now path name = .ok none := by
  rw [deleteEntry, directory?_of_directory h hat]
  change (if entries.contains name = true then _ else _) = _
  rw [hmem]
  rfl

/-- Outside a directory nothing is deleted. -/
theorem deleteEntry_of_not_directory (h : fs.root.Whole)
    (hat : ∀ info entries, fs.root.at? path ≠ some (.directory info entries)) :
    fs.deleteEntry now path name = .ok none := by
  rw [deleteEntry, directory?_of_not_directory h hat]
  rfl

/-! ## Contents -/

/-- A directory is not written over. -/
theorem writeFile_of_directory (h : fs.root.Whole)
    (hat : fs.root.at? path = some (.directory info entries)) :
    fs.writeFile now path content = .ok none := by
  rw [writeFile, node?_eq h, hat]
  cases path.getLast? <;> rfl

/-- A file that is written has the new content, and the time of its change is `now`. -/
theorem writeFile_of_file {old : String} (h : fs.root.Whole) (hpath : path ≠ [])
    (hat : fs.root.at? path = some (.file info old)) :
    fs.writeFile now path content
      = .ok (some (fs.modifyAt path fun n => (n.withContent content).touch now)) := by
  rw [writeFile, List.getLast?_eq_getLast_of_ne_nil hpath, node?_eq h, hat]
  rfl

/-- Writing where nothing stands creates the file. -/
theorem writeFile_of_missing (h : fs.root.Whole) (hat : fs.root.at? (path ++ [name]) = none) :
    fs.writeFile now (path ++ [name]) content = fs.createFile now path name content := by
  rw [writeFile, List.getLast?_concat, node?_eq h, hat, List.dropLast_concat]
  rfl

end VirtualShell.FileSystem
