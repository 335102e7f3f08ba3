import VirtualShell.Proofs.Path
import VirtualShell.Proofs.Tree.Position

/-!
# Sound file systems

What every command relies on: the root is a directory, no directory has lost its entries, the
entries of a directory are a map in which every node stands under its own name, the names can be
written in a path, and the working directory is there.

All but the first and the last are asked of every node by its path and its face, so the four ways to
change a node (`touch`, putting an entry, erasing an entry, a new content) are looked at once each:
what they do to the face, and which nodes lie below.
-/

namespace VirtualShell

namespace Node

/-! ## What a change does to a node -/

/-- A touch keeps the entries. -/
@[simp]
theorem entries_touch (now : Timestamp) (n : Node) : (n.touch now).entries = n.entries := by
  cases n <;> rfl

/-- A touch keeps a file a file. -/
@[simp]
theorem isFile_touch (now : Timestamp) (n : Node) : (n.touch now).isFile = n.isFile := by
  cases n <;> rfl

/-- A touch keeps a directory a directory. -/
@[simp]
theorem isDirectory_touch (now : Timestamp) (n : Node) :
    (n.touch now).isDirectory = n.isDirectory := by
  rw [isDirectory, isDirectory, isFile_touch]

/-- A touch keeps the size. -/
@[simp]
theorem totalSize_touch (now : Timestamp) (n : Node) : (n.touch now).totalSize = n.totalSize := by
  cases n <;> simp [touch, mapInfo, totalSize]

/-- A touch changes the time of change and nothing else. -/
theorem face_touch (now : Timestamp) (n : Node) :
    (n.touch now).face = { n.face with info := { n.face.info with modifiedAt := now } } := by
  cases n <;> rfl

/-- What holds everywhere in a node holds everywhere in one of which every entry is an entry of the
first or keeps it by itself. -/
theorem Everywhere.of_entries {P : Path → Face → Prop} {n m : Node} (h : n.Everywhere P)
    (hroot : P [] m.face)
    (hentry : ∀ name child, Table.find? m.entries name = some child →
      Table.find? n.entries name = some child ∨ child.Everywhere fun q face => P (name :: q) face) :
    m.Everywhere P := by
  refine everywhere_of_entries hroot fun name child hchild => ?_
  rcases hentry name child hchild with hold | hnew
  · intro q k hk
    refine h (name :: q) k ?_
    rw [at?_cons, hold]
    exact hk
  · exact hnew

/-! ## What the changes of a tree keep everywhere -/

section Everywhere

variable {P : Path → Face → Prop} {n node : Node} {path : Path} {info : NodeInfo}
  {entries : Table Node} {name : String} {now : Timestamp}

/-- A touch keeps what holds everywhere if it holds of the touched face. -/
theorem Everywhere.touchAt (h : n.Everywhere P)
    (hface : ∀ m, n.at? path = some m → P path (m.touch now).face) :
    (n.modifyAt (Node.touch now) path).Everywhere P := by
  refine h.modifyAt fun m hm => ?_
  refine (h.below hm).of_entries ?_ fun name child hchild => ?_
  · rw [List.append_nil]
    exact hface m hm
  · rw [entries_touch] at hchild
    exact .inl hchild

/-- A directory with other entries keeps what holds everywhere if it holds of its face, and of every
entry that it did not have before. -/
theorem Everywhere.mapEntriesAt {f : Table Node → Table Node} (h : n.Everywhere P)
    (hat : n.at? path = some (.directory info entries))
    (hface : P path ((directory info (f entries)).touch now).face)
    (hf : ∀ name child, Table.find? (f entries) name = some child →
      Table.find? entries name = some child ∨
        child.Everywhere fun q face => P (path ++ name :: q) face) :
    (n.modifyAt (fun d => (d.mapEntries f).touch now) path).Everywhere P := by
  refine h.modifyAt fun m hm => ?_
  rw [hat] at hm
  cases hm
  refine (h.below hat).of_entries ?_ fun name child hchild => ?_
  · rw [List.append_nil]
    exact hface
  · rw [entries_touch] at hchild
    exact hf name child hchild

/-- In particular if an entry is put into it. -/
theorem Everywhere.putAt (h : n.Everywhere P) (hat : n.at? path = some (.directory info entries))
    (hface : P path ((directory info (entries.put name node)).touch now).face)
    (hnode : node.Everywhere fun q face => P (path ++ name :: q) face) :
    (n.modifyAt (fun d => (d.mapEntries (·.put name node)).touch now) path).Everywhere P := by
  refine h.mapEntriesAt hat hface fun other child hchild => ?_
  by_cases hother : other = name
  · subst hother
    rw [Table.find?_put_self] at hchild
    cases hchild
    exact .inr hnode
  · rw [Table.find?_put_of_ne _ _ hother] at hchild
    exact .inl hchild

/-- Or if one is deleted from it. -/
theorem Everywhere.eraseAt (h : n.Everywhere P) (hat : n.at? path = some (.directory info entries))
    (hface : P path ((directory info (entries.erase name)).touch now).face) :
    (n.modifyAt (fun d => (d.mapEntries (·.erase name)).touch now) path).Everywhere P := by
  refine h.mapEntriesAt hat hface fun other child hchild => ?_
  by_cases hother : other = name
  · rw [hother, Table.find?_erase_self] at hchild
    cases hchild
  · rw [Table.find?_erase_of_ne _ hother] at hchild
    exact .inl hchild

/-- A file that is written keeps what holds everywhere if it holds of its new face. -/
theorem Everywhere.writeAt {old content : String} (h : n.Everywhere P)
    (hat : n.at? path = some (.file info old))
    (hface : P path (((file info old).withContent content).touch now).face) :
    (n.modifyAt (fun d => (d.withContent content).touch now) path).Everywhere P := by
  refine h.modifyAt fun m hm => ?_
  rw [hat] at hm
  cases hm
  refine everywhere_of_entries ?_ nofun
  rw [List.append_nil]
  exact hface

/-- A node of its own, as the shell makes it: a file, or a directory without entries. -/
inductive IsNew (now : Timestamp) (name : String) : Node → Prop
  | file (content : String) : IsNew now name (newFile now name content)
  | directory : IsNew now name (newDirectory now name)

/-- A new node has no entries. -/
theorem IsNew.entries_eq (h : node.IsNew now name) : node.entries = [] := by
  cases h <;> rfl

/-- So what holds of its face holds everywhere in it. -/
theorem IsNew.everywhere (h : node.IsNew now name) (hface : P [] node.face) : node.Everywhere P := by
  refine everywhere_of_entries hface fun below child hchild => ?_
  rw [h.entries_eq] at hchild
  cases hchild

end Everywhere

/-! ## Directories -/

/-- A directory at a path. -/
def HasDirectory (n : Node) (path : Path) : Prop :=
  ∃ m, n.at? path = some m ∧ m.isDirectory = true

/-- In a whole tree, a directory at a path has its entries. -/
theorem HasDirectory.eq_directory {n : Node} {path : Path} (h : n.HasDirectory path)
    (hwhole : n.Whole) : ∃ info entries, n.at? path = some (.directory info entries) := by
  obtain ⟨m, hm, hdir⟩ := h
  cases m with
  | directory info entries => exact ⟨info, entries, hm⟩
  | file info content => cases hdir
  | hollow info => exact absurd hm (hwhole path info)

/-- A node shows at its face whether it is a directory. -/
theorem isDirectory_eq_of_face {n m : Node} (h : n.face = m.face) :
    n.isDirectory = m.isDirectory := by
  cases n <;> cases m <;> simp_all [face, isDirectory, isFile]

/-- A change keeps the directory at a path if it keeps it at and below its own place. -/
theorem HasDirectory.modifyAt {n : Node} {f : Node → Node} {p path : Path}
    (h : n.HasDirectory path)
    (hf : ∀ m q, n.at? p = some m → path = p ++ q → m.HasDirectory q → (f m).HasDirectory q) :
    (n.modifyAt f p).HasDirectory path := by
  obtain ⟨d, hd, hdir⟩ := h
  by_cases hp : p <+: path
  · obtain ⟨q, rfl⟩ := hp
    rw [at?_append] at hd
    obtain ⟨m, hm, hq⟩ := Option.bind_eq_some_iff.mp hd
    obtain ⟨k, hk, hkdir⟩ := hf m q hm rfl ⟨d, hq, hdir⟩
    refine ⟨k, ?_, hkdir⟩
    rw [at?_modifyAt_append, hm]
    exact hk
  · have hface := face_at?_modifyAt f n hp
    rw [hd, Option.map_some] at hface
    obtain ⟨k, hk, hkface⟩ := Option.map_eq_some_iff.mp hface
    exact ⟨k, hk, by rw [isDirectory_eq_of_face hkface, hdir]⟩

/-- A directory below a node lies below one that has the entry on the way to it as well. -/
theorem HasDirectory.of_entries {n m : Node} {path : Path} (h : n.HasDirectory path)
    (hroot : n.isDirectory = true → m.isDirectory = true)
    (hentry : ∀ name rest child, path = name :: rest → Table.find? n.entries name = some child →
      Table.find? m.entries name = some child) : m.HasDirectory path := by
  obtain ⟨d, hd, hdir⟩ := h
  cases path with
  | nil =>
    cases hd
    exact ⟨m, rfl, hroot hdir⟩
  | cons name rest =>
    rw [at?_cons] at hd
    obtain ⟨child, hchild, hrest⟩ := Option.bind_eq_some_iff.mp hd
    refine ⟨d, ?_, hdir⟩
    rw [at?_cons, hentry name rest child rfl hchild]
    exact hrest

/-! ## Soundness of a tree -/

/-- What is asked of the node at a path. -/
structure Face.Sound (path : Path) (face : Face) : Prop where
  /-- A node without a content is a directory that has its entries. -/
  whole : face.content = none → face.names ≠ none
  /-- No two entries of a directory have the same name. -/
  distinct : ∀ names, face.names = some names → names.Nodup
  /-- The node bears the name under which it is kept, and that can be written in a path. -/
  named : ∀ name, path.getLast? = some name → face.info.name = name ∧ Path.IsName name

/-- A tree in which every node is as it should be. -/
def Sound (n : Node) : Prop :=
  n.Everywhere Face.Sound

/-- A sound tree is whole. -/
theorem Sound.isWhole {n : Node} (h : n.Sound) : n.Whole := by
  intro path info hat
  exact (h path _ hat).whole rfl rfl

/-- The entries of a directory of a sound tree differ in their names. -/
theorem Sound.distinct {n : Node} {path : Path} {info : NodeInfo} {entries : Table Node}
    (h : n.Sound) (hat : n.at? path = some (.directory info entries)) : entries.Distinct :=
  (h path _ hat).distinct _ rfl

/-- A path that leads somewhere leads through names. -/
theorem Sound.isName_of_mem {n m : Node} {path : Path} (h : n.Sound) (hat : n.at? path = some m) :
    ∀ name ∈ path, Path.IsName name := by
  intro name hmem
  obtain ⟨p, q, rfl⟩ := List.append_of_mem hmem
  rw [show p ++ name :: q = (p ++ [name]) ++ q from by simp, at?_append] at hat
  obtain ⟨k, hk, -⟩ := Option.bind_eq_some_iff.mp hat
  exact ((h _ k hk).named name List.getLast?_concat).2

/-! ## Changes that keep a tree sound -/

/-- A new node is sound at a path that ends in its name. -/
theorem IsNew.sound_face {now : Timestamp} {name : String} {n : Node} {path : Path}
    (h : n.IsNew now name) (hname : Path.IsName name) (hlast : path.getLast? = some name) :
    Face.Sound path n.face := by
  have hnamed : ∀ other, path.getLast? = some other → name = other ∧ Path.IsName other := by
    intro other hother
    rw [hlast] at hother
    cases hother
    exact ⟨rfl, hname⟩
  cases h with
  | file content => exact ⟨nofun, nofun, hnamed⟩
  | directory =>
    refine ⟨nofun, fun names hn => ?_, hnamed⟩
    cases hn
    exact List.nodup_nil

/-- A touch keeps a face sound. -/
theorem Face.Sound.touch {now : Timestamp} {path : Path} {n : Node} (h : Face.Sound path n.face) :
    Face.Sound path (n.touch now).face := by
  rw [face_touch]
  exact ⟨h.whole, h.distinct, h.named⟩

/-- A touch anywhere keeps a tree sound. -/
theorem Sound.touchAt {n : Node} (h : n.Sound) (now : Timestamp) (path : Path) :
    (n.modifyAt (Node.touch now) path).Sound :=
  Everywhere.touchAt h fun m hm => Face.Sound.touch (h path m hm)

/-- A new node under a new name keeps a tree sound. -/
theorem Sound.putAt {n node : Node} {path : Path} {info : NodeInfo} {entries : Table Node}
    {now : Timestamp} {name : String} (h : n.Sound)
    (hat : n.at? path = some (.directory info entries)) (hnode : node.IsNew now name)
    (hname : Path.IsName name) :
    (n.modifyAt (fun d => (d.mapEntries (·.put name node)).touch now) path).Sound := by
  have hface := h path _ hat
  refine Everywhere.putAt h hat (Face.Sound.touch ⟨nofun, fun names hn => ?_, hface.named⟩) ?_
  · cases hn
    exact Table.Distinct.put (hface.distinct _ rfl) name node
  · exact hnode.everywhere (hnode.sound_face hname List.getLast?_concat)

/-- Deleting an entry keeps a tree sound. -/
theorem Sound.eraseAt {n : Node} {path : Path} {info : NodeInfo} {entries : Table Node}
    {now : Timestamp} (h : n.Sound) (hat : n.at? path = some (.directory info entries))
    (name : String) :
    (n.modifyAt (fun d => (d.mapEntries (·.erase name)).touch now) path).Sound := by
  have hface := h path _ hat
  refine Everywhere.eraseAt h hat (Face.Sound.touch ⟨nofun, fun names hn => ?_, hface.named⟩)
  cases hn
  exact Table.Distinct.erase (hface.distinct _ rfl) name

/-- Writing a file keeps a tree sound. -/
theorem Sound.writeAt {n : Node} {path : Path} {info : NodeInfo} {old : String} {now : Timestamp}
    (h : n.Sound) (hat : n.at? path = some (.file info old)) (content : String) :
    (n.modifyAt (fun d => (d.withContent content).touch now) path).Sound :=
  Everywhere.writeAt h hat (Face.Sound.touch ⟨nofun, nofun, (h path _ hat).named⟩)

end Node

/-! ## Soundness of a file system -/

/-- A sound tree with a working directory in it. -/
structure FileSystem.Sound (fs : FileSystem) : Prop where
  root : fs.root.isDirectory = true
  tree : fs.root.Sound
  cwd : fs.root.HasDirectory fs.cwd

namespace FileSystem.Sound

variable {fs : FileSystem}

/-- The tree of a sound file system is whole. -/
theorem whole (h : fs.Sound) : fs.root.Whole :=
  h.tree.isWhole

/-- The working directory of a sound file system is made of names. -/
theorem isName_of_mem_cwd (h : fs.Sound) : ∀ name ∈ fs.cwd, Path.IsName name := by
  obtain ⟨n, hn, -⟩ := h.cwd
  exact h.tree.isName_of_mem hn

/-- What a user types names a path through names. -/
theorem isName_of_mem_resolve (h : fs.Sound) (input : String) :
    ∀ name ∈ fs.resolve input, Path.IsName name :=
  Path.isName_of_mem_resolve h.isName_of_mem_cwd input

/-- In a sound file system the search for a node meets no fault and answers with the node at the
path. -/
theorem node?_eq (h : fs.Sound) (path : Path) : fs.node? path = .ok (fs.root.at? path) :=
  FileSystem.node?_eq h.whole path

end FileSystem.Sound

end VirtualShell
