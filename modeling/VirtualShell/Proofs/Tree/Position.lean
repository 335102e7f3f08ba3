import VirtualShell.Tree.FileSystem
import VirtualShell.Proofs.Table
import Mathlib.Data.List.Infix

/-!
# Nodes at paths

`Node.at?` reads a tree as a partial map from paths to nodes. A walk through a tree that has lost no
entries is such a reading (`walk_eq_at?`), and a change at one path is an update of that map: at and
below the path the changed node is read (`at?_modifyAt_append`), and everywhere else a node keeps
its face, which is all that can be seen of it without going further down (`face_at?_modifyAt`).

Whatever is asked of every node by its path and its face, a change has to re-establish only at and
below the place where it happens (`Everywhere.modifyAt`).
-/

namespace VirtualShell

namespace Node

/-- The node at a path below this one. -/
def at? : Path → Node → Option Node
  | [], n => some n
  | name :: rest, n => (Table.find? n.entries name).bind (at? rest)

@[simp]
theorem at?_nil (n : Node) : n.at? [] = some n := rfl

/-- A path is followed one name at a time. -/
theorem at?_cons (n : Node) (name : String) (rest : Path) :
    n.at? (name :: rest) = (Table.find? n.entries name).bind (at? rest) := rfl

/-- Going down along two paths in a row. -/
theorem at?_append (n : Node) (p q : Path) : n.at? (p ++ q) = (n.at? p).bind (at? q) := by
  induction p generalizing n with
  | nil => rfl
  | cons name rest ih =>
    rw [List.cons_append, at?_cons, at?_cons]
    cases Table.find? n.entries name with
    | none => rfl
    | some child => exact ih child

/-- In a map of entries, the node at an entry is the node of that entry. -/
theorem at?_directory_of_mem {info : NodeInfo} {entries : Table Node} {name : String} {child : Node}
    (hd : entries.Distinct) (h : (name, child) ∈ entries) (rest : Path) :
    (Node.directory info entries).at? (name :: rest) = child.at? rest := by
  rw [at?_cons, Node.entries, Table.find?_of_mem hd h, Option.bind_some]

/-! ## Walks -/

/-- No directory has lost its entries. -/
def Whole (n : Node) : Prop :=
  ∀ path info, n.at? path ≠ some (.hollow info)

/-- The entries of a whole tree are whole. -/
theorem Whole.child {n child : Node} {name : String} (h : n.Whole)
    (hc : Table.find? n.entries name = some child) : child.Whole := by
  intro path info hat
  refine h (name :: path) info ?_
  rw [at?_cons, hc]
  exact hat

/-- A walk through a whole tree reads the node at its path and reports no fault. -/
theorem walk_eq_at? {n : Node} (h : n.Whole) (walked path : Path) :
    (n.walk walked path).map Lookup.node? = .ok (n.at? path) := by
  induction path generalizing n walked with
  | nil => rfl
  | cons name rest ih =>
    cases n with
    | file info content => rfl
    | hollow info => exact absurd rfl (h [] info)
    | directory info entries =>
      rw [walk, at?_cons, Node.entries]
      cases hf : Table.find? entries name with
      | none => rfl
      | some child => exact ih (h.child hf) _

/-! ## Faces -/

/-- What can be seen of a node without going down: what it has in common with all nodes, its content
if it is a file, and the names of its entries if it has any. -/
structure Face where
  info : NodeInfo
  content : Option String
  names : Option (List String)

/-- The face of a node. -/
def face : Node → Face
  | .file info content => ⟨info, some content, none⟩
  | .directory info entries => ⟨info, none, some (Table.names entries)⟩
  | .hollow info => ⟨info, none, none⟩

theorem face_directory (info : NodeInfo) (entries : Table Node) :
    (Node.directory info entries).face = ⟨info, none, some entries.names⟩ := rfl

/-- Only a directory has entries. -/
theorem eq_directory_of_find? {n child : Node} {name : String}
    (h : Table.find? n.entries name = some child) :
    ∃ info entries, n = .directory info entries ∧ Table.find? entries name = some child := by
  cases n with
  | directory info entries => exact ⟨info, entries, rfl, h⟩
  | file info content => simp [entries] at h
  | hollow info => simp [entries] at h

/-- The node at a name is the entry of that name. -/
theorem at?_singleton (n : Node) (name : String) : n.at? [name] = Table.find? n.entries name :=
  Option.bind_fun_some _

/-- The node at an entry of a directory. -/
theorem at?_entry {n : Node} {path : Path} {info : NodeInfo} {entries : Table Node} (name : String)
    (h : n.at? path = some (.directory info entries)) :
    n.at? (path ++ [name]) = Table.find? entries name := by
  rw [at?_append, h, Option.bind_some, at?_singleton, Node.entries]

/-- Whatever stands at an entry stands in a directory. -/
theorem exists_directory_of_at?_entry {n m : Node} {path : Path} {name : String}
    (h : n.at? (path ++ [name]) = some m) : ∃ info entries,
      n.at? path = some (.directory info entries) ∧ Table.find? entries name = some m := by
  rw [at?_append] at h
  obtain ⟨d, hd, hm⟩ := Option.bind_eq_some_iff.mp h
  rw [at?_singleton] at hm
  obtain ⟨info, entries, rfl, hfind⟩ := eq_directory_of_find? hm
  exact ⟨info, entries, hd, hfind⟩

/-! ## Changes -/

@[simp]
theorem modifyAt_nil (f : Node → Node) (n : Node) : n.modifyAt f [] = f n := rfl

/-- Below an entry that exists, its node is changed in the place it has. -/
theorem modifyAt_cons_of_some {n child : Node} {name : String} (f : Node → Node) (rest : Path)
    (h : Table.find? n.entries name = some child) :
    n.modifyAt f (name :: rest)
      = n.mapEntries fun entries => Table.put entries name (child.modifyAt f rest) := by
  obtain ⟨info, entries, rfl, hf⟩ := eq_directory_of_find? h
  rw [modifyAt, hf]
  rfl

/-- Below an entry that is missing, a change does nothing. -/
theorem modifyAt_cons_of_none {n : Node} {name : String} (f : Node → Node) (rest : Path)
    (h : Table.find? n.entries name = none) : n.modifyAt f (name :: rest) = n := by
  cases n with
  | directory info entries =>
    rw [Node.entries] at h
    rw [modifyAt, h]
  | file info content => rfl
  | hollow info => rfl

/-- Where there is no node, there is nothing to change. -/
theorem modifyAt_of_at?_eq_none (f : Node → Node) {n : Node} {p : Path} (h : n.at? p = none) :
    n.modifyAt f p = n := by
  induction p generalizing n with
  | nil => cases h
  | cons name rest ih =>
    rw [at?_cons] at h
    cases hchild : Table.find? n.entries name with
    | none => exact modifyAt_cons_of_none f rest hchild
    | some child =>
      rw [hchild, Option.bind_some] at h
      rw [modifyAt_cons_of_some f rest hchild, ih h]
      obtain ⟨info, entries, rfl, hfind⟩ := eq_directory_of_find? hchild
      rw [mapEntries, Table.put_of_find? hfind]

/-- Where an entry is found there is a directory, so its entries are changed. -/
theorem entries_mapEntries_of_find? {n child : Node} {name : String}
    (g : Table Node → Table Node) (h : Table.find? n.entries name = some child) :
    (n.mapEntries g).entries = g n.entries := by
  obtain ⟨info, entries, rfl, -⟩ := eq_directory_of_find? h
  rfl

/-- Replacing an entry does not show in the face of its directory. -/
theorem face_mapEntries_put {n child : Node} {name : String} (new : Node)
    (h : Table.find? n.entries name = some child) :
    (n.mapEntries fun entries => Table.put entries name new).face = n.face := by
  obtain ⟨info, entries, rfl, hf⟩ := eq_directory_of_find? h
  have hmem : name ∈ Table.names entries := by
    by_contra hnot
    rw [Table.find?_eq_none_iff.mpr hnot] at hf
    cases hf
  rw [mapEntries, face_directory, face_directory, Table.names_put_of_mem new hmem]

/-- At and below the path of a change the changed node is read. -/
theorem at?_modifyAt_append (f : Node → Node) (n : Node) (p q : Path) :
    (n.modifyAt f p).at? (p ++ q) = (n.at? p).bind fun m => (f m).at? q := by
  induction p generalizing n with
  | nil => rfl
  | cons name rest ih =>
    rw [List.cons_append, at?_cons n]
    cases h : Table.find? n.entries name with
    | none =>
      rw [modifyAt_cons_of_none f rest h, at?_cons, h]
      rfl
    | some child =>
      rw [modifyAt_cons_of_some f rest h, at?_cons, entries_mapEntries_of_find? _ h,
        Table.find?_put_self]
      exact ih child

/-- A node that does not lie at or below the path of a change keeps its face. -/
theorem face_at?_modifyAt (f : Node → Node) (n : Node) {p q : Path} (hpq : ¬ p <+: q) :
    ((n.modifyAt f p).at? q).map face = (n.at? q).map face := by
  induction p generalizing n q with
  | nil => exact absurd List.nil_prefix hpq
  | cons name rest ih =>
    cases h : Table.find? n.entries name with
    | none => rw [modifyAt_cons_of_none f rest h]
    | some child =>
      rw [modifyAt_cons_of_some f rest h]
      -- Above the changed place only an entry is replaced, which the face does not show; beside it
      -- nothing is touched.
      cases q with
      | nil =>
        rw [at?_nil, at?_nil, Option.map_some, Option.map_some, face_mapEntries_put _ h]
      | cons other q =>
        rw [at?_cons, at?_cons, entries_mapEntries_of_find? _ h]
        by_cases hname : other = name
        · subst hname
          rw [Table.find?_put_self, h]
          exact ih child fun hpre => hpq (List.cons_prefix_cons.mpr ⟨rfl, hpre⟩)
        · rw [Table.find?_put_of_ne _ _ hname]

/-! ## What holds everywhere -/

/-- Something holds of every node at or below this one, by its path from here and its face. -/
def Everywhere (P : Path → Face → Prop) (n : Node) : Prop :=
  ∀ path m, n.at? path = some m → P path m.face

/-- A change keeps what holds everywhere if it does so at and below its own place. -/
theorem Everywhere.modifyAt {P : Path → Face → Prop} {n : Node} {f : Node → Node} {p : Path}
    (h : n.Everywhere P)
    (hf : ∀ m, n.at? p = some m → (f m).Everywhere fun q face => P (p ++ q) face) :
    (n.modifyAt f p).Everywhere P := by
  intro path m hm
  -- At and below the changed place `hf` speaks; everywhere else the faces are the old ones.
  by_cases hp : p <+: path
  · obtain ⟨q, rfl⟩ := hp
    rw [at?_modifyAt_append] at hm
    obtain ⟨k, hk, hkm⟩ := Option.bind_eq_some_iff.mp hm
    exact hf k hk q m hkm
  · have hface := face_at?_modifyAt f n hp
    rw [hm, Option.map_some] at hface
    obtain ⟨k, hk, hkm⟩ := Option.map_eq_some_iff.mp hface.symm
    rw [← hkm]
    exact h path k hk

/-- What holds everywhere holds below any node, with the paths counted from there. -/
theorem Everywhere.below {P : Path → Face → Prop} {n m : Node} {p : Path} (h : n.Everywhere P)
    (hm : n.at? p = some m) : m.Everywhere fun q face => P (p ++ q) face := by
  intro q k hk
  refine h (p ++ q) k ?_
  rw [at?_append, hm]
  exact hk

/-- What holds of a node's face and everywhere below its entries holds everywhere. -/
theorem everywhere_of_entries {P : Path → Face → Prop} {n : Node} (hroot : P [] n.face)
    (hbelow : ∀ name child, Table.find? n.entries name = some child →
      child.Everywhere fun q face => P (name :: q) face) : n.Everywhere P := by
  intro path m hm
  cases path with
  | nil =>
    cases hm
    exact hroot
  | cons name rest =>
    rw [at?_cons] at hm
    obtain ⟨child, hchild, hrest⟩ := Option.bind_eq_some_iff.mp hm
    exact hbelow name child hchild rest m hrest

/-! ## The size of the tree -/

/-- Replacing an entry exchanges its size for the size of the new node. -/
theorem totalSizes_put_of_find? {entries : Table Node} {name : String} {child : Node} (new : Node)
    (h : Table.find? entries name = some child) :
    totalSizes (Table.put entries name new) + child.totalSize
      = totalSizes entries + new.totalSize := by
  induction entries with
  | nil => simp at h
  | cons entry rest ih =>
    obtain ⟨key, node⟩ := entry
    rw [Table.find?_cons] at h
    rw [Table.put_cons]
    dsimp only at h ⊢
    by_cases hkey : key = name
    · rw [if_pos hkey] at h
      cases h
      rw [if_pos hkey, totalSizes, totalSizes]
      omega
    · rw [if_neg hkey] at h
      have := ih h
      rw [if_neg hkey, totalSizes, totalSizes]
      omega

/-- Sizes add up over entries that follow one another. -/
theorem totalSizes_append (entries others : Table Node) :
    totalSizes (entries ++ others) = totalSizes entries + totalSizes others := by
  induction entries with
  | nil => simp [totalSizes]
  | cons entry rest ih =>
    rw [List.cons_append, totalSizes, totalSizes, ih]
    omega

/-- Deleting an entry makes no directory larger. -/
theorem totalSizes_erase_le (entries : Table Node) (name : String) :
    totalSizes (Table.erase entries name) ≤ totalSizes entries := by
  induction entries with
  | nil => simp [Table.erase]
  | cons entry rest ih =>
    rw [Table.erase] at ih ⊢
    rw [List.filter_cons, totalSizes]
    split
    · rw [totalSizes]
      omega
    · omega

/-- A change at a path changes the size of the tree by as much as it changes that of the node. -/
theorem totalSize_modifyAt (f : Node → Node) {n m : Node} {p : Path} (h : n.at? p = some m) :
    (n.modifyAt f p).totalSize + m.totalSize = n.totalSize + (f m).totalSize := by
  induction p generalizing n with
  | nil =>
    cases h
    rw [modifyAt_nil, Nat.add_comm]
  | cons name rest ih =>
    rw [at?_cons] at h
    obtain ⟨child, hchild, hrest⟩ := Option.bind_eq_some_iff.mp h
    -- The entry on the way changes by the difference, and so do the entries of this directory.
    have hput := totalSizes_put_of_find? (child.modifyAt f rest) hchild
    have hbelow := ih hrest
    rw [modifyAt_cons_of_some f rest hchild]
    obtain ⟨info, entries, rfl, -⟩ := eq_directory_of_find? hchild
    rw [mapEntries, totalSize, totalSize]
    rw [Node.entries] at hput
    omega

end Node

namespace FileSystem

@[simp]
theorem root_modifyAt (fs : FileSystem) (path : Path) (f : Node → Node) :
    (fs.modifyAt path f).root = fs.root.modifyAt f path := rfl

/-- In a whole tree the node at a path is read without a fault. -/
theorem node?_eq {fs : FileSystem} (h : fs.root.Whole) (path : Path) :
    fs.node? path = .ok (fs.root.at? path) :=
  Node.walk_eq_at? h [] path

/-- In a whole tree the search for a directory meets no fault and answers with the entries at its
path. -/
theorem directory?_eq {fs : FileSystem} (h : fs.root.Whole) (path : Path) :
    fs.directory? path = .ok (match fs.root.at? path with
      | some (.directory _ entries) => some entries
      | _ => none) := by
  rw [directory?, node?_eq h]
  cases hat : fs.root.at? path with
  | none => rfl
  | some n =>
    cases n with
    | file info content => rfl
    | directory info entries => rfl
    | hollow info => exact absurd hat (h path info)

end FileSystem

end VirtualShell
