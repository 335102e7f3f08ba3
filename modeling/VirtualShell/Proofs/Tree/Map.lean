import VirtualShell.Session
import VirtualShell.Proofs.Tree.Default
import VirtualShell.Proofs.Tree.Update
import Mathlib.Logic.Function.Basic

/-!
# A tree as a map of its paths

Seen from outside, a file system is a map: a walk along any path ends at a file, at a directory, or
nowhere, in one of two ways (`Sight`). The entries of a directory do not belong to what is seen of
it, since they are seen at the paths below.

The four ways to change a tree are updates of this map (`edits_update_map`). The nested update goes
down to one directory and changes one entry in it; in the map that stamps the path of the directory
and replaces what is seen at and below the path of the entry (`sightAt_changeEntry`), and nothing
else.
-/

namespace VirtualShell

/-! ## Sights -/

/-- What a walk along a path shows: how it ends and, of a node at its end, all but what is below. -/
inductive Sight where
  | file (info : NodeInfo) (content : String)
  | directory (info : NodeInfo)
  /-- A directory on the way has no entry of the next name. -/
  | missing
  /-- A file on the way is used as a directory. -/
  | notADirectory

namespace Sight

/-- Whether a directory is seen. -/
def isDirectory : Sight → Bool
  | .directory _ => true
  | _ => false

/-- Whether a node is seen. -/
def isNode : Sight → Bool
  | .file .. | .directory _ => true
  | .missing | .notADirectory => false

/-- The sight of a node that was changed at a moment. -/
def touch (now : Timestamp) : Sight → Sight
  | .file info content => .file { info with modifiedAt := now } content
  | .directory info => .directory { info with modifiedAt := now }
  | sight => sight

/-- The sight of a new file. -/
def newFile (now : Timestamp) (name content : String) : Sight :=
  .file { name, permissions := Node.filePermissions, createdAt := now, modifiedAt := now } content

/-- The sight of a new directory. -/
def newDirectory (now : Timestamp) (name : String) : Sight :=
  .directory
    { name, permissions := Node.directoryPermissions, createdAt := now, modifiedAt := now }

end Sight

/-- What is seen of a node. -/
def Node.sight : Node → Sight
  | .file info content => .file info content
  | .directory info _ => .directory info
  | .hollow info => .directory info

/-- What is seen at the end of a walk. -/
def Lookup.sight : Lookup → Sight
  | .found n => n.sight
  | .missing => .missing
  | .notADirectory => .notADirectory

/-- What is seen along every path. -/
abbrev Sights := Path → Sight

/-- Every walk through the file system ends without a fault and shows what the map tells. -/
def FileSystem.Shows (fs : FileSystem) (m : Sights) : Prop :=
  ∀ q, (fs.lookup q).map Lookup.sight = .ok (m q)

namespace Sights

/-- The map in which the node at a path was changed at a moment. -/
def stamp (m : Sights) (now : Timestamp) (path : Path) : Sights :=
  Function.update m path ((m path).touch now)

/-- The map with other sights at a path and below it. -/
def replace (m : Sights) (path : Path) (here below : Sight) : Sights := fun q =>
  if q = path then here else if path <+: q then below else m q

end Sights

/-! ## Edits -/

namespace FileSystem

/-- One of the four ways to change a tree, with what it is told. -/
inductive Edit where
  | createFile (path : Path) (name content : String)
  | createDirectory (path : Path) (name : String)
  | deleteEntry (path : Path) (name : String)
  | writeFile (path : Path) (content : String)

namespace Edit

/-- Makes the change. -/
def apply : Edit → Timestamp → FileSystem → Except TreeFault (Option FileSystem)
  | .createFile path name content, now, fs => fs.createFile now path name content
  | .createDirectory path name, now, fs => fs.createDirectory now path name
  | .deleteEntry path name, now, fs => fs.deleteEntry now path name
  | .writeFile path content, now, fs => fs.writeFile now path content

/-- Where a change is refused: an entry needs a directory to stand in, only an entry that is there
can be removed, and only a file can be written, which may be missing if there is a directory for
it. -/
def Refused (m : Sights) : Edit → Prop
  | .createFile path _ _ | .createDirectory path _ => ¬ (m path).isDirectory
  | .deleteEntry path name => ¬ (m path).isDirectory ∨ ¬ (m (path ++ [name])).isNode
  | .writeFile path _ =>
    path = [] ∨ (m path).isDirectory ∨ ¬ (m path).isNode ∧ ¬ (m path.dropLast).isDirectory

/-- The map in which a file has been made, or put in the place of what was there. -/
def fileMade (now : Timestamp) (path : Path) (name content : String) (m : Sights) : Sights :=
  (m.stamp now path).replace (path ++ [name]) (.newFile now name content) .notADirectory

/-- The map after a change that was not refused. -/
def update (now : Timestamp) (m : Sights) : Edit → Sights
  | .createFile path name content => fileMade now path name content m
  | .createDirectory path name =>
    (m.stamp now path).replace (path ++ [name]) (.newDirectory now name) .missing
  | .deleteEntry path name => (m.stamp now path).replace (path ++ [name]) .missing .missing
  | .writeFile path content =>
    match m path with
    | .file info _ => Function.update m path (.file { info with modifiedAt := now } content)
    | _ => fileMade now path.dropLast (path.getLast?.getD "") content m

/-- Writing a file that is missing makes it. -/
theorem update_writeFile_of_missing {m : Sights} {path : Path} (now : Timestamp)
    (h : (m path).isNode = false) (content : String) :
    update now m (.writeFile path content)
      = fileMade now path.dropLast (path.getLast?.getD "") content m := by
  rw [update]
  cases hsight : m path with
  | file info old =>
    rw [hsight] at h
    cases h
  | directory info => rfl
  | missing => rfl
  | notADirectory => rfl

end Edit

end FileSystem

namespace Node

/-! ## What is seen below a node -/

/-- What is seen along a path that starts at the node. -/
def sightAt : Node → Path → Sight
  | n, [] => n.sight
  | .file .., _ :: _ => .notADirectory
  | n, name :: rest =>
    match Table.find? n.entries name with
    | none => .missing
    | some child => sightAt child rest

@[simp]
theorem sightAt_nil (n : Node) : n.sightAt [] = n.sight := rfl

theorem sightAt_directory_cons (info : NodeInfo) (entries : Table Node) (name : String)
    (rest : Path) :
    (Node.directory info entries).sightAt (name :: rest)
      = match Table.find? entries name with
        | none => .missing
        | some child => child.sightAt rest := rfl

/-- Below an entry the same is seen as from the entry. -/
theorem sightAt_cons_of_find? {n child : Node} {name : String}
    (h : Table.find? n.entries name = some child) (rest : Path) :
    n.sightAt (name :: rest) = child.sightAt rest := by
  obtain ⟨info, entries, rfl, hfind⟩ := eq_directory_of_find? h
  rw [sightAt_directory_cons, hfind]

/-- Along a path through a node, what is seen is what is seen from there. -/
theorem sightAt_append {n m : Node} {p : Path} (h : n.at? p = some m) (q : Path) :
    n.sightAt (p ++ q) = m.sightAt q := by
  induction p generalizing n with
  | nil =>
    cases h
    rfl
  | cons name rest ih =>
    rw [at?_cons] at h
    obtain ⟨child, hchild, hrest⟩ := Option.bind_eq_some_iff.mp h
    rw [List.cons_append, sightAt_cons_of_find? hchild, ih hrest]

/-- At a path with a node its sight is seen. -/
theorem sightAt_of_at? {n m : Node} {p : Path} (h : n.at? p = some m) : n.sightAt p = m.sight := by
  have happend := sightAt_append h []
  rwa [List.append_nil] at happend

/-- A node is seen where there is one. -/
theorem isNode_sightAt (n : Node) (p : Path) : (n.sightAt p).isNode = (n.at? p).isSome := by
  induction p generalizing n with
  | nil => cases n <;> rfl
  | cons name rest ih =>
    rw [at?_cons]
    cases hfind : Table.find? n.entries name with
    | some child => rw [sightAt_cons_of_find? hfind, ih, Option.bind_some]
    | none =>
      cases n with
      | file info content => rfl
      | directory info entries =>
        rw [Node.entries] at hfind
        rw [sightAt_directory_cons, hfind]
        rfl
      | hollow info => rfl

/-- Where there is no node, there is none below. -/
theorem isNode_sightAt_of_isPrefix {n : Node} {p q : Path} (h : n.at? p = none) (hpq : p <+: q) :
    (n.sightAt q).isNode = false := by
  obtain ⟨r, rfl⟩ := hpq
  rw [isNode_sightAt, at?_append, h]
  rfl

/-- In a whole tree a directory is seen just where there is one. -/
theorem isDirectory_sightAt_iff {n : Node} (h : n.Whole) (p : Path) :
    (n.sightAt p).isDirectory = true ↔
      ∃ info entries, n.at? p = some (.directory info entries) := by
  constructor
  · intro hdir
    have hnode : (n.sightAt p).isNode = true := by
      cases hsight : n.sightAt p <;> simp_all [Sight.isDirectory, Sight.isNode]
    rw [isNode_sightAt, Option.isSome_iff_exists] at hnode
    obtain ⟨m, hm⟩ := hnode
    rw [sightAt_of_at? hm] at hdir
    cases m with
    | file info content => cases hdir
    | directory info entries => exact ⟨info, entries, hm⟩
    | hollow info => exact absurd hm (h p info)
  · rintro ⟨info, entries, hat⟩
    rw [sightAt_of_at? hat]
    rfl

/-- A directory that a tree has is seen. -/
theorem HasDirectory.sightAt {n : Node} {p : Path} (h : n.HasDirectory p) :
    (n.sightAt p).isDirectory = true := by
  obtain ⟨d, hd, hdir⟩ := h
  rw [sightAt_of_at? hd]
  cases d with
  | file info content => cases hdir
  | directory info entries => rfl
  | hollow info => rfl

/-- A walk through a whole tree shows what is seen along its path. -/
theorem walk_eq_sightAt {n : Node} (h : n.Whole) (walked path : Path) :
    (n.walk walked path).map Lookup.sight = .ok (n.sightAt path) := by
  induction path generalizing n walked with
  | nil => rfl
  | cons name rest ih =>
    cases n with
    | file info content => rfl
    | hollow info => exact absurd rfl (h [] info)
    | directory info entries =>
      rw [walk, sightAt_directory_cons]
      cases hfind : Table.find? entries name with
      | none => rfl
      | some child => exact ih (h.child hfind) _

/-! ## Changes as seen from outside -/

/-- What is seen at the paths that do not go through the changed place stays. -/
theorem sightAt_modifyAt_of_not_isPrefix (f : Node → Node) (n : Node) {p q : Path}
    (hpq : ¬ p <+: q) : (n.modifyAt f p).sightAt q = n.sightAt q := by
  induction p generalizing n q with
  | nil => exact absurd List.nil_prefix hpq
  | cons name rest ih =>
    cases hfind : Table.find? n.entries name with
    | none => rw [modifyAt_cons_of_none f rest hfind]
    | some child =>
      rw [modifyAt_cons_of_some f rest hfind]
      obtain ⟨info, entries, rfl, hchild⟩ := eq_directory_of_find? hfind
      cases q with
      | nil => rfl
      | cons other q =>
        rw [mapEntries, sightAt_directory_cons, sightAt_directory_cons]
        by_cases hname : other = name
        · subst hname
          rw [Table.find?_put_self, hchild]
          exact ih child fun hpre => hpq (List.cons_prefix_cons.mpr ⟨rfl, hpre⟩)
        · rw [Table.find?_put_of_ne _ _ hname]

/-- At the changed place and below it the changed node is seen. -/
theorem sightAt_modifyAt_append (f : Node → Node) {n m : Node} {p : Path} (h : n.at? p = some m)
    (q : Path) : (n.modifyAt f p).sightAt (p ++ q) = (f m).sightAt q := by
  have hat : (n.modifyAt f p).at? p = some (f m) := by
    have happend := at?_modifyAt_append f n p []
    rwa [List.append_nil, h] at happend
  exact sightAt_append hat q

/-- At the path that is changed the changed node is seen. -/
theorem sightAt_modifyAt_self (f : Node → Node) {n m : Node} {p : Path} (h : n.at? p = some m) :
    (n.modifyAt f p).sightAt p = (f m).sightAt [] := by
  have happend := sightAt_modifyAt_append f h []
  rwa [List.append_nil] at happend

/-- A directory in which at most one entry is another one than before is seen as changed, and what
is seen at and below that entry is seen in its place; no other sight changes. -/
theorem sightAt_changeEntry {n : Node} {path : Path} {info : NodeInfo} {entries : Table Node}
    {f : Table Node → Table Node} {name : String} {here below : Sight} (now : Timestamp)
    (hat : n.at? path = some (.directory info entries))
    (hother : ∀ other, other ≠ name → Table.find? (f entries) other = Table.find? entries other)
    (hname : ∀ rest, (Node.directory info (f entries)).sightAt (name :: rest)
      = if rest = [] then here else below) :
    (n.modifyAt (fun d => (d.mapEntries f).touch now) path).sightAt
      = (Sights.stamp n.sightAt now path).replace (path ++ [name]) here below := by
  funext q
  rw [Sights.replace]
  cases path.seenFrom q with
  | elsewhere hpath =>
    have hpre : ¬ path ++ [name] <+: q :=
      fun h => hpath ((List.prefix_append path [name]).trans h)
    have hne : q ≠ path ++ [name] := fun h => hpre (h ▸ List.prefix_rfl)
    have hstamp : Sights.stamp n.sightAt now path q = n.sightAt q :=
      Function.update_of_ne (fun h : q = path => hpath (h ▸ List.prefix_rfl)) _ _
    rw [sightAt_modifyAt_of_not_isPrefix _ n hpath, if_neg hne, if_neg hpre, hstamp]
  | there =>
    have hshort : ¬ path ++ [name] <+: path := path.not_entry_isPrefix name
    have hne : path ≠ path ++ [name] := fun h => hshort (h ▸ List.prefix_rfl)
    rw [sightAt_modifyAt_self _ hat, if_neg hne, if_neg hshort, Sights.stamp, Function.update_self,
      sightAt_of_at? hat]
    rfl
  | below other rest =>
    have hstamp : Sights.stamp n.sightAt now path (path ++ other :: rest)
        = n.sightAt (path ++ other :: rest) :=
      Function.update_of_ne (fun h => by simpa using congrArg List.length h) _ _
    rw [sightAt_modifyAt_append _ hat]
    change (Node.directory _ (f entries)).sightAt (other :: rest) = _
    by_cases hsame : other = name
    · -- Through the changed entry: its own path, or one below it.
      subst hsame
      have heq : path ++ other :: rest = path ++ [other] ↔ rest = [] := by simp
      rw [if_pos (Path.entry_isPrefix_iff.mpr rfl)]
      simp only [heq]
      exact hname rest
    · have hpre : ¬ path ++ [name] <+: path ++ other :: rest := mt Path.entry_isPrefix_iff.mp hsame
      have hne : path ++ other :: rest ≠ path ++ [name] := fun h => hpre (h ▸ List.prefix_rfl)
      rw [if_neg hne, if_neg hpre, hstamp, sightAt_append hat, sightAt_directory_cons,
        sightAt_directory_cons, hother other hsame]

/-- A file that gets a new content is seen as changed, and no other sight changes. -/
theorem sightAt_writeAt {n : Node} {path : Path} {info : NodeInfo} {old : String}
    (now : Timestamp) (hat : n.at? path = some (.file info old)) (content : String) :
    (n.modifyAt (fun d => (d.withContent content).touch now) path).sightAt
      = Function.update n.sightAt path (.file { info with modifiedAt := now } content) := by
  funext q
  cases path.seenFrom q with
  | elsewhere hpath =>
    have hne : q ≠ path := fun h => hpath (h ▸ List.prefix_rfl)
    rw [sightAt_modifyAt_of_not_isPrefix _ n hpath, Function.update_of_ne hne]
  | there =>
    rw [sightAt_modifyAt_self _ hat, Function.update_self]
    rfl
  | below other rest =>
    -- Below a file nothing is seen, before and after.
    have hne : path ++ other :: rest ≠ path := fun h => by simpa using congrArg List.length h
    rw [sightAt_modifyAt_append _ hat, Function.update_of_ne hne, sightAt_append hat]
    rfl

/-! ## Whole trees stay whole -/

/-- A tree is whole if every node in it has a content or entries. -/
theorem whole_iff {n : Node} :
    n.Whole ↔ n.Everywhere fun _ face => face.content = none → face.names ≠ none := by
  constructor
  · intro h path m hm
    cases m with
    | file info content => nofun
    | directory info entries => nofun
    | hollow info => exact absurd hm (h path info)
  · intro h path info hm
    exact h path _ hm rfl rfl

/-- A new node is whole. -/
theorem IsNew.whole {now : Timestamp} {name : String} {node : Node} (h : node.IsNew now name) :
    node.Whole :=
  whole_iff.mpr (h.everywhere (by cases h <;> nofun))

/-- A whole node that is put into a directory keeps a tree whole. -/
theorem Whole.putAt {n node : Node} {path : Path} {info : NodeInfo} {entries : Table Node}
    {now : Timestamp} (h : n.Whole) (hat : n.at? path = some (.directory info entries))
    (name : String) (hnode : node.Whole) :
    (n.modifyAt (fun d => (d.mapEntries (·.put name node)).touch now) path).Whole :=
  whole_iff.mpr ((whole_iff.mp h).putAt hat (fun _ => nofun) (whole_iff.mp hnode))

/-- Deleting an entry keeps a tree whole. -/
theorem Whole.eraseAt {n : Node} {path : Path} {info : NodeInfo} {entries : Table Node}
    {now : Timestamp} (h : n.Whole) (hat : n.at? path = some (.directory info entries))
    (name : String) :
    (n.modifyAt (fun d => (d.mapEntries (·.erase name)).touch now) path).Whole :=
  whole_iff.mpr ((whole_iff.mp h).eraseAt hat fun _ => nofun)

/-- Writing a file keeps a tree whole. -/
theorem Whole.writeAt {n : Node} {path : Path} {info : NodeInfo} {old : String} {now : Timestamp}
    (h : n.Whole) (hat : n.at? path = some (.file info old)) (content : String) :
    (n.modifyAt (fun d => (d.withContent content).touch now) path).Whole :=
  whole_iff.mpr ((whole_iff.mp h).writeAt hat nofun)

end Node

namespace FileSystem

variable {fs : FileSystem} {now : Timestamp} {path : Path} {name : String}

/-! ## Edits as updates of the map -/

/-- A whole tree shows what is seen of it. -/
theorem shows_of_whole (h : fs.root.Whole) : fs.Shows fs.root.sightAt :=
  fun q => Node.walk_eq_sightAt h [] q

/-- The change went through, and the changed tree is whole and is seen as the map tells. -/
def Yields (fs : FileSystem) (result : Except TreeFault (Option FileSystem)) (m : Sights) : Prop :=
  ∃ root, result = .ok (some { fs with root }) ∧ root.Whole ∧ root.sightAt = m

/-- A new node is seen in its directory, and what was below it before is gone. -/
theorem yields_addEntry {node : Node} {below : Sight} (h : fs.root.Whole)
    (hdir : (fs.root.sightAt path).isDirectory = true) (hnode : node.IsNew now name)
    (hbelow : ∀ other rest, node.sightAt (other :: rest) = below) :
    fs.Yields (fs.addEntry now path name node)
      ((Sights.stamp fs.root.sightAt now path).replace (path ++ [name]) node.sight below) := by
  obtain ⟨info, entries, hat⟩ := (Node.isDirectory_sightAt_iff h path).mp hdir
  have hfind (other : String) (hne : other ≠ name) :
      Table.find? (Table.put entries name node) other = Table.find? entries other :=
    Table.find?_put_of_ne _ _ hne
  refine ⟨_, addEntry_of_directory h hat node, h.putAt hat name hnode.whole,
    Node.sightAt_changeEntry (f := (Table.put · name node)) now hat hfind fun rest => ?_⟩
  rw [Node.sightAt_directory_cons, Table.find?_put_self]
  cases rest with
  | nil => rfl
  | cons other rest => exact hbelow other rest

/-- Making a file in a directory yields the map with that file. -/
theorem yields_createFile (h : fs.root.Whole) (hdir : (fs.root.sightAt path).isDirectory = true)
    (content : String) :
    fs.Yields (fs.createFile now path name content)
      (Edit.fileMade now path name content fs.root.sightAt) :=
  yields_addEntry h hdir (.file content) fun _ _ => rfl

/-- Making a directory in a directory yields the map with it. -/
theorem yields_createDirectory (h : fs.root.Whole)
    (hdir : (fs.root.sightAt path).isDirectory = true) :
    fs.Yields (fs.createDirectory now path name)
      (Edit.update now fs.root.sightAt (.createDirectory path name)) :=
  yields_addEntry h hdir .directory fun _ _ => rfl

/-- Removing a node yields the map without it. -/
theorem yields_deleteEntry (h : fs.root.Whole) (hdir : (fs.root.sightAt path).isDirectory = true)
    (hnode : (fs.root.sightAt (path ++ [name])).isNode = true) :
    fs.Yields (fs.deleteEntry now path name)
      (Edit.update now fs.root.sightAt (.deleteEntry path name)) := by
  obtain ⟨info, entries, hat⟩ := (Node.isDirectory_sightAt_iff h path).mp hdir
  rw [Node.isNode_sightAt, Node.at?_entry name hat] at hnode
  have hfind (other : String) (hne : other ≠ name) :
      Table.find? (Table.erase entries name) other = Table.find? entries other :=
    Table.find?_erase_of_ne _ hne
  refine ⟨_, deleteEntry_of_mem h hat hnode, h.eraseAt hat name,
    Node.sightAt_changeEntry (f := (Table.erase · name)) now hat hfind fun rest => ?_⟩
  rw [Node.sightAt_directory_cons, Table.find?_erase_self, ite_self]

/-- Writing a file yields the map with the new content. -/
theorem yields_writeFile_of_file {info : NodeInfo} {old : String} (h : fs.root.Whole)
    (hpath : path ≠ []) (hat : fs.root.at? path = some (.file info old)) (content : String) :
    fs.Yields (fs.writeFile now path content)
      (Edit.update now fs.root.sightAt (.writeFile path content)) := by
  refine ⟨_, writeFile_of_file h hpath hat, h.writeAt hat content, ?_⟩
  have hsight : fs.root.sightAt path = .file info old := Node.sightAt_of_at? hat
  rw [Edit.update, hsight]
  exact Node.sightAt_writeAt now hat content

/-- A change that is refused comes to nothing. -/
theorem apply_of_refused (h : fs.root.Whole) {e : Edit} (hrefused : e.Refused fs.root.sightAt) :
    e.apply now fs = .ok none := by
  have hnone {p : Path} (hdir : ¬ (fs.root.sightAt p).isDirectory = true) (info : NodeInfo)
      (entries : Table Node) : fs.root.at? p ≠ some (.directory info entries) :=
    fun hat => hdir ((Node.isDirectory_sightAt_iff h p).mpr ⟨info, entries, hat⟩)
  cases e with
  | createFile path name content => exact addEntry_of_not_directory h (hnone hrefused) _
  | createDirectory path name => exact addEntry_of_not_directory h (hnone hrefused) _
  | deleteEntry path name =>
    rcases hrefused with hdir | hnode
    · exact deleteEntry_of_not_directory h (hnone hdir)
    · by_cases hdir : (fs.root.sightAt path).isDirectory = true
      · obtain ⟨info, entries, hat⟩ := (Node.isDirectory_sightAt_iff h path).mp hdir
        rw [Node.isNode_sightAt, Node.at?_entry name hat, Bool.not_eq_true] at hnode
        exact deleteEntry_of_not_mem h hat hnode
      · exact deleteEntry_of_not_directory h (hnone hdir)
  | writeFile path content =>
    rcases hrefused with rfl | hdir | ⟨hnode, hparent⟩
    · rfl
    · obtain ⟨info, entries, hat⟩ := (Node.isDirectory_sightAt_iff h path).mp hdir
      exact writeFile_of_directory h hat
    · rw [Node.isNode_sightAt, Bool.not_eq_true, Option.isSome_eq_false_iff,
        Option.isNone_iff_eq_none] at hnode
      rcases List.eq_nil_or_concat' path with rfl | ⟨parent, name, rfl⟩
      · cases hnode
      · rw [List.dropLast_concat] at hparent
        exact (writeFile_of_missing h hnode).trans (addEntry_of_not_directory h (hnone hparent) _)

/-- A change that is not refused updates the map. -/
theorem yields_apply (h : fs.root.Whole) {e : Edit} (hrefused : ¬ e.Refused fs.root.sightAt) :
    fs.Yields (e.apply now fs) (e.update now fs.root.sightAt) := by
  cases e with
  | createFile path name content => exact yields_createFile h (not_not.mp hrefused) content
  | createDirectory path name => exact yields_createDirectory h (not_not.mp hrefused)
  | deleteEntry path name =>
    rw [Edit.Refused, not_or, not_not, not_not] at hrefused
    exact yields_deleteEntry h hrefused.1 hrefused.2
  | writeFile path content =>
    rw [Edit.Refused, not_or, not_or, not_and_not_right] at hrefused
    obtain ⟨hpath, hdir, hmissing⟩ := hrefused
    cases hat : fs.root.at? path with
    | some n =>
      cases n with
      | file info old => exact yields_writeFile_of_file h hpath hat content
      | directory info entries =>
        exact absurd ((Node.isDirectory_sightAt_iff h path).mpr ⟨info, entries, hat⟩) hdir
      | hollow info => exact absurd hat (h path info)
    | none =>
      -- The file is missing, so it is made in its directory.
      have hnode : (fs.root.sightAt path).isNode = false := by
        rw [Node.isNode_sightAt, hat]
        rfl
      have hparent : (fs.root.sightAt path.dropLast).isDirectory = true := by
        exact hmissing (by rw [hnode]; exact Bool.false_ne_true)
      rw [Edit.update_writeFile_of_missing now hnode]
      rcases List.eq_nil_or_concat' path with rfl | ⟨parent, name, rfl⟩
      · exact absurd rfl hpath
      · rw [List.dropLast_concat] at hparent ⊢
        rw [List.getLast?_concat, Option.getD_some]
        change fs.Yields (fs.writeFile now (parent ++ [name]) content) _
        rw [writeFile_of_missing h hat]
        exact yields_createFile h hparent content

/-- Each of the four ways to change a tree is an update of the map that a sound file system shows.
It answers with `false` just where it is refused, and then leaves the whole session as it was.
Elsewhere it answers with `true`, changes nothing but the tree, and every walk through the new tree
shows what the updated map tells. -/
theorem edits_update_map {s : Session} (hs : s.fileSystem.Sound) (e : Edit) (now : Timestamp) :
    let step := (Shell.changeTree e.apply).run now s
    ∃ m, s.fileSystem.Shows m ∧
      (e.Refused m → step = { outcome := .ok false, session := s }) ∧
      (¬ e.Refused m → ∃ root,
        step = { outcome := .ok true,
                 session := { s with fileSystem := { s.fileSystem with root } } } ∧
          ({ s.fileSystem with root } : FileSystem).Shows (e.update now m)) := by
  intro step
  refine ⟨s.fileSystem.root.sightAt, shows_of_whole hs.whole, fun hrefused => ?_,
    fun hrefused => ?_⟩
  · change Shell.changeTree e.apply now s = _
    rw [Shell.changeTree, apply_of_refused hs.whole hrefused]
  · have hyields : s.fileSystem.Yields (e.apply now s.fileSystem)
        (e.update now s.fileSystem.root.sightAt) := yields_apply hs.whole hrefused
    obtain ⟨root, happly, hwhole, hsights⟩ := hyields
    refine ⟨root, ?_, hsights ▸ shows_of_whole hwhole⟩
    change Shell.changeTree e.apply now s = _
    rw [Shell.changeTree, happly]

/-- A file in the place of the home directory hides all that was below it, and a neighbour stays. -/
theorem file_in_place_of_home :
    let s := Session.new (DefaultTree.fileSystem .epoch)
    let e := Edit.createFile ["home"] "user" "x"
    s.fileSystem.Sound ∧ ∃ root,
      (Shell.changeTree e.apply).run .epoch s
          = { outcome := .ok true,
              session := { s with fileSystem := { s.fileSystem with root } } } ∧
        ((⟨root, s.fileSystem.cwd⟩ : FileSystem).lookup ["home", "user", "documents"]).map
          Lookup.sight = .ok .notADirectory ∧
        ((⟨root, s.fileSystem.cwd⟩ : FileSystem).lookup ["home", "guest"]).map Lookup.sight
          = (s.fileSystem.lookup ["home", "guest"]).map Lookup.sight := by
  intro s e
  have hs : s.fileSystem.Sound := DefaultTree.sound_fileSystem .epoch
  obtain ⟨m, hm, -, hedit⟩ := edits_update_map hs e .epoch
  have hhome : (m ["home"]).isDirectory = true := by
    have hlookup := hm ["home"]
    rw [← Except.ok.inj hlookup]
    rfl
  obtain ⟨root, hstep, hshows⟩ := hedit fun hrefused => hrefused hhome
  refine ⟨hs, root, hstep, hshows _, ?_⟩
  rw [hm ["home", "guest"], hshows ["home", "guest"]]
  rfl

end FileSystem

end VirtualShell
