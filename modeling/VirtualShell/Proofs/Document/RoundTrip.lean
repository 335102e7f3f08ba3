import VirtualShell.Document
import VirtualShell.Proofs.Alias.Written
import VirtualShell.Proofs.Session.Change
import VirtualShell.Proofs.Tree.Default
import VirtualShell.Proofs.Tree.RoundTrip

/-!
# Sessions are restored as they were saved

The document of a sound session is accepted, and applying it restores the tree, the working
directory, the mode and the aliases (`restored_as_saved`). The document is a JSON value that is read
back (`exact_ofSession`), its parts have the types that are asked for (`outline_ofSession`), and
each part is read as what it was written from.
-/

namespace VirtualShell

namespace Document

variable {s : Session}

/-! ## The document -/

/-- An alias is written without fractions. -/
theorem exact_aliasToJson (a : Alias) : (Aliases.aliasToJson a).Exact :=
  ⟨by simp [Table.names], trivial, trivial, trivial, trivial⟩

/-- So is a path. -/
theorem exact_path (path : Path) : Json.Exact (.arr (path.map .str)) := by
  refine Json.itemsExact_iff.mpr fun v hv => ?_
  obtain ⟨name, -, rfl⟩ := List.mem_map.mp hv
  trivial

/-- So is a table of texts. -/
theorem exact_texts {texts : Table String} (h : texts.Distinct) :
    Json.Exact (.obj (texts.map fun (name, value) => (name, .str value))) := by
  refine ⟨?_, Json.fieldsExact_iff.mpr fun field hfield => ?_⟩
  · rw [Table.names, List.map_map]
    exact h
  · obtain ⟨entry, -, rfl⟩ := List.mem_map.mp hfield
    trivial

/-- So are all aliases. -/
theorem exact_aliases (t : Aliases) : Json.Exact (.arr t.toJson) := by
  refine Json.itemsExact_iff.mpr fun v hv => ?_
  obtain ⟨a, -, rfl⟩ := List.mem_map.mp hv
  exact exact_aliasToJson a

/-- The value that saves a session is read back from its document. -/
theorem exact_ofSession (now : Timestamp) (hs : s.Sound) (hroot : s.fileSystem.root.Kept) :
    (ofSession now s).Exact := by
  have hchanged : s.environment.changed.Distinct := hs.environment.distinct.filter _
  exact ⟨by simp [Table.names], Node.exact_toJson _ hroot, trivial, trivial, trivial,
    exact_path _, exact_texts hchanged, exact_aliases _, trivial⟩

/-! ## Its parts -/

/-- The names of a path are read again. -/
theorem mapM_text? (path : Path) : (path.map Json.str).mapM Json.text? = some path := by
  induction path with
  | nil => rfl
  | cons name rest ih =>
    rw [List.map_cons, List.mapM_cons, ih]
    rfl

/-- A path that was written is read again. -/
theorem pathField_path {fields : Table Json} {path : Path}
    (h : fields.find? "currentPath" = some (.arr (path.map .str))) :
    pathField fields = .ok path := by
  rw [pathField, h]
  simp only [mapM_text?]

/-- So is the root of a tree. -/
theorem rootField_toJson {fields : Table Json} {root : Node}
    (h : fields.find? "filesystem" = some root.toJson) : rootField fields = .ok root.toJson := by
  obtain ⟨last, hlast⟩ := root.exists_toJson_eq
  have hname : textField (root.commonFields ++ [last]) "name" = .ok root.name := by
    simp [textField, Node.commonFields, Table.find?]
  have htype : textField (root.commonFields ++ [last]) "type" = .ok root.kind := by
    rw [textField, Node.find?_type]
  rw [rootField, h, hlast]
  simp only [hname, htype]
  rfl

/-- The outline of the document that saves a session. -/
def savedOutline (now : Timestamp) (s : Session) : Outline where
  root := s.fileSystem.root.toJson
  mode := s.mode
  version := currentVersion
  savedAt := now.text
  cwd := s.fileSystem.cwd
  environment := s.environment.changed.map fun (name, value) => (name, .str value)
  aliases := some s.aliases.toJson

/-- The outline of a session that was written is read again. -/
theorem outline_ofSession (now : Timestamp) (s : Session) :
    outline (ofSession now s) = .ok (savedOutline now s) := by
  rw [ofSession, outline, rootField_toJson rfl, pathField_path rfl]
  rfl

/-- The state that the document of a session saves. -/
def saved (now : Timestamp) (s : Session) : Document where
  root := s.fileSystem.root
  mode := s.mode
  version := currentVersion
  savedAt := now.text
  cwd := s.fileSystem.cwd
  environment := s.environment.changed.map fun (name, value) => (name, .str value)
  aliases := some s.aliases.toJson

/-- A saved document is accepted, and read as what was saved. -/
theorem load_save (hs : s.Sound) (hroot : s.fileSystem.root.Kept) (savedAt now : Timestamp) :
    load now (save savedAt s) = .ok (saved savedAt s) := by
  have hread : Json.read (ofSession savedAt s).write = .ok (ofSession savedAt s) :=
    Json.read_write (exact_ofSession savedAt hs hroot)
  have hfile : s.fileSystem.root.isFile = false := by
    have hdirectory := hs.fileSystem.root
    rwa [Node.isDirectory, Bool.not_eq_true'] at hdirectory
  have hnode : Node.ofJson now (savedOutline savedAt s).root = .ok s.fileSystem.root :=
    Node.ofJson_toJson now _ hroot
  rw [load, save, readOutline, hread]
  simp only [outline_ofSession, bind, Except.bind, Outline.document, hnode, hfile]
  rfl

/-! ## Applying it -/

/-- The saved working directory is still there. -/
theorem workingDirectory_saved (hs : s.Sound) (now : Timestamp) :
    (saved now s).workingDirectory = s.fileSystem.cwd := by
  obtain ⟨n, hn, hdirectory⟩ := hs.fileSystem.cwd
  let fs : FileSystem := { root := s.fileSystem.root }
  have hwhole : fs.root.Whole := hs.fileSystem.whole
  have hthere : isDirectoryAt fs s.fileSystem.cwd = true := by
    rw [isDirectoryAt, FileSystem.node?_eq hwhole, hn]
    exact hdirectory
  exact if_pos hthere

/-- A sound session is restored from its document, whatever session the document is applied to. -/
theorem restored_as_saved (hs : s.Sound) (hpermissions : s.fileSystem.root.HasPermissionTexts)
    (hsizes : s.fileSystem.root.HasWritableSizes) (haliases : s.aliases.Entered)
    (savedAt now : Timestamp) (target : Session) :
    ∃ d, load now (save savedAt s) = .ok d ∧
      let applied := d.apply now target
      applied.error = none ∧
        applied.session.fileSystem = s.fileSystem ∧
        applied.session.mode = s.mode ∧
        ∀ name, applied.session.aliases.find? name = s.aliases.find? name := by
  have hroot := hs.fileSystem.tree.kept hpermissions hsizes
  refine ⟨saved savedAt s, load_save hs hroot savedAt now, ?_, ?_, rfl, fun name => ?_⟩
  · exact Aliases.error_ofJson_toJson now s.aliases
  · exact congrArg (FileSystem.mk s.fileSystem.root) (workingDirectory_saved hs savedAt)
  -- Aliases are written by increasing name, so the table is the same map in another order.
  · have hsorted : ((saved savedAt s).apply now target).session.aliases = s.aliases.sorted :=
      Aliases.aliases_ofJson_toJson now haliases.sound
    rw [hsorted]
    exact Table.find?_eq_of_perm hs.aliases (Table.sorted_perm s.aliases).symm name

/-- A small session with an alias, whose command has blanks around it as it is set. -/
theorem restored_with_alias :
    let file := Node.newFile .epoch "a" "h\u00e9 \"llo\"\n"
    let fs : FileSystem :=
      { root := .newDirectory .epoch "/" [("tmp", .newDirectory .epoch "tmp" [("a", file)])]
        cwd := ["tmp"] }
    let ll : Alias := { name := "ll", command := "ls -l", createdAt := .epoch }
    let s : Session := { Session.new fs with aliases := [("ll", ll)] }
    s.Sound ∧ Aliases.set [] .epoch "ll" " ls -l " = .ok s.aliases ∧
      ∃ d, load .epoch (save .epoch s) = .ok d ∧
        (d.apply .epoch (.new (DefaultTree.fileSystem .epoch))).session.fileSystem = fs := by
  intro file fs ll s
  have hfs : fs.Sound := ⟨rfl, Node.everywhere_of_decide (by decide), ⟨_, rfl, rfl⟩⟩
  have hset : Aliases.set [] .epoch "ll" " ls -l " = .ok s.aliases := by rfl
  have haliases : s.aliases.Entered := .set .empty hset
  have hs : s.Sound := ⟨hfs, haliases.sound.distinct, Environment.sound_new _ _⟩
  obtain ⟨d, hload, -, happly, -⟩ := restored_as_saved hs
    (Node.everywhere_of_decide (by decide)) (Node.everywhere_of_decide (by decide +kernel))
    haliases .epoch .epoch (.new (DefaultTree.fileSystem .epoch))
  exact ⟨hs, hset, d, hload, happly⟩

end Document

end VirtualShell
