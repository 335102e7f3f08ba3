import VirtualShell.Proofs.Document.RoundTrip
import VirtualShell.Proofs.Session.Laws
import VirtualShell.Proofs.Tree.Grammar

/-!
# Which documents are accepted

A document is accepted just where its value is a saved state (`Json.WritesState`): an object with
all its parts, each of the right type, and with a directory for its root. Reading looks at these
parts one after another, first for the outline and then into the tree; each look has a lemma that
says where it finds what it looks for.

A value and its document say the same about this (`writesState_mapFloats_iff`), although the reader
may take other numbers with a fraction from it. What is accepted can be applied: the tree is whole,
and the working directory is one that the tree has (`hasDirectory_workingDirectory`).

All this holds for trees of any depth. The limit that an interpreter sets to nested calls is left
out of reading and writing, so no document is refused because it is nested too deep.
-/

namespace VirtualShell

namespace Json

/-! ## Saved states -/

/-- The root of a tree: an object with a name that writes a directory. -/
def IsRoot (x : Option Json) : Prop :=
  ∃ fields, x = some (.obj fields) ∧ IsText (Table.find? fields "name") ∧
    Table.find? fields "type" = some (.str "directory") ∧ WritesNode (.obj fields)

/-- A list of texts. -/
def IsPath (x : Option Json) : Prop :=
  ∃ items, x = some (.arr items) ∧ ∀ item ∈ items, ∃ s, item = .str s

/-- Missing, null or an object. -/
def IsObjectIfAny (x : Option Json) : Prop :=
  ∀ v, x = some v → v = .null ∨ ∃ fields, v = .obj fields

/-- Missing, null or a list. -/
def IsListIfAny (x : Option Json) : Prop :=
  ∀ v, x = some v → v = .null ∨ ∃ items, v = .arr items

/-- The value is a saved state. -/
@[mk_iff]
structure WritesState (v : Json) : Prop where
  root : IsRoot (v.field? "filesystem")
  mode : IsText (v.field? "mode")
  version : IsText (v.field? "version")
  savedAt : IsText (v.field? "savedAt")
  path : IsPath (v.field? "currentPath")
  environment : IsObjectIfAny (v.field? "environment")
  aliases : IsListIfAny (v.field? "aliases")

/-! ## Other fractions -/

section

variable {f : Binary64 → Binary64} {v : Json} {x : Option Json}

/-- Looking up a field goes through a change of the fractions. -/
theorem field?_mapFloats (name : String) :
    (v.mapFloats f).field? name = (v.field? name).map (mapFloats f) := by
  cases v with
  | obj fields =>
    rw [mapFloats_obj]
    exact Table.find?_map _ fields name
  | arr items =>
    rw [mapFloats_arr]
    rfl
  | _ => rfl

/-- Other fractions make no root, and spoil none. -/
theorem isRoot_map_iff : IsRoot (x.map (mapFloats f)) ↔ IsRoot x := by
  cases x with
  | none => simp [IsRoot]
  | some v =>
    constructor
    · rintro ⟨fields, hfields, hname, htype, hnode⟩
      obtain ⟨before, rfl, rfl⟩ := mapFloats_eq_obj_iff.mp (Option.some.inj hfields)
      rw [Table.find?_map] at hname htype
      rw [← mapFloats_obj] at hnode
      exact ⟨before, rfl, isText_map_iff.mp hname, map_mapFloats_eq_str_iff.mp htype,
        writesNode_mapFloats_iff.mp hnode⟩
    · rintro ⟨fields, hfields, hname, htype, hnode⟩
      cases hfields
      refine ⟨_, congrArg some (mapFloats_obj fields), ?_, ?_, ?_⟩
      · rw [Table.find?_map]
        exact isText_map_iff.mpr hname
      · rw [Table.find?_map]
        exact map_mapFloats_eq_str_iff.mpr htype
      · rw [← mapFloats_obj]
        exact writesNode_mapFloats_iff.mpr hnode

/-- So it is for a path. -/
theorem isPath_map_iff : IsPath (x.map (mapFloats f)) ↔ IsPath x := by
  cases x with
  | none => simp [IsPath]
  | some v =>
    constructor
    · rintro ⟨items, hitems, hall⟩
      obtain ⟨before, rfl, rfl⟩ := mapFloats_eq_arr_iff.mp (Option.some.inj hitems)
      refine ⟨before, rfl, fun item hitem => ?_⟩
      obtain ⟨s, hs⟩ := hall _ (List.mem_map_of_mem hitem)
      exact ⟨s, mapFloats_eq_str_iff.mp hs⟩
    · rintro ⟨items, hitems, hall⟩
      cases hitems
      refine ⟨_, congrArg some (mapFloats_arr items), fun item hitem => ?_⟩
      obtain ⟨before, hbefore, rfl⟩ := List.mem_map.mp hitem
      obtain ⟨s, hs⟩ := hall before hbefore
      exact ⟨s, mapFloats_eq_str_iff.mpr hs⟩

/-- So it is for an object that may be missing. -/
theorem isObjectIfAny_map_iff : IsObjectIfAny (x.map (mapFloats f)) ↔ IsObjectIfAny x := by
  simp [IsObjectIfAny, mapFloats_eq_null_iff, mapFloats_eq_obj_iff]

/-- So it is for a list that may be missing. -/
theorem isListIfAny_map_iff : IsListIfAny (x.map (mapFloats f)) ↔ IsListIfAny x := by
  simp [IsListIfAny, mapFloats_eq_null_iff, mapFloats_eq_arr_iff]

/-- Other fractions neither make a value a saved state nor keep it from being one. -/
theorem writesState_mapFloats_iff : (v.mapFloats f).WritesState ↔ v.WritesState := by
  simp only [writesState_iff, field?_mapFloats, isRoot_map_iff, isText_map_iff, isPath_map_iff,
    isObjectIfAny_map_iff, isListIfAny_map_iff]

end

end Json

namespace Document

open Json

variable {fields : Table Json} {now : Timestamp}

/-! ## The parts of a document -/

/-- A field is read as a text just where it is one. -/
theorem exists_textField_iff {name : String} :
    (∃ s, textField fields name = .ok s) ↔ IsText (fields.find? name) := by
  unfold textField
  constructor
  · rintro ⟨s, h⟩
    split at h
    · rename_i t ht
      exact ⟨t, ht⟩
    · cases h
  · rintro ⟨s, h⟩
    rw [h]
    exact ⟨s, rfl⟩

/-- A list is read as texts just where it holds nothing else. -/
theorem exists_mapM_text?_iff {items : List Json} :
    (∃ path, items.mapM Json.text? = some path) ↔ ∀ item ∈ items, ∃ s, item = .str s := by
  induction items with
  | nil => simp
  | cons item rest ih =>
    rw [List.mapM_cons, List.forall_mem_cons, ← ih]
    cases item with
    | str s => cases rest.mapM Json.text? <;> simp [Json.text?]
    | _ => simp [Json.text?]

/-- The path is read just where it is one. -/
theorem exists_pathField_iff :
    (∃ path, pathField fields = .ok path) ↔ IsPath (fields.find? "currentPath") := by
  unfold pathField
  constructor
  · rintro ⟨path, h⟩
    split at h
    · rename_i items hitems
      refine ⟨items, hitems, exists_mapM_text?_iff.mp ?_⟩
      split at h
      · rename_i texts htexts
        exact ⟨texts, htexts⟩
      · cases h
    · cases h
  · rintro ⟨items, hitems, hall⟩
    obtain ⟨path, hpath⟩ := exists_mapM_text?_iff.mpr hall
    rw [hitems]
    simp only [hpath]
    exact ⟨path, rfl⟩

/-- The variables are read just where they are an object or missing. -/
theorem exists_environmentField_iff :
    (∃ environment, environmentField fields = .ok environment) ↔
      IsObjectIfAny (fields.find? "environment") := by
  unfold environmentField
  cases fields.find? "environment" with
  | none => simp [IsObjectIfAny]
  | some v => cases v <;> simp [IsObjectIfAny]

/-- The aliases are read just where they are a list or missing. -/
theorem exists_aliasesField_iff :
    (∃ aliases, aliasesField fields = .ok aliases) ↔ IsListIfAny (fields.find? "aliases") := by
  unfold aliasesField
  cases fields.find? "aliases" with
  | none => simp [IsListIfAny]
  | some v => cases v <;> simp [IsListIfAny]

/-- The root is read just where it is an object with a name and a type. -/
theorem rootField_eq_ok_iff {root : Json} :
    rootField fields = .ok root ↔ ∃ parts, root = .obj parts ∧
      fields.find? "filesystem" = some (.obj parts) ∧ IsText (Table.find? parts "name") ∧
        IsText (Table.find? parts "type") := by
  unfold rootField
  constructor
  · intro h
    split at h
    · rename_i parts hparts
      obtain ⟨name, hname, h⟩ := exists_of_bind_eq_ok h
      obtain ⟨type, htype, h⟩ := exists_of_bind_eq_ok h
      cases h
      exact ⟨parts, rfl, hparts, exists_textField_iff.mp ⟨name, hname⟩,
        exists_textField_iff.mp ⟨type, htype⟩⟩
    · cases h
  · rintro ⟨parts, rfl, hparts, hname, htype⟩
    obtain ⟨name, hname⟩ := exists_textField_iff.mpr hname
    obtain ⟨type, htype⟩ := exists_textField_iff.mpr htype
    rw [hparts]
    simp only [hname, htype]
    rfl

/-- What a value is if it has an outline. -/
theorem outline_cases {v : Json} {o : Outline} (h : outline v = .ok o) :
    ∃ fields, v = .obj fields ∧ rootField fields = .ok o.root ∧
      textField fields "mode" = .ok o.mode ∧ textField fields "version" = .ok o.version ∧
      textField fields "savedAt" = .ok o.savedAt ∧ pathField fields = .ok o.cwd ∧
      environmentField fields = .ok o.environment ∧ aliasesField fields = .ok o.aliases := by
  cases v with
  | obj fields =>
    obtain ⟨root, hroot, h⟩ := exists_of_bind_eq_ok h
    obtain ⟨mode, hmode, h⟩ := exists_of_bind_eq_ok h
    obtain ⟨version, hversion, h⟩ := exists_of_bind_eq_ok h
    obtain ⟨savedAt, hsavedAt, h⟩ := exists_of_bind_eq_ok h
    obtain ⟨cwd, hcwd, h⟩ := exists_of_bind_eq_ok h
    obtain ⟨environment, henvironment, h⟩ := exists_of_bind_eq_ok h
    obtain ⟨aliases, haliases, h⟩ := exists_of_bind_eq_ok h
    cases h
    exact ⟨fields, rfl, hroot, hmode, hversion, hsavedAt, hcwd, henvironment, haliases⟩
  | _ => cases h

/-- A document that is read has a tree, and the root of it is a directory. -/
theorem document_cases {o : Outline} {d : Document} (h : o.document now = .ok d) :
    Node.ofJson now o.root = .ok d.root ∧ d.root.isFile = false := by
  unfold Outline.document at h
  split at h
  · cases h
  · rename_i root hroot
    cases hfile : root.isFile with
    | true =>
      rw [hfile] at h
      cases h
    | false =>
      rw [hfile] at h
      cases h
      exact ⟨hroot, hfile⟩

/-- From such a tree a document is read. -/
theorem exists_document {o : Outline} {root : Node} (hroot : Node.ofJson now o.root = .ok root)
    (hfile : root.isFile = false) : ∃ d, o.document now = .ok d := by
  unfold Outline.document
  rw [hroot]
  simp only [hfile]
  exact ⟨_, rfl⟩

/-! ## Values -/

/-- The state that a value saves. -/
def ofValue (now : Timestamp) (v : Json) : Except Error Document :=
  outline v >>= Outline.document now

/-- A value is taken for a state just where it is one. -/
theorem exists_ofValue_iff (now : Timestamp) (v : Json) :
    (∃ d, ofValue now v = .ok d) ↔ v.WritesState := by
  constructor
  · rintro ⟨d, h⟩
    obtain ⟨o, ho, hd⟩ := exists_of_bind_eq_ok h
    obtain ⟨fields, rfl, hroot, hmode, hversion, hsavedAt, hcwd, henvironment, haliases⟩ :=
      outline_cases ho
    obtain ⟨hnode, hfile⟩ := document_cases hd
    refine ⟨?_, exists_textField_iff.mp ⟨_, hmode⟩, exists_textField_iff.mp ⟨_, hversion⟩,
      exists_textField_iff.mp ⟨_, hsavedAt⟩, exists_pathField_iff.mp ⟨_, hcwd⟩,
      exists_environmentField_iff.mp ⟨_, henvironment⟩, exists_aliasesField_iff.mp ⟨_, haliases⟩⟩
    obtain ⟨parts, hparts, hfound, hname, -⟩ := rootField_eq_ok_iff.mp hroot
    rw [hparts] at hnode
    exact ⟨parts, hfound, hname, (Node.isFile_eq_false_iff hnode).mp hfile,
      Node.writesNode_of_ofJson hnode⟩
  · intro hstate
    obtain ⟨parts, hfound, hname, htype, hwrites⟩ := hstate.root
    cases v with
    | obj fields =>
      have hroot : rootField fields = .ok (.obj parts) :=
        rootField_eq_ok_iff.mpr ⟨parts, rfl, hfound, hname, _, htype⟩
      obtain ⟨mode, hmode⟩ := exists_textField_iff.mpr hstate.mode
      obtain ⟨version, hversion⟩ := exists_textField_iff.mpr hstate.version
      obtain ⟨savedAt, hsavedAt⟩ := exists_textField_iff.mpr hstate.savedAt
      obtain ⟨cwd, hcwd⟩ := exists_pathField_iff.mpr hstate.path
      obtain ⟨environment, henvironment⟩ := exists_environmentField_iff.mpr hstate.environment
      obtain ⟨aliases, haliases⟩ := exists_aliasesField_iff.mpr hstate.aliases
      have houtline : outline (.obj fields) = .ok
          { root := .obj parts, mode, version, savedAt, cwd, environment, aliases } := by
        rw [outline, hroot, hmode, hversion, hsavedAt, hcwd, henvironment, haliases]
        rfl
      obtain ⟨root, hnode, -⟩ := Node.exists_ofJson_of_writesNode now hwrites
      rw [ofValue, houtline]
      exact exists_document hnode ((Node.isFile_eq_false_iff hnode).mpr htype)
    | _ => cases hfound

/-- A text that can be read is accepted or refused for its value. -/
theorem load_of_read {text : String} {v : Json} (h : Json.read text = .ok v) (now : Timestamp) :
    load now text = ofValue now v := by
  rw [load, readOutline, h]
  rfl

/-! ## Complaints -/

/-- A result that does not complain about how a document is written. -/
def Readable {α : Type} (x : Except Error α) : Prop :=
  ∀ reason, x ≠ .error (.unreadable reason)

/-- Two readable steps are readable in one. -/
theorem Readable.bind {α β : Type} {x : Except Error α} {f : α → Except Error β} (hx : Readable x)
    (hf : ∀ a, Readable (f a)) : Readable (x >>= f) := by
  cases x with
  | error e => exact fun reason h => hx reason (by cases h; rfl)
  | ok a => exact hf a

/-- A text field is read or refused with a complaint. -/
theorem readable_textField (name : String) : Readable (textField fields name) := by
  unfold textField
  split <;> nofun

/-- So is an outline. -/
theorem readable_outline (v : Json) : Readable (outline v) := by
  cases v with
  | obj fields =>
    refine Readable.bind ?_ fun root => ?_
    · unfold rootField
      split
      · refine (readable_textField "name").bind fun _ => ?_
        exact (readable_textField "type").bind fun _ => nofun
      · nofun
    refine (readable_textField "mode").bind fun mode => ?_
    refine (readable_textField "version").bind fun version => ?_
    refine (readable_textField "savedAt").bind fun savedAt => ?_
    refine Readable.bind ?_ fun cwd => ?_
    · unfold pathField
      split
      · split <;> nofun
      · nofun
    refine Readable.bind ?_ fun environment => ?_
    · unfold environmentField
      split <;> nofun
    refine Readable.bind ?_ fun aliases => nofun
    unfold aliasesField
    split <;> nofun
  | _ => nofun

/-- So is a whole value. -/
theorem readable_ofValue (now : Timestamp) (v : Json) : Readable (ofValue now v) := by
  refine (readable_outline v).bind fun o reason h => ?_
  unfold Outline.document at h
  cases hroot : Node.ofJson now o.root with
  | error e =>
    rw [hroot] at h
    cases h
  | ok root =>
    rw [hroot] at h
    dsimp only at h
    cases hfile : root.isFile with
    | true =>
      rw [hfile] at h
      cases h
    | false =>
      rw [hfile] at h
      cases h

/-! ## Accepted documents -/

/-- The working directory of a document is one of its tree. -/
theorem hasDirectory_workingDirectory {d : Document} (hdir : d.root.isDirectory = true)
    (hwhole : d.root.Whole) : d.root.HasDirectory d.workingDirectory := by
  have hthere (path : Path) (h : isDirectoryAt { root := d.root } path = true) :
      d.root.HasDirectory path := by
    rw [isDirectoryAt, FileSystem.node?_eq hwhole] at h
    cases hat : d.root.at? path with
    | none =>
      rw [hat] at h
      cases h
    | some node =>
      rw [hat] at h
      exact ⟨node, hat, h⟩
  unfold workingDirectory
  dsimp only
  split
  · rename_i h
    exact hthere _ h
  · split
    · rename_i h
      exact hthere _ h
    · exact ⟨d.root, rfl, hdir⟩

/-- Applying a document takes over its tree and its working directory. -/
theorem fileSystem_apply (d : Document) (now : Timestamp) (s : Session) :
    (d.apply now s).session.fileSystem = { root := d.root, cwd := d.workingDirectory } := by
  unfold apply
  cases d.aliases <;> rfl

/-- The document of a value, in whatever layout, is accepted just where the value is a saved state.
Where it is none, the complaint is about the value and not about how it is written. An accepted
document has a directory for its root and a tree in which every directory has its entries; applied
to any session, it leaves a working directory that is there. -/
theorem accepts_saved_states {v : Json} (hv : v.Writable) (layout : Layout) (now : Timestamp) :
    ((∃ d, load now (v.writeIn layout) = .ok d) ↔ v.WritesState) ∧
      (¬ v.WritesState → ∃ e, load now (v.writeIn layout) = .error e ∧
        ∀ reason, e ≠ .unreadable reason) ∧
      ∀ d, load now (v.writeIn layout) = .ok d →
        d.root.isDirectory = true ∧ (∀ path info, d.root.at? path ≠ some (.hollow info)) ∧
          ∀ (moment : Timestamp) (s : Session),
            let fs := (d.apply moment s).session.fileSystem
            ∃ node, fs.node? fs.cwd = .ok (some node) ∧ node.isDirectory = true := by
  obtain ⟨f, hf⟩ := Json.read_writeIn
  have hload : load now (v.writeIn layout) = ofValue now (v.mapFloats f) :=
    load_of_read (hf v hv layout) now
  have haccepts : (∃ d, ofValue now (v.mapFloats f) = .ok d) ↔ v.WritesState :=
    (exists_ofValue_iff now _).trans writesState_mapFloats_iff
  rw [hload]
  refine ⟨haccepts, fun hstate => ?_, fun d hd => ?_⟩
  · cases hvalue : ofValue now (v.mapFloats f) with
    | ok d => exact absurd (haccepts.mp ⟨d, hvalue⟩) hstate
    | error e =>
      refine ⟨e, rfl, fun reason he => readable_ofValue now (v.mapFloats f) reason ?_⟩
      rw [hvalue, he]
  · obtain ⟨o, -, ho⟩ := exists_of_bind_eq_ok hd
    obtain ⟨hnode, hfile⟩ := document_cases ho
    have hwhole : d.root.Whole := (Node.ofJson_spec now o.root).2 d.root hnode
    have hdir : d.root.isDirectory = true := by rw [Node.isDirectory, hfile]; rfl
    refine ⟨hdir, hwhole, fun moment s => ?_⟩
    rw [fileSystem_apply]
    obtain ⟨node, hat, hnodeDir⟩ := hasDirectory_workingDirectory hdir hwhole
    exact ⟨node, by rw [FileSystem.node?_eq hwhole, hat], hnodeDir⟩

/-- A state of an older version, with a file that has neither a name nor a content and with a
fraction for the size of the root; the saved working directory is not there. -/
def oldState : Json :=
  .obj [
    ("filesystem", .obj [("name", .str "/"), ("type", .str "directory"),
      ("size", .float (.finite false 3 (-1))),
      ("children", .obj [("a", .obj [("type", .str "file")])])]),
    ("mode", .str "default"),
    ("version", .str "0.9"),
    ("savedAt", .str ""),
    ("currentPath", .arr [.str "tmp"])]

/-- The state is one that can be written. -/
theorem writable_oldState : oldState.Writable := by
  have hfile : Writable (.obj [("type", .str "file")]) :=
    .obj (by decide) (by simp [Writable.str])
  have hchildren : Writable (.obj [("a", .obj [("type", .str "file")])]) :=
    .obj (by decide) (by simp [hfile])
  refine .obj (by decide) ?_
  simp only [List.forall_mem_cons, List.not_mem_nil, false_imp_iff, implies_true, and_true]
  refine ⟨.obj (by decide) ?_, .str _, .str _, .str _, .arr (by simp [Writable.str])⟩
  simp [Writable.str, Writable.float, hchildren]

/-- It is a saved state, as it has all parts that are asked for. -/
theorem writesState_oldState : oldState.WritesState := by
  have hfile : WritesNode (.obj [("type", .str "file")]) := .file rfl nofun nofun
  refine ⟨⟨_, rfl, ⟨_, rfl⟩, rfl, .directory rfl ?_ rfl ?_⟩, ⟨_, rfl⟩, ⟨_, rfl⟩, ⟨_, rfl⟩,
    ⟨_, rfl, by simp⟩, nofun, nofun⟩
  · rintro v ⟨⟩
    exact ⟨_, rfl⟩
  · simp [hfile]

/-- The old state is accepted from a document on one line, and its tree is whole. -/
theorem old_state_is_accepted :
    oldState.Writable ∧ ∃ d, load .epoch oldState.writeLine = .ok d ∧
      ∀ path info, d.root.at? path ≠ some (.hollow info) := by
  obtain ⟨haccepts, -, haccepted⟩ := accepts_saved_states writable_oldState .line .epoch
  obtain ⟨d, hd⟩ := haccepts.mpr writesState_oldState
  exact ⟨writable_oldState, d, hd, (haccepted d hd).2.1⟩

end Document

end VirtualShell
