import VirtualShell.Tree.Codec
import VirtualShell.Proofs.Json.RoundTrip
import VirtualShell.Proofs.Time.RoundTrip
import VirtualShell.Proofs.Tree.Sound

/-!
# Trees are read as they were written

The object that writes a tree is read as that tree, with every name, content, date and permission
and with the entries in their order. Reading forgives permissions that are missing or empty, so they
must be texts that are not.
-/

namespace VirtualShell.Node

/-- What documents keep of a node without loss. -/
structure Face.Kept (face : Face) : Prop where
  /-- A node without a content is a directory that has its entries. -/
  whole : face.content = none → face.names ≠ none
  /-- No two entries have the same name. -/
  distinct : ∀ names, face.names = some names → names.Nodup
  /-- The permissions are a text that is not empty. -/
  permissions : ∃ text ∈ face.info.permissions.text?, text ≠ ""
  /-- The length of the content is a number that can be read. -/
  short : ∀ content ∈ face.content, content.length < 10 ^ Text.maxDigits

/-- A tree of which nothing is lost in a document. -/
def Kept (n : Node) : Prop :=
  n.Everywhere fun _ face => face.Kept

/-- The permissions of every node are a text that is not empty. -/
def HasPermissionTexts (n : Node) : Prop :=
  n.Everywhere fun _ face => ∃ text ∈ face.info.permissions.text?, text ≠ ""

/-- The length of every file is a number with no more digits than documents may have. -/
def HasWritableSizes (n : Node) : Prop :=
  n.Everywhere fun _ face => ∀ content ∈ face.content, content.length < 10 ^ Text.maxDigits

/-- A sound tree is written and read back unchanged if its permissions are texts and its sizes are
writable. -/
theorem Sound.kept {n : Node} (h : n.Sound) (hpermissions : n.HasPermissionTexts)
    (hsizes : n.HasWritableSizes) : n.Kept := fun path m hat => {
  whole := (h path m hat).whole
  distinct := (h path m hat).distinct
  permissions := hpermissions path m hat
  short := hsizes path m hat }

/-- The entries of a kept directory are kept. -/
theorem Kept.entry {info : NodeInfo} {entries : Table Node} (h : Kept (.directory info entries)) :
    ∀ entry ∈ entries, entry.2.Kept := by
  intro entry hentry
  have hdistinct : Table.Distinct entries := (h [] _ rfl).distinct _ rfl
  have hat : (directory info entries).at? [entry.1] = some entry.2 := by
    rw [at?_directory_of_mem hdistinct hentry]
    rfl
  exact Everywhere.below h hat

/-- The permissions of a kept node are a text that is not empty. -/
theorem Face.Kept.permissions_eq {n : Node} (h : n.face.Kept) :
    ∃ text, n.info.permissions = .str text ∧ text ≠ "" := by
  have hinfo : n.face.info = n.info := by cases n <;> rfl
  obtain ⟨text, htext, hne⟩ := h.permissions
  rw [hinfo] at htext
  refine ⟨text, ?_, hne⟩
  cases hp : n.info.permissions <;> rw [hp] at htext <;> cases htext
  rfl

/-! ## Reading -/

/-- The common part of a node is read from its fields. -/
theorem readInfo_commonFields (now : Timestamp) {n : Node} (h : n.face.Kept) (permissions : Json)
    (last : String × Json) :
    readInfo now (n.commonFields ++ [last]) permissions = .ok n.info := by
  obtain ⟨text, htext, hne⟩ := h.permissions_eq
  have htruthy : Json.isTruthy (.str text) = true := by simp [Json.isTruthy, hne]
  simp [readInfo, commonFields, Table.find?, Timestamp.ofJson_text, htext, htruthy, Option.filter,
    name]
  rw [← htext]

/-- A node is written as the fields all nodes have, and one of its kind. -/
theorem exists_toJson_eq (n : Node) : ∃ last, n.toJson = .obj (n.commonFields ++ [last]) := by
  cases n <;> exact ⟨_, by rw [toJson]⟩

/-- The kind is found among the fields of a node. -/
theorem find?_type (n : Node) (last : String × Json) :
    Table.find? (n.commonFields ++ [last]) "type" = some (.str n.kind) := by
  simp [commonFields, Table.find?]

/-- The content of a file is found among its fields. -/
theorem find?_content (n : Node) (v : Json) :
    Table.find? (n.commonFields ++ [("content", v)]) "content" = some v := by
  simp [commonFields, Table.find?]

/-- The entries of a directory are found among its fields. -/
theorem find?_children (n : Node) (v : Json) :
    Table.find? (n.commonFields ++ [("children", v)]) "children" = some v := by
  simp [commonFields, Table.find?]

/-- A directory is read with the entries that its children are read as. -/
theorem ofJson_directory {now : Timestamp} {fields children : List (String × Json)}
    {info : NodeInfo} {entries : List (String × Node)}
    (htype : Table.find? fields "type" = some (.str "directory"))
    (hinfo : readInfo now fields directoryPermissions = .ok info)
    (hchildren : Table.find? fields "children" = some (.obj children))
    (hentries : entriesOfJson now children = .ok entries) :
    ofJson now (.obj fields) = .ok (.directory info entries) := by
  rw [ofJson]
  simp only [htype, hinfo]
  -- The match on the children remembers the look-up, so it is split and not rewritten.
  split
  · rename_i h
    cases hchildren.symm.trans h
  · rename_i h
    cases hchildren.symm.trans h
    rw [hentries]
  · rename_i hother h
    cases hchildren.symm.trans h
    exact (hother _ rfl).elim

mutual

/-- A node is read from the object that writes it. -/
theorem ofJson_toJson (now : Timestamp) : ∀ n : Node, n.Kept → ofJson now n.toJson = .ok n
  | .file info content, h => by
    have hinfo := readInfo_commonFields now (h [] _ rfl) filePermissions ("content", .str content)
    have htype := find?_type (.file info content) ("content", .str content)
    have hcontent := find?_content (.file info content) (.str content)
    rw [toJson, ofJson, htype, hcontent, hinfo]
    rfl
  | .directory info entries, h => by
    rw [toJson]
    exact ofJson_directory (find?_type (.directory info entries) _)
      (readInfo_commonFields now (h [] _ rfl) directoryPermissions _)
      (find?_children (.directory info entries) _)
      (entriesOfJson_entriesToJson now entries h.entry)
  | .hollow info, h => absurd rfl ((h [] _ rfl).whole rfl)

/-- Entries that are kept are read back as they were written, in their order. -/
theorem entriesOfJson_entriesToJson (now : Timestamp) : ∀ entries : List (String × Node),
    (∀ entry ∈ entries, entry.2.Kept) → entriesOfJson now (entriesToJson entries) = .ok entries
  | [], _ => by rw [entriesToJson, entriesOfJson]
  | (key, n) :: rest, h => by
    rw [List.forall_mem_cons] at h
    rw [entriesToJson, entriesOfJson, ofJson_toJson now n h.1,
      entriesOfJson_entriesToJson now rest h.2]

end

/-! ## Documents -/

/-- Entries are written under their names. -/
theorem names_entriesToJson : ∀ entries : List (String × Node),
    Table.names (entriesToJson entries) = Table.names entries
  | [] => by rw [entriesToJson]; rfl
  | (key, n) :: rest => by
    rw [entriesToJson, Table.names_cons, Table.names_cons, names_entriesToJson rest]

/-- The size of a directory is written with few digits. -/
theorem isShort_directorySize : Json.IsShort directorySize := by
  show (Nat.toDigits 10 4096).length ≤ 4300
  decide

/-- So is the size of a kept node. -/
theorem Face.Kept.isShort_size {n : Node} (h : n.face.Kept) : Json.IsShort n.size := by
  cases n with
  | file info content => exact Text.length_toDigits_le (h.short content rfl)
  | directory info entries => exact isShort_directorySize
  | hollow info => exact isShort_directorySize

/-- The object with the common fields and one more is read back where that one is. -/
theorem exact_commonFields {n : Node} (h : n.face.Kept) {name : String} {v : Json}
    (hname : name ∉ Table.names n.commonFields) (hv : v.Exact) :
    Json.Exact (.obj (n.commonFields ++ [(name, v)])) := by
  obtain ⟨text, htext, -⟩ := h.permissions_eq
  constructor
  · simp only [commonFields, Table.names_cons, Table.names_nil, List.cons_append,
      List.nil_append] at hname ⊢
    grind
  · rw [commonFields, htext]
    exact ⟨trivial, trivial, h.isShort_size, trivial, trivial, trivial, hv, trivial⟩

mutual

/-- The object that writes a node is read back. -/
theorem exact_toJson : ∀ n : Node, n.Kept → n.toJson.Exact
  | .file info content, h => by
    rw [toJson]
    exact exact_commonFields (h [] _ rfl) (by simp [commonFields]) trivial
  | .directory info entries, h => by
    rw [toJson]
    refine exact_commonFields (h [] _ rfl) (by simp [commonFields]) ⟨?_, ?_⟩
    · rw [names_entriesToJson]
      exact (h [] _ rfl).distinct _ rfl
    · exact fieldsExact_entriesToJson entries h.entry
  | .hollow info, h => absurd rfl ((h [] _ rfl).whole rfl)

/-- So are the objects that write the entries of a directory. -/
theorem fieldsExact_entriesToJson : ∀ entries : List (String × Node),
    (∀ entry ∈ entries, entry.2.Kept) → Json.FieldsExact (entriesToJson entries)
  | [], _ => by rw [entriesToJson]; trivial
  | (key, n) :: rest, h => by
    rw [List.forall_mem_cons] at h
    rw [entriesToJson]
    exact ⟨exact_toJson n h.1, fieldsExact_entriesToJson rest h.2⟩

end

end VirtualShell.Node
