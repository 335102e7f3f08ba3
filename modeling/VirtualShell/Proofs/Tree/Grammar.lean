import VirtualShell.Tree.Codec
import VirtualShell.Proofs.Tree.Map
import VirtualShell.Proofs.Tree.RoundTrip

/-!
# Which values write a tree

A value is read as a node just where it is one of three kinds of object, down to the leaves: a file,
a directory without children, or a directory whose children are written in the same way
(`Json.WritesNode`). What is read is a whole tree (`ofJson_spec`), since a directory gets its
entries from its children, or none.

Numbers play no part in this, so it makes no difference that a document may be read with other
fractions than it was written from (`writesNode_mapFloats_iff`).
-/

namespace VirtualShell

namespace Json

/-- A text. -/
def IsText (x : Option Json) : Prop :=
  ∃ s, x = some (.str s)

/-- Missing or a text. -/
def IsTextIfAny (x : Option Json) : Prop :=
  ∀ v, x = some v → ∃ s, v = .str s

/-- The value writes a node, with everything below it. -/
inductive WritesNode : Json → Prop
  | file {fields : Table Json} (htype : Table.find? fields "type" = some (.str "file"))
      (hname : IsTextIfAny (Table.find? fields "name"))
      (hcontent : IsTextIfAny (Table.find? fields "content")) : WritesNode (.obj fields)
  | leaf {fields : Table Json} (htype : Table.find? fields "type" = some (.str "directory"))
      (hname : IsTextIfAny (Table.find? fields "name"))
      (hchildren : Table.find? fields "children" = none) : WritesNode (.obj fields)
  | directory {fields children : Table Json}
      (htype : Table.find? fields "type" = some (.str "directory"))
      (hname : IsTextIfAny (Table.find? fields "name"))
      (hchildren : Table.find? fields "children" = some (.obj children))
      (hentries : ∀ e ∈ children, WritesNode e.2) : WritesNode (.obj fields)

/-! ## Other fractions -/

section

variable {f : Binary64 → Binary64} {v : Json} {x : Option Json}

/-- A change of fractions makes no text, and changes none. -/
theorem mapFloats_eq_str_iff {s : String} : v.mapFloats f = .str s ↔ v = .str s := by
  cases v <;> simp [mapFloats]

/-- So it is for the null value. -/
theorem mapFloats_eq_null_iff : v.mapFloats f = .null ↔ v = .null := by
  cases v <;> simp [mapFloats]

/-- It makes lists of lists only. -/
theorem mapFloats_eq_arr_iff {items : List Json} :
    v.mapFloats f = .arr items ↔ ∃ before, v = .arr before ∧ before.map (mapFloats f) = items := by
  cases v with
  | arr before => simp
  | _ => simp [mapFloats]

/-- It makes objects of objects only. -/
theorem mapFloats_eq_obj_iff {fields : Table Json} :
    v.mapFloats f = .obj fields ↔
      ∃ before, v = .obj before ∧ before.map (Prod.map id (mapFloats f)) = fields := by
  cases v with
  | obj before => simp
  | _ => simp [mapFloats]

/-- So a value that may be missing is a text before and after. -/
theorem map_mapFloats_eq_str_iff {s : String} :
    x.map (mapFloats f) = some (.str s) ↔ x = some (.str s) := by
  simp [mapFloats_eq_str_iff]

/-- Whether a value is a text does not depend on fractions. -/
theorem isText_map_iff : IsText (x.map (mapFloats f)) ↔ IsText x := by
  simp [IsText, mapFloats_eq_str_iff]

/-- Nor does it where the value may be missing. -/
theorem isTextIfAny_map_iff : IsTextIfAny (x.map (mapFloats f)) ↔ IsTextIfAny x := by
  simp [IsTextIfAny, mapFloats_eq_str_iff]

/-- Other fractions neither make a value write a node nor keep it from that. -/
theorem writesNode_mapFloats_iff : (v.mapFloats f).WritesNode ↔ v.WritesNode := by
  constructor
  · intro h
    generalize hw : v.mapFloats f = w at h
    induction h generalizing v with
    | file htype hname hcontent =>
      obtain ⟨fields, rfl, rfl⟩ := mapFloats_eq_obj_iff.mp hw
      rw [Table.find?_map] at htype hname hcontent
      exact .file (map_mapFloats_eq_str_iff.mp htype) (isTextIfAny_map_iff.mp hname)
        (isTextIfAny_map_iff.mp hcontent)
    | leaf htype hname hchildren =>
      obtain ⟨fields, rfl, rfl⟩ := mapFloats_eq_obj_iff.mp hw
      rw [Table.find?_map] at htype hname hchildren
      exact .leaf (map_mapFloats_eq_str_iff.mp htype) (isTextIfAny_map_iff.mp hname)
        (Option.map_eq_none_iff.mp hchildren)
    | directory htype hname hchildren _ ih =>
      obtain ⟨fields, rfl, rfl⟩ := mapFloats_eq_obj_iff.mp hw
      rw [Table.find?_map] at htype hname hchildren
      obtain ⟨value, hvalue, hobj⟩ := Option.map_eq_some_iff.mp hchildren
      obtain ⟨children, rfl, rfl⟩ := mapFloats_eq_obj_iff.mp hobj
      exact .directory (map_mapFloats_eq_str_iff.mp htype) (isTextIfAny_map_iff.mp hname) hvalue
        fun e he => ih _ (List.mem_map_of_mem he) rfl
  · intro h
    induction h with
    | file htype hname hcontent =>
      rw [mapFloats_obj]
      refine .file ?_ ?_ ?_ <;> rw [Table.find?_map]
      · exact map_mapFloats_eq_str_iff.mpr htype
      · exact isTextIfAny_map_iff.mpr hname
      · exact isTextIfAny_map_iff.mpr hcontent
    | leaf htype hname hchildren =>
      rw [mapFloats_obj]
      refine .leaf ?_ ?_ ?_ <;> rw [Table.find?_map]
      · exact map_mapFloats_eq_str_iff.mpr htype
      · exact isTextIfAny_map_iff.mpr hname
      · exact Option.map_eq_none_iff.mpr hchildren
    | directory htype hname hchildren _ ih =>
      have hmapped := congrArg (Option.map (mapFloats f)) hchildren
      rw [Option.map_some, mapFloats_obj, ← Table.find?_map] at hmapped
      rw [mapFloats_obj]
      refine .directory ?_ ?_ hmapped fun e he => ?_
      · rw [Table.find?_map]
        exact map_mapFloats_eq_str_iff.mpr htype
      · rw [Table.find?_map]
        exact isTextIfAny_map_iff.mpr hname
      · obtain ⟨before, hbefore, rfl⟩ := List.mem_map.mp he
        exact ih before hbefore

end

end Json

namespace Node

open Json

variable {now : Timestamp} {v : Json} {n : Node} {fields : Table Json}

/-! ## What reading comes to -/

/-- With an empty text for what is missing, there is a text just where there is nothing else. -/
theorem getD_str_eq_iff {x : Option Json} :
    (∃ s, x.getD (.str "") = .str s) ↔ IsTextIfAny x := by
  cases x <;> simp [IsTextIfAny]

/-- What is known of a node is read just where its name is a text or missing. -/
theorem exists_readInfo_iff (now : Timestamp) (permissions : Json) :
    (∃ info, readInfo now fields permissions = .ok info) ↔
      IsTextIfAny (Table.find? fields "name") := by
  rw [← getD_str_eq_iff, readInfo]
  constructor
  · rintro ⟨info, h⟩
    split at h
    · rename_i s hname
      exact ⟨s, hname⟩
    · cases h
  · rintro ⟨s, hname⟩
    rw [hname]
    exact ⟨_, rfl⟩

/-- What a value is if it is read as a node. -/
theorem ofJson_cases (h : ofJson now v = .ok n) :
    ∃ fields, v = .obj fields ∧ IsTextIfAny (Table.find? fields "name") ∧
      (Table.find? fields "type" = some (.str "file") ∧ n.isFile = true ∧
          IsTextIfAny (Table.find? fields "content") ∨
        Table.find? fields "type" = some (.str "directory") ∧ n.isFile = false ∧
          (Table.find? fields "children" = none ∨ ∃ children entries,
            Table.find? fields "children" = some (.obj children) ∧
              entriesOfJson now children = .ok entries)) := by
  unfold ofJson at h
  split at h
  · rename_i fields
    refine ⟨fields, rfl, ?_⟩
    split at h
    · rename_i htype
      split at h
      · cases h
      · rename_i info hinfo
        refine ⟨(exists_readInfo_iff _ _).mp ⟨info, hinfo⟩, .inl ⟨htype, ?_⟩⟩
        split at h
        · rename_i content hcontent
          cases h
          exact ⟨rfl, getD_str_eq_iff.mp ⟨content, hcontent⟩⟩
        · cases h
    · rename_i htype
      split at h
      · cases h
      · rename_i info hinfo
        refine ⟨(exists_readInfo_iff _ _).mp ⟨info, hinfo⟩, .inr ⟨htype, ?_⟩⟩
        split at h
        · rename_i hchildren
          cases h
          exact ⟨rfl, .inl hchildren⟩
        · rename_i children hchildren
          split at h
          · cases h
          · rename_i entries hentries
            cases h
            exact ⟨rfl, .inr ⟨children, entries, hchildren, hentries⟩⟩
        · cases h
    · cases h
  · cases h

/-- The type of an object tells a file from a directory. -/
theorem isFile_eq_false_iff (h : ofJson now (.obj fields) = .ok n) :
    n.isFile = false ↔ Table.find? fields "type" = some (.str "directory") := by
  obtain ⟨_, ⟨⟩, -, ⟨htype, hfile, -⟩ | ⟨htype, hfile, -⟩⟩ := ofJson_cases h <;>
    simp [htype, hfile]

/-- Where all entries are read, each of them is. -/
theorem exists_ofJson_of_entriesOfJson {children : List (String × Json)}
    {entries : List (String × Node)} (h : entriesOfJson now children = .ok entries) :
    ∀ e ∈ children, ∃ n, ofJson now e.2 = .ok n := by
  induction children generalizing entries with
  | nil => nofun
  | cons e rest ih =>
    rw [entriesOfJson] at h
    split at h
    · cases h
    · rename_i n hn
      split at h
      · cases h
      · rename_i others hothers
        exact List.forall_mem_cons.mpr ⟨⟨n, hn⟩, ih hothers⟩

/-- Where each entry is read as a whole tree, all of them are. -/
theorem exists_entriesOfJson {children : List (String × Json)}
    (h : ∀ e ∈ children, ∃ n, ofJson now e.2 = .ok n ∧ n.Whole) :
    ∃ entries, entriesOfJson now children = .ok entries ∧ ∀ e ∈ entries, e.2.Whole := by
  induction children with
  | nil => exact ⟨[], by rw [entriesOfJson], nofun⟩
  | cons e rest ih =>
    rw [List.forall_mem_cons] at h
    obtain ⟨⟨n, hn, hwhole⟩, hrest⟩ := h
    obtain ⟨entries, hentries, hall⟩ := ih hrest
    refine ⟨(e.1, n) :: entries, ?_, List.forall_mem_cons.mpr ⟨hwhole, hall⟩⟩
    rw [entriesOfJson, hn, hentries]

/-! ## What is read -/

/-- What is read as a node writes one. -/
theorem writesNode_of_ofJson {v : Json} {n : Node} (h : ofJson now v = .ok n) : v.WritesNode := by
  obtain ⟨fields, hfields, hname, hkind⟩ := ofJson_cases h
  rw [hfields]
  rcases hkind with ⟨htype, -, hcontent⟩ |
    ⟨htype, -, hchildren | ⟨children, entries, hchildren, hentries⟩⟩
  · exact .file htype hname hcontent
  · exact .leaf htype hname hchildren
  · refine .directory htype hname hchildren fun e he => ?_
    obtain ⟨child, hchild⟩ := exists_ofJson_of_entriesOfJson hentries e he
    exact writesNode_of_ofJson hchild
termination_by sizeOf v
decreasing_by
  have hfield := sizeOf_find?_lt hchildren
  have hentry := List.sizeOf_lt_of_mem he
  obtain ⟨key, value⟩ := e
  rw [hfields]
  simp only [Json.obj.sizeOf_spec, Prod.mk.sizeOf_spec] at *
  omega

/-- A directory of whole trees is whole. -/
theorem whole_directory {info : NodeInfo} {entries : Table Node} (h : ∀ e ∈ entries, e.2.Whole) :
    (Node.directory info entries).Whole := by
  refine whole_iff.mpr (everywhere_of_entries nofun fun name child hchild => ?_)
  exact whole_iff.mp (h (name, child) (Table.mem_of_find? hchild))

/-- What writes a node is read as a whole tree. -/
theorem exists_ofJson_of_writesNode (now : Timestamp) (h : v.WritesNode) :
    ∃ n, ofJson now v = .ok n ∧ n.Whole := by
  induction h with
  | file htype hname hcontent =>
    obtain ⟨info, hinfo⟩ := (exists_readInfo_iff now filePermissions).mpr hname
    obtain ⟨content, htext⟩ := getD_str_eq_iff.mpr hcontent
    refine ⟨.file info content, ?_, ?_⟩
    · rw [ofJson, htype, hinfo, htext]
      rfl
    · exact whole_iff.mpr (everywhere_of_entries nofun nofun)
  | leaf htype hname hchildren =>
    obtain ⟨info, hinfo⟩ := (exists_readInfo_iff now directoryPermissions).mpr hname
    refine ⟨.directory info [], ?_, whole_directory nofun⟩
    rw [ofJson]
    simp only [htype, hinfo]
    split
    · rfl
    · rename_i h
      cases hchildren.symm.trans h
    · rename_i h
      cases hchildren.symm.trans h
  | directory htype hname hchildren _ ih =>
    obtain ⟨info, hinfo⟩ := (exists_readInfo_iff now directoryPermissions).mpr hname
    obtain ⟨entries, hentries, hall⟩ := exists_entriesOfJson ih
    exact ⟨_, ofJson_directory htype hinfo hchildren hentries, whole_directory hall⟩

/-- A value is read just where it writes a node, and what is read is whole. -/
theorem ofJson_spec (now : Timestamp) (v : Json) :
    ((∃ n, ofJson now v = .ok n) ↔ v.WritesNode) ∧ ∀ n, ofJson now v = .ok n → n.Whole := by
  refine ⟨⟨fun ⟨n, h⟩ => writesNode_of_ofJson h, fun h => ?_⟩, fun n h => ?_⟩
  · obtain ⟨n, hn, -⟩ := exists_ofJson_of_writesNode now h
    exact ⟨n, hn⟩
  · obtain ⟨m, hm, hwhole⟩ := exists_ofJson_of_writesNode now (writesNode_of_ofJson h)
    cases hm.symm.trans h
    exact hwhole

end Node

end VirtualShell
