import VirtualShell.Time.Reader
import VirtualShell.Tree.Node

/-!
# Trees in documents

A node is written as an object with its name, type, size, permissions and dates, and with its
content or its children. Reading such an object checks what it relies on and forgives the rest: a
date that is missing or cannot be read becomes the time of reading, and permissions that are missing
or empty become those of a new node.
-/

namespace VirtualShell

/-- Why a value is not a node. -/
inductive NodeError where
  | notAnObject
  | unknownType (type : Json)
  | nameNotText
  | contentNotText (name : String)
  | childrenNotObject (name : String)

/-- The message for a value that is not a node. -/
def NodeError.message : NodeError → String
  | .notAnObject => "node must be an object"
  | .unknownType type => "unknown node type: " ++ type.shown
  | .nameNotText => "node name must be a string"
  | .contentNotText name => "file content must be a string: " ++ name
  | .childrenNotObject name => "directory children must be an object: " ++ name

/-- The date that a value writes, or else the current one. -/
def Timestamp.ofJson (now : Timestamp) : Option Json → Timestamp
  | some (.str s) => (Timestamp.read? s).getD now
  | _ => now

namespace Node

/-! ## Writing -/

/-- The fields that all nodes have. -/
def commonFields (n : Node) : List (String × Json) :=
  [("name", .str n.name), ("type", .str n.kind), ("size", .int n.size),
    ("permissions", n.info.permissions), ("createdAt", .str n.info.createdAt.text),
    ("modifiedAt", .str n.info.modifiedAt.text)]

mutual

/-- The object that writes a node with everything below it. -/
def toJson : Node → Json
  | .file info content =>
    .obj (commonFields (.file info content) ++ [("content", .str content)])
  | .directory info entries =>
    .obj (commonFields (.directory info entries) ++ [("children", .obj (entriesToJson entries))])
  | .hollow info => .obj (commonFields (.hollow info) ++ [("children", .obj [])])

/-- The fields that write the entries of a directory. -/
def entriesToJson : List (String × Node) → List (String × Json)
  | [] => []
  | (key, n) :: rest => (key, n.toJson) :: entriesToJson rest

end

/-! ## Reading -/

/-- A field's value is smaller than the table of fields. -/
theorem sizeOf_find?_lt {fields : Table Json} {name : String} {v : Json}
    (h : Table.find? fields name = some v) : sizeOf v < sizeOf fields := by
  induction fields with
  | nil => simp [Table.find?] at h
  | cons entry rest ih =>
    obtain ⟨n, w⟩ := entry
    simp only [Table.find?] at h
    split at h
    · cases h
      simp only [List.cons.sizeOf_spec, Prod.mk.sizeOf_spec]
      omega
    · have := ih h
      simp only [List.cons.sizeOf_spec]
      omega

/-- The name and the other common parts of a node. -/
def readInfo (now : Timestamp) (fields : Table Json) (permissions : Json) :
    Except NodeError NodeInfo :=
  match (fields.find? "name").getD (.str "") with
  | .str name =>
    .ok {
      name
      permissions := ((fields.find? "permissions").filter Json.isTruthy).getD permissions
      createdAt := .ofJson now (fields.find? "createdAt")
      modifiedAt := .ofJson now (fields.find? "modifiedAt") }
  | _ => .error .nameNotText

mutual

/-- The node that a value writes, with everything below it. -/
def ofJson (now : Timestamp) (v : Json) : Except NodeError Node :=
  match v with
  | .obj fields =>
    match Table.find? fields "type" with
    | some (.str "file") =>
      match readInfo now fields filePermissions with
      | .error e => .error e
      | .ok info =>
        match (Table.find? fields "content").getD (.str "") with
        | .str content => .ok (.file info content)
        | _ => .error (.contentNotText info.name)
    | some (.str "directory") =>
      match readInfo now fields directoryPermissions with
      | .error e => .error e
      | .ok info =>
        match _h : Table.find? fields "children" with
        | none => .ok (.directory info [])
        | some (.obj children) =>
          match entriesOfJson now children with
          | .error e => .error e
          | .ok entries => .ok (.directory info entries)
        | some _ => .error (.childrenNotObject info.name)
    | type => .error (.unknownType (type.getD .null))
  | _ => .error .notAnObject
termination_by sizeOf v
decreasing_by
  have := sizeOf_find?_lt _h
  simp only [Json.obj.sizeOf_spec] at *
  omega

/-- The entries that the fields of an object write. -/
def entriesOfJson (now : Timestamp) (fields : List (String × Json)) :
    Except NodeError (List (String × Node)) :=
  match fields with
  | [] => .ok []
  | (key, v) :: rest =>
    match ofJson now v with
    | .error e => .error e
    | .ok n =>
      match entriesOfJson now rest with
      | .error e => .error e
      | .ok entries => .ok ((key, n) :: entries)
termination_by sizeOf fields

end

end Node

end VirtualShell
