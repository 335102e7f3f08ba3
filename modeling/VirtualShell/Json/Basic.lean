import VirtualShell.Binary64.Shortest
import VirtualShell.Table

/-!
# Document values

The values of a JSON document. An object keeps the order of its fields, because the order of a
directory's entries is part of a saved state, and whole numbers are kept apart from numbers with a
fraction.
-/

namespace VirtualShell

/-- A JSON value. -/
inductive Json where
  | null
  | bool (b : Bool)
  | int (n : Int)
  | float (x : Binary64)
  | str (s : String)
  | arr (items : List Json)
  | obj (fields : List (String × Json))

namespace Json

instance : Inhabited Json := ⟨.null⟩

/-- The field of an object; other values have no fields. -/
def field? : Json → String → Option Json
  | .obj fields, name => Table.find? fields name
  | _, _ => none

/-- Whether the value counts as true: it is not null, false, zero or empty. -/
def isTruthy : Json → Bool
  | .null => false
  | .bool b => b
  | .int n => n != 0
  | .float x => !x.isZero
  | .str s => s != ""
  | .arr items => !items.isEmpty
  | .obj fields => !fields.isEmpty

/-- The name of the value's type in messages. -/
def typeName : Json → String
  | .null => "NoneType"
  | .bool _ => "bool"
  | .int _ => "int"
  | .float _ => "float"
  | .str _ => "str"
  | .arr _ => "list"
  | .obj _ => "dict"

/-- The text of a value, if it is one. -/
def text? : Json → Option String
  | .str s => some s
  | _ => none

mutual

/-- The value as messages show it. -/
def shown : Json → String
  | .null => "None"
  | .bool b => if b then "True" else "False"
  | .int n => Text.intText n
  | .float x => x.text
  | .str s => Text.quoted s
  | .arr items => "[" ++ Text.joinWith ", " (shownItems items) ++ "]"
  | .obj fields => "\x7b" ++ Text.joinWith ", " (shownFields fields) ++ "\x7d"

/-- The items of an array as messages show them. -/
def shownItems : List Json → List String
  | [] => []
  | v :: vs => shown v :: shownItems vs

/-- The fields of an object as messages show them. -/
def shownFields : List (String × Json) → List String
  | [] => []
  | (name, v) :: rest => (Text.quoted name ++ ": " ++ shown v) :: shownFields rest

end

/-- The value as it is filled into a line of output: a text without quotes. -/
def plain : Json → String
  | .str s => s
  | v => shown v

end Json

end VirtualShell
