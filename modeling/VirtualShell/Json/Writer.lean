import VirtualShell.Json.Basic

/-!
# Writing documents

Documents are written in ASCII: every other character is escaped by its UTF-16 units. The layout is
either one line, or one item per line under an indentation that grows by two with each level; an
empty array or object stays on one line in both.
-/

namespace VirtualShell.Json

/-- A character outside ASCII by its UTF-16 units. -/
def escapeUnits (n : Nat) : List Char :=
  if n < 0x10000 then '\\' :: 'u' :: Text.hexDigits 4 n
  else
    let m := n - 0x10000
    '\\' :: 'u' :: Text.hexDigits 4 (0xD800 + m / 0x400) ++
      '\\' :: 'u' :: Text.hexDigits 4 (0xDC00 + m % 0x400)

/-- One character inside a written text. -/
def escapeChar (c : Char) : List Char :=
  if c = '"' then ['\\', '"']
  else if c = '\\' then ['\\', '\\']
  else if c = '\n' then ['\\', 'n']
  else if c = '\r' then ['\\', 'r']
  else if c = '\t' then ['\\', 't']
  else if c = '\x0c' then ['\\', 'f']
  else if c = '\x08' then ['\\', 'b']
  else if 0x20 ≤ c.toNat ∧ c.toNat ≤ 0x7E then [c]
  else escapeUnits c.toNat

/-- A text in double quotes. -/
def writeText (s : String) : String :=
  String.ofList ('"' :: s.toList.flatMap escapeChar ++ ['"'])

/-- A number with a fraction; the values that no decimal writes are written by name. -/
def writeFloat : Binary64 → String
  | .infinite negative => if negative then "-Infinity" else "Infinity"
  | .nan => "NaN"
  | x => x.text

/-- How the parts of an array or object are laid out. -/
inductive Layout where
  /-- Everything on one line. -/
  | line
  /-- One part per line, indented by this many blanks. -/
  | block (indent : Nat)

/-- The layout inside an array or object. -/
def Layout.inner : Layout → Layout
  | .line => .line
  | .block n => .block (n + 2)

/-- A line feed and the indentation, where the layout has them. -/
def Layout.break : Layout → String
  | .line => ""
  | .block n => "\n" ++ String.ofList (List.replicate n ' ')

/-- Encloses the parts of an array or object in its brackets. -/
def enclose (layout : Layout) (opening closing : String) (parts : List String) : String :=
  if parts.isEmpty then opening ++ closing
  else
    let separator := match layout with
      | .line => ", "
      | .block _ => "," ++ layout.inner.break
    opening ++ layout.inner.break ++ Text.joinWith separator parts ++ layout.break ++ closing

mutual

/-- A value in a layout. -/
def writeIn (layout : Layout) : Json → String
  | .null => "null"
  | .bool b => if b then "true" else "false"
  | .int n => Text.intText n
  | .float x => writeFloat x
  | .str s => writeText s
  | .arr items => enclose layout "[" "]" (writeItems layout.inner items)
  | .obj fields => enclose layout "\x7b" "\x7d" (writeFields layout.inner fields)

/-- The items of an array. -/
def writeItems (layout : Layout) : List Json → List String
  | [] => []
  | v :: vs => writeIn layout v :: writeItems layout vs

/-- The fields of an object. -/
def writeFields (layout : Layout) : List (String × Json) → List String
  | [] => []
  | (name, v) :: rest => (writeText name ++ ": " ++ writeIn layout v) :: writeFields layout rest

end

/-- The document of a value, one item per line. -/
def write (v : Json) : String :=
  writeIn (.block 0) v

/-- The document of a value on a single line. -/
def writeLine (v : Json) : String :=
  writeIn .line v

end VirtualShell.Json
