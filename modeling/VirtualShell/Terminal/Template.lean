import VirtualShell.Table
import VirtualShell.Text.Number

/-!
# Templates

The format of the prompt is a text with fields in braces. A field names a value, may pick one
character of it by an index, may ask for the quoted form of it, and may give a specification for
padding and cutting, which can itself hold fields. A brace that stands for itself is doubled.
-/

namespace VirtualShell.Template

/-- Why a template cannot be filled. -/
inductive Error where
  /-- The template is not well formed, or a specification asks for what a text cannot do. -/
  | malformed (what : String)
  /-- A field has a name for which there is no value. -/
  | unknownName (name : String)
  /-- A field asks for a value by position, and there are none. -/
  | noPosition (n : Nat)
  /-- An index lies behind the end of the value. -/
  | indexTooLarge
  /-- An index is not a number. -/
  | indexNotNumber
  /-- A field asks for an attribute of a value. -/
  | noAttribute (name : String)
  deriving DecidableEq, Repr

/-- The message for a template that cannot be filled. -/
def Error.message : Error → String
  | .malformed what => what
  | .unknownName name => Text.quoted name
  | .noPosition n =>
    "Replacement index " ++ Text.natText n ++ " out of range for positional args tuple"
  | .indexTooLarge => "string index out of range"
  | .indexNotNumber => "string indices must be integers, not 'str'"
  | .noAttribute name => "'str' object has no attribute " ++ Text.quoted name

/-- Refuses a template. -/
def refuse {α : Type} (what : String) : Except Error α :=
  .error (.malformed what)

/-! ## Numbers -/

/-- The greatest number in a template. -/
def maxNumber : Nat := 9223372036854775807

/-- The number that decimal digits write. -/
def number (digits : List Char) : Except Error Nat :=
  let n := Text.natOfDigits digits
  if maxNumber < n then refuse "Too many decimal digits in format string" else .ok n

/-- The number that a text writes as a whole, if it does. -/
def wholeNumber (cs : List Char) : Except Error (Option Nat) :=
  if cs.isEmpty || !cs.all Text.isDecimal then .ok none else (number cs).map some

/-! ## Fields -/

/-- A field: what it names, the form that it asks for, and its specification. -/
structure Field where
  name : List Char
  conversion : Option Char := none
  spec : List Char := []
  /-- The specification holds fields itself. -/
  nested : Bool := false
  deriving DecidableEq, Repr

/-- Reads the name of a field, up to and with the character that ends it. Between brackets every
character belongs to the name. -/
def readName (inBrackets : Bool) (done : List Char) :
    List Char → Except Error (List Char × Char × List Char)
  | [] => refuse "expected '\x7d' before end of string"
  | c :: rest =>
    if inBrackets then readName (c != ']') (c :: done) rest
    else if c = '\x7b' then refuse "unexpected '\x7b' in field name"
    else if c = '\x7d' ∨ c = ':' ∨ c = '!' then .ok (done.reverse, c, rest)
    else readName (c == '[') (c :: done) rest

/-- Reads a specification up to the brace that closes its field; `depth` counts the open braces. -/
def readSpec (depth : Nat) (nested : Bool) (done : List Char) :
    List Char → Except Error (List Char × Bool × List Char)
  | [] => refuse "unmatched '\x7b' in format spec"
  | c :: rest =>
    if c = '\x7b' then readSpec (depth + 1) true (c :: done) rest
    else if c = '\x7d' then
      if depth = 0 then .ok (done.reverse, nested, rest)
      else readSpec (depth - 1) nested (c :: done) rest
    else readSpec depth nested (c :: done) rest

/-- Reads a field behind its opening brace. -/
def readField (cs : List Char) : Except Error (Field × List Char) := do
  let (name, stop, rest) ← readName false [] cs
  let withSpec := fun (conversion : Option Char) (rest : List Char) => do
    let (spec, nested, rest) ← readSpec 0 false [] rest
    return (({ name, conversion, spec, nested } : Field), rest)
  if stop = '\x7d' then return ({ name }, rest)
  else if stop = ':' then withSpec none rest
  else
    match rest with
    | [] => refuse "end of string while looking for conversion specifier"
    | [conversion] => withSpec (some conversion) []
    | conversion :: '\x7d' :: rest => return ({ name, conversion := some conversion }, rest)
    | conversion :: ':' :: rest => withSpec (some conversion) rest
    | _ => refuse "expected ':' after conversion specifier"

/-! ## Values -/

/-- The texts that fields can name. -/
abbrev Values := Table String

/-- Follows indexes and attributes from a value, in at most so many steps. -/
def followPath : Nat → String → List Char → Except Error String
  | 0, value, _ => .ok value
  | _ + 1, value, [] => .ok value
  | _ + 1, _, '.' :: rest =>
    let name := rest.takeWhile fun c => c != '.' && c != '['
    if name.isEmpty then refuse "Empty attribute in format string"
    else .error (.noAttribute (String.ofList name))
  | fuel + 1, value, '[' :: rest => do
    let index := rest.takeWhile (· != ']')
    match rest.drop index.length with
    | [] => refuse "Missing ']' in format string"
    | _ :: tail =>
      let n ← wholeNumber index
      if index.isEmpty then refuse "Empty attribute in format string"
      else
        match n with
        | none => throw .indexNotNumber
        | some n =>
          match value.toList[n]? with
          | none => throw .indexTooLarge
          | some c => followPath fuel c.toString tail
  | _ + 1, _, _ => refuse "Only '.' or '[' may follow ']' in format field specifier"

/-- The text that the name of a field stands for. -/
def valueOf (values : Values) (name : List Char) : Except Error String := do
  let first := name.takeWhile fun c => c != '.' && c != '['
  if first.isEmpty then throw (.noPosition 0)
  match ← wholeNumber first with
  | some n => throw (.noPosition n)
  | none =>
    match values.find? (String.ofList first) with
    | none => throw (.unknownName (String.ofList first))
    | some value => followPath name.length value (name.drop first.length)

/-- A character by its number where it cannot be shown in a message. -/
def shownChar (c : Char) : String :=
  if 32 < c.toNat ∧ c.toNat < 128 then c.toString
  else "\\x" ++ String.ofList (Nat.toDigits 16 c.toNat)

/-- The quoted form in which every character outside ASCII is escaped. -/
def quotedAscii (s : String) : String :=
  String.ofList ((Text.quoted s).toList.flatMap fun c =>
    if c.toNat < 0x80 then [c]
    else if c.toNat < 0x100 then '\\' :: 'x' :: Text.hexDigits 2 c.toNat
    else if c.toNat < 0x10000 then '\\' :: 'u' :: Text.hexDigits 4 c.toNat
    else '\\' :: 'U' :: Text.hexDigits 8 c.toNat)

/-- A value in the form that a field asks for. -/
def convert (value : String) : Option Char → Except Error String
  | none => .ok value
  | some 's' => .ok value
  | some 'r' => .ok (Text.quoted value)
  | some 'a' => .ok (quotedAscii value)
  | some c =>
    refuse ("Unknown conversion specifier "
      ++ (if 32 < c.toNat ∧ c.toNat < 127 then c.toString else shownChar c))

/-! ## Specifications -/

/-- A specification: how a value is padded and cut, and requests that no text can meet. -/
structure Spec where
  fill : Char := ' '
  align : Char := '<'
  sign : Option Char := none
  positiveZero : Bool := false
  alternate : Bool := false
  width : Nat := 0
  separator : Option Char := none
  precision : Option Nat := none
  type : Char := 's'
  deriving DecidableEq, Repr

/-- A sign of alignment. -/
def isAlign (c : Char) : Bool :=
  c == '<' || c == '>' || c == '=' || c == '^'

/-- The fill character and the alignment; tells whether a fill character was given. -/
def readAlign (cs : List Char) : Spec × Bool × List Char :=
  match cs with
  | fill :: align :: rest =>
    if isAlign align then ({ fill, align }, true, rest)
    else if isAlign fill then ({ align := fill }, false, align :: rest)
    else ({}, false, cs)
  | [align] => if isAlign align then ({ align }, false, []) else ({}, false, cs)
  | [] => ({}, false, [])

/-- Takes a character if it comes next and is one of the given ones. -/
def takeIf (p : Char → Bool) (cs : List Char) : Option Char × List Char :=
  match cs with
  | c :: rest => if p c then (some c, rest) else (none, cs)
  | [] => (none, [])

/-- The separator of thousands, of which there may be one. -/
def readSeparator (cs : List Char) : Except Error (Option Char × List Char) :=
  let both {α : Type} : Except Error α := refuse "Cannot specify both ',' and '_'."
  let (comma, cs) := takeIf (· == ',') cs
  let (underscore, cs) := takeIf (· == '_') cs
  match comma, underscore with
  | some _, some _ => both
  | some c, none => .ok (some c, cs)
  | none, some c => if cs.head? == some ',' then both else .ok (some c, cs)
  | none, none => .ok (none, cs)

/-- The number of characters that are kept at most. -/
def readPrecision (cs : List Char) : Except Error (Option Nat × List Char) :=
  match cs with
  | '.' :: rest =>
    let digits := rest.takeWhile Text.isDecimal
    if digits.isEmpty then refuse "Format specifier missing precision"
    else (number digits).map fun n => (some n, rest.drop digits.length)
  | _ => .ok (none, cs)

/-- Whether thousands can be separated in a presentation. -/
def separatesThousands (separator type : Char) : Bool :=
  "defgEG%F".toList.contains type || (separator == '_' && "boxX".toList.contains type)

/-- Reads a specification. -/
def readSpecification (cs : List Char) : Except Error Spec := do
  let (spec, filled, rest) := readAlign cs
  let (sign, rest) := takeIf (fun c => c == ' ' || c == '+' || c == '-') rest
  let (zero, rest) := takeIf (· == 'z') rest
  let (hash, rest) := takeIf (· == '#') rest
  let (padding, rest) := takeIf (fun c => !filled && c == '0') rest
  let digits := rest.takeWhile Text.isDecimal
  let width ← number digits
  let (separator, rest) ← readSeparator (rest.drop digits.length)
  let (precision, rest) ← readPrecision rest
  let type ← match rest with
    | [] => pure 's'
    | [c] => pure c
    | _ =>
      refuse ("Invalid format specifier '" ++ String.ofList cs ++ "' for object of type 'str'")
  if let some c := separator then
    if !separatesThousands c type then
      refuse ("Cannot specify '" ++ c.toString ++ "' with '" ++ shownChar type ++ "'.")
  return { spec with
    fill := padding.getD spec.fill
    sign, width, separator, precision, type
    positiveZero := zero.isSome
    alternate := hash.isSome }

/-- Pads a text to the width of a specification. -/
def pad (spec : Spec) (cs : List Char) : List Char :=
  let room := spec.width - cs.length
  let left := if spec.align = '>' then room else if spec.align = '^' then room / 2 else 0
  List.replicate left spec.fill ++ cs ++ List.replicate (room - left) spec.fill

/-- Formats a text as a specification says. -/
def format (value : String) (cs : List Char) : Except Error String := do
  if cs.isEmpty then return value
  let spec ← readSpecification cs
  if spec.type ≠ 's' then
    refuse ("Unknown format code '" ++ shownChar spec.type ++ "' for object of type 'str'")
  if let some c := spec.sign then
    refuse ((if c = ' ' then "Space" else "Sign") ++ " not allowed in string format specifier")
  if spec.positiveZero then
    refuse "Negative zero coercion (z) not allowed in string format specifier"
  if spec.alternate then
    refuse "Alternate form (#) not allowed in string format specifier"
  if spec.align = '=' then
    refuse "'=' alignment not allowed in string format specifier"
  let kept := match spec.precision with
    | some n => value.toList.take n
    | none => value.toList
  return String.ofList (pad spec kept)

/-! ## Filling -/

/-- Fills the fields of a template, given how to fill those in a specification. At most so many
steps are taken, and `done` holds the text so far. -/
def fillWith (inner : List Char → Except Error String) (values : Values) :
    Nat → String → List Char → Except Error String
  | 0, done, _ => .ok done
  | fuel + 1, done, cs => do
    let literal := cs.takeWhile fun c => c != '\x7b' && c != '\x7d'
    let done := done ++ String.ofList literal
    match cs.drop literal.length with
    | [] => return done
    | '\x7b' :: '\x7b' :: rest => fillWith inner values fuel (done ++ "\x7b") rest
    | '\x7d' :: '\x7d' :: rest => fillWith inner values fuel (done ++ "\x7d") rest
    | '\x7d' :: _ => refuse "Single '\x7d' encountered in format string"
    | ['\x7b'] => refuse "Single '\x7b' encountered in format string"
    | _ :: rest =>
      let (field, rest) ← readField rest
      let value ← valueOf values field.name
      let value ← convert value field.conversion
      let spec ← if field.nested then inner field.spec else pure (String.ofList field.spec)
      let text ← format value spec.toList
      fillWith inner values fuel (done ++ text) rest

/-- Fills a template. Fields may stand in specifications, but not in specifications of those. -/
def fill (values : Values) (template : String) : Except Error String :=
  let tooDeep := fun (_ : List Char) => refuse "Max string recursion exceeded"
  let inner := fun cs => fillWith tooDeep values (cs.length + 1) "" cs
  fillWith inner values (template.length + 1) "" template.toList

end VirtualShell.Template
