import VirtualShell.Json.Basic

/-!
# Reading documents

A reader for JSON texts that reports what it missed and where. Beyond the standard it accepts the
names `NaN`, `Infinity` and `-Infinity`. A field that occurs twice keeps its first place and its
last value. A text escape that stands for half of a surrogate pair has no character and becomes
U+FFFD.

The reader walks the list of characters still to be read. Where it fails it notes how many of them
are left, from which the position in the whole text follows. Values may be nested to any depth.
-/

namespace VirtualShell.Json

/-- What the reader missed. -/
inductive Complaint where
  | value
  | comma
  | colon
  | fieldName
  | extraData
  | byteOrderMark
  | unterminatedText
  | controlCharacter
  | badEscape
  | badUnicodeEscape
  deriving DecidableEq, Repr

/-- The wording of a complaint. -/
def Complaint.message : Complaint → String
  | .value => "Expecting value"
  | .comma => "Expecting ',' delimiter"
  | .colon => "Expecting ':' delimiter"
  | .fieldName => "Expecting property name enclosed in double quotes"
  | .extraData => "Extra data"
  | .byteOrderMark => "Unexpected UTF-8 BOM (decode using utf-8-sig)"
  | .unterminatedText => "Unterminated string starting at"
  | .controlCharacter => "Invalid control character at"
  | .badEscape => "Invalid \\escape"
  | .badUnicodeEscape => "Invalid \\uXXXX escape"

/-- Why a text is not read: a complaint, with the number of characters from its place to the end of
the text, or a number that is too long. -/
inductive Failure where
  | complaint (c : Complaint) (remaining : Nat)
  | number (e : Text.NumberError)
  deriving Repr

/-- What has been read, with the characters that follow it. -/
abbrev Read (α : Type) := Except Failure (α × List Char)

/-- A complaint about the place where `rest` starts. -/
def complain {α : Type} (c : Complaint) (rest : List Char) : Except Failure α :=
  .error (.complaint c rest.length)

/-- The blanks between the parts of a document. -/
def isSpace (c : Char) : Bool :=
  c == ' ' || c == '\t' || c == '\n' || c == '\r'

/-- The text after its leading blanks. -/
def skipSpace (cs : List Char) : List Char :=
  cs.dropWhile isSpace

/-! ## Texts -/

/-- The value of a hexadecimal digit. -/
def hexValue? (c : Char) : Option Nat :=
  if '0' ≤ c ∧ c ≤ '9' then some (c.toNat - 0x30)
  else if 'a' ≤ c ∧ c ≤ 'f' then some (c.toNat - 0x57)
  else if 'A' ≤ c ∧ c ≤ 'F' then some (c.toNat - 0x37)
  else none

/-- The number of exactly four hexadecimal digits. -/
def hexUnit? (a b c d : Char) : Option Nat := do
  let a ← hexValue? a
  let b ← hexValue? b
  let c ← hexValue? c
  let d ← hexValue? d
  return ((a * 16 + b) * 16 + c) * 16 + d

/-- The character of a code point; code points without one have the replacement character. -/
def charOfCode (n : Nat) : Char :=
  if n.isValidChar then Char.ofNat n else '\uFFFD'

/-- The character that a one-letter escape stands for. -/
def simpleEscape? : Char → Option Char
  | '"' => some '"'
  | '\\' => some '\\'
  | '/' => some '/'
  | 'b' => some '\x08'
  | 'f' => some '\x0c'
  | 'n' => some '\n'
  | 'r' => some '\r'
  | 't' => some '\t'
  | _ => none

/-- What an escape by number stands for: `rest` follows its letter `u`. A high surrogate takes the
low surrogate of a following escape with it. At least one character must follow the digits. -/
def readUnits (rest : List Char) : Read Char :=
  match rest with
  | a :: b :: c :: d :: x :: rest' =>
    match hexUnit? a b c d with
    | none => complain .badUnicodeEscape ('u' :: rest)
    | some n =>
      let single := Except.ok (charOfCode n, x :: rest')
      if 0xD800 ≤ n ∧ n < 0xDC00 ∧ x = '\\' then
        match rest' with
        | 'u' :: a :: b :: c :: d :: y :: rest'' =>
          match hexUnit? a b c d with
          | none => complain .badUnicodeEscape rest'
          | some m =>
            if 0xDC00 ≤ m ∧ m < 0xE000 then
              .ok (charOfCode (0x10000 + (n - 0xD800) * 0x400 + (m - 0xDC00)), y :: rest'')
            else single
        | _ => single
      else single
  | _ => complain .badUnicodeEscape ('u' :: rest)

/-- The characters of a text up to its closing quote. `opening` is the text from the opening quote
on, and `done` holds the characters read so far in reverse. -/
def readChars (opening : List Char) : Nat → List Char → List Char → Read String
  | 0, _, _ => complain .unterminatedText opening
  | fuel + 1, done, cs =>
    match cs with
    | [] => complain .unterminatedText opening
    | '"' :: rest => .ok (String.ofList done.reverse, rest)
    | '\\' :: rest =>
      match rest with
      | [] => complain .unterminatedText opening
      | 'u' :: rest' =>
        match readUnits rest' with
        | .error e => .error e
        | .ok (c, rest'') => readChars opening fuel (c :: done) rest''
      | c :: rest' =>
        match simpleEscape? c with
        | none => complain .badEscape cs
        | some c' => readChars opening fuel (c' :: done) rest'
    | c :: rest =>
      if c.toNat < 0x20 then complain .controlCharacter cs
      else readChars opening fuel (c :: done) rest

/-- A text, from its opening quote on. -/
def readText (fuel : Nat) (opening : List Char) : Read String :=
  readChars opening fuel [] (opening.drop 1)

/-! ## Numbers -/

/-- The decimal digits at the start of a text, and what follows them. -/
def spanDigits (cs : List Char) : List Char × List Char :=
  (cs.takeWhile Char.isDigit, cs.dropWhile Char.isDigit)

/-- The digits of a fraction, if a point and at least one digit come next. -/
def spanFraction (cs : List Char) : List Char × List Char :=
  match cs with
  | '.' :: rest =>
    let (digits, rest') := spanDigits rest
    if digits.isEmpty then ([], cs) else (digits, rest')
  | _ => ([], cs)

/-- The exponent, if one with at least one digit comes next. -/
def spanExponent (cs : List Char) : Option Int × List Char :=
  match cs with
  | e :: rest =>
    if e = 'e' ∨ e = 'E' then
      let (negative, rest) := match rest with
        | '+' :: r => (false, r)
        | '-' :: r => (true, r)
        | r => (false, r)
      let (digits, rest') := spanDigits rest
      if digits.isEmpty then (none, cs)
      else
        let n : Int := Text.natOfDigits digits
        (some (if negative then -n else n), rest')
    else (none, cs)
  | [] => (none, cs)

/-- Whether a minus sign comes next, and what follows it. -/
def splitSign (cs : List Char) : Bool × List Char :=
  match cs with
  | '-' :: rest => (true, rest)
  | _ => (false, cs)

/-- The digits before a fraction: a zero in front stands alone. -/
def spanWhole (cs : List Char) : List Char × List Char :=
  match cs with
  | '0' :: rest => (['0'], rest)
  | _ => spanDigits cs

/-- A number; `none` where none starts. A fraction or an exponent makes it a binary64 number. -/
def readNumber? (cs : List Char) : Option (Read Json) :=
  let (negative, body) := splitSign cs
  let (whole, rest) := spanWhole body
  if whole.isEmpty then none
  else
    let (fraction, rest₁) := spanFraction rest
    let (exponent, rest₂) := spanExponent rest₁
    if fraction.isEmpty && exponent.isNone then
      match Text.readNat whole with
      | .error e => some (.error (.number e))
      | .ok n => some (.ok (.int (if negative then -(n : Int) else n), rest))
    else
      let digits := Text.natOfDigits (whole ++ fraction)
      let value := Binary64.ofDecimal negative digits (exponent.getD 0 - fraction.length)
      some (.ok (.float value, rest₂))

/-! ## Values -/

/-- A name with a fixed value, if one comes next. -/
def readName? (cs : List Char) : Option (Json × List Char) :=
  let names : List (String × Json) :=
    [("null", .null), ("true", .bool true), ("false", .bool false), ("NaN", .float .nan),
      ("Infinity", .float (.infinite false)), ("-Infinity", .float (.infinite true))]
  names.findSome? fun (name, value) =>
    if name.toList.isPrefixOf cs then some (value, cs.drop name.length) else none

mutual

/-- A value. The fuel bounds the number of steps; the length of the text is enough. -/
def readValue : Nat → List Char → Read Json
  | 0, cs => complain .value cs
  | fuel + 1, cs =>
    match cs with
    | '"' :: _ =>
      match readText (fuel + 1) cs with
      | .error e => .error e
      | .ok (s, rest) => .ok (.str s, rest)
    | '\x7b' :: rest =>
      match skipSpace rest with
      | '\x7d' :: rest' => .ok (.obj [], rest')
      | rest' => readFields fuel [] rest'
    | '[' :: rest =>
      match skipSpace rest with
      | ']' :: rest' => .ok (.arr [], rest')
      | rest' => readItems fuel [] rest'
    | _ =>
      match readName? cs with
      | some found => .ok found
      | none => (readNumber? cs).getD (complain .value cs)

/-- The items of an array from the first or next one on; `done` holds the earlier ones in
reverse. -/
def readItems : Nat → List Json → List Char → Read Json
  | 0, _, cs => complain .value cs
  | fuel + 1, done, cs =>
    match readValue fuel cs with
    | .error e => .error e
    | .ok (v, rest) =>
      match skipSpace rest with
      | ']' :: rest' => .ok (.arr (v :: done).reverse, rest')
      | ',' :: rest' => readItems fuel (v :: done) (skipSpace rest')
      | rest' => complain .comma rest'

/-- The fields of an object from the first or next one on. -/
def readFields : Nat → Table Json → List Char → Read Json
  | 0, _, cs => complain .fieldName cs
  | fuel + 1, done, cs =>
    match cs with
    | '"' :: _ =>
      match readText (fuel + 1) cs with
      | .error e => .error e
      | .ok (name, rest) =>
        match skipSpace rest with
        | ':' :: rest' =>
          match readValue fuel (skipSpace rest') with
          | .error e => .error e
          | .ok (v, rest'') =>
            let fields := Table.put done name v
            match skipSpace rest'' with
            | '\x7d' :: tail => .ok (.obj fields, tail)
            | ',' :: tail => readFields fuel fields (skipSpace tail)
            | tail => complain .comma tail
        | rest' => complain .colon rest'
    | _ => complain .fieldName cs

end

/-! ## Whole texts -/

/-- Why a text is no document, with the place as a reader counts it. -/
inductive ReadError where
  /-- A complaint about the character at an offset, which stands in a line and column counted from
  one. -/
  | malformed (c : Complaint) (line column offset : Nat)
  /-- A number that is too long. -/
  | number (e : Text.NumberError)
  deriving Repr

/-- The message for a text that is no document. -/
def ReadError.message : ReadError → String
  | .malformed c line column offset =>
    c.message ++ ": line " ++ Text.natText line ++ " column " ++ Text.natText column ++ " (char "
      ++ Text.natText offset ++ ")"
  | .number e => e.message

/-- The place of a failure in the whole text. -/
def Failure.locate (text : List Char) : Failure → ReadError
  | .number e => .number e
  | .complaint c remaining =>
    let offset := text.length - remaining
    let before := text.take offset
    let line := before.count '\n' + 1
    let column := (before.reverse.takeWhile (· != '\n')).length + 1
    .malformed c line column offset

/-- The value of a whole text. -/
def readAll (text : List Char) : Except Failure Json :=
  match text with
  | '\uFEFF' :: _ => complain .byteOrderMark text
  | _ =>
    match readValue (text.length + 1) (skipSpace text) with
    | .error e => .error e
    | .ok (v, rest) =>
      match skipSpace rest with
      | [] => .ok v
      | rest' => complain .extraData rest'

/-- The value that a document holds. -/
def read (document : String) : Except ReadError Json :=
  (readAll document.toList).mapError (Failure.locate document.toList)

end VirtualShell.Json
