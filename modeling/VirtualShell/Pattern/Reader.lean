import VirtualShell.Pattern.Basic
import VirtualShell.Table
import VirtualShell.Text.Number

/-!
# Reading patterns

The written form of a search pattern: a sequence of tokens, each a character or a backslash with the
character after it. The reader always looks one token ahead, so a backslash that ends the pattern is
reported as soon as the token before it is taken.

Modes for the whole pattern, such as `(?i)`, may stand at its very start only, so the modes are
known when a leaf is built.

Two things are left out. The table of character names is: every name behind `\N` is refused as
unknown, also one that stands for a character (`namedEscape`). And alternatives of one character
each stay alternatives: they are not gathered into a set, as they could be. That makes a difference
only where case is ignored, for a capital letter beyond the table of the set
(`SetItem.matchesChar`).
-/

namespace VirtualShell.Pattern

/-- Why a text is no pattern. -/
inductive ReadError where
  /-- Something is wrong, usually at a position. -/
  | malformed (what : String) (position : Option Nat)
  /-- A number of repetitions is out of range. -/
  | tooManyRepetitions
  /-- A number has too many digits. -/
  | number (e : Text.NumberError)
  /-- The modes for ASCII and for all scripts are both set. -/
  | conflictingModes
  deriving Repr

/-- The message for a text that is no pattern. A position in a text of several lines is also given
as a line and a column. -/
def ReadError.message (text : String) : ReadError → String
  | .malformed what none => what
  | .malformed what (some position) =>
    let cs := text.toList
    let before := cs.take position
    let place := what ++ " at position " ++ Text.natText position
    if cs.contains '\n' then
      place ++ " (line " ++ Text.natText (before.count '\n' + 1) ++ ", column "
        ++ Text.natText ((before.reverse.takeWhile (· != '\n')).length + 1) ++ ")"
    else place
  | .tooManyRepetitions => "the repetition number is too large"
  | .number e => e.message
  | .conflictingModes => "ASCII and UNICODE flags are incompatible"

/-! ## Modes -/

/-- The modes that a pattern can be read in. -/
structure Modes where
  ignoreCase : Bool := false
  multiline : Bool := false
  dotAll : Bool := false
  verbose : Bool := false
  ascii : Bool := false
  unicode : Bool := false
  fixedText : Bool := false
  deriving DecidableEq, Repr

/-- The comparison of leaves under the modes. -/
def Modes.fold (m : Modes) : Fold :=
  { ignoreCase := m.ignoreCase, ascii := m.ascii }

/-- The mode that a letter names. -/
def Modes.ofLetter? : Char → Option Modes
  | 'i' => some { ignoreCase := true }
  | 'L' => some {}
  | 'm' => some { multiline := true }
  | 's' => some { dotAll := true }
  | 'x' => some { verbose := true }
  | 'a' => some { ascii := true }
  | 't' => some { fixedText := true }
  | 'u' => some { unicode := true }
  | _ => none

/-- The modes of both. -/
def Modes.union (a b : Modes) : Modes where
  ignoreCase := a.ignoreCase || b.ignoreCase
  multiline := a.multiline || b.multiline
  dotAll := a.dotAll || b.dotAll
  verbose := a.verbose || b.verbose
  ascii := a.ascii || b.ascii
  unicode := a.unicode || b.unicode
  fixedText := a.fixedText || b.fixedText

/-- Whether two sets of modes have one in common. -/
def Modes.overlaps (a b : Modes) : Bool :=
  (a.ignoreCase && b.ignoreCase) || (a.multiline && b.multiline) || (a.dotAll && b.dotAll) ||
    (a.verbose && b.verbose) || (a.fixedText && b.fixedText)

/-- The modes inside a group that turns some on and others off. -/
def Modes.change (m on off : Modes) : Modes :=
  let m := if on.ascii || on.unicode then { m with ascii := false, unicode := false } else m
  let m := m.union on
  { m with
    ignoreCase := m.ignoreCase && !off.ignoreCase
    multiline := m.multiline && !off.multiline
    dotAll := m.dotAll && !off.dotAll
    verbose := m.verbose && !off.verbose }

/-! ## Tokens -/

/-- A character, or a backslash with the character after it. -/
inductive Token where
  | char (c : Char)
  | escape (c : Char)
  deriving DecidableEq, Repr

/-- The characters of a token. -/
def Token.chars : Token → List Char
  | .char c => [c]
  | .escape c => ['\\', c]

/-- The state of the reader. -/
structure State where
  /-- The length of the whole text. -/
  total : Nat
  /-- The text from the next token on. -/
  rest : List Char
  /-- The widths of the groups from the first on; a group that is still open has none. -/
  widths : List (Option Width) := []
  /-- The numbers of the groups that have names. -/
  names : Table Nat := []
  /-- Inside a look-behind: the number that its first group gets. -/
  behind : Option Nat := none
  /-- The first conditions on group numbers, with their positions. -/
  conditions : List (Nat × Nat) := []
  /-- The modes of the whole pattern. -/
  modes : Modes := {}

/-- A step of the reader. -/
abbrev Reading := StateT State (Except ReadError)

/-- The position of the next token. -/
def State.position (st : State) : Nat :=
  st.total - st.rest.length

/-- The number of the next group. -/
def State.groupCount (st : State) : Nat :=
  st.widths.length + 1

/-- Whether a group is closed. -/
def State.isClosed (st : State) (number : Nat) : Bool :=
  match number with
  | 0 => false
  | n + 1 => (st.widths[n]?.join).isSome

/-- Reports what is wrong, so many characters before the next token. -/
def fail {α : Type} (what : String) (back : Nat := 0) : Reading α := do
  throw (.malformed what (some ((← get).position - back)))

/-- The next token. -/
def peek : Reading (Option Token) := do
  match (← get).rest with
  | [] => return none
  | '\\' :: c :: _ => return some (.escape c)
  | c :: _ => return some (.char c)

/-- Goes to a place in the text, where a backslash may not stand alone. -/
def moveTo (rest : List Char) : Reading Unit := do
  if rest = ['\\'] then
    throw (.malformed "bad escape (end of pattern)" (some ((← get).total - 1)))
  modify fun st => { st with rest }

/-- Takes the next token. -/
def take : Reading (Option Token) := do
  match ← peek with
  | none => return none
  | some t =>
    moveTo ((← get).rest.drop t.chars.length)
    return some t

/-- Takes the next token if it is the given character. -/
def accept (c : Char) : Reading Bool := do
  if (← peek) = some (.char c) then
    let _ ← take
    return true
  else return false

/-- Takes at most `n` characters of a class. -/
def takeSome (p : Char → Bool) : Nat → Reading (List Char)
  | 0 => return []
  | n + 1 => do
    match ← peek with
    | some (.char c) =>
      if p c then
        let _ ← take
        return c :: (← takeSome p n)
      else return []
    | _ => return []

/-- Takes the tokens up to a closing character. -/
def takeUntil (closing : Char) (name : String) : Nat → List Char → Reading String
  | 0, _ => fail ("missing " ++ name)
  | fuel + 1, done => do
    match ← take with
    | none =>
      if done.isEmpty then fail ("missing " ++ name)
      else fail ("missing " ++ closing.toString ++ ", unterminated name") done.length
    | some (.char c) =>
      if c = closing then
        if done.isEmpty then fail ("missing " ++ name) 1 else return String.ofList done
      else takeUntil closing name fuel (done ++ [c])
    | some t => takeUntil closing name fuel (done ++ t.chars)

/-! ## Escapes -/

/-- An octal digit. -/
def isOctal (c : Char) : Bool :=
  '0' ≤ c && c ≤ '7'

/-- A hexadecimal digit. -/
def isHex (c : Char) : Bool :=
  c.isDigit || ('a' ≤ c && c ≤ 'f') || ('A' ≤ c && c ≤ 'F')

/-- The number that digits of a base write. -/
def ofBase (base : Nat) (cs : List Char) : Nat :=
  let value := fun (c : Char) =>
    if c.isDigit then c.toNat - 0x30
    else if 'a' ≤ c then c.toNat - 0x57 else c.toNat - 0x37
  cs.foldl (fun n c => base * n + value c) 0

/-- The control character that a letter names. -/
def controlEscape? : Char → Option Nat
  | 'a' => some 7
  | 'b' => some 8
  | 'f' => some 12
  | 'n' => some 10
  | 'r' => some 13
  | 't' => some 9
  | 'v' => some 11
  | '\\' => some 0x5C
  | _ => none

/-- The class that a letter names. -/
def category? : Char → Option SetItem
  | 'd' => some (.category .digit false)
  | 'D' => some (.category .digit true)
  | 's' => some (.category .space false)
  | 'S' => some (.category .space true)
  | 'w' => some (.category .word false)
  | 'W' => some (.category .word true)
  | _ => none

/-- The place that a letter names. -/
def anchor? (m : Modes) : Char → Option Anchor
  | 'A' => some .textStart
  | 'Z' => some .textEnd
  | 'b' => some (.wordBorder true m.ascii)
  | 'B' => some (.wordBorder false m.ascii)
  | _ => none

/-- Reports an escape that stands for nothing. -/
def badEscape {α : Type} (chars : List Char) : Reading α :=
  fail ("bad escape " ++ String.ofList chars) chars.length

/-- The code point of an escape with exactly `n` hexadecimal digits. -/
def hexEscape (letter : Char) (n : Nat) : Reading Nat := do
  let digits ← takeSome isHex n
  let chars := '\\' :: letter :: digits
  if digits.length ≠ n then
    fail ("incomplete escape " ++ String.ofList chars) chars.length
  let code := ofBase 16 digits
  if 0x10FFFF < code then badEscape chars
  return code

/-- A character by its name. No names are known here, so every name is refused. -/
def namedEscape (fuel : Nat) : Reading Nat := do
  if !(← accept '\x7b') then fail "missing \x7b"
  let name ← takeUntil '\x7d' "character name" fuel []
  fail ("undefined character name " ++ Text.quoted name) (name.length + 4)

/-- An escape that stands for one character, inside a set or outside. -/
def charEscape? (fuel : Nat) (c : Char) : Reading (Option Nat) := do
  match c with
  | 'x' => return some (← hexEscape c 2)
  | 'u' => return some (← hexEscape c 4)
  | 'U' => return some (← hexEscape c 8)
  | 'N' => return some (← namedEscape fuel)
  | _ => return none

/-- Reports an octal escape that is out of range. -/
def octalTooLarge {α : Type} (chars : List Char) : Reading α :=
  fail ("octal escape value " ++ String.ofList chars ++ " outside of range 0-0o377") chars.length

/-- The set item that an escape stands for inside a set. -/
def setEscape (fuel : Nat) (c : Char) : Reading SetItem := do
  if let some n := controlEscape? c then return .code n
  if let some item := category? c then return item
  if let some n ← charEscape? fuel c then return .code n
  if isOctal c then
    let digits := c :: (← takeSome isOctal 2)
    let n := ofBase 8 digits
    if 0xFF < n then octalTooLarge ('\\' :: digits)
    return .code n
  if c.isAlphanum then badEscape ['\\', c]
  return .code c.toNat

/-- Inside a look-behind, refuses a group that is open or was opened in it. -/
def checkBehind (number : Nat) : Reading Unit := do
  let st ← get
  if let some first := st.behind then
    if !st.isClosed number then fail "cannot refer to an open group"
    if first ≤ number then
      fail "cannot refer to group defined in the same lookbehind subpattern"

/-- What a closed group has matched, once more. -/
def backReference (m : Modes) (number back : Nat) : Reading Pattern := do
  let st ← get
  match number, st.widths[number - 1]?.join with
  | _ + 1, some w =>
    checkBehind number
    return .again m.fold number w
  | _, _ => fail "cannot refer to an open group" back

/-- A reference to a group by its number, or an octal escape of three digits. -/
def digitEscape (m : Modes) (c : Char) : Reading Pattern := do
  let more ← takeSome Char.isDigit 1
  let third ← if isOctal c && more.all isOctal && !more.isEmpty then takeSome isOctal 1 else pure []
  let digits := c :: more ++ third
  if !third.isEmpty then
    let n := ofBase 8 digits
    if 0xFF < n then octalTooLarge ('\\' :: digits)
    return .char m.fold false n
  let number := ofBase 10 digits
  if number < (← get).groupCount then backReference m number (digits.length + 1)
  else fail ("invalid group reference " ++ Text.natText number) digits.length

/-- What an escape stands for outside a set. -/
def escape (fuel : Nat) (m : Modes) (c : Char) : Reading Pattern := do
  if let some item := category? c then return .set m.fold false [item]
  if let some a := anchor? m c then return .place a
  if let some n := controlEscape? c then return .char m.fold false n
  if let some n ← charEscape? fuel c then return .char m.fold false n
  if c = '0' then
    return .char m.fold false (ofBase 8 (c :: (← takeSome isOctal 2)))
  if c.isDigit then return ← digitEscape m c
  if c.isAlpha then badEscape ['\\', c]
  return .char m.fold false c.toNat

/-! ## Sets -/

/-- Reports a set without its closing bracket; `back` characters lie behind its opening one. -/
def unterminatedSet {α : Type} (start : Nat) : Reading α := do
  throw (.malformed "unterminated character set" (some start))

/-- The set item that a token stands for. -/
def setItem (fuel : Nat) : Token → Reading SetItem
  | .escape c => setEscape fuel c
  | .char c => return .code c.toNat

/-- The items of a set up to its closing bracket, which is an item of its own in the first place.
`start` is the position of the opening bracket. -/
def setItems (start : Nat) : Nat → List SetItem → Reading (List SetItem)
  | 0, _ => unterminatedSet start
  | fuel + 1, done => do
    match ← take with
    | none => unterminatedSet start
    | some this =>
      if this = .char ']' ∧ !done.isEmpty then return done
      let item ← setItem fuel this
      if ← accept '-' then
        match ← take with
        | none => unterminatedSet start
        | some (.char ']') => return done ++ [item, .code 0x2D]
        | some that =>
          let upper ← setItem fuel that
          let bad : Reading (List SetItem) :=
            fail ("bad character range " ++ String.ofList (this.chars ++ '-' :: that.chars))
              (this.chars.length + 1 + that.chars.length)
          match item, upper with
          | .code lo, .code hi =>
            if hi < lo then bad else setItems start fuel (done ++ [.range lo hi])
          | _, _ => bad
      else setItems start fuel (done ++ [item])

/-! ## Repetitions -/

/-- The number of repetitions that digits write. -/
def repetitions (digits : List Char) : Reading Nat := do
  match Text.readNat digits with
  | .error e => throw (.number e)
  | .ok n => if repetitionLimit ≤ n then throw .tooManyRepetitions else return n

/-- The bounds in braces, after the opening one; `none` where the brace stands for itself. -/
def braceBounds (fuel : Nat) : Reading (Option (Nat × Option Nat)) := do
  let here := (← get).rest
  let position := (← get).position
  if (← peek) = some (.char '\x7d') then return none
  let lo ← takeSome Char.isDigit fuel
  let hi ← if ← accept ',' then takeSome Char.isDigit fuel else pure lo
  if !(← accept '\x7d') then
    moveTo here
    return none
  let least ← if lo.isEmpty then pure 0 else repetitions lo
  if hi.isEmpty then return some (least, none)
  let greatest ← repetitions hi
  if greatest < least then
    fail "min repeat greater than max repeat" ((← get).position - position)
  return some (least, some greatest)

/-- Repeats the last item of a sequence, whose items stand in reverse. `position` is where the
repetition is written. -/
def repeatLast (position : Nat) (bounds : Nat × Option Nat) (done : List Pattern) :
    Reading (List Pattern) := do
  let wrong {α : Type} (what : String) : Reading α :=
    throw (.malformed what (some position))
  match done with
  | [] | .place _ :: _ => wrong "nothing to repeat"
  | .rep .. :: _ => wrong "multiple repeat"
  | item :: rest =>
    let lazy ← accept '?'
    let possessive ← if lazy then pure false else accept '+'
    let greed := if lazy then Greed.lazy else if possessive then .possessive else .greedy
    return .rep greed bounds.1 bounds.2 item :: rest

/-! ## Groups -/

/-- Whether a text is a name for a group. -/
def isGroupName (name : String) : Bool :=
  match name.toList with
  | [] => false
  | c :: rest =>
    (Text.isWordChar c && !Text.isDigitForm c) && rest.all Text.isWordChar

/-- Refuses a text that is no name for a group. -/
def checkGroupName (name : String) : Reading Unit :=
  if isGroupName name then return ()
  else fail ("bad character in group name " ++ Text.quoted name) (name.length + 1)

/-- Whether a token is a letter. -/
def Token.isLetter : Token → Bool
  | .char c => Text.isWordChar c && !Text.isDigitForm c && c != '_'
  | .escape _ => false

/-- The modes that letters turn on, up to and with the character that ends them. -/
def modesOn (token : Token) : Nat → Modes → Reading (Modes × Char)
  | 0, _ => fail "missing -, : or )"
  | fuel + 1, done => do
    let known := match token with
      | .char c => (Modes.ofLetter? c).map fun m => (c, m)
      | .escape _ => none
    match known with
    | none =>
      fail (if token.isLetter then "unknown flag" else "missing -, : or )") token.chars.length
    | some (c, m) =>
      if c = 'L' then fail "bad inline flags: cannot use 'L' flag with a str pattern"
      let modes := done.union m
      if modes.ascii && modes.unicode then
        fail "bad inline flags: flags 'a', 'u' and 'L' are incompatible"
      match ← take with
      | none => fail "missing -, : or )"
      | some next =>
        if next = .char ')' then return (modes, ')')
        if next = .char '-' then return (modes, '-')
        if next = .char ':' then return (modes, ':')
        modesOn next fuel modes

/-- The modes that letters turn off, up to and with the colon. -/
def modesOff (token : Token) (missing : String) : Nat → Modes → Reading Modes
  | 0, _ => fail "missing :"
  | fuel + 1, done => do
    let known := match token with
      | .char c => (Modes.ofLetter? c).map fun m => (c, m)
      | .escape _ => none
    match known with
    | none => fail (if token.isLetter then "unknown flag" else missing) token.chars.length
    | some (c, m) =>
      if c = 'a' ∨ c = 'u' ∨ c = 'L' then
        fail "bad inline flags: cannot turn off flags 'a', 'u' and 'L'"
      match ← take with
      | none => fail "missing :"
      | some next =>
        if next = .char ':' then return done.union m
        modesOff next "missing :" fuel (done.union m)

/-- The modes that a group turns on and off, or `none` after it set modes for the whole pattern. -/
def groupModes (fuel : Nat) (first : Char) : Reading (Option (Modes × Modes)) := do
  let (on, ending) ← if first = '-' then pure ({}, '-') else modesOn (.char first) fuel {}
  if ending = ')' then
    modify fun st => { st with modes := st.modes.union on }
    return none
  if on.fixedText then fail "bad inline flags: cannot turn on global flag" 1
  let off ←
    if ending = '-' then
      match ← take with
      | none => fail "missing flag"
      | some token => modesOff token "missing flag" fuel {}
    else pure {}
  if off.fixedText then fail "bad inline flags: cannot turn off global flag" 1
  if on.overlaps off then fail "bad inline flags: flag turned on and off" 1
  return some (on, off)

/-- Opens the next group, which may have a name. -/
def openGroup (name : Option String) : Reading Nat := do
  let st ← get
  let number := st.groupCount
  if let some n := name then
    if let some earlier := st.names.find? n then
      fail ("redefinition of group name " ++ Text.quoted n ++ " as group " ++ Text.natText number
        ++ "; was group " ++ Text.natText earlier) (n.length + 1)
  modify fun st => { st with
    widths := st.widths ++ [none]
    names := match name with
      | some n => st.names.put n number
      | none => st.names }
  return number

/-- Closes a group, whose width is known from then on. -/
def closeGroup (number : Nat) (body : Pattern) : Reading Unit :=
  modify fun st => { st with widths := st.widths.set (number - 1) (some body.width) }

/-- The number that a condition gives, which may have blanks around it. -/
def conditionNumber? (name : String) : Option Nat :=
  let cs := Text.trim name.toList
  let digits := match cs with
    | '+' :: rest => rest
    | _ => cs
  (Text.readNat digits).toOption

/-- The group that a condition names. -/
def conditionGroup (name : String) : Reading Nat := do
  let back := name.length + 1
  if isGroupName name then
    match (← get).names.find? name with
    | some n => return n
    | none => fail ("unknown group name " ++ Text.quoted name) back
  else
    match conditionNumber? name with
    | none => fail ("bad character in group name " ++ Text.quoted name) back
    | some 0 => fail "bad group number" back
    | some n =>
      if 1073741823 ≤ n then fail ("invalid group reference " ++ Text.natText n) back
      let st ← get
      if !st.conditions.any (·.1 == n) then
        modify fun st => { st with conditions := st.conditions ++ [(n, st.position - back)] }
      return n

/-- Takes the closing parenthesis of a group that starts at a position. -/
def closeParenthesis (start : Nat) : Reading Unit := do
  if !(← accept ')') then
    throw (.malformed "missing ), unterminated subpattern" (some start))

/-- Skips a comment, up to and with its closing parenthesis. -/
def skipComment (start : Nat) : Nat → Reading Unit
  | 0 => return ()
  | fuel + 1 => do
    match ← take with
    | none => throw (.malformed "missing ), unterminated comment" (some start))
    | some t => if t = .char ')' then return () else skipComment start fuel

/-- Skips the rest of a line, up to and with its line feed. -/
def skipLine : Nat → Reading Unit
  | 0 => return ()
  | fuel + 1 => do
    match ← take with
    | none => return ()
    | some t => if t = .char '\n' then return () else skipLine fuel

/-- What the characters after an opening parenthesis announce. -/
inductive Opening where
  /-- A comment or modes for the whole pattern: nothing follows. -/
  | nothing
  /-- A finished item. -/
  | item (p : Pattern)
  /-- A group with a number, and perhaps a name. -/
  | capture (name : Option String)
  /-- A group without a number, with its modes. -/
  | plain (on off : Modes)
  /-- A group whose first match is final. -/
  | atomic
  /-- A look at what is before or after. -/
  | look (ahead negated : Bool)
  /-- A condition on a group. -/
  | condition

/-- Reads what stands between an opening parenthesis and the contents of its group. `fresh` tells
that nothing of the pattern has been read yet. -/
def opening (fuel : Nat) (m : Modes) (start : Nat) (fresh : Bool) : Reading Opening := do
  if !(← accept '?') then return .capture none
  match ← take with
  | none => fail "unexpected end of pattern"
  | some token =>
    let unknown {α : Type} : Reading α :=
      fail ("unknown extension ?" ++ String.ofList token.chars) (token.chars.length + 1)
    match token with
    | .escape _ => unknown
    | .char 'P' =>
      match ← take with
      | none => fail "unexpected end of pattern"
      | some (.char '<') =>
        let name ← takeUntil '>' "group name" fuel []
        checkGroupName name
        return .capture (some name)
      | some (.char '=') =>
        let name ← takeUntil ')' "group name" fuel []
        checkGroupName name
        match (← get).names.find? name with
        | none => fail ("unknown group name " ++ Text.quoted name) (name.length + 1)
        | some n => return .item (← backReference m n (name.length + 1))
      | some t => fail ("unknown extension ?P" ++ String.ofList t.chars) (t.chars.length + 2)
    | .char ':' => return .plain {} {}
    | .char '#' =>
      skipComment start fuel
      return .nothing
    | .char '=' => return .look true false
    | .char '!' => return .look true true
    | .char '<' =>
      match ← take with
      | none => fail "unexpected end of pattern"
      | some (.char '=') => return .look false false
      | some (.char '!') => return .look false true
      | some t => fail ("unknown extension ?<" ++ String.ofList t.chars) (t.chars.length + 2)
    | .char '(' => return .condition
    | .char '>' => return .atomic
    | .char c =>
      if (Modes.ofLetter? c).isSome || c == '-' then
        match ← groupModes fuel c with
        | some (on, off) => return .plain on off
        | none =>
          if !fresh then
            throw (.malformed "global flags not at the start of the expression" (some start))
          return .nothing
      else unknown

/-! ## Sequences and alternatives -/

/-- The characters that are skipped between items in the verbose mode. -/
def isLayout (c : Char) : Bool :=
  c == ' ' || (9 ≤ c.toNat && c.toNat ≤ 13)

mutual

/-- Alternatives. Outside all groups (`scope` is `none`) the modes of the whole pattern hold, and
modes can still be set for it in the first alternative. -/
def alternatives (scope : Option Modes) : Nat → Bool → Reading Pattern
  | 0, _ => fail "unexpected end of pattern"
  | fuel + 1, first => do
    let p ← items scope first fuel []
    if ← accept '|' then
      return .alt p (← alternatives scope fuel false)
    else return p

/-- The items of a sequence up to its end; `done` holds the earlier ones in reverse. -/
def items (scope : Option Modes) (first : Bool) : Nat → List Pattern → Reading Pattern
  | 0, _ => fail "unexpected end of pattern"
  | fuel + 1, done => do
    let m := scope.getD (← get).modes
    match ← peek with
    | none | some (.char '|') | some (.char ')') => return sequence done.reverse
    | some token =>
      let start := (← get).position
      let _ ← take
      match token with
      | .escape c => items scope first fuel ((← escape fuel m c) :: done)
      | .char c =>
        if m.verbose && isLayout c then items scope first fuel done
        else if m.verbose && c == '#' then
          skipLine fuel
          items scope first fuel done
        else
          match c with
          | '[' =>
            let negated ← accept '^'
            let found ← setItems start fuel []
            let p := match found.eraseDups with
              | [.code n] => Pattern.char m.fold negated n
              | unique => .set m.fold negated unique
            items scope first fuel (p :: done)
          | '?' => items scope first fuel (← repeatLast start (0, some 1) done)
          | '*' => items scope first fuel (← repeatLast start (0, none) done)
          | '+' => items scope first fuel (← repeatLast start (1, none) done)
          | '\x7b' =>
            match ← braceBounds fuel with
            | none => items scope first fuel (.char m.fold false c.toNat :: done)
            | some bounds => items scope first fuel (← repeatLast start bounds done)
          | '.' => items scope first fuel (.any m.dotAll :: done)
          | '^' =>
            items scope first fuel (.place (if m.multiline then .lineStart else .textStart) :: done)
          | '$' =>
            items scope first fuel (.place (if m.multiline then .lineEnd else .lastLineEnd) :: done)
          | '(' =>
            match ← opening fuel m start (first && done.isEmpty) with
            | .nothing => items scope first fuel done
            | .item p => items scope first fuel (p :: done)
            | .capture name =>
              let number ← openGroup name
              let body ← alternatives (some m) fuel false
              closeParenthesis start
              closeGroup number body
              items scope first fuel (.group (some number) body :: done)
            | .plain on off =>
              let body ← alternatives (some (m.change on off)) fuel false
              closeParenthesis start
              items scope first fuel (.group none body :: done)
            | .atomic =>
              let body ← alternatives (some m) fuel false
              closeParenthesis start
              items scope first fuel (.atomic body :: done)
            | .look ahead negated =>
              let outer := (← get).behind
              if !ahead && outer.isNone then
                modify fun st => { st with behind := some st.groupCount }
              let body ← alternatives (some m) fuel false
              if !ahead then modify fun st => { st with behind := outer }
              closeParenthesis start
              items scope first fuel (.look ahead negated body :: done)
            | .condition =>
              let number ← conditionGroup (← takeUntil ')' "group name" fuel [])
              checkBehind number
              let yes ← items (some m) false fuel []
              let no ←
                if ← accept '|' then
                  let no ← items (some m) false fuel []
                  if (← peek) = some (.char '|') then
                    fail "conditional backref with more than two branches"
                  pure no
                else pure Pattern.empty
              closeParenthesis start
              items scope first fuel (.cond number yes no :: done)
          | _ => items scope first fuel (.char m.fold false c.toNat :: done)

end

/-! ## Whole patterns -/

/-- The name of a repetition in messages. -/
def Greed.name : Greed → String
  | .greedy => "MAX_REPEAT"
  | .lazy => "MIN_REPEAT"
  | .possessive => "POSSESSIVE_REPEAT"

/-- The first part of a pattern that cannot be searched for: a look-behind of no fixed width, or a
repetition where the text is fixed. -/
def unusable? (fixedText : Bool) : Pattern → Option String
  | .seq a b => (unusable? fixedText a).or (unusable? fixedText b)
  | .alt a b => (unusable? fixedText a).or (unusable? fixedText b)
  | .group _ body => unusable? fixedText body
  | .rep greed _ _ body =>
    if fixedText then some ("internal: unsupported template operator " ++ greed.name)
    else unusable? fixedText body
  | .look ahead _ body =>
    let w := body.width
    if ahead then unusable? fixedText body
    else if 4294967295 < w.least then some "looks too much behind"
    else if w.least ≠ w.greatest then some "look-behind requires fixed-width pattern"
    else unusable? fixedText body
  | .atomic body => unusable? fixedText body
  | .cond _ yes no => (unusable? fixedText yes).or (unusable? fixedText no)
  | _ => none

/-- Reads a whole pattern. -/
def readAll (fuel : Nat) : Reading Pattern := do
  moveTo (← get).rest
  let p ← alternatives none fuel true
  let st ← get
  if st.modes.ascii && st.modes.unicode then throw .conflictingModes
  if !st.rest.isEmpty then fail "unbalanced parenthesis"
  if let some (n, position) := st.conditions.find? fun (n, _) => st.groupCount ≤ n then
    throw (.malformed ("invalid group reference " ++ Text.natText n) (some position))
  if let some what := unusable? st.modes.fixedText p then
    throw (.malformed what none)
  return p

/-- The pattern that a text writes. -/
def read (text : String) (ignoreCase : Bool) : Except ReadError Pattern :=
  let cs := text.toList
  let start : State := { total := cs.length, rest := cs, modes := { ignoreCase } }
  (readAll (2 * cs.length + 3)).run' start

end VirtualShell.Pattern
