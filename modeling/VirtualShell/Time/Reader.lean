import VirtualShell.Text.Split
import VirtualShell.Time.Timestamp

/-!
# Reading timestamps

The written forms of ISO 8601: a calendar date or a week date, with dashes or without, and after one
separator of any kind a time of day, with colons or without, which may end in a fraction and an
offset. The letter `Z` stands for the offset of universal time. Lengths count the UTF-8 bytes of the
text, which are what the functions below go through.
-/

namespace VirtualShell.Timestamp

/-- The UTF-8 bytes of a text. -/
def bytes (cs : List Char) : List Nat :=
  cs.flatMap fun c => (String.utf8EncodeChar c).map UInt8.toNat

/-- The value of the byte of an ASCII digit. -/
def digit? (b : Nat) : Option Nat :=
  if 0x30 ≤ b ∧ b ≤ 0x39 then some (b - 0x30) else none

/-- Whether a byte is that of an ASCII digit. -/
def isDigitByte (b : Nat) : Bool :=
  (digit? b).isSome

/-- The number written by exactly `n` digits, and the bytes after them. -/
def readDigits? : Nat → Nat → List Nat → Option (Nat × List Nat)
  | 0, value, rest => some (value, rest)
  | n + 1, value, rest =>
    match rest with
    | b :: rest' =>
      match digit? b with
      | some d => readDigits? n (10 * value + d) rest'
      | none => none
    | [] => none

/-- The byte of a character. -/
def byte (c : Char) : Nat := c.toNat

/-! ## The date -/

/-- The number of bytes of the date: the position of the separator. The forms are told apart by
their dashes and by the letter of a week date. Where a week date may or may not have a weekday, the
parity of the digits decides, since the parts of a time come in pairs. -/
def dateLength? (bs : List Nat) : Option Nat :=
  if bs.length = 7 then some 7
  else if bs[4]? = some (byte '-') then
    if bs[5]? = some (byte 'W') then
      if bs.length < 8 then none
      else if bs[8]? = some (byte '-') then
        if bs.length = 9 then none
        else if (bs[10]?).any isDigitByte then some 8
        else some 10
      else some 8
    else some 10
  else if bs[4]? = some (byte 'W') then
    let digits := 7 + ((bs.drop 7).takeWhile isDigitByte).length
    if digits < 9 then some digits
    else if digits % 2 = 0 then some 7
    else some 8
  else some 8

/-- Takes a dash if the form has dashes; `none` where it is missing. -/
def dash? (dashes : Bool) (bs : List Nat) : Option (List Nat) :=
  if dashes then
    match bs with
    | b :: rest => if b = byte '-' then some rest else none
    | [] => none
  else some bs

/-- Year, month and day from the first `length` bytes. -/
def readDate? (length : Nat) (bs : List Nat) : Option (Nat × Nat × Nat) := do
  let (year, rest) ← readDigits? 4 0 bs
  let dashes := rest.head? = some (byte '-')
  let rest := if dashes then rest.drop 1 else rest
  if rest.head? = some (byte 'W') then
    let (week, rest) ← readDigits? 2 0 (rest.drop 1)
    if bs.length - rest.length < length then
      let rest ← dash? dashes rest
      let (weekday, _) ← readDigits? 1 0 rest
      Time.dateOfWeek? year week weekday
    else Time.dateOfWeek? year week 1
  else
    let (month, rest) ← readDigits? 2 0 rest
    let rest ← dash? dashes rest
    let (day, rest) ← readDigits? 2 0 rest
    if bs.length - rest.length = length then some (year, month, day) else none

/-! ## The time of day -/

/-- The parts of a time of day, and whether something is left over behind them. -/
structure ClockTime where
  hour : Nat := 0
  minute : Nat := 0
  second : Nat := 0
  microsecond : Nat := 0
  more : Bool := false

/-- Whether a byte follows; a NUL byte ends a text. -/
def hasMore (bs : List Nat) : Bool :=
  bs.head?.any (· != 0)

/-- The fraction of a second from its digits, of which `room` bytes are meant: at most six digits
count, and the rest must be digits too. -/
def readFraction? (room : Nat) (bs : List Nat) : Option (Nat × Bool) := do
  let n := min room 6
  let (value, rest) ← readDigits? n 0 bs
  if n = 0 then none
  else
    some (value * Nat.pow 10 (6 - n), hasMore (rest.dropWhile isDigitByte))

/-- Hours, minutes and seconds as far as they are written, each of two digits, and a fraction. The
bytes of the time end after `room` of them; the byte behind the last part tells whether more
follows. `index` counts the parts read so far, and `colons` is settled by the byte after the first
one. -/
def readParts? : Nat → Bool → Nat → ClockTime → List Nat → Option ClockTime
  | 0, _, room, t, bs => do
    let (microsecond, more) ← readFraction? room bs
    some { t with microsecond, more }
  | left + 1, colons, room, t, bs => do
    let (value, rest) ← readDigits? 2 0 bs
    let t := match left with
      | 2 => { t with hour := value }
      | 1 => { t with minute := value }
      | _ => { t with second := value }
    let next := rest.head?
    let colons := if left = 2 then next = some (byte ':') else colons
    if room ≤ 3 then some { t with more := hasMore rest }
    else if colons && next = some (byte ':') then
      readParts? left colons (room - 3) t (rest.drop 1)
    else if next = some (byte '.') || next = some (byte ',') then
      let (microsecond, more) ← readFraction? (room - 3) (rest.drop 1)
      some { t with microsecond, more }
    else if !colons then readParts? left colons (room - 2) t rest
    else none

/-- A time of day in the first `room` bytes. -/
def readClock? (room : Nat) (bs : List Nat) : Option ClockTime :=
  readParts? 3 true room {} bs

/-- The sign of an offset. -/
def isSign (b : Nat) : Bool :=
  b == byte '+' || b == byte '-'

/-- The offset in microseconds behind its sign. An offset that is zero in whole seconds is that of
universal time, whatever its fraction. -/
def readOffset? (sign : Nat) (bs : List Nat) : Option Int := do
  let t ← readClock? bs.length bs
  if t.more then none
  else
    let seconds := t.hour * 3600 + t.minute * 60 + t.second
    let n := if seconds = 0 then 0 else seconds * 1000000 + t.microsecond
    some (if sign = byte '-' then -(n : Int) else n)

/-- The time of day and the offset, if one is given. -/
def readTime? (bs : List Nat) : Option (ClockTime × Option Int) := do
  let room := (bs.takeWhile fun b => !isSign b).length
  let t ← readClock? room bs
  match bs.drop room with
  | [] => if t.more then none else some (t, none)
  | sign :: rest =>
    let offset ← readOffset? sign rest
    some (t, some offset)

/-! ## Timestamps -/

/-- The number of bytes of the separator, a single character of any kind, from its first byte. -/
def separatorLength (b : Nat) : Nat :=
  if b < 0x80 then 1
  else if b / 16 = 0xE then 3
  else if b / 16 = 0xF then 4
  else 2

/-- The moment that the bytes of a text write. -/
def readMoment? (bs : List Nat) : Option Moment := do
  if bs.length < 7 then none
  else
    let length ← dateLength? bs
    let (year, month, day) ← readDate? length bs
    match bs.drop length with
    | [] => some { year, month, day }
    | b :: rest =>
      let (t, offset) ← readTime? (rest.drop (separatorLength b - 1))
      some { year, month, day, hour := t.hour, minute := t.minute, second := t.second,
             microsecond := t.microsecond, offset }

/-- The timestamp that a text writes, if it writes one that exists. -/
def read? (s : String) : Option Timestamp :=
  (readMoment? (bytes (Text.replaceChar 'Z' "+00:00" s).toList)).bind of?

end VirtualShell.Timestamp
