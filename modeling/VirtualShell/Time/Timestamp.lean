import VirtualShell.Text.Number
import VirtualShell.Time.Calendar

/-!
# Timestamps

The moment at which a node was created or last changed: a date and a time of day, with microseconds,
and perhaps the distance from universal time. Only moments that exist can be built, so the written
form of a timestamp can always be read again.
-/

namespace VirtualShell

/-- The numbers of a date and a time of day; the offset from universal time is in microseconds. -/
structure Moment where
  year : Nat
  month : Nat
  day : Nat
  hour : Nat := 0
  minute : Nat := 0
  second : Nat := 0
  microsecond : Nat := 0
  offset : Option Int := none
  deriving DecidableEq, Repr

namespace Moment

/-- Microseconds of a day. -/
def dayLength : Nat := 86400000000

/-- Microseconds of a second. -/
def secondLength : Nat := 1000000

/-- The date and the time of day exist, and the offset is shorter than a day. An offset that is not
zero has at least one whole second: a fraction alone is never read as an offset. -/
def Exists (m : Moment) : Prop :=
  (1 ≤ m.year ∧ m.year ≤ 9999) ∧ (1 ≤ m.month ∧ m.month ≤ 12) ∧
    (1 ≤ m.day ∧ m.day ≤ Time.daysInMonth m.year m.month) ∧
    m.hour < 24 ∧ m.minute < 60 ∧ m.second < 60 ∧ m.microsecond < 1000000 ∧
    (m.offset.getD 0).natAbs < dayLength ∧
    (m.offset.getD 0 = 0 ∨ secondLength ≤ (m.offset.getD 0).natAbs)

instance (m : Moment) : Decidable m.Exists := by
  unfold Exists
  infer_instance

end Moment

/-- A moment that exists. -/
structure Timestamp where
  moment : Moment
  sound : moment.Exists
  deriving DecidableEq, Repr

namespace Timestamp

/-- The start of 1970, in universal time. -/
def epoch : Timestamp :=
  ⟨{ year := 1970, month := 1, day := 1, offset := some 0 }, by decide⟩

instance : Inhabited Timestamp := ⟨epoch⟩

/-- The timestamp of a moment, if the moment exists. -/
def of? (m : Moment) : Option Timestamp :=
  if h : m.Exists then some ⟨m, h⟩ else none

/-- The moment a number of seconds after the start of 1970, in universal time. -/
def ofEpochSeconds (n : Nat) : Timestamp :=
  let (year, month, day) := Time.dateOfEpochDay (n / 86400)
  let s := n % 86400
  (of? { year, month, day, hour := s / 3600, minute := s / 60 % 60, second := s % 60,
         offset := some 0 }).getD epoch

/-! ## Written form -/

/-- A number in two digits. -/
def twoDigits (n : Nat) : String :=
  Text.natTextPadded 2 n

/-- A fraction of a second: six digits after a point, or nothing for zero. -/
def fractionText (microseconds : Nat) : String :=
  if microseconds = 0 then "" else "." ++ Text.natTextPadded 6 microseconds

/-- An offset from universal time: hours and minutes, and the rest where it is not zero. -/
def offsetText (offset : Int) : String :=
  let n := offset.natAbs
  let seconds := n / 1000000
  let rest :=
    if n % 60000000 = 0 then ""
    else ":" ++ twoDigits (seconds % 60) ++ fractionText (n % 1000000)
  (if offset < 0 then "-" else "+") ++ twoDigits (seconds / 3600) ++ ":"
    ++ twoDigits (seconds / 60 % 60) ++ rest

/-- The full written form, as in `2024-01-02T03:04:00+00:00`. -/
def text (t : Timestamp) : String :=
  let m := t.moment
  Text.natTextPadded 4 m.year ++ "-" ++ twoDigits m.month ++ "-" ++ twoDigits m.day ++ "T"
    ++ twoDigits m.hour ++ ":" ++ twoDigits m.minute ++ ":" ++ twoDigits m.second
    ++ fractionText m.microsecond ++ (m.offset.map offsetText).getD ""

/-- The names of the months in listings. -/
def monthNames : List String :=
  ["Jan", "Feb", "Mar", "Apr", "May", "Jun", "Jul", "Aug", "Sep", "Oct", "Nov", "Dec"]

/-- The short form in listings, as in `Jan 02 03:04`. -/
def listing (t : Timestamp) : String :=
  let m := t.moment
  (monthNames[m.month - 1]?).getD "" ++ " " ++ twoDigits m.day ++ " " ++ twoDigits m.hour ++ ":"
    ++ twoDigits m.minute

end Timestamp

end VirtualShell
