import VirtualShell.Text.Character
import VirtualShell.Text.Quoted
import VirtualShell.Text.Split

/-!
# Whole numbers in text

Numbers are written in decimal without leading zeros. Reading has a ceiling: a number of more than
4300 digits is refused rather than converted.
-/

namespace VirtualShell.Text

/-- The digits of a number, without leading zeros. -/
def natText (n : Nat) : String :=
  String.ofList (Nat.toDigits 10 n)

/-- The digits of a number, after a minus sign if it is negative. -/
def intText : Int → String
  | .ofNat n => natText n
  | .negSucc n => "-" ++ natText (n + 1)

/-- A number in at least `width` digits. -/
def natTextPadded (width n : Nat) : String :=
  let digits := Nat.toDigits 10 n
  String.ofList (List.replicate (width - digits.length) '0' ++ digits)

/-- The most digits that a number may be read from. -/
def maxDigits : Nat := 4300

/-- The most characters of a refused text that its message shows. -/
def maxShown : Nat := 200

/-- Why no number was read. -/
inductive NumberError where
  /-- The text is no row of decimal digits. -/
  | malformed (text : String)
  /-- The number has more digits than are converted. -/
  | tooLong (digits : Nat)
  deriving DecidableEq, Repr

/-- The message for a refused number. -/
def NumberError.message : NumberError → String
  | .malformed text =>
    "invalid literal for int() with base 10: " ++ takeChars maxShown (quoted text)
  | .tooLong digits =>
    "Exceeds the limit (" ++ natText maxDigits ++ " digits) for integer string conversion: value has "
      ++ natText digits ++ " digits; use sys.set_int_max_str_digits() to increase the limit"

/-- The number that a row of decimal digits of any script writes. The ceiling counts the digits up
to the first other character, so it is reported even where the text is no number. -/
def readNat (cs : List Char) : Except NumberError Nat :=
  let leading := cs.takeWhile isDecimal
  if maxDigits < leading.length then .error (.tooLong leading.length)
  else if leading.isEmpty || leading.length != cs.length then
    .error (.malformed (String.ofList cs))
  else .ok (natOfDigits cs)

end VirtualShell.Text
