/-!
# Kinds of characters

A property of characters is kept as the increasing list of the code points where it starts or stops
holding. A code point has the property exactly when an odd number of these borders lie at or
below it.

Digits need no such list: every script writes its ten decimal digits in a row, so a digit is known
by the zero of its row. Superscripts, circled digits and the like count as digits to some rules, but
a number is never read from them. The names of variables and of most aliases know ASCII alone.
-/

namespace VirtualShell.Text

/-! ## Sets of code points -/

/-- A set of code points, given by its borders: the first code point inside, the first one outside
again, and so on, in increasing order. -/
structure CodeSet where
  /-- Where membership changes. -/
  borders : List Nat

/-- Membership: an odd number of borders lies at or below the code point. -/
def CodeSet.contains (s : CodeSet) (n : Nat) : Bool :=
  (s.borders.takeWhile (· ≤ n)).length % 2 == 1

/-! ## Digits -/

/-- The zeros of all rows of decimal digits. -/
def decimalZeros : List Nat :=
  [0x30, 0x660, 0x6F0, 0x7C0, 0x966, 0x9E6, 0xA66, 0xAE6, 0xB66, 0xBE6, 0xC66, 0xCE6, 0xD66,
   0xDE6, 0xE50, 0xED0, 0xF20, 0x1040, 0x1090, 0x17E0, 0x1810, 0x1946, 0x19D0, 0x1A80, 0x1A90,
   0x1B50, 0x1BB0, 0x1C40, 0x1C50, 0xA620, 0xA8D0, 0xA900, 0xA9D0, 0xA9F0, 0xAA50, 0xABF0, 0xFF10,
   0x104A0, 0x10D30, 0x11066, 0x110F0, 0x11136, 0x111D0, 0x112F0, 0x11450, 0x114D0, 0x11650,
   0x116C0, 0x11730, 0x118E0, 0x11950, 0x11C50, 0x11D50, 0x11DA0, 0x16A60, 0x16AC0, 0x16B50,
   0x1D7CE, 0x1D7D8, 0x1D7E2, 0x1D7EC, 0x1D7F6, 0x1E140, 0x1E2F0, 0x1E950, 0x1FBF0]

/-- The value of a decimal digit of any script. -/
def digitValue? (c : Char) : Option Nat :=
  (decimalZeros.find? fun z => z ≤ c.toNat && c.toNat ≤ z + 9).map fun z => c.toNat - z

/-- A decimal digit of any script. -/
def isDecimal (c : Char) : Bool :=
  (digitValue? c).isSome

/-- Digits that are not part of a row of ten, such as superscripts. -/
def loneDigits : CodeSet := ⟨
  [0xB2, 0xB4, 0xB9, 0xBA, 0x1369, 0x1372, 0x19DA, 0x19DB, 0x2070, 0x2071, 0x2074, 0x207A, 0x2080,
   0x208A, 0x2460, 0x2469, 0x2474, 0x247D, 0x2488, 0x2491, 0x24EA, 0x24EB, 0x24F5, 0x24FE, 0x24FF,
   0x2500, 0x2776, 0x277F, 0x2780, 0x2789, 0x278A, 0x2793, 0x10A40, 0x10A44, 0x10E60, 0x10E69,
   0x11052, 0x1105B, 0x1F100, 0x1F10B]⟩

/-- A decimal digit, or a digit in some other form. -/
def isDigitForm (c : Char) : Bool :=
  isDecimal c || loneDigits.contains c.toNat

/-- The number written by a row of decimal digits; other characters count as zeros. -/
def natOfDigits (cs : List Char) : Nat :=
  cs.foldl (fun n c => 10 * n + (digitValue? c).getD 0) 0

/-! ## Names -/

/-- A letter or the underscore. -/
def isNameStart (c : Char) : Bool :=
  c.isAlpha || c == '_'

/-- A letter, a digit or the underscore. -/
def isNameChar (c : Char) : Bool :=
  c.isAlphanum || c == '_'

/-- A name: it starts with a letter or the underscore, and digits may follow. -/
def isIdentifier : List Char → Bool
  | [] => false
  | c :: rest => isNameStart c && rest.all isNameChar

end VirtualShell.Text
