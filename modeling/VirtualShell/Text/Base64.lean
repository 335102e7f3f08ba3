/-!
# Base64

Bytes as text of 64 characters and the padding sign. Writing is exact; reading is lenient:
characters outside the alphabet are passed over, and a complete padding ends the text, whatever
follows it.
-/

namespace VirtualShell.Text.Base64

/-- The character for a value below 64. -/
def digit (n : Nat) : Char :=
  if n < 26 then Char.ofNat (0x41 + n)
  else if n < 52 then Char.ofNat (0x61 + (n - 26))
  else if n < 62 then Char.ofNat (0x30 + (n - 52))
  else if n = 62 then '+'
  else '/'

/-- The value of a character of the alphabet. -/
def value? (c : Char) : Option Nat :=
  if 'A' ≤ c ∧ c ≤ 'Z' then some (c.toNat - 0x41)
  else if 'a' ≤ c ∧ c ≤ 'z' then some (c.toNat - 0x61 + 26)
  else if '0' ≤ c ∧ c ≤ '9' then some (c.toNat - 0x30 + 52)
  else if c = '+' then some 62
  else if c = '/' then some 63
  else none

/-- Writes bytes in groups of three behind what is already written, which stands in reverse. -/
def encodeOnto (done : List Char) : List Nat → List Char
  | a :: b :: c :: rest =>
    encodeOnto (digit (c % 64) :: digit (b % 16 * 4 + c / 64) :: digit (a % 4 * 16 + b / 16) ::
      digit (a / 4) :: done) rest
  | [a, b] =>
    ('=' :: digit (b % 16 * 4) :: digit (a % 4 * 16 + b / 16) :: digit (a / 4) :: done).reverse
  | [a] => ('=' :: '=' :: digit (a % 4 * 16) :: digit (a / 4) :: done).reverse
  | [] => done.reverse

/-- The text of bytes. -/
def encode (bytes : List Nat) : List Char :=
  encodeOnto [] bytes

/-- What the reader keeps between two characters. -/
structure Reading where
  /-- How many characters of the current group of four have been read. -/
  place : Nat := 0
  /-- The bits that do not make a byte yet. -/
  left : Nat := 0
  /-- Padding signs in a row. -/
  pads : Nat := 0
  /-- The bytes so far, in reverse. -/
  done : List Nat := []

/-- Takes the value of one character of the alphabet. -/
def Reading.take (r : Reading) (v : Nat) : Reading :=
  match r.place with
  | 0 => { place := 1, left := v, done := r.done }
  | 1 => { place := 2, left := v % 16, done := (r.left * 4 + v / 16) :: r.done }
  | 2 => { place := 3, left := v % 4, done := (r.left * 16 + v / 4) :: r.done }
  | _ => { place := 0, left := 0, done := (r.left * 64 + v) :: r.done }

/-- Reads on; the text must end between two groups or in a complete padding. -/
def Reading.run (r : Reading) : List Char → Option (List Nat)
  | [] => if r.place = 0 then some r.done.reverse else none
  | c :: rest =>
    if c = '=' then
      if 2 ≤ r.place then
        if 4 ≤ r.place + (r.pads + 1) then some r.done.reverse
        else Reading.run { r with pads := r.pads + 1 } rest
      else Reading.run r rest
    else
      match value? c with
      | some v => Reading.run (r.take v) rest
      | none => Reading.run r rest

/-- The bytes that a text writes. -/
def decode? (cs : List Char) : Option (List Nat) :=
  Reading.run {} cs

end VirtualShell.Text.Base64
