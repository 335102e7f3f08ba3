import VirtualShell.Text.Blank
import VirtualShell.Text.Character
import VirtualShell.Text.LetterCase
import VirtualShell.Text.WordChar

/-!
# Search patterns

The patterns that `grep` searches for, as a tree. Every leaf carries the modes under which it was
written (case ignored or not, all scripts or ASCII alone), so a pattern means the same wherever it
is put.
-/

namespace VirtualShell

namespace Pattern

/-- How a leaf compares characters. -/
structure Fold where
  /-- Capital and small letters are equal. -/
  ignoreCase : Bool := false
  /-- Letters, digits and blanks are those of ASCII alone. -/
  ascii : Bool := false
  deriving DecidableEq, Repr

/-- The classes that have a letter of their own. -/
inductive Category where
  | digit
  | space
  | word
  deriving DecidableEq, Repr

/-- One item of a character set. -/
inductive SetItem where
  /-- The character of a code point. -/
  | code (n : Nat)
  /-- The characters from one code point to another. -/
  | range (lo hi : Nat)
  /-- A class, or what is outside it. -/
  | category (c : Category) (negated : Bool)
  deriving DecidableEq, Repr

/-- Places that match without taking a character. -/
inductive Anchor where
  /-- The start of the text. -/
  | textStart
  /-- The start of the text or of a line in it. -/
  | lineStart
  /-- The end of the text. -/
  | textEnd
  /-- The end of the text, or just before a line feed that ends it. -/
  | lastLineEnd
  /-- The end of the text or of a line in it. -/
  | lineEnd
  /-- Between a word character and another one, or not there. -/
  | wordBorder (inside : Bool) (ascii : Bool)
  deriving DecidableEq, Repr

/-- Which number of repetitions is tried first, and whether others are tried at all. -/
inductive Greed where
  | greedy
  | lazy
  | possessive
  deriving DecidableEq, Repr

/-- The least and the greatest number of characters that a pattern can take. -/
structure Width where
  least : Nat
  greatest : Nat
  deriving DecidableEq, Repr

end Pattern

open Pattern in
/-- A search pattern. -/
inductive Pattern where
  /-- Nothing, everywhere. -/
  | empty
  /-- The character of a code point, or any other character. -/
  | char (fold : Fold) (negated : Bool) (code : Nat)
  /-- Any character; a line feed only if it is let in. -/
  | any (lineFeed : Bool)
  /-- A character in a set, or outside it. -/
  | set (fold : Fold) (negated : Bool) (items : List SetItem)
  /-- A place. -/
  | place (anchor : Anchor)
  /-- One pattern after another. -/
  | seq (first second : Pattern)
  /-- One pattern, or else another. -/
  | alt (first second : Pattern)
  /-- A group, which notes what it matched if it has a number. -/
  | group (number : Option Nat) (body : Pattern)
  /-- A pattern several times; without a greatest number, any number of times. -/
  | rep (greed : Greed) (least : Nat) (greatest : Option Nat) (body : Pattern)
  /-- What a group has matched, once more. -/
  | again (fold : Fold) (number : Nat) (width : Width)
  /-- Whether a pattern matches before or after the place, which takes no character. -/
  | look (ahead : Bool) (negated : Bool) (body : Pattern)
  /-- A pattern whose first match is final. -/
  | atomic (body : Pattern)
  /-- One pattern if a group has matched, else another. -/
  | cond (number : Nat) (yes no : Pattern)

namespace Pattern

/-! ## Width -/

/-- The greatest number of repetitions that can be written, and one more. -/
def repetitionLimit : Nat := 4294967295

/-- Widths are not told apart from here on. -/
def widthLimit : Nat := Nat.pow 2 64

/-- A width within the limit. -/
def Width.clip (w : Width) : Width :=
  ⟨min w.least widthLimit, min w.greatest widthLimit⟩

/-- The width of one pattern after another. -/
def Width.add (a b : Width) : Width :=
  Width.clip ⟨a.least + b.least, a.greatest + b.greatest⟩

/-- The width of one pattern or another. -/
def Width.join (a b : Width) : Width :=
  ⟨min a.least b.least, max a.greatest b.greatest⟩

/-- The width of a pattern repeated. -/
def Width.times (w : Width) (least : Nat) (greatest : Option Nat) : Width :=
  Width.clip ⟨w.least * least,
    match greatest with
    | some n => w.greatest * n
    | none => if w.greatest = 0 then 0 else widthLimit⟩

/-- The least and the greatest number of characters that a pattern can take. -/
def width : Pattern → Width
  | .empty => ⟨0, 0⟩
  | .char .. => ⟨1, 1⟩
  | .any _ => ⟨1, 1⟩
  | .set .. => ⟨1, 1⟩
  | .place _ => ⟨0, 0⟩
  | .seq a b => a.width.add b.width
  | .alt a b => a.width.join b.width
  | .group _ body => body.width
  | .rep _ least greatest body => body.width.times least greatest
  | .again _ _ w => w
  | .look .. => ⟨0, 0⟩
  | .atomic body => body.width
  | .cond _ yes no => yes.width.join no.width

/-! ## Characters -/

/-- Whether a character is of a class. -/
def Category.contains (ascii : Bool) (c : Char) : Category → Bool
  | .digit => if ascii then c.isDigit else Text.isDecimal c
  | .space => if ascii then (9 ≤ c.toNat && c.toNat ≤ 13) || c == ' ' else Text.isBlank c
  | .word => if ascii then Text.isAsciiWordChar c else Text.isWordChar c

/-- The code points that count as equal to a code point. -/
def Fold.equals (fold : Fold) (n : Nat) : List Nat :=
  if fold.ignoreCase then
    if fold.ascii then
      let small := Text.lowerAscii n
      if 0x61 ≤ small && small ≤ 0x7A then [small, small - 0x20] else [n]
    else
      (Text.caseVariants (Text.lowerCode n)).flatMap fun v => v :: Text.capitalsOf v
  else [n]

/-- Whether a character matches a code point. -/
def Fold.same (fold : Fold) (code : Nat) (c : Char) : Bool :=
  if fold.ignoreCase then
    if fold.ascii then Text.lowerAscii code == Text.lowerAscii c.toNat
    else (Text.caseVariants (Text.lowerCode code)).contains (Text.lowerCode c.toNat)
  else code == c.toNat

/-- The last code point that a set looks up in its table. -/
def lastInTable : Nat := 0xFFFF

/-- Whether a set item matches a character. Where case is ignored, the character is made small
first. A code point beyond the table is then compared as it was written; a range that goes beyond
the table is searched for the capital as well, whatever the scripts of the mode. -/
def SetItem.matchesChar (fold : Fold) (c : Char) : SetItem → Bool
  | .code n =>
    if fold.ignoreCase && !fold.ascii && lastInTable < n then Text.lowerCode c.toNat == n
    else fold.same n c
  | .range lo hi =>
    let inside (n : Nat) : Bool := lo ≤ n && n ≤ hi
    inside c.toNat || (fold.equals c.toNat).any inside ||
      (fold.ignoreCase && lastInTable < hi && inside (Text.upperCode (Text.lowerAscii c.toNat)))
  | .category k negated => k.contains fold.ascii c != negated

/-- The test of a pattern that takes exactly one character, whatever it is next to. -/
def single? : Pattern → Option (Char → Bool)
  | .char fold negated code => some fun c => fold.same code c != negated
  | .any lineFeed => some fun c => lineFeed || c != '\n'
  | .set fold negated items => some fun c => items.any (·.matchesChar fold c) != negated
  | .group none body => single? body
  | _ => none

/-! ## Building patterns -/

/-- Patterns one after another. -/
def sequence : List Pattern → Pattern
  | [] => .empty
  | [p] => p
  | p :: rest => .seq p (sequence rest)

/-- A fixed text. -/
def literal (text : String) : Pattern :=
  sequence (text.toList.map fun c => .char {} false c.toNat)

/-- Any number of blanks. -/
def blanks : Pattern :=
  .rep .greedy 0 none (.set {} false [.category .space false])

/-- At least one blank. -/
def someBlanks : Pattern :=
  .rep .greedy 1 none (.set {} false [.category .space false])

/-- Anything up to the end of the line. -/
def anything : Pattern :=
  .rep .greedy 0 none (.any false)

/-- The border of a word. -/
def wordBorder : Pattern :=
  .place (.wordBorder true false)

end Pattern

end VirtualShell
