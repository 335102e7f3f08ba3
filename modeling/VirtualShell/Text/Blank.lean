/-!
# Blank characters

The white space of the shell is the white space of Unicode, not only that of ASCII: it ends a token,
it is trimmed from the ends of a line, and it separates the words that `wc` counts. The functions
here work on character lists, because every scanner of the shell does; the versions for `String`
follow at the end.
-/

namespace VirtualShell.Text

/-- A character that counts as white space. -/
def isBlank (c : Char) : Bool :=
  let n := c.toNat
  (0x09 ≤ n && n ≤ 0x0D) || (0x1C ≤ n && n ≤ 0x20) || n == 0x85 || n == 0xA0 || n == 0x1680 ||
    (0x2000 ≤ n && n ≤ 0x200A) || n == 0x2028 || n == 0x2029 || n == 0x202F || n == 0x205F ||
    n == 0x3000

/-! ## On character lists -/

/-- The text without its leading blanks. -/
def trimStart (cs : List Char) : List Char :=
  cs.dropWhile isBlank

/-- The text without its trailing blanks. -/
def trimEnd (cs : List Char) : List Char :=
  (cs.reverse.dropWhile isBlank).reverse

/-- The text without the blanks at either end. -/
def trim (cs : List Char) : List Char :=
  trimEnd (trimStart cs)

/-- The maximal runs of characters that are not blank, in order. -/
def words (cs : List Char) : List (List Char) :=
  (cs.splitOnP isBlank).filter fun w => !w.isEmpty

/-! ## On strings -/

/-- The string without the blanks at either end. -/
def strip (s : String) : String :=
  String.ofList (trim s.toList)

/-- The string without its leading blanks. -/
def stripStart (s : String) : String :=
  String.ofList (trimStart s.toList)

/-- Whether nothing but blanks stands in the string. -/
def isBlankText (s : String) : Bool :=
  s.toList.all isBlank

/-- The words of a string: what stands between its blanks. -/
def splitWords (s : String) : List String :=
  (words s.toList).map String.ofList

end VirtualShell.Text
