/-!
# Cutting and joining text

Lines, fields and padding. A file's lines are what stands between its line feeds, and one line feed
at the very end closes the last line instead of opening an empty one.
-/

namespace VirtualShell.Text

/-- What stands between the separators; there is always one field more than separators. -/
def splitOn (sep : Char) (s : String) : List String :=
  (s.toList.splitOn sep).map String.ofList

/-- The fields joined again with a separator between them. -/
def joinWith (sep : String) (fields : List String) : String :=
  sep.intercalate fields

/-- The text without one line feed at its end, if it has one. -/
def dropFinalNewline (cs : List Char) : List Char :=
  match cs.getLast? with
  | some '\n' => cs.dropLast
  | _ => cs

/-- The lines of a text; a single line feed at its end opens no further line. -/
def lines (s : String) : List String :=
  if s = "" then []
  else ((dropFinalNewline s.toList).splitOn '\n').map String.ofList

/-- Every occurrence of the character `c` replaced by `new`. -/
def replaceChar (c : Char) (new : String) (s : String) : String :=
  String.ofList (s.toList.flatMap fun x => if x = c then new.toList else [x])

/-- Every occurrence of the two characters `a`, `b` replaced, from left to right. -/
def replacePair (a b : Char) (new : List Char) : List Char → List Char
  | x :: y :: rest =>
    if x = a ∧ y = b then new ++ replacePair a b new rest
    else x :: replacePair a b new (y :: rest)
  | rest => rest

/-- Whether the characters `a`, `b` stand next to each other somewhere. -/
def hasPair (a b : Char) : List Char → Bool
  | x :: y :: rest => (x == a && y == b) || hasPair a b (y :: rest)
  | _ => false

/-- The text without all the characters `c` at its end. -/
def dropTrailing (c : Char) (s : String) : String :=
  String.ofList ((s.toList.reverse.dropWhile (· == c)).reverse)

/-- Pads on the left with blanks up to a width. -/
def padStart (width : Nat) (s : String) : String :=
  String.ofList (List.replicate (width - s.length) ' ') ++ s

/-- Pads on the right with blanks up to a width. -/
def padEnd (width : Nat) (s : String) : String :=
  s ++ String.ofList (List.replicate (width - s.length) ' ')

/-- Whether `s` starts with the text `start`. -/
def hasStart (start s : String) : Bool :=
  start.toList.isPrefixOf s.toList

/-- Whether `s` ends with the text `tail`. -/
def hasEnd (tail s : String) : Bool :=
  tail.toList.isSuffixOf s.toList

/-- The text after its first `n` characters. -/
def dropChars (n : Nat) (s : String) : String :=
  String.ofList (s.toList.drop n)

/-- The first `n` characters of the text. -/
def takeChars (n : Nat) (s : String) : String :=
  String.ofList (s.toList.take n)

/-- Texts in the order of their code points. -/
def sortTexts (texts : List String) : List String :=
  texts.mergeSort fun a b => decide (a ≤ b)

end VirtualShell.Text
