import VirtualShell.Text.Blank

/-!
# Quoting

A quote character opens a quoted run, which the next equal character closes; a run that nothing
closes goes on to the end of the line. There are no escapes.

A line is gone through once for its tokens, once for each direction of redirection and once for its
operators. Each of these passes keeps the quote that is open by itself and knows nothing of the
others.
-/

namespace VirtualShell.Line

/-- The characters that open a quoted run. -/
def isQuote (c : Char) : Bool :=
  c == '"' || c == '\''

/-- The tokens in the rest of a line, where `quote` is the quote that is open. The token that has
begun is held in reverse. -/
def tokensFrom : Option Char → List Char → List Char → List (List Char)
  | _, begun, [] => if begun.isEmpty then [] else [begun.reverse]
  | some q, begun, c :: rest =>
    if c = q then tokensFrom none begun rest else tokensFrom (some q) (c :: begun) rest
  | none, begun, c :: rest =>
    if isQuote c then tokensFrom (some c) begun rest
    else if Text.isBlank c then
      if begun.isEmpty then tokensFrom none [] rest
      else begun.reverse :: tokensFrom none [] rest
    else tokensFrom none (c :: begun) rest

/-- The tokens of a line: blanks outside the quotes divide them, and the quotes around a run belong
to none. A token that is empty after that is dropped. -/
def tokens (cs : List Char) : List (List Char) :=
  tokensFrom none [] cs

/-- The tokens of a line as strings. -/
def tokenize (s : String) : List String :=
  (tokens s.toList).map String.ofList

/-- The positions at which a character stands outside the quotes in the rest of a line, where
`quote` is the quote that is open and the rest starts at the position `i`. -/
def plainPositionsFrom (c : Char) : Option Char → Nat → List Char → List Nat
  | _, _, [] => []
  | some q, i, d :: rest => plainPositionsFrom c (if d = q then none else some q) (i + 1) rest
  | none, i, d :: rest =>
    if isQuote d then plainPositionsFrom c (some d) (i + 1) rest
    else if d = c then i :: plainPositionsFrom c none (i + 1) rest
    else plainPositionsFrom c none (i + 1) rest

/-- The positions at which a character stands outside the quotes. -/
def plainPositions (c : Char) (cs : List Char) : List Nat :=
  plainPositionsFrom c none 0 cs

end VirtualShell.Line
