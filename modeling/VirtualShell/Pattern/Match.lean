import VirtualShell.Pattern.Basic

/-!
# Searching

A backtracking search. `run` tries a pattern at a place and hands each way in which it matches, one
after another, to the continuation until one of them succeeds; the order is that of the pattern, so
the first success is the match. It is recursive on the pattern, and a repetition, which cannot go on
at the place of its last round, is bounded by the characters left.
-/

namespace VirtualShell.Pattern

/-- A place in the text, and what the groups have matched: number, start and end, the latest
first. -/
structure Spot where
  pos : Nat
  groups : List (Nat × Nat × Nat) := []

/-- What a numbered group has matched last. -/
def Spot.group? (s : Spot) (number : Nat) : Option (Nat × Nat) :=
  (s.groups.find? (·.1 == number)).map (·.2)

/-- The rest of a match: what must follow. -/
abbrev Rest := Spot → Option Spot

/-! ## Places -/

/-- Whether the character before or at a place has a property. -/
def charAt (text : Array Char) (p : Char → Bool) (pos : Nat) : Bool :=
  (text[pos]?).any p

/-- Whether a place is of a kind. -/
def Anchor.holds (text : Array Char) (pos : Nat) : Anchor → Bool
  | .textStart => pos == 0
  | .lineStart => pos == 0 || charAt text (· == '\n') (pos - 1)
  | .textEnd => pos == text.size
  | .lastLineEnd => pos == text.size || (pos + 1 == text.size && charAt text (· == '\n') pos)
  | .lineEnd => pos == text.size || charAt text (· == '\n') pos
  | .wordBorder inside ascii =>
    let word := fun c => Category.word.contains ascii c
    let before := pos != 0 && charAt text word (pos - 1)
    let after := charAt text word pos
    !text.isEmpty && (before != after) == inside

/-! ## Repetitions -/

/-- The first place from `pos` on, at most `fuel` further, whose character fails the test. -/
def runEnd (text : Array Char) (test : Char → Bool) : Nat → Nat → Nat
  | 0, pos => pos
  | fuel + 1, pos => if charAt text test pos then runEnd text test fuel (pos + 1) else pos

/-- Tries to go on after `n` characters, then after one fewer, down to `least`. -/
def tryDown (s : Spot) (least : Nat) (k : Rest) : Nat → Option Spot
  | 0 => if least = 0 then k s else none
  | n + 1 =>
    if n + 1 < least then none
    else
      match k { s with pos := s.pos + (n + 1) } with
      | some r => some r
      | none => tryDown s least k n

/-- Tries to go on after `n` characters, then after one more, at most `fuel` times more. -/
def tryUp (s : Spot) (k : Rest) : Nat → Nat → Option Spot
  | 0, n => k { s with pos := s.pos + n }
  | fuel + 1, n =>
    match k { s with pos := s.pos + n } with
    | some r => some r
    | none => tryUp s k fuel (n + 1)

/-- Repeats a pattern that takes one character each time. -/
def repeatSingle (text : Array Char) (test : Char → Bool) (greed : Greed) (least : Nat)
    (greatest : Option Nat) (s : Spot) (k : Rest) : Option Spot :=
  let left := text.size - s.pos
  let limit := match greatest with
    | some n => min n left
    | none => left
  let most := runEnd text test limit s.pos - s.pos
  if most < least then none
  else
    match greed with
    | .greedy => tryDown s least k most
    | .lazy => tryUp s k (most - least) least
    | .possessive => k { s with pos := s.pos + most }

/-- Whether another round is allowed after `count` of them. -/
def roomFor (count : Nat) : Option Nat → Bool
  | some n => count < n
  | none => true

/-- Repeats a pattern as often as possible first. Once the least number is reached, a round starts
only at a place other than that of the last such round. -/
def repeatGreedy (body : Spot → Rest → Option Spot) (least : Nat) (greatest : Option Nat)
    (k : Rest) : Nat → Nat → Option Nat → Spot → Option Spot
  | 0, _, _, _ => none
  | fuel + 1, count, last, s =>
    if count < least then
      body s (repeatGreedy body least greatest k fuel (count + 1) last)
    else
      let more :=
        if roomFor count greatest && last != some s.pos then
          body s (repeatGreedy body least greatest k fuel (count + 1) (some s.pos))
        else none
      match more with
      | some r => some r
      | none => k s

/-- Repeats a pattern as seldom as possible first. -/
def repeatLazy (body : Spot → Rest → Option Spot) (least : Nat) (greatest : Option Nat)
    (k : Rest) : Nat → Nat → Option Nat → Spot → Option Spot
  | 0, _, _, _ => none
  | fuel + 1, count, last, s =>
    if count < least then
      body s (repeatLazy body least greatest k fuel (count + 1) last)
    else
      match k s with
      | some r => some r
      | none =>
        if roomFor count greatest && last != some s.pos then
          body s (repeatLazy body least greatest k fuel (count + 1) (some s.pos))
        else none

/-- Repeats a pattern as often as possible, each round in its first way only. -/
def repeatPossessive (body : Spot → Rest → Option Spot) (least : Nat) (greatest : Option Nat) :
    Nat → Nat → Option Nat → Spot → Option Spot
  | 0, _, _, s => some s
  | fuel + 1, count, last, s =>
    if count < least then
      match body s some with
      | some s' => repeatPossessive body least greatest fuel (count + 1) last s'
      | none => none
    else if roomFor count greatest && last != some s.pos then
      match body s some with
      | some s' => repeatPossessive body least greatest fuel (count + 1) (some s.pos) s'
      | none => some s
    else some s

/-! ## Patterns -/

/-- Whether the characters from `a` to `b` stand again at `pos`. -/
def standsAgain (text : Array Char) (fold : Fold) (a b pos : Nat) : Bool :=
  pos + (b - a) ≤ text.size &&
    (List.range (b - a)).all fun i =>
      match text[a + i]?, text[pos + i]? with
      | some x, some y =>
        if fold.ignoreCase then
          if fold.ascii then Text.lowerAscii x.toNat == Text.lowerAscii y.toNat
          else Text.lowerCode x.toNat == Text.lowerCode y.toNat
        else x == y
      | _, _ => false

/-- The first way in which a pattern matches at a place and the rest goes on from there. -/
def run (text : Array Char) : Pattern → Spot → Rest → Option Spot
  | .empty, s, k => k s
  | .char fold negated code, s, k =>
    if charAt text (fun c => fold.same code c != negated) s.pos then k { s with pos := s.pos + 1 }
    else none
  | .any lineFeed, s, k =>
    if charAt text (fun c => lineFeed || c != '\n') s.pos then k { s with pos := s.pos + 1 }
    else none
  | .set fold negated items, s, k =>
    if charAt text (fun c => items.any (·.matchesChar fold c) != negated) s.pos then
      k { s with pos := s.pos + 1 }
    else none
  | .place anchor, s, k => if anchor.holds text s.pos then k s else none
  | .seq a b, s, k => run text a s fun s' => run text b s' k
  | .alt a b, s, k =>
    match run text a s k with
    | some r => some r
    | none => run text b s k
  | .group number body, s, k =>
    match number with
    | none => run text body s k
    | some n =>
      run text body s fun s' => k { s' with groups := (n, s.pos, s'.pos) :: s'.groups }
  | .rep greed least greatest body, s, k =>
    match single? body with
    | some test => repeatSingle text test greed least greatest s k
    | none =>
      let fuel := least + (text.size - s.pos) + 3
      match greed with
      | .greedy => repeatGreedy (run text body) least greatest k fuel 0 none s
      | .lazy => repeatLazy (run text body) least greatest k fuel 0 none s
      | .possessive =>
        match repeatPossessive (run text body) least greatest fuel 0 none s with
        | some s' => k s'
        | none => none
  | .again fold number _, s, k =>
    match s.group? number with
    | some (a, b) =>
      if standsAgain text fold a b s.pos then k { s with pos := s.pos + (b - a) } else none
    | none => none
  | .look ahead negated body, s, k =>
    let back := if ahead then 0 else body.width.least
    let found := if back ≤ s.pos then run text body { s with pos := s.pos - back } some else none
    match found with
    | some s' => if negated then none else k { s' with pos := s.pos }
    | none => if negated then k s else none
  | .atomic body, s, k =>
    match run text body s some with
    | some s' => k s'
    | none => none
  | .cond number yes no, s, k =>
    match s.group? number with
    | some _ => run text yes s k
    | none => run text no s k

/-- Whether the pattern matches at some place from `pos` on, at most `fuel` further. -/
def searchFrom (p : Pattern) (text : Array Char) : Nat → Nat → Bool
  | 0, pos => (run text p { pos } some).isSome
  | fuel + 1, pos => (run text p { pos } some).isSome || searchFrom p text fuel (pos + 1)

/-- Whether the pattern matches somewhere in a text. -/
def search (p : Pattern) (text : List Char) : Bool :=
  searchFrom p text.toArray text.length 0

end VirtualShell.Pattern
