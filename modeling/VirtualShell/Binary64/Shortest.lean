import VirtualShell.Binary64.Basic
import VirtualShell.Text.Number

/-!
# The shortest decimal form of a binary64 number

A finite number is written with the fewest digits that read back as it, and with the nearest of
those decimals. Positional notation is used from `0.0001` to below `10 ^ 16`, with at least one
digit after the point; outside that range an exponent of at least two digits follows.
-/

namespace VirtualShell.Binary64

/-- The decimal `digits * 10 ^ scale` as a fraction. -/
def decimalRatio (digits : Nat) (scale : Int) : Nat × Nat :=
  if 0 ≤ scale then (digits * Nat.pow 10 scale.toNat, 1) else (digits, Nat.pow 10 (-scale).toNat)

/-- Whether the decimal reads back as the positive number with this mantissa and exponent. -/
def readsAs (mantissa : Nat) (exponent : Int) (digits : Nat) (scale : Int) : Bool :=
  let (num, den) := decimalRatio digits scale
  decide (ofRatio false num den = .finite false mantissa exponent)

/-- The distance of a decimal from `num / den`, times a factor that all decimals of this scale
share. -/
def distance (num den : Nat) (digits : Nat) (scale : Int) : Nat :=
  let (n, d) := decimalRatio digits scale
  let a := n * den
  let b := num * d
  (a - b) + (b - a)

/-- The decimal with this scale that reads back as the number, if there is one: the nearer of the
two neighbours of the number on the grid. -/
def candidate? (mantissa : Nat) (exponent : Int) (scale : Int) : Option Nat :=
  let (num, den) :=
    if 0 ≤ exponent then (mantissa * Nat.pow 2 exponent.toNat, 1)
    else (mantissa, Nat.pow 2 (-exponent).toNat)
  let below :=
    if 0 ≤ scale then num / (den * Nat.pow 10 scale.toNat)
    else num * Nat.pow 10 (-scale).toNat / den
  let low := readsAs mantissa exponent below scale && below != 0
  let high := readsAs mantissa exponent (below + 1) scale
  match low, high with
  | true, true =>
    let d₁ := distance num den below scale
    let d₂ := distance num den (below + 1) scale
    if d₁ < d₂ ∨ (d₁ = d₂ ∧ below % 2 = 0) then some below else some (below + 1)
  | true, false => some below
  | false, true => some (below + 1)
  | false, false => none

/-- The number of decimal digits before the point of a positive number, at most one too many; it is
zero or negative for numbers below one. -/
def decimalMagnitude (mantissa : Nat) (exponent : Int) : Int :=
  if 0 ≤ exponent then (Nat.toDigits 10 (mantissa * Nat.pow 2 exponent.toNat)).length
  else
    let scaled := mantissa * Nat.pow 10 400 / Nat.pow 2 (-exponent).toNat
    ((Nat.toDigits 10 scaled).length : Int) - 400

/-- The fewest digits that read back, with their scale. -/
def shortest (mantissa : Nat) (exponent : Int) : Nat × Int :=
  let magnitude := decimalMagnitude mantissa exponent
  let found := (List.range 18).findSome? fun (n : Nat) =>
    let scale := magnitude - n
    (candidate? mantissa exponent scale).map fun d => (d, scale)
  found.getD (mantissa, exponent)

/-- The digits without zeros at their end, and the scale that makes up for them. -/
def dropZeros : Nat → Nat → Int → Nat × Int
  | 0, digits, scale => (digits, scale)
  | fuel + 1, digits, scale =>
    if digits ≠ 0 ∧ digits % 10 = 0 then dropZeros fuel (digits / 10) (scale + 1)
    else (digits, scale)

/-- The written form of a positive finite number. -/
def positiveText (mantissa : Nat) (exponent : Int) : String :=
  let (digits, scale) := shortest mantissa exponent
  let (digits, scale) := dropZeros 400 digits scale
  let ds := Nat.toDigits 10 digits
  -- The position of the decimal point, counted from the first digit.
  let point : Int := ds.length + scale
  if -4 < point ∧ point ≤ 16 then
    if point ≤ 0 then
      "0." ++ String.ofList (List.replicate (-point).toNat '0' ++ ds)
    else if ds.length ≤ point.toNat then
      String.ofList (ds ++ List.replicate (point.toNat - ds.length) '0') ++ ".0"
    else
      String.ofList (ds.take point.toNat) ++ "." ++ String.ofList (ds.drop point.toNat)
  else
    let e := point - 1
    let fraction := if ds.length ≤ 1 then "" else "." ++ String.ofList (ds.drop 1)
    let sign := if e < 0 then "-" else "+"
    String.ofList (ds.take 1) ++ fraction ++ "e" ++ sign ++ Text.natTextPadded 2 e.natAbs

/-- The written form of a number. -/
def text : Binary64 → String
  | .finite negative mantissa exponent =>
    (if negative then "-" else "") ++
      (if mantissa = 0 then "0.0" else positiveText mantissa exponent)
  | .infinite negative => if negative then "-inf" else "inf"
  | .nan => "nan"

end VirtualShell.Binary64
