/-!
# Binary64 numbers

A number with a fraction is read from its decimal form into the nearest binary64 number, and is
compared, stored and written as that number. A finite number is a sign, a natural mantissa below
`2 ^ 53` and a power of two; all arithmetic here is exact arithmetic of naturals.
-/

namespace VirtualShell

/-- A binary64 number. A finite one is `± mantissa * 2 ^ exponent`. -/
inductive Binary64 where
  /-- A finite number; zero keeps its sign. -/
  | finite (negative : Bool) (mantissa : Nat) (exponent : Int)
  /-- An infinity. -/
  | infinite (negative : Bool)
  /-- Not a number. -/
  | nan
  deriving DecidableEq, Repr

namespace Binary64

/-- The number of bits of a mantissa. -/
def precision : Nat := 53

/-- The least exponent of a finite number, reached by the smallest ones. -/
def minExponent : Int := -1074

/-- The greatest exponent of a finite number. -/
def maxExponent : Int := 971

/-- The number of binary digits of a natural number. -/
def bitLength (n : Nat) : Nat :=
  if n = 0 then 0 else n.log2 + 1

/-- The quotient of two naturals, rounded to the nearest one and a tie to the even one. -/
def roundDiv (num den : Nat) : Nat :=
  let q := num / den
  let r := num % den
  if 2 * r < den then q
  else if den < 2 * r then q + 1
  else if q % 2 = 0 then q else q + 1

/-- The quotient `num / den` scaled by `2 ^ (-e)` and rounded. -/
def scaledDiv (num den : Nat) (e : Int) : Nat :=
  if 0 ≤ e then roundDiv num (den * Nat.pow 2 e.toNat)
  else roundDiv (num * Nat.pow 2 (-e).toNat) den

/-- The binary64 number nearest to `± num / den`, a tie going to the even mantissa. -/
def ofRatio (negative : Bool) (num den : Nat) : Binary64 :=
  if num = 0 then .finite negative 0 minExponent
  else
    -- The quotient has either this many bits before the point or one fewer.
    let magnitude : Int := (bitLength num : Int) - bitLength den
    let first := max minExponent (magnitude - precision)
    let m := scaledDiv num den first
    let (m, e) :=
      if m < Nat.pow 2 precision then (m, first)
      else
        let m' := scaledDiv num den (first + 1)
        if m' = Nat.pow 2 precision then (Nat.pow 2 (precision - 1), first + 2) else (m', first + 1)
    if maxExponent < e then .infinite negative else .finite negative m e

/-- The binary64 number nearest to `± digits * 10 ^ scale`. Scales far outside the range of finite
numbers are settled without computing the power: a number other than zero has at least one decimal
digit, and no more than it has binary ones. -/
def ofDecimal (negative : Bool) (digits : Nat) (scale : Int) : Binary64 :=
  if digits = 0 then .finite negative 0 minExponent
  else if 400 < scale then .infinite negative
  else if bitLength digits + scale < -400 then .finite negative 0 minExponent
  else if 0 ≤ scale then ofRatio negative (digits * Nat.pow 10 scale.toNat) 1
  else ofRatio negative digits (Nat.pow 10 (-scale).toNat)

/-- Whether the number is a zero of either sign. -/
def isZero : Binary64 → Bool
  | .finite _ m _ => m == 0
  | _ => false

/-- The order of two magnitudes `m * 2 ^ e`. -/
def compareMagnitude (m₁ : Nat) (e₁ : Int) (m₂ : Nat) (e₂ : Int) : Ordering :=
  let low := min e₁ e₂
  compare (m₁ * Nat.pow 2 (e₁ - low).toNat) (m₂ * Nat.pow 2 (e₂ - low).toNat)

/-- The order of two numbers; zeros of both signs are equal, and a number is not ordered against
one that is not a number. -/
def cmp : Binary64 → Binary64 → Ordering
  | .finite s₁ m₁ e₁, .finite s₂ m₂ e₂ =>
    if m₁ = 0 ∧ m₂ = 0 then .eq
    else
      match s₁, s₂ with
      | false, false => compareMagnitude m₁ e₁ m₂ e₂
      | true, true => compareMagnitude m₂ e₂ m₁ e₁
      | true, false => .lt
      | false, true => .gt
  | .infinite s₁, .infinite s₂ => if s₁ = s₂ then .eq else if s₁ then .lt else .gt
  | .infinite s, .finite .. => if s then .lt else .gt
  | .finite .., .infinite s => if s then .gt else .lt
  | .nan, _ => .eq
  | _, .nan => .eq

end Binary64

end VirtualShell
