import VirtualShell.Proofs.Json.Number

/-!
# Numbers with a fraction in documents

A finite binary64 number is written with a point, an exponent or both (`Decimal`), and the reader
takes such a text for a binary64 number again, up to what follows it (`readNumber?_decimal`). Which
number that is does not matter here: the type of a value survives in a document even where its last
digits might not.

The text is read as a whole only because its first digit is no zero that stands for nothing: the
reader stops behind a zero in front. So the digits of a number other than zero have to be traced
back to where they were found (`shortest_ne_zero`).
-/

namespace VirtualShell

/-! ## The digits of a number that is not zero -/

namespace Binary64

/-- The candidate for the digits of a number is not zero. -/
theorem candidate?_ne_zero {mantissa digits : Nat} {exponent scale : Int}
    (h : candidate? mantissa exponent scale = some digits) : digits ≠ 0 := by
  unfold candidate? at h
  dsimp only at h
  generalize (if 0 ≤ scale then _ else _ : Nat) = below at h
  have hlow (hread : (readsAs mantissa exponent below scale && below != 0) = true) : below ≠ 0 :=
    bne_iff_ne.mp (Bool.and_eq_true_iff.mp hread).2
  split at h
  · rename_i hread _
    have hpick : some digits = some below ∨ some digits = some (below + 1) := by
      rw [← h]
      exact ite_eq_or_eq _ _ _
    rcases hpick with hpick | hpick
    · cases hpick
      exact hlow hread
    · cases hpick
      exact Nat.succ_ne_zero _
  · rename_i hread _
    cases h
    exact hlow hread
  · cases h
    exact Nat.succ_ne_zero _
  · cases h

/-- The shortest digits of a number other than zero are not zero. -/
theorem shortest_ne_zero {mantissa : Nat} (h : mantissa ≠ 0) (exponent : Int) :
    (shortest mantissa exponent).1 ≠ 0 := by
  unfold shortest
  dsimp only
  cases hfound : (List.range 18).findSome? fun (n : Nat) =>
      (candidate? mantissa exponent (decimalMagnitude mantissa exponent - n)).map fun d =>
        (d, decimalMagnitude mantissa exponent - n) with
  | none => exact h
  | some found =>
    obtain ⟨n, -, hn⟩ := List.exists_of_findSome?_eq_some hfound
    obtain ⟨digits, hdigits, rfl⟩ := Option.map_eq_some_iff.mp hn
    exact candidate?_ne_zero hdigits

/-- Nor are they when the zeros at their end are dropped. -/
theorem dropZeros_ne_zero {digits : Nat} (h : digits ≠ 0) (fuel : Nat) (scale : Int) :
    (dropZeros fuel digits scale).1 ≠ 0 := by
  induction fuel generalizing digits scale with
  | zero => exact h
  | succ fuel ih =>
    rw [dropZeros]
    split
    · rename_i hzero
      exact ih (by omega) _
    · exact h

end Binary64

namespace Json

/-! ## Decimals -/

/-- A row of decimal digits. -/
def IsDigits (cs : List Char) : Prop :=
  ∀ c ∈ cs, c.isDigit = true

/-- The parts of a decimal that has a fraction, an exponent or both. -/
structure Decimal where
  /-- The first digit before the point. -/
  first : Char
  /-- The other digits before the point. -/
  others : List Char
  /-- The digits behind the point; without any there is no point. -/
  fraction : List Char
  /-- The digits of the exponent, and whether it is negative. -/
  exponent : Option (Bool × List Char)
  isDigits_whole : IsDigits (first :: others)
  /-- Only a single zero stands in front. -/
  leading : first = '0' → others = []
  isDigits_fraction : IsDigits fraction
  isDigits_exponent : ∀ e ∈ exponent, e.2 ≠ [] ∧ IsDigits e.2
  isBroken : fraction ≠ [] ∨ exponent ≠ none

namespace Decimal

variable (d : Decimal)

/-- The point and the digits behind it. -/
def fractionText : List Char :=
  if d.fraction = [] then [] else '.' :: d.fraction

/-- The letter, the sign and the digits of the exponent. -/
def exponentText : List Char :=
  d.exponent.elim [] fun e => 'e' :: (if e.1 then '-' else '+') :: e.2

/-- The text of the decimal. -/
def text : List Char :=
  d.first :: (d.others ++ (d.fractionText ++ d.exponentText))

/-- The exponent as a number. -/
def exponentValue : Option Int :=
  d.exponent.map fun e =>
    if e.1 then -(Text.natOfDigits e.2 : Int) else (Text.natOfDigits e.2 : Int)

/-- The binary64 number that the decimal is read as, behind a sign. -/
def value (negative : Bool) : Binary64 :=
  Binary64.ofDecimal negative (Text.natOfDigits ((d.first :: d.others) ++ d.fraction))
    (d.exponentValue.getD 0 - d.fraction.length)

end Decimal

/-! ## Reading decimals -/

namespace Decimal

variable (d : Decimal) {rest : List Char}

/-- The exponent is read as it was written. -/
theorem spanExponent_exponentText (hrest : EndsNumber rest) :
    spanExponent (d.exponentText ++ rest) = (d.exponentValue, rest) := by
  unfold exponentText exponentValue
  cases hexponent : d.exponent with
  | none => exact hrest.spanExponent
  | some e =>
    obtain ⟨hne, hdigits⟩ := d.isDigits_exponent e hexponent
    have hspan := spanDigits_append hdigits fun c hc => (hrest c hc).1
    have hempty : e.2.isEmpty = false := List.isEmpty_eq_false_iff.mpr hne
    obtain ⟨negative, digits⟩ := e
    cases negative <;> simp [spanExponent, hspan, hempty]

/-- Neither a digit nor a point follows the digits of a fraction. -/
theorem head?_exponentText (hrest : EndsNumber rest) :
    ∀ c ∈ (d.exponentText ++ rest).head?, c.isDigit = false ∧ c ≠ '.' := by
  unfold exponentText
  cases d.exponent with
  | none => exact fun c hc => ⟨(hrest c hc).1, (hrest c hc).2.1⟩
  | some e =>
    intro c hc
    cases hc
    decide

/-- So are the digits of the fraction. -/
theorem spanFraction_fractionText (hrest : EndsNumber rest) :
    spanFraction (d.fractionText ++ (d.exponentText ++ rest))
      = (d.fraction, d.exponentText ++ rest) := by
  have hhead := d.head?_exponentText hrest
  unfold fractionText
  by_cases hfraction : d.fraction = []
  · rw [if_pos hfraction, hfraction, List.nil_append]
    generalize d.exponentText ++ rest = tail at hhead
    unfold spanFraction
    split
    · exact absurd rfl (hhead '.' rfl).2
    · rfl
  · have hspan := spanDigits_append d.isDigits_fraction fun c hc => (hhead c hc).1
    have hempty : d.fraction.isEmpty = false := List.isEmpty_eq_false_iff.mpr hfraction
    rw [if_neg hfraction, List.cons_append]
    simp [spanFraction, hspan, hempty]

/-- So are the digits in front, since no further digit follows a zero. -/
theorem spanWhole_text (hrest : EndsNumber rest) :
    spanWhole (d.text ++ rest)
      = (d.first :: d.others, d.fractionText ++ (d.exponentText ++ rest)) := by
  have hstop : ∀ c ∈ (d.fractionText ++ (d.exponentText ++ rest)).head?, c.isDigit = false := by
    unfold fractionText
    split
    · exact fun c hc => (d.head?_exponentText hrest c hc).1
    · intro c hc
      cases hc
      rfl
  have hspan := spanDigits_append d.isDigits_whole hstop
  have htext : d.text ++ rest
      = d.first :: (d.others ++ (d.fractionText ++ (d.exponentText ++ rest))) := by
    simp [text]
  rw [htext]
  unfold spanWhole
  split
  · rename_i hzero
    obtain ⟨hfirst, rfl⟩ := List.cons.inj hzero
    rw [d.leading hfirst, hfirst]
    rfl
  · exact hspan

end Decimal

/-- A decimal with a fraction or an exponent is read as a binary64 number. -/
theorem readNumber?_decimal (d : Decimal) {cs rest : List Char} {negative : Bool}
    (hsign : splitSign cs = (negative, d.text ++ rest)) (hrest : EndsNumber rest) :
    readNumber? cs = some (.ok (.float (d.value negative), rest)) := by
  have hbroken : (d.fraction.isEmpty && d.exponentValue.isNone) = false := by
    rw [Bool.and_eq_false_iff, List.isEmpty_eq_false_iff]
    refine d.isBroken.imp id fun hexponent => ?_
    cases h : d.exponent with
    | none => exact absurd h hexponent
    | some e => simp [Decimal.exponentValue, h]
  simp only [readNumber?, hsign, d.spanWhole_text hrest, d.spanFraction_fractionText hrest,
    d.spanExponent_exponentText hrest, hbroken]
  rfl

/-! ## Written numbers -/

/-- A number is written in digits. -/
theorem isDigits_toDigits (n : Nat) : IsDigits (Nat.toDigits 10 n) :=
  fun _ hc => Nat.isDigit_of_mem_toDigits (by decide) (by decide) hc

/-- Zeros are digits. -/
theorem isDigits_zeros (n : Nat) : IsDigits (List.replicate n '0') := by
  intro c hc
  rw [List.eq_of_mem_replicate hc]
  rfl

/-- Digits side by side are digits. -/
theorem IsDigits.append {cs ds : List Char} (hcs : IsDigits cs) (hds : IsDigits ds) :
    IsDigits (cs ++ ds) := fun c hc =>
  (List.mem_append.mp hc).elim (hcs c) (hds c)

/-- The first ones of some digits are digits. -/
theorem IsDigits.take {cs : List Char} (h : IsDigits cs) (n : Nat) : IsDigits (cs.take n) :=
  fun c hc => h c (List.mem_of_mem_take hc)

/-- So are the others. -/
theorem IsDigits.drop {cs : List Char} (h : IsDigits cs) (n : Nat) : IsDigits (cs.drop n) :=
  fun c hc => h c (List.mem_of_mem_drop hc)

/-- A number other than zero is written from a digit other than zero on. -/
theorem exists_toDigits_of_ne_zero {n : Nat} (h : n ≠ 0) :
    ∃ d ds, Nat.toDigits 10 n = d :: ds ∧ d ≠ '0' := by
  obtain ⟨d, ds, hdigits, -⟩ := exists_toDigits_eq_cons n
  refine ⟨d, ds, hdigits, ?_⟩
  rintro rfl
  exact h (Text.toDigits_eq_zero_cons hdigits).1

/-- Digits with a point between them are a decimal. -/
theorem exists_decimal_of_point {first : Char} {others fraction : List Char}
    (hwhole : IsDigits (first :: others)) (hleading : first = '0' → others = [])
    (hfraction : IsDigits fraction) (hne : fraction ≠ []) :
    ∃ d : Decimal, first :: (others ++ '.' :: fraction) = d.text := by
  refine ⟨{
    first, others, fraction
    exponent := none
    isDigits_whole := hwhole
    leading := hleading
    isDigits_fraction := hfraction
    isDigits_exponent := nofun
    isBroken := .inl hne }, ?_⟩
  simp [Decimal.text, Decimal.fractionText, Decimal.exponentText, hne]

/-- A digit and an exponent are a decimal, with or without further digits between them. -/
theorem exists_decimal_of_exponent {first : Char} {fraction exponent : List Char}
    (hdigits : IsDigits (first :: fraction)) (negative : Bool) (hexponent : IsDigits exponent)
    (hne : exponent ≠ []) :
    ∃ d : Decimal, first :: ((if fraction = [] then [] else '.' :: fraction) ++
      'e' :: (if negative then '-' else '+') :: exponent) = d.text := by
  refine ⟨{
    first, fraction
    others := []
    exponent := some (negative, exponent)
    isDigits_whole := hdigits.take 1
    leading := fun _ => rfl
    isDigits_fraction := hdigits.drop 1
    isDigits_exponent := fun e he => Option.some.inj he ▸ ⟨hne, hexponent⟩
    isBroken := .inr nofun }, ?_⟩
  simp [Decimal.text, Decimal.fractionText, Decimal.exponentText]

/-- A number that is filled up with zeros is written in digits. -/
theorem isDigits_natTextPadded (width n : Nat) :
    IsDigits (Text.natTextPadded width n).toList ∧ (Text.natTextPadded width n).toList ≠ [] := by
  rw [Text.natTextPadded, String.toList_ofList]
  exact ⟨(isDigits_zeros _).append (isDigits_toDigits _),
    List.append_ne_nil_of_right_ne_nil _ Nat.toDigits_ne_nil⟩

/-- A positive number is written as a decimal with a fraction or an exponent. -/
theorem exists_decimal_positiveText {mantissa : Nat} (h : mantissa ≠ 0) (exponent : Int) :
    ∃ d : Decimal, (Binary64.positiveText mantissa exponent).toList = d.text := by
  unfold Binary64.positiveText
  have hdigits := Binary64.dropZeros_ne_zero (Binary64.shortest_ne_zero h exponent)
    400 (Binary64.shortest mantissa exponent).2
  generalize Binary64.shortest mantissa exponent = found at hdigits
  obtain ⟨digits, scale⟩ := found
  dsimp only at hdigits ⊢
  generalize Binary64.dropZeros 400 digits scale = found at hdigits
  obtain ⟨digits, scale⟩ := found
  dsimp only at hdigits ⊢
  obtain ⟨first, others, hrow, hfirst⟩ := exists_toDigits_of_ne_zero hdigits
  have hall := isDigits_toDigits digits
  rw [hrow] at hall ⊢
  generalize ((first :: others).length : Int) + scale = point
  split
  · split
    · -- All digits stand behind the point.
      have hdecimal := exists_decimal_of_point (isDigits_zeros 1) (fun _ => rfl)
        ((isDigits_zeros (-point).toNat).append hall) (by simp)
      simpa using hdecimal
    · rename_i hpositive
      split
      · -- All digits stand before the point.
        have hdecimal := exists_decimal_of_point
          (hall.append (isDigits_zeros (point.toNat - (first :: others).length)))
          (fun hzero => absurd hzero hfirst) (isDigits_zeros 1) (by simp)
        simpa using hdecimal
      · rename_i hlength
        obtain ⟨k, hk⟩ : ∃ k, point.toNat = k + 1 := ⟨point.toNat - 1, by omega⟩
        rw [hk, List.length_cons] at hlength
        have hbehind : others.drop k ≠ [] := by
          rw [Ne, List.drop_eq_nil_iff]
          omega
        have hdecimal := exists_decimal_of_point (hall.take (k + 1))
          (fun hzero => absurd hzero hfirst) (hall.drop (k + 1)) hbehind
        simpa [hk] using hdecimal
  · -- One digit stands before the point, if there is one.
    generalize point - 1 = power
    obtain ⟨hexponent, hne⟩ := isDigits_natTextPadded 2 power.natAbs
    have hdecimal := exists_decimal_of_exponent hall (decide (power < 0)) hexponent hne
    have hsign : (if power < 0 then "-" else "+").toList
        = [if power < 0 then '-' else '+'] := by split <;> rfl
    cases others <;> simpa [hsign] using hdecimal

/-- A finite number is written as a decimal behind its sign. -/
theorem exists_decimal_text (negative : Bool) (mantissa : Nat) (exponent : Int) :
    ∃ d : Decimal, (Binary64.text (.finite negative mantissa exponent)).toList
      = (if negative then ['-'] else []) ++ d.text := by
  have hsign : (if negative = true then "-" else "").toList
      = if negative = true then ['-'] else [] := by cases negative <;> rfl
  rw [Binary64.text, String.toList_append, hsign]
  by_cases h : mantissa = 0
  · obtain ⟨d, hd⟩ := exists_decimal_of_point (isDigits_zeros 1) (fun _ => rfl) (isDigits_zeros 1)
      (by simp)
    exact ⟨d, by rw [if_pos h, ← hd]; rfl⟩
  · obtain ⟨d, hd⟩ := exists_decimal_positiveText h exponent
    exact ⟨d, by rw [if_neg h, hd]⟩

end Json

end VirtualShell
