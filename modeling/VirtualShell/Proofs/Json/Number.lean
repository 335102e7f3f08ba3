import VirtualShell.Json.Reader
import VirtualShell.Json.Writer
import VirtualShell.Proofs.Text.Digits

/-!
# Whole numbers in documents

A written whole number is read back, as long as it has no more digits than numbers may have and what
follows it cannot be taken for a part of it.
-/

namespace VirtualShell.Json

/-- What can follow a number without becoming a part of it. -/
def EndsNumber (rest : List Char) : Prop :=
  ∀ c ∈ rest.head?, c.isDigit = false ∧ c ≠ '.' ∧ c ≠ 'e' ∧ c ≠ 'E'

theorem endsNumber_nil : EndsNumber [] :=
  nofun

theorem endsNumber_cons {c : Char} (rest : List Char)
    (h : c.isDigit = false ∧ c ≠ '.' ∧ c ≠ 'e' ∧ c ≠ 'E') : EndsNumber (c :: rest) := by
  intro d hd
  cases hd
  exact h

/-- Digits are read up to the first character that is none. -/
theorem spanDigits_append {digits rest : List Char} (hdigits : ∀ c ∈ digits, c.isDigit = true)
    (hrest : ∀ c ∈ rest.head?, c.isDigit = false) :
    spanDigits (digits ++ rest) = (digits, rest) := by
  have hstop : rest.takeWhile Char.isDigit = [] ∧ rest.dropWhile Char.isDigit = rest := by
    cases rest with
    | nil => exact ⟨rfl, rfl⟩
    | cons c tail =>
      rw [List.takeWhile_cons, List.dropWhile_cons, hrest c rfl]
      exact ⟨rfl, rfl⟩
  rw [spanDigits, List.takeWhile_append_of_pos hdigits, List.dropWhile_append_of_pos hdigits,
    hstop.1, hstop.2, List.append_nil]

/-- They are read up to the end of the number. -/
theorem EndsNumber.spanDigits {rest : List Char} (h : EndsNumber rest) {digits : List Char}
    (hdigits : ∀ c ∈ digits, c.isDigit = true) : spanDigits (digits ++ rest) = (digits, rest) :=
  spanDigits_append hdigits fun c hc => (h c hc).1

/-- Where a number ends, no fraction begins. -/
theorem EndsNumber.spanFraction {rest : List Char} (h : EndsNumber rest) :
    spanFraction rest = ([], rest) := by
  unfold Json.spanFraction
  split
  · exact absurd rfl (h '.' rfl).2.1
  · rfl

/-- Nor does an exponent. -/
theorem EndsNumber.spanExponent {rest : List Char} (h : EndsNumber rest) :
    spanExponent rest = (none, rest) := by
  cases rest with
  | nil => rfl
  | cons c tail =>
    obtain ⟨-, -, he, hE⟩ := h c rfl
    unfold Json.spanExponent
    exact if_neg (not_or.mpr ⟨he, hE⟩)

/-- The first character of a written number is a digit. -/
theorem exists_toDigits_eq_cons (n : Nat) :
    ∃ d ds, Nat.toDigits 10 n = d :: ds ∧ d.isDigit = true := by
  cases hdigits : Nat.toDigits 10 n with
  | nil => exact absurd hdigits Nat.toDigits_ne_nil
  | cons d ds =>
    have hmem : d ∈ Nat.toDigits 10 n := hdigits ▸ List.mem_cons_self
    exact ⟨d, ds, rfl, Nat.isDigit_of_mem_toDigits (by decide) (by decide) hmem⟩

/-- The digits of a number are taken as a whole. -/
theorem spanWhole_toDigits (n : Nat) {rest : List Char} (hrest : EndsNumber rest) :
    spanWhole (Nat.toDigits 10 n ++ rest) = (Nat.toDigits 10 n, rest) := by
  have hspan : spanDigits (Nat.toDigits 10 n ++ rest) = (Nat.toDigits 10 n, rest) :=
    hrest.spanDigits fun c hc => Nat.isDigit_of_mem_toDigits (by decide) (by decide) hc
  obtain ⟨d, ds, hdigits, -⟩ := exists_toDigits_eq_cons n
  rw [hdigits] at hspan ⊢
  unfold spanWhole
  split
  · rename_i h
    rw [(List.cons.inj h).1] at hdigits
    obtain ⟨-, rfl⟩ := Text.toDigits_eq_zero_cons hdigits
    cases h
    rfl
  · exact hspan

/-- A number without a sign is read without one. -/
theorem splitSign_toDigits (n : Nat) (rest : List Char) :
    splitSign (Nat.toDigits 10 n ++ rest) = (false, Nat.toDigits 10 n ++ rest) := by
  obtain ⟨d, ds, hdigits, hd⟩ := exists_toDigits_eq_cons n
  unfold splitSign
  split
  · rename_i h
    rw [hdigits] at h
    rw [(List.cons.inj h).1] at hd
    cases hd
  · rfl

/-- A number is read behind its sign. -/
theorem readNumber?_of_splitSign {cs rest : List Char} {negative : Bool} {n : Nat}
    (hsign : splitSign cs = (negative, Nat.toDigits 10 n ++ rest))
    (hn : (Nat.toDigits 10 n).length ≤ Text.maxDigits) (hrest : EndsNumber rest) :
    readNumber? cs = some (.ok (.int (if negative then -(n : Int) else n), rest)) := by
  have hempty : (Nat.toDigits 10 n).isEmpty = false :=
    List.isEmpty_eq_false_iff.mpr Nat.toDigits_ne_nil
  simp only [readNumber?, hsign, spanWhole_toDigits n hrest, hempty, hrest.spanFraction,
    hrest.spanExponent, Text.readNat_toDigits hn]
  rfl

/-- The number of digits of a whole number is one that can be read. -/
def IsShort (n : Int) : Prop :=
  (Nat.toDigits 10 n.natAbs).length ≤ Text.maxDigits

/-- A written whole number is read again. -/
theorem readNumber?_intText {n : Int} (hn : IsShort n) {rest : List Char}
    (hrest : EndsNumber rest) :
    readNumber? ((Text.intText n).toList ++ rest) = some (.ok (.int n, rest)) := by
  cases n with
  | ofNat n =>
    rw [Text.intText, Text.natText, String.toList_ofList]
    exact readNumber?_of_splitSign (splitSign_toDigits n rest) hn hrest
  | negSucc n =>
    have htext : (Text.intText (.negSucc n)).toList = '-' :: Nat.toDigits 10 (n + 1) := by
      simp [Text.intText, Text.natText]
    have hsign : splitSign ('-' :: Nat.toDigits 10 (n + 1) ++ rest)
        = (true, Nat.toDigits 10 (n + 1) ++ rest) := rfl
    rw [htext]
    exact readNumber?_of_splitSign hsign hn hrest

end VirtualShell.Json
