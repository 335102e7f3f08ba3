import VirtualShell.Text.Number
import Mathlib.Algebra.Group.Nat.Defs
import Mathlib.Data.List.TakeWhile

/-!
# Decimal digits

The digits in which a number is written are read as that number again, as long as there are not too
many of them. Only zero is written with a zero in front, and different numbers are written
differently.
-/

namespace VirtualShell.Text

/-- The digit of a number below ten has that value. -/
theorem digitValue?_digitChar {d : Nat} (h : d < 10) : digitValue? d.digitChar = some d := by
  have hall : ∀ d < 10, digitValue? (Nat.digitChar d) = some d := by decide
  exact hall d h

/-- An ASCII digit is a decimal digit. -/
theorem isDecimal_of_isDigit {c : Char} (h : c.isDigit = true) : isDecimal c = true := by
  have hrange : 0x30 ≤ c.toNat ∧ c.toNat ≤ 0x39 := Char.isDigit_iff_toNat.mp h
  rw [isDecimal, digitValue?, decimalZeros, List.find?_cons_of_pos]
  · rfl
  · simp only [Bool.and_eq_true, decide_eq_true_eq]
    exact hrange

/-- Numbers are written in decimal digits. -/
theorem isDecimal_of_mem_toDigits {n : Nat} {c : Char} (h : c ∈ Nat.toDigits 10 n) :
    isDecimal c = true :=
  isDecimal_of_isDigit (Nat.isDigit_of_mem_toDigits (by decide) (by decide) h)

/-- A further digit multiplies by ten and adds its value. -/
theorem natOfDigits_append_singleton (cs : List Char) {d : Nat} (h : d < 10) :
    natOfDigits (cs ++ [d.digitChar]) = 10 * natOfDigits cs + d := by
  rw [natOfDigits, List.foldl_append, List.foldl_cons, List.foldl_nil, digitValue?_digitChar h]
  rfl

/-- The digits of a number are read as the number. -/
theorem natOfDigits_toDigits (n : Nat) : natOfDigits (Nat.toDigits 10 n) = n := by
  induction n using Nat.strongRecOn with
  | ind n ih =>
    rw [Nat.toDigits_eq_if (by decide)]
    split
    · rename_i h
      rw [← List.nil_append [n.digitChar], natOfDigits_append_singleton [] h]
      exact Nat.zero_add n
    · rename_i h
      rw [natOfDigits_append_singleton _ (Nat.mod_lt n (by decide)), ih (n / 10) (by omega)]
      omega

/-- Only a row of decimal digits is read as a number, and only if there are not too many of them. -/
theorem exists_readNat_iff {cs : List Char} :
    (∃ n, readNat cs = .ok n) ↔ cs ≠ [] ∧ cs.all isDecimal = true ∧ cs.length ≤ maxDigits := by
  constructor
  · rintro ⟨n, hn⟩
    unfold readNat at hn
    dsimp only at hn
    split at hn
    · cases hn
    rename_i hshort
    split at hn
    · cases hn
    rename_i hwhole
    rw [Bool.or_eq_true, not_or, bne_iff_ne, not_not] at hwhole
    have hall : cs.takeWhile isDecimal = cs :=
      (List.takeWhile_prefix _).eq_of_length hwhole.2
    rw [hall] at hshort hwhole
    refine ⟨fun hnil => hwhole.1 (List.isEmpty_iff.mpr hnil), ?_, Nat.not_lt.mp hshort⟩
    exact List.all_eq_true.mpr (List.takeWhile_eq_self_iff.mp hall)
  · rintro ⟨hne, hall, hlength⟩
    have htake : cs.takeWhile isDecimal = cs :=
      List.takeWhile_eq_self_iff.mpr (List.all_eq_true.mp hall)
    have hempty : cs.isEmpty = false := List.isEmpty_eq_false_iff.mpr hne
    rw [readNat, htake, if_neg (Nat.not_lt.mpr hlength), hempty, if_neg (by simp)]
    exact ⟨_, rfl⟩

/-- A written number is read again, unless it has too many digits. -/
theorem readNat_toDigits {n : Nat} (h : (Nat.toDigits 10 n).length ≤ maxDigits) :
    readNat (Nat.toDigits 10 n) = .ok n := by
  have hall : (Nat.toDigits 10 n).takeWhile isDecimal = Nat.toDigits 10 n :=
    List.takeWhile_eq_self_iff.mpr fun c hc => isDecimal_of_mem_toDigits hc
  have hempty : (Nat.toDigits 10 n).isEmpty = false :=
    List.isEmpty_eq_false_iff.mpr Nat.toDigits_ne_nil
  rw [readNat, hall, if_neg (Nat.not_lt.mpr h), hempty, if_neg (by simp), natOfDigits_toDigits]

/-- Only zero has a zero in front. -/
theorem toDigits_eq_zero_cons {n : Nat} {rest : List Char}
    (h : Nat.toDigits 10 n = '0' :: rest) : n = 0 ∧ rest = [] := by
  induction n using Nat.strongRecOn generalizing rest with
  | ind n ih =>
    rw [Nat.toDigits_eq_if (by decide)] at h
    split at h
    · rename_i hlt
      obtain ⟨hhead, htail⟩ := List.cons.inj h
      refine ⟨?_, htail.symm⟩
      have hvalue := digitValue?_digitChar hlt
      rw [hhead] at hvalue
      exact (Option.some.inj hvalue).symm
    · rename_i hge
      cases hfront : Nat.toDigits 10 (n / 10) with
      | nil => exact absurd hfront Nat.toDigits_ne_nil
      | cons first others =>
        rw [hfront, List.cons_append] at h
        rw [(List.cons.inj h).1] at hfront
        have := (ih (n / 10) (by omega) hfront).1
        omega

/-- A number below a power of ten has no more digits than that. -/
theorem length_toDigits_le {n : Nat} (h : n < 10 ^ maxDigits) :
    (Nat.toDigits 10 n).length ≤ maxDigits :=
  (Nat.length_toDigits_le_iff (by decide) (by decide)).mpr h

/-! ## Written numbers -/

/-- Different numbers are written differently. -/
theorem natText_injective {m n : Nat} (h : natText m = natText n) : m = n := by
  have hdigits : Nat.toDigits 10 m = Nat.toDigits 10 n := by
    simpa [natText] using congrArg String.toList h
  rw [← natOfDigits_toDigits m, hdigits, natOfDigits_toDigits]

/-- A number is written in ASCII digits. -/
theorem isDigit_of_mem_natText {n : Nat} {c : Char} (h : c ∈ (natText n).toList) :
    c.isDigit = true := by
  rw [natText, String.toList_ofList] at h
  exact Nat.isDigit_of_mem_toDigits (by decide) (by decide) h

/-- A number is written in digits, behind a minus sign if it is negative. -/
theorem notMem_intText {c : Char} (hsign : c ≠ '-') (hdigit : c.isDigit = false) (n : Int) :
    c ∉ (intText n).toList := by
  have hdigits (n : Nat) : c ∉ (natText n).toList := by
    intro h
    rw [isDigit_of_mem_natText h] at hdigit
    cases hdigit
  cases n with
  | ofNat n => exact hdigits n
  | negSucc n =>
    rw [intText, String.toList_append, List.mem_append, not_or]
    exact ⟨fun h => hsign (List.mem_singleton.mp h), hdigits (n + 1)⟩

/-- A number is not written with a minus sign in front. -/
theorem natText_ne_minus (m n : Nat) : natText m ≠ "-" ++ natText n := by
  intro h
  have hminus : '-' ∈ (natText m).toList := by
    rw [h, String.toList_append]
    exact List.mem_append_left _ (List.mem_singleton_self _)
  exact absurd (isDigit_of_mem_natText hminus) (by decide)

/-- Different numbers are written differently. -/
theorem intText_injective {m n : Int} (h : intText m = intText n) : m = n := by
  cases m with
  | ofNat m =>
    cases n with
    | ofNat n => exact congrArg Int.ofNat (natText_injective h)
    | negSucc n => exact absurd h (natText_ne_minus m (n + 1))
  | negSucc m =>
    cases n with
    | ofNat n => exact absurd h.symm (natText_ne_minus n (m + 1))
    | negSucc n =>
      have hdigits : natText (m + 1) = natText (n + 1) := (String.append_right_inj "-").mp h
      exact congrArg Int.negSucc (Nat.succ.inj (natText_injective hdigits))

end VirtualShell.Text
