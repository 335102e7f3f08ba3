import VirtualShell.Json.Reader
import VirtualShell.Json.Writer
import Mathlib.Data.List.TakeWhile

/-!
# Texts in documents

Every character of a written text is read back from its escape, so the text between two quotes is
read as the text that was written.
-/

namespace VirtualShell.Json

open Text (hexDigit hexDigits)

/-! ## Escapes by number -/

/-- A hexadecimal digit has the value that it was made from. -/
theorem hexValue?_hexDigit {d : Nat} (h : d < 16) : hexValue? (hexDigit d) = some d := by
  have hall : ∀ d < 16, hexValue? (hexDigit d) = some d := by decide
  exact hall d h

theorem hexDigits_four (n : Nat) : hexDigits 4 n =
    [hexDigit (n / 0x1000 % 16), hexDigit (n / 0x100 % 16), hexDigit (n / 0x10 % 16),
      hexDigit (n / 1 % 16)] := rfl

/-- The four digits of a unit are read as the unit. -/
theorem hexUnit?_hexDigit {n : Nat} (h : n < 0x10000) :
    hexUnit? (hexDigit (n / 0x1000 % 16)) (hexDigit (n / 0x100 % 16))
      (hexDigit (n / 0x10 % 16)) (hexDigit (n / 1 % 16)) = some n := by
  have hlt : ∀ m, m % 16 < 16 := fun m => Nat.mod_lt m (by decide)
  rw [hexUnit?, hexValue?_hexDigit (hlt _), hexValue?_hexDigit (hlt _), hexValue?_hexDigit (hlt _),
    hexValue?_hexDigit (hlt _)]
  change some _ = some n
  rw [Option.some.injEq]
  omega

/-- The code point of a character stands for the character. -/
theorem charOfCode_toNat (c : Char) : charOfCode c.toNat = c := by
  have hvalid : c.toNat.isValidChar := c.valid
  rw [charOfCode, if_pos hvalid, Char.ofNat_toNat]

/-- A unit that is no high surrogate stands for its own character. -/
theorem readUnits_single {n : Nat} (hn : n < 0x10000) (hsurrogate : n < 0xD800 ∨ 0xDC00 ≤ n)
    (x : Char) (rest : List Char) :
    readUnits (hexDigits 4 n ++ x :: rest) = .ok (charOfCode n, x :: rest) := by
  have hcond : ¬ (0xD800 ≤ n ∧ n < 0xDC00 ∧ x = '\\') := by omega
  rw [hexDigits_four]
  simp only [List.cons_append, List.nil_append, readUnits, hexUnit?_hexDigit hn, if_neg hcond]

/-- A high and a low surrogate stand for one character together. -/
theorem readUnits_pair {m : Nat} (hm : m < 0x100000) (x : Char) (rest : List Char) :
    readUnits (hexDigits 4 (0xD800 + m / 0x400) ++
        '\\' :: 'u' :: hexDigits 4 (0xDC00 + m % 0x400) ++ x :: rest)
      = .ok (charOfCode (0x10000 + m), x :: rest) := by
  have hhigh : 0xD800 + m / 0x400 < 0x10000 := by omega
  have hlow : 0xDC00 + m % 0x400 < 0x10000 := by omega
  have hfirst : 0xD800 ≤ 0xD800 + m / 0x400 ∧ 0xD800 + m / 0x400 < 0xDC00 ∧ True :=
    ⟨by omega, by omega, trivial⟩
  have hsecond : 0xDC00 ≤ 0xDC00 + m % 0x400 ∧ 0xDC00 + m % 0x400 < 0xE000 := by omega
  have hcode : 0x10000 + (0xD800 + m / 0x400 - 0xD800) * 0x400 + (0xDC00 + m % 0x400 - 0xDC00)
      = 0x10000 + m := by omega
  rw [hexDigits_four, hexDigits_four]
  simp only [List.cons_append, List.nil_append, readUnits, hexUnit?_hexDigit hhigh,
    hexUnit?_hexDigit hlow, if_pos hsecond, hcode]
  exact if_pos hfirst

/-- The escape of a character by its units is read as that character. -/
theorem readUnits_escapeUnits (c x : Char) (rest : List Char) :
    ∃ digits, escapeUnits c.toNat = '\\' :: 'u' :: digits ∧
      readUnits (digits ++ x :: rest) = .ok (c, x :: rest) := by
  have hvalid : c.toNat < 0xD800 ∨ 0xDFFF < c.toNat ∧ c.toNat < 0x110000 := c.valid
  unfold escapeUnits
  split
  · rename_i hsmall
    refine ⟨_, rfl, ?_⟩
    rw [readUnits_single hsmall (by omega), charOfCode_toNat]
  · rename_i hlarge
    refine ⟨hexDigits 4 (0xD800 + (c.toNat - 0x10000) / 0x400) ++
      '\\' :: 'u' :: hexDigits 4 (0xDC00 + (c.toNat - 0x10000) % 0x400), rfl, ?_⟩
    rw [readUnits_pair (by omega), Nat.add_sub_cancel' (by omega), charOfCode_toNat]

/-! ## Texts -/

/-- One written character is read in one step. -/
theorem readChars_escapeChar (opening done : List Char) (fuel : Nat) (c x : Char)
    (rest : List Char) :
    readChars opening (fuel + 1) done (escapeChar c ++ x :: rest)
      = readChars opening fuel (c :: done) (x :: rest) := by
  unfold escapeChar
  -- the seven characters that have a letter of their own
  iterate 7
    split
    · subst c
      rfl
  split
  · rename_i hquote hslash _ _ _ _ _ hprintable
    rw [List.singleton_append, readChars]
    · rw [if_neg (by omega)]
    · exact hquote
    · exact hslash
  · obtain ⟨digits, hdigits, hread⟩ := readUnits_escapeUnits c x rest
    rw [hdigits, List.cons_append, List.cons_append, readChars, hread]

/-- A written text is read up to its closing quote. -/
theorem readChars_write (opening done : List Char) (s : List Char) {fuel : Nat}
    (hfuel : s.length < fuel) (rest : List Char) :
    readChars opening fuel done (s.flatMap escapeChar ++ '"' :: rest)
      = .ok (String.ofList (done.reverse ++ s), rest) := by
  induction s generalizing done fuel with
  | nil =>
    obtain ⟨fuel, rfl⟩ : ∃ k, fuel = k + 1 := ⟨fuel - 1, by omega⟩
    rw [List.append_nil]
    rfl
  | cons c s ih =>
    obtain ⟨fuel, rfl⟩ : ∃ k, fuel = k + 1 := ⟨fuel - 1, by omega⟩
    rw [List.length_cons] at hfuel
    have hstep : ∃ x tail, s.flatMap escapeChar ++ '"' :: rest = x :: tail := by
      cases h : s.flatMap escapeChar ++ '"' :: rest with
      | nil => simp at h
      | cons x tail => exact ⟨x, tail, rfl⟩
    obtain ⟨x, tail, htail⟩ := hstep
    rw [List.flatMap_cons, List.append_assoc, htail, readChars_escapeChar, ← htail,
      ih (c :: done) (by omega)]
    simp

end VirtualShell.Json
