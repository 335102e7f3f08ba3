import VirtualShell.Text.Base64

/-!
# Reading Base64 that was written

Three bytes are written as four characters of the alphabet, and one or two bytes at the end with
padding behind them. The reader takes six bits from a character and gives a byte out as soon as it
has eight (`run_digit`), so behind every group of four characters it stands where it stood before,
with three bytes more (`run_encode`). What is written is read again (`decode?_encode`), and it
holds no character that is neither of the alphabet nor the padding sign (`written_of_mem_encode`).
-/

namespace VirtualShell.Text.Base64

/-! ## The alphabet -/

/-- A digit has the value that it was made from. -/
theorem value?_digit {n : Nat} (h : n < 64) : value? (digit n) = some n := by
  have hall : ∀ n < 64, value? (digit n) = some n := by decide
  exact hall n h

/-- A character that can stand in a text that was written: one of the alphabet, or the padding
sign. -/
def IsWritten (c : Char) : Prop :=
  c = '=' ∨ (value? c).isSome = true

/-- Every digit is a character that may be written. -/
theorem isWritten_digit {n : Nat} (h : n < 64) : IsWritten (digit n) := by
  right
  rw [value?_digit h]
  rfl

/-- No colon is written. -/
theorem IsWritten.ne_colon {c : Char} (h : IsWritten c) : c ≠ ':' := by
  rintro rfl
  rcases h with h | h
  · exact absurd h (by decide)
  · exact absurd h (by decide)

/-- The alphabet and the padding sign are characters of ASCII. -/
theorem IsWritten.toNat_lt {c : Char} (h : IsWritten c) : c.toNat < 0x80 := by
  rcases h with rfl | h
  · decide
  · have hle {first last : Char} (hc : first ≤ c ∧ c ≤ last) (hlast : last.toNat < 0x80) :
        c.toNat < 0x80 := by
      have hval : c.toNat ≤ last.toNat := hc.2
      omega
    rw [value?] at h
    split at h
    · rename_i hc
      exact hle hc (by decide)
    split at h
    · rename_i hc
      exact hle hc (by decide)
    split at h
    · rename_i hc
      exact hle hc (by decide)
    split at h
    · rename_i hc
      rw [hc]
      decide
    split at h
    · rename_i hc
      rw [hc]
      decide
    · cases h

/-! ## What is written -/

/-- What is already written stands in front. -/
theorem encodeOnto_eq (done : List Char) (bytes : List Nat) :
    encodeOnto done bytes = done.reverse ++ encode bytes := by
  have hall : ∀ front back, encodeOnto (back ++ front) bytes
      = front.reverse ++ encodeOnto back bytes := by
    intro front back
    fun_induction encodeOnto back bytes with
    | case1 back a b c rest ih => exact ih
    | case2 back a b => simp [encodeOnto]
    | case3 back a => simp [encodeOnto]
    | case4 back => simp [encodeOnto]
  exact hall done []

/-- A group of three bytes is written in front of the others. -/
theorem encode_cons (a b c : Nat) (rest : List Nat) :
    encode (a :: b :: c :: rest)
      = digit (a / 4) :: digit (a % 4 * 16 + b / 16) :: digit (b % 16 * 4 + c / 64)
        :: digit (c % 64) :: encode rest := by
  rw [encode, encodeOnto, encodeOnto_eq]
  rfl

/-- Nothing is written but characters of the alphabet and the padding sign. -/
theorem written_of_mem_encode : ∀ {bytes : List Nat}, (∀ b ∈ bytes, b < 256) →
    ∀ sign ∈ encode bytes, IsWritten sign
  | a :: b :: c :: rest, h, sign, hsign => by
    simp only [List.forall_mem_cons] at h
    obtain ⟨ha, hb, hc, hrest⟩ := h
    rw [encode_cons] at hsign
    simp only [List.mem_cons] at hsign
    rcases hsign with rfl | rfl | rfl | rfl | hsign
    · exact isWritten_digit (by omega)
    · exact isWritten_digit (by omega)
    · exact isWritten_digit (by omega)
    · exact isWritten_digit (by omega)
    · exact written_of_mem_encode hrest sign hsign
  | [a, b], h, sign, hsign => by
    simp only [List.forall_mem_cons] at h
    obtain ⟨ha, hb, -⟩ := h
    simp only [encode, encodeOnto, List.mem_reverse, List.mem_cons, List.not_mem_nil, or_false]
      at hsign
    rcases hsign with rfl | rfl | rfl | rfl
    · exact .inl rfl
    · exact isWritten_digit (by omega)
    · exact isWritten_digit (by omega)
    · exact isWritten_digit (by omega)
  | [a], h, sign, hsign => by
    have ha : a < 256 := h a (List.mem_singleton_self a)
    simp only [encode, encodeOnto, List.mem_reverse, List.mem_cons, List.not_mem_nil, or_false]
      at hsign
    rcases hsign with rfl | rfl | rfl | rfl
    · exact .inl rfl
    · exact .inl rfl
    · exact isWritten_digit (by omega)
    · exact isWritten_digit (by omega)
  | [], _, _, hsign => absurd hsign List.not_mem_nil

/-! ## Reading -/

/-- Reading takes the value of a digit. -/
theorem run_digit (r : Reading) {n : Nat} (h : n < 64) (cs : List Char) :
    r.run (digit n :: cs) = (r.take n).run cs := by
  have hpad : digit n ≠ '=' := by
    intro heq
    have hvalue := value?_digit h
    rw [heq] at hvalue
    cases hvalue
  rw [Reading.run, if_neg hpad, value?_digit h]

/-- Between two groups the reader keeps nothing but the bytes, and it goes on behind the next group
with three bytes more. -/
theorem run_encode (done : List Nat) : ∀ {bytes : List Nat}, (∀ b ∈ bytes, b < 256) →
    Reading.run { done } (encode bytes) = some (done.reverse ++ bytes)
  | a :: b :: c :: rest, h => by
    simp only [List.forall_mem_cons] at h
    obtain ⟨ha, hb, hc, hrest⟩ := h
    have hfirst : a / 4 * 4 + (a % 4 * 16 + b / 16) / 16 = a := by omega
    have hsecond : (a % 4 * 16 + b / 16) % 16 * 16 + (b % 16 * 4 + c / 64) / 4 = b := by omega
    have hthird : (b % 16 * 4 + c / 64) % 4 * 64 + c % 64 = c := by omega
    have hgroup : ((((Reading.mk 0 0 0 done).take (a / 4)).take (a % 4 * 16 + b / 16)).take
        (b % 16 * 4 + c / 64)).take (c % 64) = { done := c :: b :: a :: done } := by
      simp only [Reading.take, hfirst, hsecond, hthird]
    rw [encode_cons, run_digit _ (by omega), run_digit _ (by omega), run_digit _ (by omega),
      run_digit _ (by omega), hgroup, run_encode _ hrest]
    simp
  | [a, b], h => by
    simp only [List.forall_mem_cons] at h
    obtain ⟨ha, hb, -⟩ := h
    have hfirst : a / 4 * 4 + (a % 4 * 16 + b / 16) / 16 = a := by omega
    have hsecond : (a % 4 * 16 + b / 16) % 16 * 16 + b % 16 * 4 / 4 = b := by omega
    have hgroup : (((Reading.mk 0 0 0 done).take (a / 4)).take (a % 4 * 16 + b / 16)).take
        (b % 16 * 4) = { place := 3, left := b % 16 * 4 % 4, done := b :: a :: done } := by
      simp only [Reading.take, hfirst, hsecond]
    show Reading.run { done } [digit (a / 4), digit (a % 4 * 16 + b / 16), digit (b % 16 * 4), '=']
      = _
    rw [run_digit _ (by omega), run_digit _ (by omega), run_digit _ (by omega), hgroup]
    simp [Reading.run]
  | [a], h => by
    have ha : a < 256 := h a (List.mem_singleton_self a)
    have hfirst : a / 4 * 4 + a % 4 * 16 / 16 = a := by omega
    have hgroup : ((Reading.mk 0 0 0 done).take (a / 4)).take (a % 4 * 16)
        = { place := 2, left := a % 4 * 16 % 16, done := a :: done } := by
      simp only [Reading.take, hfirst]
    show Reading.run { done } [digit (a / 4), digit (a % 4 * 16), '=', '='] = _
    rw [run_digit _ (by omega), run_digit _ (by omega), hgroup]
    simp [Reading.run]
  | [], _ => by simp [encode, encodeOnto, Reading.run]

/-- Bytes that were written are read again. -/
theorem decode?_encode {bytes : List Nat} (h : ∀ b ∈ bytes, b < 256) :
    decode? (encode bytes) = some bytes := by
  rw [decode?, run_encode [] h]
  rfl

end VirtualShell.Text.Base64
