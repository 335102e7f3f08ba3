import VirtualShell.Tree.Codec
import VirtualShell.Proofs.Text.Digits
import VirtualShell.Proofs.Text.Filled

/-!
# Timestamps are read as they were written

The written form of a timestamp is ASCII, and each of its numbers has a fixed number of digits, so
the reader finds every part where it looks for it. As every timestamp exists, what it reads is one.
-/

namespace VirtualShell.Timestamp

/-! ## Numbers of fixed width -/

/-- The codes of characters. -/
def codes (cs : List Char) : List Nat :=
  cs.map Char.toNat

/-- The codes of a number in at least `width` digits. -/
def padded (width n : Nat) : List Nat :=
  codes (Text.natTextPadded width n).toList

/-- The code of a digit is that of zero and its value. -/
theorem toNat_digitChar {d : Nat} (h : d < 10) : d.digitChar.toNat = 0x30 + d := by
  have hall : ∀ d < 10, (Nat.digitChar d).toNat = 0x30 + d := by decide
  exact hall d h

/-- A number below ten is one digit. -/
theorem padded_one {n : Nat} (h : n < 10) : padded 1 n = [0x30 + n] := by
  rw [padded, Text.natTextPadded, String.toList_ofList, Nat.toDigits_of_lt_base h, codes]
  simp [toNat_digitChar h]

/-- The last digit of a padded number. -/
theorem padded_succ {width n : Nat} (hwidth : 0 < width) :
    padded (width + 1) n = padded width (n / 10) ++ [0x30 + n % 10] := by
  rw [padded, padded, Text.natTextPadded, Text.natTextPadded, String.toList_ofList,
    String.toList_ofList, Nat.toDigits_eq_if (by decide)]
  split
  · rename_i h
    have hzero : n / 10 = 0 := by omega
    obtain ⟨k, rfl⟩ : ∃ k, width = k + 1 := ⟨width - 1, by omega⟩
    rw [hzero, Nat.toDigits_zero, Nat.mod_eq_of_lt h]
    simp [codes, toNat_digitChar h, List.replicate_succ']
  · have hlast : n % 10 < 10 := Nat.mod_lt n (by decide)
    have hlength : width + 1 - (Nat.toDigits 10 (n / 10) ++ [(n % 10).digitChar]).length
        = width - (Nat.toDigits 10 (n / 10)).length := by
      rw [List.length_append, List.length_singleton]
      omega
    rw [hlength]
    simp [codes, toNat_digitChar hlast]

/-- A number that fits is written in as many digits as are asked for. -/
theorem length_padded {width n : Nat} (hwidth : 0 < width) (h : n < 10 ^ width) :
    (padded width n).length = width := by
  have hle := (Nat.length_toDigits_le_iff (by decide) hwidth).mpr h
  rw [padded, codes, List.length_map, Text.natTextPadded, String.toList_ofList, List.length_append,
    List.length_replicate]
  omega

/-- Digits, as bytes. -/
theorem isDigitByte_of_mem_padded {width n b : Nat} (h : b ∈ padded width n) :
    isDigitByte b = true := by
  rw [padded, codes, Text.natTextPadded, String.toList_ofList] at h
  obtain ⟨c, hc, rfl⟩ := List.mem_map.mp h
  have hdigit : c.isDigit = true := by
    rcases List.mem_append.mp hc with hzero | hdigits
    · rw [(List.mem_replicate.mp hzero).2]
      rfl
    · exact Nat.isDigit_of_mem_toDigits (by decide) (by decide) hdigits
  have hrange : 0x30 ≤ c.toNat ∧ c.toNat ≤ 0x39 := Char.isDigit_iff_toNat.mp hdigit
  rw [isDigitByte, digit?, if_pos hrange]
  rfl

/-- A digit has the value that it was made from. -/
theorem digit?_add {d : Nat} (h : d < 10) : digit? (0x30 + d) = some d := by
  rw [digit?, if_pos (by omega), Nat.add_sub_cancel_left]

/-- One digit is read behind those before it. -/
theorem readDigits?_one {d : Nat} (h : d < 10) (value : Nat) (rest : List Nat) :
    readDigits? 1 value ((0x30 + d) :: rest) = some (10 * value + d, rest) := by
  rw [readDigits?, digit?_add h]
  rfl

/-- Digits may be read in two portions. -/
theorem readDigits?_add (m k value : Nat) (bs : List Nat) :
    readDigits? (m + k) value bs
      = (readDigits? m value bs).bind fun found => readDigits? k found.1 found.2 := by
  induction m generalizing value bs with
  | zero => rw [Nat.zero_add, readDigits?, Option.bind_some]
  | succ m ih =>
    rw [Nat.add_right_comm]
    cases bs with
    | nil => rfl
    | cons b rest =>
      rw [readDigits?, readDigits?]
      cases digit? b with
      | none => rfl
      | some d => exact ih (10 * value + d) rest

/-- A padded number is read again. -/
theorem readDigits?_padded {width n : Nat} (hwidth : 0 < width) (h : n < 10 ^ width)
    (rest : List Nat) : readDigits? width 0 (padded width n ++ rest) = some (n, rest) := by
  induction width, hwidth using Nat.le_induction generalizing n rest with
  | base =>
    rw [padded_one h, List.singleton_append, readDigits?_one h, Nat.mul_zero, Nat.zero_add]
  | succ width hwidth ih =>
    have hfront : n / 10 < 10 ^ width := by
      rw [Nat.pow_succ] at h
      omega
    have hlast : n % 10 < 10 := Nat.mod_lt n (by decide)
    rw [padded_succ hwidth, List.append_assoc, readDigits?_add, ih hfront, Option.bind_some,
      List.singleton_append, readDigits?_one hlast, Nat.div_add_mod]

theorem length_padded_two {n : Nat} (h : n < 100) : (padded 2 n).length = 2 :=
  length_padded (by decide) h

/-- Two digits are read as the number that they write. -/
theorem readDigits?_padded_two {n : Nat} (h : n < 100) (rest : List Nat) :
    readDigits? 2 0 (padded 2 n ++ rest) = some (n, rest) :=
  readDigits?_padded (by decide) h rest

/-! ## The time of day -/

/-- The bytes of a fraction of a second. -/
def fractionBytes (microsecond : Nat) : List Nat :=
  if microsecond = 0 then [] else byte '.' :: padded 6 microsecond

/-- The bytes of a time of day. -/
def clockBytes (hour minute second microsecond : Nat) : List Nat :=
  padded 2 hour ++ byte ':' :: (padded 2 minute ++ byte ':' :: (padded 2 second ++
    fractionBytes microsecond))

/-- A time of day is read from its bytes; only what follows it counts as more. -/
theorem readClock?_clockBytes {hour minute second microsecond : Nat} (hhour : hour < 100)
    (hminute : minute < 100) (hsecond : second < 100) (hmicro : microsecond < 1000000)
    (tail : List Nat) : ∃ more, (tail = [] → more = false) ∧
      readClock? (clockBytes hour minute second microsecond).length
        (clockBytes hour minute second microsecond ++ tail)
          = some { hour, minute, second, microsecond, more } := by
  -- Without microseconds the time ends behind the seconds, and there is no fraction to read.
  rw [clockBytes, fractionBytes]
  split
  · rename_i hzero
    subst hzero
    refine ⟨hasMore tail, fun h => by rw [h]; rfl, ?_⟩
    simp only [List.append_nil, List.length_append, List.length_cons, length_padded_two hhour,
      length_padded_two hminute, length_padded_two hsecond, List.append_assoc, List.cons_append]
    simp [readClock?, readParts?, readDigits?_padded_two hhour, readDigits?_padded_two hminute,
      readDigits?_padded_two hsecond]
  · have hsix : readDigits? 6 0 (padded 6 microsecond ++ tail) = some (microsecond, tail) :=
      readDigits?_padded (by decide) hmicro tail
    have hsixlen : (padded 6 microsecond).length = 6 := length_padded (by decide) hmicro
    have hpoint : byte '.' ≠ byte ':' := by decide
    refine ⟨hasMore (tail.dropWhile isDigitByte), fun h => by rw [h]; rfl, ?_⟩
    simp only [List.length_append, List.length_cons, length_padded_two hhour,
      length_padded_two hminute, length_padded_two hsecond, hsixlen, List.append_assoc,
      List.cons_append]
    simp [readClock?, readParts?, readFraction?, readDigits?_padded_two hhour,
      readDigits?_padded_two hminute, readDigits?_padded_two hsecond, hsix, hpoint]

/-- An offset of whole minutes. -/
theorem readClock?_short {hour minute : Nat} (hhour : hour < 100) (hminute : minute < 100) :
    readClock? (padded 2 hour ++ byte ':' :: padded 2 minute).length
        (padded 2 hour ++ byte ':' :: padded 2 minute) = some { hour, minute } := by
  have hminutes := readDigits?_padded_two hminute []
  rw [List.append_nil] at hminutes
  simp only [List.length_append, List.length_cons, length_padded_two hhour,
    length_padded_two hminute]
  simp [readClock?, readParts?, readDigits?_padded_two hhour, hminutes, hasMore]

/-! ## The offset -/

/-- The bytes of an offset behind its sign. -/
def offsetClock (n : Nat) : List Nat :=
  let seconds := n / 1000000
  if n % 60000000 = 0 then padded 2 (seconds / 3600) ++ byte ':' :: padded 2 (seconds / 60 % 60)
  else clockBytes (seconds / 3600) (seconds / 60 % 60) (seconds % 60) (n % 1000000)

/-- The bytes of an offset. -/
def offsetBytes (offset : Int) : List Nat :=
  (if offset < 0 then byte '-' else byte '+') :: offsetClock offset.natAbs

/-- The bytes of an offset are read as its seconds and microseconds. -/
theorem readClock?_offsetClock {n : Nat} (h : n < Moment.dayLength) : ∃ t : ClockTime,
    readClock? (offsetClock n).length (offsetClock n) = some t ∧ t.more = false ∧
      t.hour * 3600 + t.minute * 60 + t.second = n / 1000000 ∧ t.microsecond = n % 1000000 := by
  rw [Moment.dayLength] at h
  rw [offsetClock]
  split
  · refine ⟨_, readClock?_short (by omega) (by omega), rfl, ?_, ?_⟩
    · dsimp only
      omega
    · dsimp only
      omega
  · have hhour : n / 1000000 / 3600 < 100 := by omega
    have hminute : n / 1000000 / 60 % 60 < 100 := by omega
    have hsecond : n / 1000000 % 60 < 100 := by omega
    have hmicro : n % 1000000 < 1000000 := Nat.mod_lt n (by decide)
    obtain ⟨more, hmore, hread⟩ := readClock?_clockBytes hhour hminute hsecond hmicro []
    rw [List.append_nil] at hread
    refine ⟨_, hread, hmore rfl, ?_, rfl⟩
    dsimp only
    omega

/-- The sign of an offset and its amount make the offset. -/
theorem signed_natAbs (offset : Int) :
    (if (if offset < 0 then byte '-' else byte '+') = byte '-' then -(offset.natAbs : Int)
      else offset.natAbs) = offset := by
  have hne : byte '+' ≠ byte '-' := by decide
  by_cases hneg : offset < 0
  · rw [if_pos hneg, if_pos rfl]
    omega
  · rw [if_neg hneg, if_neg hne]
    omega

/-- An offset that is not a mere fraction of a second is read again. -/
theorem readOffset?_offsetClock {offset : Int} (hday : offset.natAbs < Moment.dayLength)
    (hsecond : offset = 0 ∨ Moment.secondLength ≤ offset.natAbs) :
    readOffset? (if offset < 0 then byte '-' else byte '+') (offsetClock offset.natAbs)
      = some offset := by
  obtain ⟨t, ht, hmore, hseconds, hmicro⟩ := readClock?_offsetClock hday
  have hsign := signed_natAbs offset
  rw [Moment.secondLength] at hsecond
  generalize hn : offset.natAbs = n at *
  -- An amount below one second is read as none at all, so it has to be zero.
  have hwhole : (if n / 1000000 = 0 then 0 else n / 1000000 * 1000000 + n % 1000000) = n := by
    split
    · rcases hsecond with hzero | hlong
      · rw [hzero, Int.natAbs_zero] at hn
        exact hn
      · omega
    · exact Nat.div_add_mod' n 1000000
  rw [readOffset?, ht]
  change (if t.more then none else _) = some offset
  rw [hmore, if_neg Bool.false_ne_true, hseconds, hmicro, hwhole, hsign]

/-! ## The time -/

/-- What holds of digits, the colon and the point holds of all bytes of a time of day. -/
theorem forall_mem_clockBytes {P : Nat → Prop} (hdigit : ∀ b, isDigitByte b = true → P b)
    (hcolon : P (byte ':')) (hpoint : P (byte '.')) (hour minute second microsecond : Nat) :
    ∀ b ∈ clockBytes hour minute second microsecond, P b := by
  have hpadded : ∀ width n, ∀ b ∈ padded width n, P b :=
    fun width n b hb => hdigit b (isDigitByte_of_mem_padded hb)
  have hfraction : ∀ b ∈ fractionBytes microsecond, P b := by
    rw [fractionBytes]
    split
    · exact nofun
    · exact List.forall_mem_cons.mpr ⟨hpoint, hpadded 6 microsecond⟩
  simp only [clockBytes, List.forall_mem_append, List.forall_mem_cons]
  exact ⟨hpadded 2 hour, hcolon, hpadded 2 minute, hcolon, hpadded 2 second, hfraction⟩

/-- The bytes of digits lie between those of zero and nine. -/
theorem range_of_isDigitByte {b : Nat} (h : isDigitByte b = true) : 0x30 ≤ b ∧ b ≤ 0x39 := by
  rw [isDigitByte, digit?] at h
  split at h
  · assumption
  · cases h

/-- A time of day holds no sign, so the sign of the offset ends it. -/
theorem not_isSign_of_mem_clockBytes {hour minute second microsecond b : Nat}
    (h : b ∈ clockBytes hour minute second microsecond) : isSign b = false := by
  refine forall_mem_clockBytes (P := fun b => isSign b = false) (fun b hb => ?_) rfl rfl hour minute
    second microsecond b h
  have hrange := range_of_isDigitByte hb
  have hplus : byte '+' = 0x2B := rfl
  have hminus : byte '-' = 0x2D := rfl
  simp only [isSign, hplus, hminus, Bool.or_eq_false_iff, beq_eq_false_iff_ne]
  omega

/-- The sign of an offset is one of the two signs. -/
theorem isSign_sign (offset : Int) :
    isSign (if offset < 0 then byte '-' else byte '+') = true := by
  split <;> rfl

/-- The time of day and the offset are read from their bytes. -/
theorem readTime?_bytes {m : Moment} (hm : m.Exists) :
    ∃ t, readTime? (clockBytes m.hour m.minute m.second m.microsecond ++
        (m.offset.map offsetBytes).getD []) = some (t, m.offset) ∧
      t.hour = m.hour ∧ t.minute = m.minute ∧ t.second = m.second ∧
      t.microsecond = m.microsecond := by
  obtain ⟨-, -, -, hhour, hminute, hsecond, hmicro, hday, hfraction⟩ := hm
  have hclock := readClock?_clockBytes (Nat.lt_trans hhour (by decide))
    (Nat.lt_trans hminute (by decide)) (Nat.lt_trans hsecond (by decide)) hmicro
  have hsigns : ∀ b ∈ clockBytes m.hour m.minute m.second m.microsecond,
      (!isSign b) = true := by
    intro b hb
    rw [not_isSign_of_mem_clockBytes hb]
    rfl
  -- Without an offset the time ends with the text; with one, it ends at the sign.
  cases hoffset : m.offset with
  | none =>
    obtain ⟨more, hmore, hread⟩ := hclock []
    refine ⟨⟨m.hour, m.minute, m.second, m.microsecond, more⟩, ?_, rfl, rfl, rfl, rfl⟩
    rw [List.append_nil] at hread
    rw [Option.map_none, Option.getD_none, List.append_nil, readTime?,
      List.takeWhile_eq_self_iff.mpr hsigns, hread, List.drop_length, hmore rfl]
    rfl
  | some offset =>
    rw [hoffset, Option.getD_some] at hday hfraction
    obtain ⟨more, -, hread⟩ := hclock (offsetBytes offset)
    have hroom : ((clockBytes m.hour m.minute m.second m.microsecond ++
        offsetBytes offset).takeWhile fun b => !isSign b)
          = clockBytes m.hour m.minute m.second m.microsecond := by
      rw [List.takeWhile_append_of_pos hsigns, offsetBytes, List.takeWhile_cons, isSign_sign]
      exact List.append_nil _
    refine ⟨⟨m.hour, m.minute, m.second, m.microsecond, more⟩, ?_, rfl, rfl, rfl, rfl⟩
    rw [Option.map_some, Option.getD_some, readTime?, hroom, hread, List.drop_left, offsetBytes]
    change ((readOffset? _ (offsetClock offset.natAbs)).bind _) = _
    rw [readOffset?_offsetClock hday hfraction]
    rfl

/-! ## The date -/

/-- The bytes of a date. -/
def dateBytes (year month day : Nat) : List Nat :=
  padded 4 year ++ byte '-' :: (padded 2 month ++ byte '-' :: padded 2 day)

/-- A date is ten bytes long. -/
theorem length_dateBytes {year month day : Nat} (hyear : year < 10000) (hmonth : month < 100)
    (hday : day < 100) : (dateBytes year month day).length = 10 := by
  have hfour : (padded 4 year).length = 4 := length_padded (by decide) hyear
  simp [dateBytes, hfour, length_padded_two hmonth, length_padded_two hday]

/-- A digit is no letter. -/
theorem head?_padded_ne_letter {width n : Nat} {rest : List Nat} (hwidth : 0 < width)
    (h : n < 10 ^ width) : (padded width n ++ rest).head? ≠ some (byte 'W') := by
  have hlength := length_padded hwidth h
  cases hpadded : padded width n with
  | nil =>
    rw [hpadded, List.length_nil] at hlength
    omega
  | cons b tail =>
    have hdigit : isDigitByte b = true := by
      have hmem : b ∈ padded width n := hpadded ▸ List.mem_cons_self
      exact isDigitByte_of_mem_padded hmem
    intro hhead
    cases hhead
    cases hdigit

/-- A date is read as it was written. -/
theorem readDate?_dateBytes {year month day : Nat} (hyear : year < 10000) (hmonth : month < 100)
    (hday : day < 100) (rest : List Nat) :
    readDate? 10 (dateBytes year month day ++ rest) = some (year, month, day) := by
  have hletter : ∀ tail, (padded 2 month ++ tail).head? ≠ some (byte 'W') :=
    fun tail => head?_padded_ne_letter (by decide) hmonth
  have hlength := length_dateBytes hyear hmonth hday
  have hfour : ∀ tail, readDigits? 4 0 (padded 4 year ++ tail) = some (year, tail) :=
    fun tail => readDigits?_padded (by decide) hyear tail
  have hbytes : dateBytes year month day ++ rest = padded 4 year ++ byte '-' ::
      (padded 2 month ++ byte '-' :: (padded 2 day ++ rest)) := by
    simp [dateBytes]
  have hleft : (dateBytes year month day ++ rest).length - rest.length = 10 := by
    rw [List.length_append, hlength]
    omega
  rw [hbytes] at hleft ⊢
  simp only [readDate?, hfour, bind, Option.bind, List.head?_cons, decide_true, if_true,
    List.drop_succ_cons, List.drop_zero, if_neg (hletter _), readDigits?_padded_two hmonth,
    readDigits?_padded_two hday, dash?, hleft]

/-- The dash behind the year tells that the date has ten bytes. -/
theorem dateLength?_dateBytes {year month day : Nat} (hyear : year < 10000) (hmonth : month < 100)
    (hday : day < 100) (b : Nat) (rest : List Nat) :
    dateLength? (dateBytes year month day ++ b :: rest) = some 10 := by
  have hlength := length_dateBytes hyear hmonth hday
  have hfour : (padded 4 year).length = 4 := length_padded (by decide) hyear
  have hlong : ¬ (dateBytes year month day ++ b :: rest).length = 7 := by
    rw [List.length_append, hlength, List.length_cons]
    omega
  have hbytes : dateBytes year month day ++ b :: rest = padded 4 year ++ byte '-' ::
      (padded 2 month ++ byte '-' :: (padded 2 day ++ b :: rest)) := by
    simp [dateBytes]
  have hdash : (dateBytes year month day ++ b :: rest)[4]? = some (byte '-') := by
    rw [hbytes, List.getElem?_append_right (by omega), hfour]
    rfl
  have hletter : (dateBytes year month day ++ b :: rest)[5]? ≠ some (byte 'W') := by
    have hnext : ∀ tail : List Nat, (byte '-' :: tail)[5 - 4]? = tail.head? := by
      intro tail
      rw [List.head?_eq_getElem?]
      rfl
    rw [hbytes, List.getElem?_append_right (by omega), hfour, hnext]
    exact head?_padded_ne_letter (by decide) hmonth
  rw [dateLength?, if_neg hlong, if_pos hdash, if_neg hletter]

/-! ## Timestamps -/

/-- The bytes of a written moment. -/
def momentBytes (m : Moment) : List Nat :=
  dateBytes m.year m.month m.day ++ byte 'T' ::
    (clockBytes m.hour m.minute m.second m.microsecond ++ (m.offset.map offsetBytes).getD [])

/-- So is a moment. -/
theorem readMoment?_momentBytes {m : Moment} (hm : m.Exists) :
    readMoment? (momentBytes m) = some m := by
  obtain ⟨t, htime, hhour, hminute, hsecond, hmicro⟩ := readTime?_bytes hm
  obtain ⟨⟨-, hyear⟩, ⟨-, hmonth⟩, ⟨-, hday⟩, -⟩ := hm
  have hdays : Time.daysInMonth m.year m.month < 100 := by
    unfold Time.daysInMonth
    split_ifs <;> decide
  have hyear : m.year < 10000 := by omega
  have hmonth : m.month < 100 := by omega
  have hday : m.day < 100 := by omega
  have hlength := length_dateBytes hyear hmonth hday
  have hlong : ¬ (momentBytes m).length < 7 := by
    rw [momentBytes, List.length_append, hlength]
    omega
  have hdrop : (momentBytes m).drop 10 = byte 'T' ::
      (clockBytes m.hour m.minute m.second m.microsecond ++
        (m.offset.map offsetBytes).getD []) := by
    rw [momentBytes, ← hlength, List.drop_left]
  have hseparator : ∀ bs : List Nat, bs.drop (separatorLength (byte 'T') - 1) = bs := fun _ => rfl
  have hdate : dateLength? (momentBytes m) = some 10 :=
    dateLength?_dateBytes hyear hmonth hday _ _
  have hread : readDate? 10 (momentBytes m) = some (m.year, m.month, m.day) :=
    readDate?_dateBytes hyear hmonth hday _
  simp only [readMoment?, if_neg hlong, hdate, hread, hdrop, hseparator, htime, bind, Option.bind,
    hhour, hminute, hsecond, hmicro]

/-! ## The written form -/

/-- The bytes of an ASCII text are its code points. -/
theorem bytes_eq_codes {cs : List Char} (h : ∀ c ∈ cs, c.toNat < 0x80) : bytes cs = codes cs := by
  induction cs with
  | nil => rfl
  | cons c rest ih =>
    have hc := h c List.mem_cons_self
    have hsize : c.utf8Size = 1 := by
      rw [Char.utf8Size_eq_one_iff, UInt32.le_iff_toNat_le]
      exact Nat.le_of_lt_succ hc
    have hbyte : c.val.toUInt8.toNat = c.toNat := by
      rw [UInt32.toNat_toUInt8]
      exact Nat.mod_eq_of_lt (Nat.lt_trans hc (by decide))
    rw [bytes, List.flatMap_cons, String.utf8EncodeChar_eq_singleton hsize, List.map_singleton,
      hbyte, List.singleton_append, codes, List.map_cons]
    exact congrArg (c.toNat :: ·) (ih fun c' hc' => h c' (List.mem_cons_of_mem _ hc'))

/-- The code points of texts side by side. -/
theorem codes_append (cs ds : List Char) : codes (cs ++ ds) = codes cs ++ codes ds :=
  List.map_append

/-- The code points of a fraction are its bytes. -/
theorem codes_fractionText (microsecond : Nat) :
    codes (fractionText microsecond).toList = fractionBytes microsecond := by
  rw [fractionText, fractionBytes]
  split
  · rfl
  · rw [String.toList_append, codes_append]
    rfl

/-- So are those of an offset. -/
theorem codes_offsetText (offset : Int) :
    codes (offsetText offset).toList = offsetBytes offset := by
  have hcolon : codes ":".toList = [byte ':'] := rfl
  have hsign : codes (if offset < 0 then "-" else "+" : String).toList
      = [if offset < 0 then byte '-' else byte '+'] := by split <;> rfl
  by_cases hwhole : offset.natAbs % 60000000 = 0
  · simp only [offsetText, offsetBytes, offsetClock, twoDigits, if_pos hwhole, String.toList_append,
      codes_append, hsign, hcolon, padded]
    simp [codes]
  · simp only [offsetText, offsetBytes, offsetClock, twoDigits, if_neg hwhole, String.toList_append,
      codes_append, hsign, hcolon, codes_fractionText, clockBytes, padded]
    simp

/-- The written form of a timestamp holds the bytes of its moment. -/
theorem codes_text (t : Timestamp) : codes t.text.toList = momentBytes t.moment := by
  have hoffset : codes ((t.moment.offset.map offsetText).getD "").toList
      = (t.moment.offset.map offsetBytes).getD [] := by
    cases t.moment.offset with
    | none => rfl
    | some offset => exact codes_offsetText offset
  have hdash : codes "-".toList = [byte '-'] := rfl
  have hcolon : codes ":".toList = [byte ':'] := rfl
  have hletter : codes "T".toList = [byte 'T'] := rfl
  simp only [text, twoDigits, String.toList_append, codes_append, hoffset, codes_fractionText,
    hdash, hcolon, hletter, momentBytes, dateBytes, clockBytes, padded]
  simp

/-- What stands in a timestamp are digits and marks. -/
theorem forall_mem_momentBytes {P : Nat → Prop} (hdigit : ∀ b, isDigitByte b = true → P b)
    (hmark : ∀ b ∈ [byte ':', byte '.', byte '+', byte '-', byte 'T'], P b) (m : Moment) :
    ∀ b ∈ momentBytes m, P b := by
  have hpadded : ∀ width n, ∀ b ∈ padded width n, P b :=
    fun width n b hb => hdigit b (isDigitByte_of_mem_padded hb)
  have hcolon : P (byte ':') := hmark (byte ':') (by decide)
  have hdash : P (byte '-') := hmark (byte '-') (by decide)
  have hclock := forall_mem_clockBytes hdigit hcolon (hmark (byte '.') (by decide))
  have hoffset : ∀ offset, ∀ b ∈ offsetBytes offset, P b := by
    intro offset
    refine List.forall_mem_cons.mpr ⟨?_, ?_⟩
    · split
      · exact hdash
      · exact hmark (byte '+') (by decide)
    · rw [offsetClock]
      split
      · simp only [List.forall_mem_append, List.forall_mem_cons]
        exact ⟨hpadded 2 _, hcolon, hpadded 2 _⟩
      · exact hclock _ _ _ _
  have hmaybe : ∀ b ∈ (m.offset.map offsetBytes).getD [], P b := by
    cases m.offset with
    | none => exact nofun
    | some offset => exact hoffset offset
  simp only [momentBytes, dateBytes, List.forall_mem_append, List.forall_mem_cons]
  exact ⟨⟨hpadded 4 _, hdash, hpadded 2 _, hdash, hpadded 2 _⟩, hmark (byte 'T') (by decide),
    hclock _ _ _ _, hmaybe⟩

/-- A timestamp is read from its written form. -/
theorem read?_text (t : Timestamp) : read? t.text = some t := by
  have hchars : ∀ c ∈ t.text.toList, c.toNat < 0x80 ∧ c.toNat ≠ 0x5A := by
    intro c hc
    have hmem : c.toNat ∈ momentBytes t.moment := codes_text t ▸ List.mem_map_of_mem hc
    refine forall_mem_momentBytes (P := fun b => b < 0x80 ∧ b ≠ 0x5A) (fun b hb => ?_) (by decide)
      t.moment c.toNat hmem
    have hrange := range_of_isDigitByte hb
    omega
  -- There is no `Z` to be replaced, and every character is a single byte.
  have hzulu : 'Z' ∉ t.text.toList := fun h => (hchars 'Z' h).2 rfl
  rw [read?, Text.replaceChar_of_notMem _ hzulu, bytes_eq_codes fun c hc => (hchars c hc).1,
    codes_text, readMoment?_momentBytes t.sound, Option.bind_some, of?, dif_pos t.sound]

/-- A date in a document is read, whatever the time is. -/
theorem ofJson_text (now t : Timestamp) : ofJson now (some (.str t.text)) = t := by
  rw [ofJson, read?_text]
  rfl

end VirtualShell.Timestamp
