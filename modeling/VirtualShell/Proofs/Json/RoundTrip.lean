import VirtualShell.Proofs.Json.Fraction
import VirtualShell.Proofs.Json.Text
import VirtualShell.Proofs.Table

/-!
# Documents are read as they were written

A written value is read again, in whatever layout it was written and whatever follows it, with as
many steps as it has characters (`ReadsAs`). For arrays and objects this follows from their parts,
one part after another. Objects that have a name twice are left out, since only the last value would
be read.

A value is read as it was written up to its numbers with a fraction: in the place of each of them
some number with a fraction is read (`read_writeIn`). Without such numbers it is read back as it is
(`read_write`).
-/

namespace VirtualShell.Json

mutual

/-- A value that is read back from its document. -/
def Exact : Json → Prop
  | .null | .bool _ | .str _ => True
  | .int n => IsShort n
  | .float _ => False
  | .arr items => ItemsExact items
  | .obj fields => (Table.names fields).Nodup ∧ FieldsExact fields

/-- Every item is read back. -/
def ItemsExact : List Json → Prop
  | [] => True
  | v :: rest => v.Exact ∧ ItemsExact rest

/-- The value of every field is read back. -/
def FieldsExact : List (String × Json) → Prop
  | [] => True
  | (_, v) :: rest => v.Exact ∧ FieldsExact rest

end

/-! ## Blanks between the parts -/

/-- Characters that are skipped between the parts of a document. -/
def Blanks (cs : List Char) : Prop :=
  ∀ c ∈ cs, isSpace c = true

/-- The start of a value: neither a blank nor a closing bracket nor a byte order mark. -/
def StartsValue (cs : List Char) : Prop :=
  ∃ c tail, cs = c :: tail ∧ isSpace c = false ∧ c ≠ ']' ∧ c ≠ '\x7d' ∧ c ≠ '\uFEFF'

/-- Blanks are skipped up to the next character. -/
theorem Blanks.skipSpace_cons {gap : List Char} (h : Blanks gap) {c : Char} (hc : isSpace c = false)
    (tail : List Char) : skipSpace (gap ++ c :: tail) = c :: tail := by
  rw [skipSpace, List.dropWhile_append_of_pos h, List.dropWhile_cons, hc]
  rfl

/-- They are skipped up to the start of a value. -/
theorem Blanks.skipSpace_append {gap cs : List Char} (h : Blanks gap) (hcs : StartsValue cs)
    (tail : List Char) : skipSpace (gap ++ (cs ++ tail)) = cs ++ tail := by
  obtain ⟨c, rest, rfl, hspace, -⟩ := hcs
  exact h.skipSpace_cons hspace (rest ++ tail)

/-- Behind a value there may be blanks and a bracket. -/
theorem Blanks.endsNumber {gap : List Char} (h : Blanks gap) {c : Char}
    (hc : c.isDigit = false ∧ c ≠ '.' ∧ c ≠ 'e' ∧ c ≠ 'E') (rest : List Char) :
    EndsNumber (gap ++ c :: rest) := by
  cases gap with
  | nil => exact endsNumber_cons rest hc
  | cons b gap =>
    have hb := h b List.mem_cons_self
    simp only [isSpace, Bool.or_eq_true, beq_iff_eq] at hb
    refine endsNumber_cons _ ?_
    rcases hb with ((rfl | rfl) | rfl) | rfl <;> decide

/-- The break of a layout consists of blanks. -/
theorem blanks_break (layout : Layout) : Blanks layout.break.toList := by
  cases layout with
  | line => exact nofun
  | block n =>
    intro c hc
    have hmem : c = '\n' ∨ n ≠ 0 ∧ c = ' ' := by simpa [Layout.break] using hc
    rcases hmem with rfl | ⟨-, rfl⟩ <;> rfl

/-- What stands between the comma behind a part and the next part. -/
def Layout.gap : Layout → List Char
  | .line => [' ']
  | .block n => (Layout.block n).inner.break.toList

/-- So does its gap between values. -/
theorem blanks_gap (layout : Layout) : Blanks layout.gap := by
  cases layout with
  | line =>
    intro c hc
    cases List.mem_singleton.mp hc
    rfl
  | block n => exact blanks_break _

/-- The written parts behind the first one. -/
def laterParts (gap : List Char) (parts : List (List Char)) : List Char :=
  parts.flatMap fun p => ',' :: (gap ++ p)

/-- The later parts are written one after another, each behind a comma. -/
theorem laterParts_cons (gap p : List Char) (parts : List (List Char)) :
    laterParts gap (p :: parts) = ',' :: (gap ++ (p ++ laterParts gap parts)) := by
  rw [laterParts, List.flatMap_cons, List.cons_append, List.append_assoc]
  rfl

/-- The characters of joined texts, the first one apart. -/
theorem toList_joinWith_cons (separator first : String) (parts : List String) :
    (Text.joinWith separator (first :: parts)).toList
      = first.toList ++ parts.flatMap fun p => separator.toList ++ p.toList := by
  induction parts generalizing first with
  | nil => simp [Text.joinWith]
  | cons p rest ih =>
    unfold Text.joinWith at ih ⊢
    rw [String.intercalate_cons_cons, String.toList_append, String.toList_append, ih p,
      List.flatMap_cons, List.append_assoc, List.append_assoc]

/-- The characters of an array or object that is not empty. -/
theorem toList_enclose_cons (layout : Layout) {opening closing : String} {o c : Char}
    (hopening : opening.toList = [o]) (hclosing : closing.toList = [c]) (first : String)
    (parts : List String) :
    (enclose layout opening closing (first :: parts)).toList
      = o :: (layout.inner.break.toList ++ (first.toList ++
        (laterParts layout.gap (parts.map String.toList) ++ (layout.break.toList ++ [c])))) := by
  cases layout <;>
    simp [enclose, toList_joinWith_cons, laterParts, Layout.gap, Layout.break, Layout.inner,
      List.flatMap_map, hopening, hclosing]

/-! ## Texts -/

/-- A text is written between double quotes, character by character. -/
theorem toList_writeText (s : String) :
    (writeText s).toList = '"' :: (s.toList.flatMap escapeChar ++ ['"']) := by
  rw [writeText, String.toList_ofList]
  rfl

/-- Every character is written. -/
theorem escapeChar_ne_nil (c : Char) : escapeChar c ≠ [] := by
  unfold escapeChar
  iterate 8
    split
    · exact List.cons_ne_nil _ _
  unfold escapeUnits
  split <;> exact List.cons_ne_nil _ _

/-- A text is written with at least as many characters as it has. -/
theorem length_le_flatMap_escapeChar (s : List Char) :
    s.length ≤ (s.flatMap escapeChar).length := by
  induction s with
  | nil => exact Nat.zero_le _
  | cons c s ih =>
    have hc := List.length_pos_iff.mpr (escapeChar_ne_nil c)
    rw [List.flatMap_cons, List.length_append, List.length_cons]
    omega

/-- A written text is read back. -/
theorem readText_writeText (s : String) {fuel : Nat} (hfuel : (writeText s).toList.length ≤ fuel)
    (rest : List Char) : readText fuel ((writeText s).toList ++ rest) = .ok (s, rest) := by
  have hlength := length_le_flatMap_escapeChar s.toList
  rw [toList_writeText, List.length_cons, List.length_append] at hfuel
  rw [readText, toList_writeText, List.cons_append, List.drop_one, List.tail_cons,
    List.append_assoc, List.singleton_append, readChars_write _ _ _ (by omega)]
  rw [List.reverse_nil, List.nil_append, String.ofList_toList]

/-! ## Values -/

/-- What is written for a value in a layout is read as another value, whatever follows it. -/
def ReadsAs (layout : Layout) (v w : Json) : Prop :=
  StartsValue (v.writeIn layout).toList ∧
    ∀ fuel rest, (v.writeIn layout).toList.length ≤ fuel → EndsNumber rest →
      readValue fuel ((v.writeIn layout).toList ++ rest) = .ok (w, rest)

/-- A text is read as it was written. -/
theorem readsAs_str (layout : Layout) (s : String) : ReadsAs layout (.str s) (.str s) := by
  constructor
  · exact ⟨'"', _, toList_writeText s, by decide⟩
  · intro fuel rest hfuel _
    have htext := readText_writeText s hfuel rest
    rw [writeIn] at hfuel ⊢
    rw [toList_writeText] at hfuel htext ⊢
    cases fuel with
    | zero => simp at hfuel
    | succ fuel =>
      rw [List.cons_append] at htext ⊢
      rw [readValue, htext]

/-- The start of a name or a number. -/
def StartsPlain (c : Char) : Prop :=
  c ≠ '"' ∧ c ≠ '\x7b' ∧ c ≠ '['

/-- What starts neither a text nor an array nor an object is read as a name or a number. -/
theorem readValue_of_plain {c : Char} (hc : StartsPlain c) (tail : List Char) (fuel : Nat) :
    readValue (fuel + 1) (c :: tail) = ((readName? (c :: tail)).map .ok).getD
      ((readNumber? (c :: tail)).getD (complain .value (c :: tail))) := by
  obtain ⟨hquote, hbrace, hbracket⟩ := hc
  rw [readValue]
  · cases readName? (c :: tail) <;> rfl
  · rintro rest ⟨⟩
    exact hquote rfl
  · rintro rest ⟨⟩
    exact hbrace rfl
  · rintro rest ⟨⟩
    exact hbracket rfl

/-- A value that is written as a name is read as the value of the name. -/
theorem readsAs_of_name {layout : Layout} {v w : Json} {c : Char} {cs : List Char}
    (htext : (v.writeIn layout).toList = c :: cs)
    (hc : isSpace c = false ∧ c ≠ ']' ∧ c ≠ '\x7d' ∧ c ≠ '\uFEFF') (hplain : StartsPlain c)
    (hname : ∀ rest, readName? (c :: (cs ++ rest)) = some (w, rest)) : ReadsAs layout v w := by
  rw [ReadsAs, htext]
  refine ⟨⟨c, cs, rfl, hc⟩, fun fuel rest hfuel _ => ?_⟩
  cases fuel with
  | zero => simp at hfuel
  | succ fuel =>
    rw [List.cons_append, readValue_of_plain hplain, hname]
    rfl

/-- A value that is written as a number is read as the number. -/
theorem readsAs_of_number {layout : Layout} {v w : Json} {c : Char} {cs : List Char}
    (htext : (v.writeIn layout).toList = c :: cs)
    (hc : isSpace c = false ∧ c ≠ ']' ∧ c ≠ '\x7d' ∧ c ≠ '\uFEFF') (hplain : StartsPlain c)
    (hname : ∀ rest, readName? (c :: (cs ++ rest)) = none)
    (hnumber : ∀ rest, EndsNumber rest →
      readNumber? (c :: (cs ++ rest)) = some (.ok (w, rest))) : ReadsAs layout v w := by
  rw [ReadsAs, htext]
  refine ⟨⟨c, cs, rfl, hc⟩, fun fuel rest hfuel hrest => ?_⟩
  cases fuel with
  | zero => simp at hfuel
  | succ fuel =>
    rw [List.cons_append, readValue_of_plain hplain, hname, hnumber rest hrest]
    rfl

/-- The null value is read again. -/
theorem readsAs_null (layout : Layout) : ReadsAs layout .null .null := by
  refine readsAs_of_name (c := 'n') (by rw [writeIn]; rfl) (by decide) ?_ fun rest => rfl
  exact ⟨by decide, by decide, by decide⟩

/-- So are the truth values. -/
theorem readsAs_bool (layout : Layout) (b : Bool) : ReadsAs layout (.bool b) (.bool b) := by
  cases b with
  | true =>
    refine readsAs_of_name (c := 't') (by rw [writeIn]; rfl) (by decide) ?_ fun rest => rfl
    exact ⟨by decide, by decide, by decide⟩
  | false =>
    refine readsAs_of_name (c := 'f') (by rw [writeIn]; rfl) (by decide) ?_ fun rest => rfl
    exact ⟨by decide, by decide, by decide⟩

/-- No name is read where none of them stands. -/
theorem readName?_eq_none {cs : List Char}
    (h : ∀ name ∈ ["null", "true", "false", "NaN", "Infinity", "-Infinity"],
      name.toList.isPrefixOf cs = false) : readName? cs = none := by
  rw [readName?, List.findSome?_eq_none_iff]
  intro entry hentry
  have hname := h entry.1 (List.mem_map_of_mem hentry)
  dsimp only
  rw [hname]
  rfl

/-- Texts with different first characters do not start alike. -/
theorem isPrefixOf_cons_of_ne {a b : Char} (h : a ≠ b) (as bs : List Char) :
    (a :: as).isPrefixOf (b :: bs) = false := by
  rw [List.isPrefixOf, beq_false_of_ne h, Bool.false_and]

/-- No name starts with a digit. -/
theorem readName?_digit {d : Char} (hd : d.isDigit = true) (tail : List Char) :
    readName? (d :: tail) = none := by
  have hno : ∀ (a : Char) (as : List Char), a.isDigit = false →
      (a :: as).isPrefixOf (d :: tail) = false := by
    intro a as ha
    refine isPrefixOf_cons_of_ne ?_ as tail
    rintro rfl
    rw [ha] at hd
    cases hd
  refine readName?_eq_none fun name hname => ?_
  simp only [List.mem_cons, List.not_mem_nil, or_false] at hname
  rcases hname with rfl | rfl | rfl | rfl | rfl | rfl <;> exact hno _ _ rfl

/-- Nor does one start with a minus sign and a digit. -/
theorem readName?_minus {d : Char} (hd : d.isDigit = true) (tail : List Char) :
    readName? ('-' :: d :: tail) = none := by
  have hne : 'I' ≠ d := by
    rintro rfl
    cases hd
  refine readName?_eq_none fun name hname => ?_
  simp only [List.mem_cons, List.not_mem_nil, or_false] at hname
  rcases hname with rfl | rfl | rfl | rfl | rfl | rfl
  iterate 5 exact isPrefixOf_cons_of_ne (by decide) _ _
  exact isPrefixOf_cons_of_ne hne _ _

/-- A written whole number starts with a digit, or with a sign and a digit. -/
theorem toList_intText_cases (n : Int) : ∃ d ds, d.isDigit = true ∧
    ((Text.intText n).toList = d :: ds ∨ (Text.intText n).toList = '-' :: d :: ds) := by
  cases n with
  | ofNat n =>
    obtain ⟨d, ds, hdigits, hd⟩ := exists_toDigits_eq_cons n
    exact ⟨d, ds, hd, Or.inl (by simp [Text.intText, Text.natText, hdigits])⟩
  | negSucc n =>
    obtain ⟨d, ds, hdigits, hd⟩ := exists_toDigits_eq_cons (n + 1)
    exact ⟨d, ds, hd, Or.inr (by simp [Text.intText, Text.natText, hdigits])⟩

/-- What is written as a number, from a digit or a sign on, is read as a number. -/
theorem readsAs_of_digit {layout : Layout} {v w : Json} {d : Char} {ds : List Char}
    (hd : d.isDigit = true)
    (htext : (v.writeIn layout).toList = d :: ds ∨ (v.writeIn layout).toList = '-' :: d :: ds)
    (hnumber : ∀ rest, EndsNumber rest →
      readNumber? ((v.writeIn layout).toList ++ rest) = some (.ok (w, rest))) :
    ReadsAs layout v w := by
  rcases htext with htext | htext
  -- A digit is none of the characters with which something else starts.
  · have hne : ∀ c : Char, c.isDigit = false → d ≠ c := by
      rintro c hc rfl
      rw [hc] at hd
      cases hd
    have hspace : isSpace d = false := by
      simp [isSpace, hne ' ' rfl, hne '\t' rfl, hne '\n' rfl, hne '\r' rfl]
    rw [htext] at hnumber
    exact readsAs_of_number htext ⟨hspace, hne _ rfl, hne _ rfl, hne _ rfl⟩
      ⟨hne _ rfl, hne _ rfl, hne _ rfl⟩ (fun rest => readName?_digit hd _) hnumber
  · rw [htext] at hnumber
    exact readsAs_of_number htext (by decide) ⟨by decide, by decide, by decide⟩
      (fun rest => readName?_minus hd _) hnumber

/-- A whole number that is short enough is read again. -/
theorem readsAs_int (layout : Layout) {n : Int} (hn : IsShort n) :
    ReadsAs layout (.int n) (.int n) := by
  obtain ⟨d, ds, hd, htext⟩ := toList_intText_cases n
  exact readsAs_of_digit hd (by rwa [writeIn]) fun rest hrest => by
    rw [writeIn]
    exact readNumber?_intText hn hrest

/-- A decimal has no sign in front. -/
theorem splitSign_decimal (d : Decimal) (rest : List Char) :
    splitSign (d.text ++ rest) = (false, d.text ++ rest) := by
  have hdigit : d.first.isDigit = true := d.isDigits_whole d.first List.mem_cons_self
  unfold splitSign
  split
  · rename_i h
    rw [(List.cons.inj h).1] at hdigit
    cases hdigit
  · rfl

/-- A number with a fraction is read as one. -/
theorem exists_readsAs_float (x : Binary64) :
    ∃ y, ∀ layout, ReadsAs layout (.float x) (.float y) := by
  cases x with
  | nan =>
    refine ⟨.nan, fun layout => readsAs_of_name (c := 'N') (by rw [writeIn]; rfl) (by decide) ?_
      fun rest => rfl⟩
    exact ⟨by decide, by decide, by decide⟩
  | infinite negative =>
    refine ⟨.infinite negative, fun layout => ?_⟩
    cases negative with
    | false =>
      refine readsAs_of_name (c := 'I') (by rw [writeIn]; rfl) (by decide) ?_ fun rest => rfl
      exact ⟨by decide, by decide, by decide⟩
    | true =>
      refine readsAs_of_name (c := '-') (by rw [writeIn]; rfl) (by decide) ?_ fun rest => rfl
      exact ⟨by decide, by decide, by decide⟩
  | finite negative mantissa exponent =>
    obtain ⟨d, hd⟩ := exists_decimal_text negative mantissa exponent
    have hdigit : d.first.isDigit = true := d.isDigits_whole d.first List.mem_cons_self
    refine ⟨d.value negative, fun layout => ?_⟩
    have htext : ((Json.float (.finite negative mantissa exponent)).writeIn layout).toList
        = (if negative then ['-'] else []) ++ d.text := by
      rw [writeIn]
      exact hd
    cases negative with
    | false =>
      refine readsAs_of_digit hdigit (.inl htext) fun rest hrest => ?_
      rw [htext]
      exact readNumber?_decimal d (splitSign_decimal d rest) hrest
    | true =>
      refine readsAs_of_digit hdigit (.inr htext) fun rest hrest => ?_
      rw [htext]
      exact readNumber?_decimal d rfl hrest

/-! ## Arrays -/

/-- Behind the last item, the closing bracket ends the list. -/
theorem readItems_last {fuel : Nat} {cs rest tail : List Char} {v : Json}
    (hv : readValue fuel cs = .ok (v, rest)) (hrest : skipSpace rest = ']' :: tail)
    (done : List Json) :
    readItems (fuel + 1) done cs = .ok (.arr (v :: done).reverse, tail) := by
  rw [readItems, hv]
  dsimp only
  rw [hrest]
  rfl

/-- Behind any other item, a comma leads to the next one. -/
theorem readItems_next {fuel : Nat} {cs rest tail : List Char} {v : Json}
    (hv : readValue fuel cs = .ok (v, rest)) (hrest : skipSpace rest = ',' :: tail)
    (done : List Json) :
    readItems (fuel + 1) done cs = readItems fuel (v :: done) (skipSpace tail) := by
  rw [readItems, hv]
  dsimp only
  rw [hrest]
  rfl

/-- An opening bracket leads to the first item. -/
theorem readValue_arr {pad cs : List Char} (hpad : Blanks pad) (hcs : StartsValue cs)
    (tail : List Char) (fuel : Nat) :
    readValue (fuel + 1) ('[' :: (pad ++ (cs ++ tail))) = readItems fuel [] (cs ++ tail) := by
  have hskip := hpad.skipSpace_append hcs tail
  obtain ⟨c, rest, rfl, -, hbracket, -⟩ := hcs
  rw [readValue, hskip, List.cons_append]
  split
  · rename_i h
    exact absurd (List.cons.inj h).1 hbracket
  · rfl

/-- The items of an array are read one after another up to its bracket. -/
theorem readItems_written {layout : Layout} {gap close : List Char} (hgap : Blanks gap)
    (hclose : Blanks close) {f : Json → Json} {v : Json} {vs : List Json}
    (hread : ∀ w ∈ v :: vs, ReadsAs layout w (f w)) (done : List Json) (rest : List Char)
    (fuel : Nat)
    (hfuel : (v.writeIn layout).toList.length +
      (laterParts gap (vs.map (String.toList ∘ writeIn layout))).length ≤ fuel) :
    readItems (fuel + 1) done ((v.writeIn layout).toList ++
        (laterParts gap (vs.map (String.toList ∘ writeIn layout)) ++ (close ++ ']' :: rest)))
      = .ok (.arr (done.reverse ++ (v :: vs).map f), rest) := by
  -- Induction on the later items; `done` holds the earlier ones, and every item takes one step.
  induction vs generalizing v done fuel with
  | nil =>
    have hends : EndsNumber (close ++ ']' :: rest) := hclose.endsNumber (by decide) rest
    have hv := (hread v List.mem_cons_self).2 fuel _ (by omega) hends
    rw [List.map_nil, laterParts, List.flatMap_nil, List.nil_append,
      readItems_last hv (hclose.skipSpace_cons (by decide) rest), List.reverse_cons]
    rfl
  | cons w vs ih =>
    rw [List.map_cons, laterParts_cons] at hfuel ⊢
    simp only [List.length_append, List.length_cons, Function.comp_apply] at hfuel ⊢
    have hv := fun tail => (hread v List.mem_cons_self).2 fuel (',' :: tail) (by omega)
      (endsNumber_cons tail (by decide))
    have hw := (hread w (List.mem_cons_of_mem _ List.mem_cons_self)).1
    obtain ⟨fuel, rfl⟩ : ∃ k, fuel = k + 1 := ⟨fuel - 1, by omega⟩
    rw [List.cons_append, readItems_next (hv _) rfl, List.append_assoc, List.append_assoc,
      hgap.skipSpace_append hw, ih (fun u hu => hread u (List.mem_cons_of_mem _ hu)) (f v :: done)
        fuel (by omega), List.reverse_cons, List.append_assoc, List.singleton_append]
    rfl

/-- Items are written one by one. -/
theorem writeItems_eq (layout : Layout) (items : List Json) :
    writeItems layout items = items.map (writeIn layout) := by
  induction items with
  | nil => rfl
  | cons v rest ih => rw [writeItems, ih, List.map_cons]

/-- An array is read as what its items are read as. -/
theorem readsAs_arr {layout : Layout} {f : Json → Json} {items : List Json}
    (hitems : ∀ v ∈ items, ReadsAs layout.inner v (f v)) :
    ReadsAs layout (.arr items) (.arr (items.map f)) := by
  rw [ReadsAs, writeIn, writeItems_eq]
  cases items with
  | nil =>
    have htext : (enclose layout "[" "]" []).toList = ['[', ']'] := by simp [enclose]
    rw [List.map_nil, htext]
    refine ⟨⟨'[', [']'], rfl, by decide⟩, fun fuel rest hfuel _ => ?_⟩
    cases fuel with
    | zero => simp at hfuel
    | succ fuel => rfl
  | cons v vs =>
    have hv := (hitems v List.mem_cons_self).1
    have hopening : "[".toList = ['['] := rfl
    have hclosing : "]".toList = [']'] := rfl
    rw [List.map_cons, toList_enclose_cons layout hopening hclosing, List.map_map]
    refine ⟨⟨'[', _, rfl, by decide⟩, fun fuel rest hfuel _ => ?_⟩
    cases fuel with
    | zero => simp at hfuel
    | succ fuel =>
      have hread := readItems_written (blanks_gap layout) (blanks_break layout) hitems [] rest
      simp only [List.length_append, List.length_cons] at hfuel
      obtain ⟨fuel, rfl⟩ : ∃ k, fuel = k + 1 := ⟨fuel - 1, by omega⟩
      simp only [List.cons_append, List.append_assoc, List.nil_append]
      rw [readValue_arr (blanks_break layout.inner) hv]
      exact hread fuel (by omega)

/-! ## Objects -/

/-- A field as it is written. -/
def writeField (layout : Layout) (field : String × Json) : String :=
  writeText field.1 ++ ": " ++ writeIn layout field.2

/-- Fields are written one by one. -/
theorem writeFields_eq (layout : Layout) (fields : List (String × Json)) :
    writeFields layout fields = fields.map (writeField layout) := by
  induction fields with
  | nil => rfl
  | cons field rest ih => rw [writeFields, ih, List.map_cons, writeField]

/-- A field is its name, a colon, a blank and its value. -/
theorem toList_writeField (layout : Layout) (field : String × Json) :
    (writeField layout field).toList
      = (writeText field.1).toList ++ ':' :: ' ' :: (field.2.writeIn layout).toList := by
  simp [writeField]

/-- A field starts like a value, with the quote of its name. -/
theorem startsValue_writeField (layout : Layout) (field : String × Json) :
    StartsValue (writeField layout field).toList := by
  rw [toList_writeField, toList_writeText]
  exact ⟨'"', _, rfl, by decide⟩

/-- What is read behind a field: the bracket, or a comma and the next fields. -/
def readBehindField (fuel : Nat) (fields : Table Json) : List Char → Read Json
  | '\x7d' :: tail => .ok (.obj fields, tail)
  | ',' :: tail => readFields fuel fields (skipSpace tail)
  | tail => complain .comma tail

/-- A written field is read up to what follows its value. -/
theorem readFields_eq {layout : Layout} {field : String × Json} {w : Json}
    (hv : ReadsAs layout field.2 w) (done : Table Json) {fuel : Nat}
    (hfuel : (writeField layout field).toList.length ≤ fuel)
    {rest : List Char} (hrest : EndsNumber rest) :
    readFields (fuel + 1) done ((writeField layout field).toList ++ rest)
      = readBehindField fuel (Table.put done field.1 w) (skipSpace rest) := by
  rw [toList_writeField] at hfuel ⊢
  simp only [List.length_append, List.length_cons] at hfuel
  simp only [List.append_assoc, List.cons_append]
  have hname := readText_writeText field.1 (by omega : _ ≤ fuel + 1)
    (':' :: ' ' :: ((field.2.writeIn layout).toList ++ rest))
  have hvalue := hv.2 fuel rest (by omega) hrest
  have hskip : skipSpace (' ' :: ((field.2.writeIn layout).toList ++ rest))
      = (field.2.writeIn layout).toList ++ rest :=
    (blanks_gap .line).skipSpace_append hv.1 rest
  have hcolon : ∀ tail, skipSpace (':' :: tail) = ':' :: tail := fun _ => rfl
  rw [toList_writeText, List.cons_append] at hname ⊢
  rw [readFields, hname]
  simp only [hcolon, hskip, hvalue]
  rfl

/-- Behind the last field, the closing brace ends the object. -/
theorem readFields_last {layout : Layout} {field : String × Json} {w : Json}
    (hv : ReadsAs layout field.2 w) (done : Table Json) {fuel : Nat}
    (hfuel : (writeField layout field).toList.length ≤ fuel)
    {rest tail : List Char} (hrest : EndsNumber rest) (hskip : skipSpace rest = '\x7d' :: tail) :
    readFields (fuel + 1) done ((writeField layout field).toList ++ rest)
      = .ok (.obj (Table.put done field.1 w), tail) := by
  rw [readFields_eq hv done hfuel hrest, hskip]
  rfl

/-- Behind any other field, a comma leads to the next one. -/
theorem readFields_next {layout : Layout} {field : String × Json} {w : Json}
    (hv : ReadsAs layout field.2 w) (done : Table Json) {fuel : Nat}
    (hfuel : (writeField layout field).toList.length ≤ fuel)
    {rest tail : List Char} (hrest : EndsNumber rest) (hskip : skipSpace rest = ',' :: tail) :
    readFields (fuel + 1) done ((writeField layout field).toList ++ rest)
      = readFields fuel (Table.put done field.1 w) (skipSpace tail) := by
  rw [readFields_eq hv done hfuel hrest, hskip]
  rfl

/-- An opening brace leads to the first field. -/
theorem readValue_obj {pad cs : List Char} (hpad : Blanks pad) (hcs : StartsValue cs)
    (tail : List Char) (fuel : Nat) :
    readValue (fuel + 1) ('\x7b' :: (pad ++ (cs ++ tail))) = readFields fuel [] (cs ++ tail) := by
  have hskip := hpad.skipSpace_append hcs tail
  obtain ⟨c, rest, rfl, -, -, hbracket, -⟩ := hcs
  rw [readValue, hskip, List.cons_append]
  split
  · rename_i h
    exact absurd (List.cons.inj h).1 hbracket
  · rfl

/-- The fields of an object are read one after another up to its bracket. As no name comes twice,
each goes behind the earlier ones. -/
theorem readFields_written {layout : Layout} {gap close : List Char} (hgap : Blanks gap)
    (hclose : Blanks close) {f : Json → Json} {field : String × Json}
    {fields : List (String × Json)}
    (hread : ∀ e ∈ field :: fields, ReadsAs layout e.2 (f e.2)) {done : Table Json}
    (hdistinct : Table.Distinct (done ++ (field :: fields).map (Prod.map id f)))
    (rest : List Char) (fuel : Nat)
    (hfuel : (writeField layout field).toList.length +
      (laterParts gap (fields.map (String.toList ∘ writeField layout))).length ≤ fuel) :
    readFields (fuel + 1) done ((writeField layout field).toList ++
        (laterParts gap (fields.map (String.toList ∘ writeField layout)) ++
          (close ++ '\x7d' :: rest)))
      = .ok (.obj (done ++ (field :: fields).map (Prod.map id f)), rest) := by
  -- Induction on the later fields; the names in `done` stay apart from those still to come.
  induction fields generalizing field done fuel with
  | nil =>
    have hends : EndsNumber (close ++ '\x7d' :: rest) := hclose.endsNumber (by decide) rest
    have hlength : (writeField layout field).toList.length ≤ fuel := by omega
    have hlast := readFields_last (hread field List.mem_cons_self) done hlength hends
      (hclose.skipSpace_cons (by decide) rest)
    have hput : Table.put done field.1 (f field.2) = done ++ [(field.1, f field.2)] :=
      Table.put_of_distinct hdistinct
    rw [List.map_nil, laterParts, List.flatMap_nil, List.nil_append, hlast, hput]
    rfl
  | cons next fields ih =>
    rw [List.map_cons, laterParts_cons] at hfuel ⊢
    simp only [List.length_append, List.length_cons, Function.comp_apply] at hfuel ⊢
    obtain ⟨fuel, rfl⟩ : ∃ k, fuel = k + 1 := ⟨fuel - 1, by omega⟩
    have hput : Table.put done field.1 (f field.2) = done ++ [(field.1, f field.2)] :=
      Table.put_of_distinct hdistinct
    have hnext : ∀ tail, readFields (fuel + 1 + 1) done
        ((writeField layout field).toList ++ ',' :: tail)
          = readFields (fuel + 1) (done ++ [(field.1, f field.2)]) (skipSpace tail) := by
      intro tail
      have hends : EndsNumber (',' :: tail) := endsNumber_cons tail (by decide)
      rw [← hput]
      exact readFields_next (hread field List.mem_cons_self) done (by omega) hends rfl
    have happ : done ++ (field :: next :: fields).map (Prod.map id f)
        = done ++ [(field.1, f field.2)] ++ (next :: fields).map (Prod.map id f) :=
      List.append_cons done (field.1, f field.2) _
    rw [happ] at hdistinct ⊢
    rw [List.cons_append, hnext, List.append_assoc, List.append_assoc,
      hgap.skipSpace_append (startsValue_writeField layout next)]
    exact ih (fun e he => hread e (List.mem_cons_of_mem _ he)) hdistinct fuel (by omega)

/-- An object is read as what its fields are read as, if no name comes twice. -/
theorem readsAs_obj {layout : Layout} {f : Json → Json} {fields : List (String × Json)}
    (hdistinct : (Table.names fields).Nodup)
    (hfields : ∀ e ∈ fields, ReadsAs layout.inner e.2 (f e.2)) :
    ReadsAs layout (.obj fields) (.obj (fields.map (Prod.map id f))) := by
  have hnames : Table.Distinct ([] ++ fields.map (Prod.map id f)) := by
    rw [List.nil_append, Table.Distinct, Table.names, List.map_map]
    exact hdistinct
  rw [ReadsAs, writeIn, writeFields_eq]
  cases fields with
  | nil =>
    have htext : (enclose layout "\x7b" "\x7d" []).toList = ['\x7b', '\x7d'] := by simp [enclose]
    rw [List.map_nil, htext]
    refine ⟨⟨'\x7b', ['\x7d'], rfl, by decide⟩, fun fuel rest hfuel _ => ?_⟩
    cases fuel with
    | zero => simp at hfuel
    | succ fuel => rfl
  | cons field fields =>
    have hopening : "\x7b".toList = ['\x7b'] := rfl
    have hclosing : "\x7d".toList = ['\x7d'] := rfl
    rw [List.map_cons, toList_enclose_cons layout hopening hclosing, List.map_map]
    refine ⟨⟨'\x7b', _, rfl, by decide⟩, fun fuel rest hfuel _ => ?_⟩
    cases fuel with
    | zero => simp at hfuel
    | succ fuel =>
      simp only [List.length_append, List.length_cons] at hfuel
      obtain ⟨fuel, rfl⟩ : ∃ k, fuel = k + 1 := ⟨fuel - 1, by omega⟩
      simp only [List.cons_append, List.append_assoc, List.nil_append]
      rw [readValue_obj (blanks_break layout.inner) (startsValue_writeField _ field)]
      exact readFields_written (blanks_gap layout) (blanks_break layout) hfields hnames rest fuel
        (by omega)

/-! ## Values as a whole -/

/-- A value that has a document: no whole number in it has too many digits, and no object in it has
a name twice. -/
inductive Writable : Json → Prop
  | null : Writable .null
  | bool (b : Bool) : Writable (.bool b)
  | int {n : Int} (h : IsShort n) : Writable (.int n)
  | float (x : Binary64) : Writable (.float x)
  | str (s : String) : Writable (.str s)
  | arr {items : List Json} (hitems : ∀ v ∈ items, Writable v) : Writable (.arr items)
  | obj {fields : List (String × Json)} (hnames : (Table.names fields).Nodup)
      (hfields : ∀ e ∈ fields, Writable e.2) : Writable (.obj fields)

mutual

/-- The value with other numbers in the place of its numbers with a fraction. -/
def mapFloats (f : Binary64 → Binary64) : Json → Json
  | .float x => .float (f x)
  | .arr items => .arr (mapItemFloats f items)
  | .obj fields => .obj (mapFieldFloats f fields)
  | v => v

/-- The items with other numbers in the place of their numbers with a fraction. -/
def mapItemFloats (f : Binary64 → Binary64) : List Json → List Json
  | [] => []
  | v :: rest => v.mapFloats f :: mapItemFloats f rest

/-- The fields with other numbers in the place of their numbers with a fraction. -/
def mapFieldFloats (f : Binary64 → Binary64) : List (String × Json) → List (String × Json)
  | [] => []
  | (name, v) :: rest => (name, v.mapFloats f) :: mapFieldFloats f rest

end

variable {f : Binary64 → Binary64}

/-- In a list, the fractions of its items are changed. -/
@[simp]
theorem mapFloats_arr (items : List Json) :
    (Json.arr items).mapFloats f = .arr (items.map (mapFloats f)) := by
  have hitems : mapItemFloats f items = items.map (mapFloats f) := by
    induction items with
    | nil => rfl
    | cons v rest ih => rw [mapItemFloats, ih, List.map_cons]
  rw [mapFloats, hitems]

/-- In an object, those of its fields are. -/
@[simp]
theorem mapFloats_obj (fields : List (String × Json)) :
    (Json.obj fields).mapFloats f = .obj (fields.map (Prod.map id (mapFloats f))) := by
  have hfields : mapFieldFloats f fields = fields.map (Prod.map id (mapFloats f)) := by
    induction fields with
    | nil => rfl
    | cons e rest ih =>
      rw [mapFieldFloats, ih, List.map_cons]
      rfl
  rw [mapFloats, hfields]

/-- If numbers with a fraction are read as other ones, then values are read with these in their
place. -/
theorem readsAs_mapFloats (hf : ∀ x layout, ReadsAs layout (.float x) (.float (f x))) {v : Json}
    (hv : v.Writable) (layout : Layout) : ReadsAs layout v (v.mapFloats f) := by
  induction hv generalizing layout with
  | null => exact readsAs_null layout
  | bool b => exact readsAs_bool layout b
  | int h => exact readsAs_int layout h
  | float x => exact hf x layout
  | str s => exact readsAs_str layout s
  | arr _ ih =>
    rw [mapFloats_arr]
    exact readsAs_arr fun v hv => ih v hv layout.inner
  | obj hnames _ ih =>
    rw [mapFloats_obj]
    exact readsAs_obj hnames fun e he => ih e he layout.inner

/-! ## Documents -/

/-- A whole document is read as what is read where its value starts. -/
theorem ReadsAs.read_eq {layout : Layout} {v w : Json} (h : ReadsAs layout v w) :
    read (v.writeIn layout) = .ok w := by
  obtain ⟨⟨c, tail, htext, hspace, -, -, hmark⟩, hread⟩ := h
  have hvalue := hread ((v.writeIn layout).toList.length + 1) [] (by omega) endsNumber_nil
  have hskip : skipSpace (v.writeIn layout).toList = (v.writeIn layout).toList := by
    rw [htext, skipSpace, List.dropWhile_cons, hspace]
    rfl
  have hall : readAll (v.writeIn layout).toList = .ok w := by
    rw [List.append_nil] at hvalue
    -- A byte order mark is looked for first, and no value starts with one.
    unfold readAll
    split
    · rename_i h
      rw [htext] at h
      exact absurd (List.cons.inj h).1 hmark
    · rw [hskip, hvalue]
      rfl
  rw [read, hall]
  rfl

/-- A document is read as the value that it was written from, with other numbers in the place of its
numbers with a fraction; these depend on nothing but the numbers themselves. -/
theorem read_writeIn : ∃ f : Binary64 → Binary64, ∀ v : Json, v.Writable → ∀ layout : Layout,
    read (v.writeIn layout) = .ok (v.mapFloats f) := by
  choose f hf using exists_readsAs_float
  exact ⟨f, fun v hv layout => (readsAs_mapFloats hf hv layout).read_eq⟩

/-! ## Values without a fraction -/

/-- Items are exact if each of them is. -/
theorem itemsExact_iff {items : List Json} : ItemsExact items ↔ ∀ v ∈ items, v.Exact := by
  induction items with
  | nil => simp [ItemsExact]
  | cons v rest ih => rw [ItemsExact, ih, List.forall_mem_cons]

/-- Fields are exact if the value of each is. -/
theorem fieldsExact_iff {fields : Table Json} :
    FieldsExact fields ↔ ∀ field ∈ fields, field.2.Exact := by
  induction fields with
  | nil => simp [FieldsExact]
  | cons field rest ih => rw [FieldsExact, ih, List.forall_mem_cons]

/-- To prove something of all values, prove it of arrays and objects from their parts. -/
@[elab_as_elim]
theorem induction_on {P : Json → Prop} (v : Json) (null : P .null) (bool : ∀ b, P (.bool b))
    (int : ∀ n, P (.int n)) (float : ∀ x, P (.float x)) (str : ∀ s, P (.str s))
    (arr : ∀ items, (∀ v ∈ items, P v) → P (.arr items))
    (obj : ∀ fields, (∀ e ∈ fields, P e.2) → P (.obj fields)) : P v :=
  @Json.rec P (fun items => ∀ v ∈ items, P v) (fun fields => ∀ e ∈ fields, P e.2)
    (fun e => P e.2) null bool int float str arr obj nofun
    (fun _ _ hv hrest => List.forall_mem_cons.mpr ⟨hv, hrest⟩) nofun
    (fun _ _ he hrest => List.forall_mem_cons.mpr ⟨he, hrest⟩) (fun _ _ hv => hv) v

/-- A value without fractions has a document, and no number is another one in it. -/
theorem Exact.writable {v : Json} (h : v.Exact) :
    v.Writable ∧ ∀ f : Binary64 → Binary64, v.mapFloats f = v := by
  induction v using induction_on with
  | null => exact ⟨.null, fun _ => rfl⟩
  | bool b => exact ⟨.bool b, fun _ => rfl⟩
  | int n => exact ⟨.int (by rwa [Exact] at h), fun _ => rfl⟩
  | float x => exact absurd h (by rw [Exact]; exact id)
  | str s => exact ⟨.str s, fun _ => rfl⟩
  | arr items ih =>
    rw [Exact, itemsExact_iff] at h
    refine ⟨.arr fun v hv => (ih v hv (h v hv)).1, fun f => ?_⟩
    have hsame : items.map (mapFloats f) = items.map id :=
      List.map_congr_left fun v hv => (ih v hv (h v hv)).2 f
    rw [mapFloats_arr, hsame, List.map_id]
  | obj fields ih =>
    rw [Exact, fieldsExact_iff] at h
    refine ⟨.obj h.1 fun e he => (ih e he (h.2 e he)).1, fun f => ?_⟩
    have hsame : fields.map (Prod.map id (mapFloats f)) = fields.map id :=
      List.map_congr_left fun e he => congrArg (Prod.mk e.1) ((ih e he (h.2 e he)).2 f)
    rw [mapFloats_obj, hsame, List.map_id]

/-- The document of a value is read as that value. -/
theorem read_write {v : Json} (hv : v.Exact) : read v.write = .ok v := by
  obtain ⟨f, hf⟩ := read_writeIn
  obtain ⟨hwritable, hsame⟩ := hv.writable
  rw [write, hf v hwritable, hsame]

end VirtualShell.Json
