import VirtualShell.Proofs.Builtin.Lawful
import VirtualShell.Proofs.Builtin.Orderly
import VirtualShell.Proofs.Text.Digits
import VirtualShell.Proofs.Tree.Default

/-!
# Commands that come to a result

In a sound session no command blames the tree, so a command that could break off with such a fault
only comes to a result. This leaves three commands. What `head` and `tail` take for a number of
lines need not be one: the digits that they look for include superscripts and the like, from which
no number is read, and any number of digits. And `grep` breaks off at a pattern that asks for more
than a search can do.

A command comes to a result in all other cases, and in no others (`returns_iff`).
-/

namespace VirtualShell

variable {α : Type}

/-- A computation that blames no tree, and could blame nothing else, comes to a value. -/
theorem exists_ok_of_blameless {x : Except Fault α} (hblameless : Blameless x)
    (hfaults : FaultsIn (fun e => e.blamesTree = true) x) : ∃ a, x = .ok a := by
  cases x with
  | ok a => exact ⟨a, rfl⟩
  | error e =>
    have hblames : e.blamesTree = true := hfaults e rfl
    rw [hblameless e rfl] at hblames
    cases hblames

namespace Builtin

/-! ## Numbers of lines -/

/-- A text that is read as a number of lines. -/
def IsCount (value : String) : Prop :=
  value ≠ "" ∧ value.toList.all Text.isDecimal = true ∧ value.length ≤ Text.maxDigits

/-- A text that passes for a number of lines, but is not read as one: there are digits in it that
are not decimal, or too many digits. -/
def PassesForCount (value : String) : Prop :=
  value ≠ "" ∧ value.toList.all Text.isDigitForm = true ∧ ¬ IsCount value

/-- Going through the arguments of `head` or `tail`, the first text for a number of lines that is
not read as one passes for one. -/
inductive MisreadsCount : List String → Prop
  | operand {arg : String} {rest : List String} (harg : countArgument? arg rest = none)
      (h : MisreadsCount rest) : MisreadsCount (arg :: rest)
  | count {arg value : String} {rest rest' : List String}
      (harg : countArgument? arg rest = some (value, rest')) (hvalue : IsCount value)
      (h : MisreadsCount rest') : MisreadsCount (arg :: rest)
  | here {arg value : String} {rest rest' : List String}
      (harg : countArgument? arg rest = some (value, rest')) (hvalue : PassesForCount value) :
      MisreadsCount (arg :: rest)

instance (value : String) : Decidable (IsCount value) :=
  inferInstanceAs (Decidable (_ ∧ _ ∧ _))

/-- A row of decimal digits is a row of digits in some form. -/
theorem all_isDigitForm_of_isDecimal {cs : List Char} (h : cs.all Text.isDecimal = true) :
    cs.all Text.isDigitForm = true := by
  rw [List.all_eq_true] at h ⊢
  intro c hc
  rw [Text.isDigitForm, h c hc, Bool.true_or]

variable {value : String}

/-- A number is read from a text just where that is a count. -/
theorem exists_readNat_iff_isCount :
    (∃ n, Text.readNat value.toList = .ok n) ↔ IsCount value := by
  rw [Text.exists_readNat_iff, IsCount, String.length_toList, Ne, String.toList_eq_nil_iff]

/-- A number of lines is read, a text that passes for one breaks the reading off, and everything
else is reported as a mistake. -/
theorem readCount_of_isCount (h : IsCount value) (command : String) :
    ∃ n, readCount command value = .ok (.ok n) := by
  obtain ⟨n, hn⟩ := exists_readNat_iff_isCount.mpr h
  have hempty : value.toList.isEmpty = false := by
    rw [List.isEmpty_eq_false_iff, Ne, String.toList_eq_nil_iff]
    exact h.1
  refine ⟨n, ?_⟩
  rw [readCount, hempty, all_isDigitForm_of_isDecimal h.2.1, hn]
  rfl

/-- What only passes for a count breaks the reading off. -/
theorem readCount_of_passesForCount (h : PassesForCount value) (command : String) :
    ∃ e, readCount command value = .error e := by
  obtain ⟨hne, hdigits, hcount⟩ := h
  have hempty : value.toList.isEmpty = false := by
    rw [List.isEmpty_eq_false_iff, Ne, String.toList_eq_nil_iff]
    exact hne
  cases hread : Text.readNat value.toList with
  | ok n => exact absurd (exists_readNat_iff_isCount.mp ⟨n, hread⟩) hcount
  | error e =>
    refine ⟨.number e, ?_⟩
    rw [readCount, hempty, hdigits, hread]
    rfl

/-- What does not even pass for one is refused with a message. -/
theorem readCount_of_not (hcount : ¬ IsCount value) (hpasses : ¬ PassesForCount value)
    (command : String) : ∃ message, readCount command value = .ok (.error message) := by
  have hrefused : (value.toList.isEmpty || !value.toList.all Text.isDigitForm) = true := by
    by_contra h
    rw [Bool.or_eq_true, not_or, List.isEmpty_iff, String.toList_eq_nil_iff, Bool.not_eq_true,
      Bool.not_eq_false'] at h
    exact hpasses ⟨h.1, h.2, hcount⟩
  exact ⟨_, if_pos hrefused⟩

/-- The arguments behind a number of lines are among those behind the first one. -/
theorem length_le_of_countArgument? {arg : String} {rest rest' : List String}
    (h : countArgument? arg rest = some (value, rest')) : rest'.length ≤ rest.length := by
  unfold countArgument? at h
  split at h
  · cases h
    exact Nat.le_succ _
  · split at h
    · cases h
      exact Nat.le_refl _
    · split at h
      · cases h
        exact Nat.le_refl _
      · cases h

/-- Without arguments no count is misread. -/
theorem not_misreadsCount_nil : ¬ MisreadsCount [] := by
  intro h
  cases h

/-- An operand holds no count. -/
theorem misreadsCount_of_operand {arg : String} {rest : List String}
    (harg : countArgument? arg rest = none) : MisreadsCount (arg :: rest) ↔ MisreadsCount rest := by
  refine ⟨fun h => ?_, .operand harg⟩
  cases h with
  | operand _ h => exact h
  | count harg' => cases harg.symm.trans harg'
  | here harg' => cases harg.symm.trans harg'

/-- A count is misread where it only passes for one, or a later one is misread. -/
theorem misreadsCount_of_count {arg : String} {rest rest' : List String}
    (harg : countArgument? arg rest = some (value, rest')) :
    MisreadsCount (arg :: rest) ↔ PassesForCount value ∨ IsCount value ∧ MisreadsCount rest' := by
  constructor
  · intro h
    cases h with
    | operand harg' => cases harg.symm.trans harg'
    | count harg' hvalue h =>
      cases harg.symm.trans harg'
      exact .inr ⟨hvalue, h⟩
    | here harg' hvalue =>
      cases harg.symm.trans harg'
      exact .inl hvalue
  · rintro (hvalue | ⟨hvalue, h⟩)
    · exact .here harg hvalue
    · exact .count harg hvalue h

/-- The arguments of `head` and `tail` are read without a fault, unless a number of lines is
misread. -/
theorem exists_readCut_eq_error_iff (command : String) {fuel : Nat} (cut : Cut)
    {args : List String} (hfuel : args.length ≤ fuel) :
    (∃ e, readCut command fuel cut args = .error e) ↔ MisreadsCount args := by
  have hread (read : Checked Cut) : ¬ ∃ e, (.ok read : Except Fault (Checked Cut)) = .error e := by
    rintro ⟨e, he⟩
    cases he
  induction fuel generalizing cut args with
  | zero =>
    obtain rfl := List.length_eq_zero_iff.mp (Nat.le_zero.mp hfuel)
    exact iff_of_false (hread _) not_misreadsCount_nil
  | succ fuel ih =>
    cases args with
    | nil => exact iff_of_false (hread _) not_misreadsCount_nil
    | cons arg rest =>
      have hrest : rest.length ≤ fuel := Nat.le_of_succ_le_succ hfuel
      rw [readCut]
      cases harg : countArgument? arg rest with
      | none =>
        rw [misreadsCount_of_operand harg]
        exact ih _ hrest
      | some found =>
        obtain ⟨value, rest'⟩ := found
        rw [misreadsCount_of_count harg]
        dsimp only
        by_cases hpasses : PassesForCount value
        · obtain ⟨e, he⟩ := readCount_of_passesForCount hpasses command
          rw [he]
          exact iff_of_true ⟨e, rfl⟩ (.inl hpasses)
        rw [or_iff_right hpasses]
        by_cases hcount : IsCount value
        · obtain ⟨n, hn⟩ := readCount_of_isCount hcount command
          rw [hn, and_iff_right hcount]
          exact ih _ ((length_le_of_countArgument? harg).trans hrest)
        · obtain ⟨message, hmessage⟩ := readCount_of_not hcount hpasses command
          rw [hmessage]
          exact iff_of_false (hread _) fun h => hcount h.1

/-! ## Commands that may break off -/

/-- The arguments of `grep` give a pattern that is well formed, but asks for more than a search can
do. -/
def AsksTooMuch (args : List String) : Prop :=
  ∃ written files e, (Options.parse args).operands = written :: files ∧
    Pattern.read written ((Options.parse args).has ["i"]) = .error e ∧
    ∀ what position, e ≠ .malformed what position

/-- The arguments with which a command breaks off. -/
def BreaksOff : Builtin → List String → Prop
  | .head, args | .tail, args => MisreadsCount args
  | .grep, args => AsksTooMuch args
  | _, _ => False

variable {s : Session} {now : Timestamp}

/-- In a sound session reading files breaks nothing off. -/
theorem exists_readFiles_eq_ok (hs : s.Sound) (command : String) (files : List String) :
    ∃ contents, readFiles s command files = .ok contents :=
  exists_ok_of_blameless (blameless_readFiles hs command files)
    (faultsIn_readFiles (fun _ h => h) s command files)

/-- Nor does gathering the input of a filter. -/
theorem exists_gatherInput_eq_ok (hs : s.Sound) (command : String) (files : List String)
    (stdin : Option String) : ∃ text, gatherInput s command files stdin = .ok text :=
  exists_ok_of_blameless (blameless_gatherInput hs command files stdin)
    (faultsIn_gatherInput (fun _ h => h) s command files stdin)

/-- The commands `head` and `tail` return a result unless they misread a count. -/
theorem runCut_returns_iff (hs : s.Sound) (command : String)
    (keep : Nat → List String → List String) (args : List String) (stdin : Option String) :
    (∃ r, ((runCut command keep args stdin).run now s).outcome = .ok r) ↔
      ¬ MisreadsCount args := by
  rw [← exists_readCut_eq_error_iff command {} (Nat.le_refl args.length)]
  unfold runCut Shell.query Shell.run
  dsimp only
  cases hcut : readCut command args.length {} args with
  | error e => exact iff_of_false nofun fun h => h ⟨e, rfl⟩
  | ok read =>
    refine iff_of_true ?_ nofun
    cases read with
    | error message => exact ⟨_, rfl⟩
    | ok cut =>
      obtain ⟨text, htext⟩ := exists_gatherInput_eq_ok hs command cut.files stdin
      dsimp only [bind, Except.bind]
      rw [htext]
      cases text <;> exact ⟨_, rfl⟩

/-- The command `grep` returns a result unless its pattern asks for too much. -/
theorem runGrep_returns_iff (hs : s.Sound) (args : List String) (stdin : Option String) :
    (∃ r, ((runGrep args stdin).run now s).outcome = .ok r) ↔ ¬ AsksTooMuch args := by
  unfold runGrep AsksTooMuch Shell.query Shell.run
  dsimp only
  cases hoperands : (Options.parse args).operands with
  | nil => exact iff_of_true ⟨_, rfl⟩ nofun
  | cons written files =>
    dsimp only
    cases hread : Pattern.read written ((Options.parse args).has ["i"]) with
    | error e =>
      cases e with
      | malformed what position =>
        refine iff_of_true ⟨_, rfl⟩ ?_
        rintro ⟨_, _, e, hcons, herror, hother⟩
        cases hcons
        cases hread.symm.trans herror
        exact hother what position rfl
      | tooManyRepetitions =>
        exact iff_of_false nofun fun h => h ⟨written, files, _, rfl, hread, nofun⟩
      | number e => exact iff_of_false nofun fun h => h ⟨written, files, _, rfl, hread, nofun⟩
      | conflictingModes =>
        exact iff_of_false nofun fun h => h ⟨written, files, _, rfl, hread, nofun⟩
    | ok pattern =>
      refine iff_of_true ?_ ?_
      · dsimp only
        split
        · split <;> exact ⟨_, rfl⟩
        · obtain ⟨sources, hsources⟩ := exists_readFiles_eq_ok hs "grep" files
          rw [hsources]
          cases sources <;> exact ⟨_, rfl⟩
      · rintro ⟨_, _, e, hcons, herror, -⟩
        cases hcons
        cases hread.symm.trans herror

/-- A command whose only faults blame the tree comes to a result in every sound session. -/
theorem returns_of_expects (hs : s.Sound) {b : Builtin}
    (hb : ∀ e, b.Expects e → e.blamesTree = true) (args : List String) (stdin : Option String) :
    ∃ r, ((b.run args stdin).run now s).outcome = .ok r :=
  exists_ok_of_blameless (lawful_run b args stdin now s hs).blameless
    ((orderly_run b args stdin).mono hb now s).faults

/-! ## All commands -/

/-- In a sound session a command comes to a result, whatever its arguments and its input are, unless
its arguments are such that it breaks off: a number of lines that passes for one and is not read as
one, or a pattern that is well formed and asks for too much. -/
theorem returns_iff (hs : s.Sound) (b : Builtin) (args : List String) (stdin : Option String)
    (now : Timestamp) :
    (∃ r, ((b.run args stdin).run now s).outcome = .ok r) ↔ ¬ b.BreaksOff args := by
  by_cases hhead : b = .head
  · subst hhead
    exact runCut_returns_iff hs "head" _ args stdin
  by_cases htail : b = .tail
  · subst htail
    exact runCut_returns_iff hs "tail" (fun n ls => ls.drop (ls.length - n)) args stdin
  by_cases hgrep : b = .grep
  · subst hgrep
    exact runGrep_returns_iff hs args stdin
  have hexpects : ∀ e, b.Expects e → e.blamesTree = true := by
    intro e he
    cases e with
    | number e => exact absurd he (not_or.mpr ⟨hhead, htail⟩)
    | pattern e => exact absurd he hgrep
    | line | tree | searchedLostEntries | fetchedLostEntries => exact he
  refine iff_of_true (returns_of_expects hs hexpects args stdin) fun h => ?_
  unfold BreaksOff at h
  split at h
  · exact hhead rfl
  · exact htail rfl
  · exact hgrep rfl
  · exact h

/-- A new session on the default tree. -/
def freshSession : Session :=
  Session.new (DefaultTree.fileSystem .epoch)

/-- A fresh session is sound. -/
theorem sound_freshSession : freshSession.Sound :=
  ⟨DefaultTree.sound_fileSystem .epoch, Table.distinct_nil, Environment.sound_new _ _⟩

/-- A count in the digits of another script is read, and a missing file is reported. -/
theorem head_returns_on_missing_file :
    freshSession.Sound ∧
      ∃ r, ((head.run ["-n", "٣", "nope"] none).run .epoch freshSession).outcome = .ok r := by
  have hcount : countArgument? "-n" ["٣", "nope"] = some ("٣", ["nope"]) := rfl
  have hoperand : countArgument? "nope" [] = none := by decide
  refine ⟨sound_freshSession, (returns_iff sound_freshSession head _ none .epoch).mpr ?_⟩
  change ¬ MisreadsCount ["-n", "٣", "nope"]
  rw [misreadsCount_of_count hcount, misreadsCount_of_operand hoperand]
  rintro (⟨-, -, hvalue⟩ | ⟨-, h⟩)
  · exact hvalue (by decide)
  · cases h

/-- A superscript passes for a number of lines, and is not read as one. -/
theorem head_breaks_off_at_superscript :
    freshSession.Sound ∧
      ¬ ∃ r, ((head.run ["-n", "²"] (some "hi\n")).run .epoch freshSession).outcome = .ok r := by
  have hrun : ((head.run ["-n", "²"] (some "hi\n")).run .epoch
      freshSession).outcome.toBool = false := by decide +kernel
  refine ⟨sound_freshSession, ?_⟩
  rintro ⟨r, hr⟩
  rw [hr] at hrun
  cases hrun

end Builtin

end VirtualShell
