import Mathlib.Logic.Relation
import VirtualShell.Proofs.Session.Laws
import VirtualShell.Terminal.History

/-!
# The lines of a history and the place among them

A history is opened, with the lines of its session or without, and is then called any number of
times, in any order and in whatever state the session is by then. Each call leaves the place among
the lines or right behind them, and leaves no more lines than the limit says, if it says more than
none (`Call.keeps`). So looking back and forward always finds a line where it looks
(`LooksAtLines`).

A limit of none is kept only by a history that has found no lines: a new line takes the place of an
old one, so that those found at first are never made fewer (`within_limit_iff`).
-/

namespace VirtualShell.History

variable {h h' h₀ : History} {limit first : Nat}

/-! ## Calls -/

/-- A history that has been opened: it starts without lines, or with those that it loads from a
session. -/
inductive Opened (limit : Nat) : History → Prop
  | alone : Opened limit { limit }
  | loaded {now : Timestamp} {s : Session} {h : History}
      (hload : ((load { limit }).run now s).outcome = .ok h) : Opened limit h

/-- What a call makes of a history. A line is taken up with a session or without one; with a session
the file may fail to be written. -/
inductive Call : History → History → Prop
  | add (h : History) (line : String) : Call h (h.add line)
  | record {h h' : History} {line : String} {fault : Option Fault} {now : Timestamp} {s : Session}
      (hrecord : ((h.record line).run now s).outcome = .ok (h', fault)) : Call h h'
  | previous (h : History) : Call h h.previous.2
  | next (h : History) : Call h h.next.2

/-- Looking back and forward goes from line to line: where a line is given, it is the one at the new
place. In front of the first line there is none, and behind the last one there is an empty line. -/
structure LooksAtLines (h : History) : Prop where
  front : h.position = 0 → h.previous = (none, h)
  back : ∀ n, h.position = n + 1 →
    ∃ line, h.entries[n]? = some line ∧ h.previous = (some line, { h with position := n })
  forward : h.position + 1 < h.entries.length →
    ∃ line, h.entries[h.position + 1]? = some line ∧
      h.next = (line, { h with position := h.position + 1 })
  behind : h.entries.length ≤ h.position + 1 → h.next = ("", h.toEnd)

/-- Nothing more is needed than that the place is not beyond the lines. -/
theorem looksAtLines (hplace : h.position ≤ h.entries.length) : h.LooksAtLines where
  front hfront := by rw [previous, hfront]
  back n hn := by
    have hn' : n < h.entries.length := by omega
    refine ⟨h.entries[n], List.getElem?_eq_getElem hn', ?_⟩
    rw [previous, hn]
    dsimp only
    rw [List.getElem?_eq_getElem hn']
  forward hnext := by
    refine ⟨h.entries[h.position + 1], List.getElem?_eq_getElem hnext, ?_⟩
    rw [next, List.getElem?_eq_getElem hnext]
  behind hlast := by rw [next, List.getElem?_eq_none hlast]

/-! ## The session -/

/-- The lines that a history finds in a session are those of the file, if there is one. -/
theorem run_load (h : History) (now : Timestamp) (s : Session) :
    h.load.run now s =
      { outcome := match s.fileSystem.node? Builtin.historyFile with
          | .error e => .error (.tree e)
          | .ok (some (.file _ content)) => .ok (h.withFileText content).toEnd
          | .ok _ => .ok h.toEnd
        session := s } := by
  change Shell.bind (Shell.node? Builtin.historyFile) _ now s = _
  rw [Shell.bind, Shell.node?, Shell.query]
  cases s.fileSystem.node? Builtin.historyFile with
  | error e => rfl
  | ok found =>
    rcases found with - | (⟨info, content⟩ | ⟨info, entries⟩ | info) <;> rfl

/-- A line is taken up whatever becomes of the file; only the place stays behind with a fault. -/
theorem outcome_record (h : History) (line : String) (now : Timestamp) (s : Session) :
    ((h.record line).run now s).outcome =
      if Text.isBlankText line then .ok (h.toEnd, none)
      else match ((h.push line).save.run now s).outcome with
        | .ok _ => .ok ((h.push line).toEnd, none)
        | .error fault => .ok (h.push line, some fault) := by
  rw [record]
  split
  · rfl
  · have hattempt : ((Shell.attempt (h.push line).save).run now s).outcome
        = .ok ((h.push line).save.run now s).outcome := rfl
    dsimp only
    rw [Shell.outcome_bind_of_ok hattempt]
    cases ((h.push line).save.run now s).outcome <;> rfl

/-! ## What calls keep -/

/-- A history is as calls keep it, of which the limit and the number of lines at first are known. -/
structure Kept (limit first : Nat) (h : History) : Prop where
  limit_eq : h.limit = limit
  position_le : h.position ≤ h.entries.length
  length_le : limit ≠ 0 → h.entries.length ≤ limit
  length_eq : limit = 0 → h.entries.length = first

/-- Going to the end keeps what is kept. -/
theorem Kept.toEnd (hk : Kept limit first h) : Kept limit first h.toEnd :=
  { hk with position_le := Nat.le_refl _ }

/-- A further entry makes a history one longer, until it is full. -/
theorem length_push (h : History) (line : String) :
    (h.push line).entries.length
      = if h.limit < h.entries.length + 1 then h.entries.length else h.entries.length + 1 := by
  have hlength : (h.entries ++ [line]).length = h.entries.length + 1 := List.length_append
  rw [push, hlength, Int.natCast_add, Int.natCast_one]
  dsimp only
  split
  · rw [List.length_tail, hlength, Nat.add_sub_cancel]
  · exact hlength

/-- A new line makes the lines more only as long as there is room. -/
theorem Kept.push (hk : Kept limit first h) (line : String) : Kept limit first (h.push line) := by
  have hlength := length_push h line
  rw [hk.limit_eq] at hlength
  obtain ⟨hlimit, hplace, hle, heq⟩ := hk
  refine ⟨hlimit, ?_, fun hroom => ?_, fun hnone => ?_⟩
  · change h.position ≤ _
    split at hlength <;> omega
  · have := hle hroom
    split at hlength <;> omega
  · have := heq hnone
    split at hlength <;> omega

/-- Adding a line keeps what is kept. -/
theorem Kept.add (hk : Kept limit first h) (line : String) : Kept limit first (h.add line) := by
  rw [History.add]
  split
  · exact hk.toEnd
  · exact (hk.push line).toEnd

/-- No call loses what is kept. -/
theorem Call.keeps (hcall : Call h h') (hk : Kept limit first h) : Kept limit first h' := by
  cases hcall with
  | add line => exact hk.add line
  | record hrecord =>
    rw [outcome_record] at hrecord
    split at hrecord
    · cases hrecord
      exact hk.toEnd
    · split at hrecord
      · cases hrecord
        exact (hk.push _).toEnd
      · cases hrecord
        exact hk.push _
  | previous =>
    rw [History.previous]
    split
    · exact hk
    · rename_i n hn
      have hplace := hk.position_le
      exact { hk with position_le := by dsimp only; omega }
  | next =>
    rw [History.next]
    split
    · rename_i line hnext
      obtain ⟨hlast, -⟩ := List.getElem?_eq_some_iff.mp hnext
      exact { hk with position_le := Nat.le_of_lt hlast }
    · exact hk.toEnd

/-- So does any row of calls. -/
theorem Kept.of_calls (hk : Kept limit first h) (hcalls : Relation.ReflTransGen Call h h') :
    Kept limit first h' := by
  induction hcalls with
  | refl => exact hk
  | tail _ hcall ih => exact hcall.keeps ih

/-! ## The lines that are found -/

/-- With a limit above zero, the last lines are kept. -/
theorem keepLast_of_pos {limit : Int} (hlimit : 0 < limit) (lines : List String) :
    keepLast limit lines = lines.drop (lines.length - limit.toNat) :=
  if_pos hlimit

/-- They are no more than the limit. -/
theorem length_keepLast_le {limit : Int} (hlimit : 0 < limit) (lines : List String) :
    (keepLast limit lines).length ≤ limit := by
  rw [keepLast_of_pos hlimit, List.length_drop]
  omega

/-- A history finds no more lines than its limit says, unless that is none. -/
theorem Opened.kept (hopened : Opened limit h) : Kept limit h.entries.length h := by
  cases hopened with
  | alone => exact ⟨rfl, Nat.le_refl _, fun _ => Nat.zero_le _, fun _ => rfl⟩
  | @loaded now s _ hload =>
    rw [run_load] at hload
    dsimp only at hload
    split at hload
    · cases hload
    · rename_i content _
      cases hload
      refine ⟨?_, Nat.le_refl _, fun hlimit => ?_, fun _ => rfl⟩
      · rw [toEnd, withFileText]
        split <;> rfl
      · rw [toEnd, withFileText]
        split
        · exact Nat.zero_le _
        · have hpos : (0 : Int) < limit := by omega
          exact Int.ofNat_le.mp (length_keepLast_le hpos _)
    · cases hload
      exact ⟨rfl, Nat.le_refl _, fun _ => Nat.zero_le _, fun _ => rfl⟩

/-- After any calls the place is among the lines or right behind them, so that looking back and
forward goes from line to line; and there are no more lines than the limit says just where this says
more than none, or no lines were found at first. -/
theorem within_limit_iff (hopened : Opened limit h₀) (hcalls : Relation.ReflTransGen Call h₀ h) :
    h.position ≤ h.entries.length ∧ h.LooksAtLines ∧
      (h.entries.length ≤ limit ↔ limit ≠ 0 ∨ h₀.entries = []) := by
  have hk := hopened.kept.of_calls hcalls
  refine ⟨hk.position_le, looksAtLines hk.position_le, ?_⟩
  by_cases hlimit : limit = 0
  · rw [hk.length_eq hlimit, hlimit, Nat.le_zero, List.length_eq_zero_iff]
    simp
  · exact iff_of_true (hk.length_le hlimit) (.inl hlimit)

/-- A session in which one line has been entered before. -/
def rememberingSession : Session :=
  Session.new
    { root := .newDirectory .epoch "/"
        [("home", .newDirectory .epoch "home"
          [("user", .newDirectory .epoch "user"
            [(".history", .newFile .epoch ".history" "ls\n")])])]
      cwd := Path.home }

/-- One line is found, a second one takes its place, and looking back goes to that. -/
theorem within_limit_after_second_line :
    let h₀ : History := { limit := 1, entries := ["ls"], position := 1 }
    let h : History := { limit := 1, entries := ["pwd"], position := 0 }
    (Opened 1 h₀ ∧ Relation.ReflTransGen Call h₀ h) ∧
      h.position ≤ h.entries.length ∧ h.LooksAtLines ∧
        (h.entries.length ≤ 1 ↔ 1 ≠ 0 ∨ h₀.entries = []) := by
  intro h₀ h
  have hload : ((load { limit := 1 }).run .epoch rememberingSession).outcome = .ok h₀ := rfl
  have hopened : Opened 1 h₀ := .loaded hload
  have hrecord : ((h₀.record "pwd").run .epoch rememberingSession).outcome
      = .ok ({ h with position := 1 }, none) := rfl
  have hcalls : Relation.ReflTransGen Call h₀ h :=
    .tail (.single (.record hrecord)) (.previous { h with position := 1 })
  exact ⟨⟨hopened, hcalls⟩, within_limit_iff hopened hcalls⟩

/-- With a limit of none, the line that is found is kept. -/
theorem found_line_exceeds_limit :
    ∃ h, Opened 0 h ∧ ¬ h.entries.length ≤ 0 := by
  have hload : ((load { limit := 0 }).run .epoch rememberingSession).outcome
      = .ok { limit := 0, entries := ["ls"], position := 1 } := rfl
  exact ⟨_, .loaded hload, by decide⟩

end VirtualShell.History
