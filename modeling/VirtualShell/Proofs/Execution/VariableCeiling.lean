import VirtualShell.Proofs.Execution.Orderly
import VirtualShell.Proofs.Text.Lines

/-!
# How many variables there can be

A new variable is let in only while there are fewer than a hundred, and only under a short name that
is an identifier, but for a line feed that may stand behind it. One variable comes in without being
asked: the working directory is noted in `PWD` at the end of every line. As `PWD` can be removed
like any other variable, a line can fill its place before it is noted again.

So there are never more than a hundred variables besides `PWD`, and never more than a hundred
altogether just where every line leaves room for `PWD` (`variables_after_lines`).
-/

namespace VirtualShell

/-! ## Names -/

namespace Text

/-- No line feed stands in an identifier. -/
theorem notMem_of_isIdentifier {cs : List Char} (h : isIdentifier cs = true) : '\n' ∉ cs := by
  cases cs with
  | nil => exact nofun
  | cons c rest =>
    rw [isIdentifier, Bool.and_eq_true, List.all_eq_true] at h
    intro hmem
    rcases List.mem_cons.mp hmem with rfl | hrest
    · exact absurd h.1 (by decide)
    · exact absurd (h.2 _ hrest) (by decide)

end Text

namespace Variable

variable {name : String}

/-- A text may name a variable if it is an identifier up to one line feed at its end. -/
theorem isName_iff :
    isName name = true ↔ Text.isIdentifier (Text.dropFinalNewline name.toList) = true := by
  rw [isName, Bool.or_eq_true]
  refine ⟨fun h => h.elim (fun hid => ?_) id, .inr⟩
  rw [Text.dropFinalNewline_of_notMem (Text.notMem_of_isIdentifier hid)]
  exact hid

/-- The name of a variable is an identifier unless a line feed stands in it. -/
theorem isIdentifier_iff_of_isName (h : isName name = true) :
    Text.isIdentifier name.toList = true ↔ '\n' ∉ name.toList := by
  refine ⟨Text.notMem_of_isIdentifier, fun hnot => ?_⟩
  rw [isName_iff, Text.dropFinalNewline_of_notMem hnot] at h
  exact h

end Variable

/-! ## Ceilings -/

namespace Environment

variable {e e' : Environment} {name value : String}

/-- The names of the variables besides the one that shows the working directory. -/
def otherNames (e : Environment) : List String :=
  e.current.names.filter (· ≠ "PWD")

/-- The working directory can be noted without going beyond the ceiling. -/
def LeavesRoom (e : Environment) : Prop :=
  "PWD" ∈ e.current.names ∨ e.current.length < Variable.maxCount

instance (e : Environment) : Decidable e.LeavesRoom :=
  inferInstanceAs (Decidable (_ ∨ _))

/-- What is known of the variables of every session. -/
structure WithinCeilings (e : Environment) : Prop where
  names : ∀ name ∈ e.current.names,
    Variable.isName name = true ∧ name.length ≤ Variable.maxNameLength
  others : e.otherNames.length ≤ Variable.maxCount

/-- The names of the variables in a new environment. -/
theorem names_new (cwd : Path) (user : String) : (new cwd user).current.names =
    ["HOME", "USER", "SHELL", "TERM", "PATH", "LANG", "PWD", "TERMINAL_VERSION", "EDITOR"] :=
  rfl

/-- A new environment is within the ceilings. -/
theorem withinCeilings_new (cwd : Path) (user : String) : (new cwd user).WithinCeilings := by
  refine ⟨?_, ?_⟩
  · rw [names_new]
    decide
  · rw [otherNames, names_new]
    decide

/-- It holds no more variables than the ceiling allows. -/
theorem length_new_le (cwd : Path) (user : String) :
    (new cwd user).current.length ≤ Variable.maxCount := by
  rw [← Table.length_names, names_new]
  decide

/-- The names other than that of the working directory are no more than all. -/
theorem length_otherNames_le (e : Environment) : e.otherNames.length ≤ e.current.length := by
  rw [← Table.length_names]
  exact List.length_filter_le _ _

/-- A new variable is let in only where there is room for it. -/
theorem WithinCeilings.set (h : e.WithinCeilings) (hset : e.set name value = .ok e') :
    e'.WithinCeilings := by
  obtain ⟨hvalidate, rfl⟩ := set_eq_ok_iff.mp hset
  obtain ⟨hvalid, hroom⟩ := validate_eq_none_iff.mp hvalidate
  refine ⟨fun other hother => ?_, ?_⟩
  · rcases Table.mem_names_put.mp hother with rfl | hold
    · exact ⟨hvalid.isName, hvalid.shortName⟩
    · exact h.names other hold
  · by_cases hmem : name ∈ e.current.names
    · rw [otherNames, current_store, Table.names_put_of_mem _ hmem]
      exact h.others
    · have hlength := hroom.resolve_left hmem
      calc (e.store name value).otherNames.length
          ≤ (e.store name value).current.length := length_otherNames_le _
        _ = e.current.length + 1 := by
          rw [current_store, Table.put_of_not_mem _ hmem, List.length_append, List.length_singleton]
        _ ≤ Variable.maxCount := hlength

/-- Removing a variable leaves an environment within the ceilings. -/
theorem WithinCeilings.unset? (h : e.WithinCeilings) (hunset : e.unset? name = some e') :
    e'.WithinCeilings := by
  obtain ⟨-, -, rfl⟩ := unset?_eq_some_iff.mp hunset
  refine ⟨fun other hother => h.names other (Table.mem_names_erase.mp hother).1, ?_⟩
  have hsub : List.Sublist (e.current.erase name).names e.current.names := by
    rw [Table.names_erase]
    exact List.filter_sublist
  exact (hsub.filter _).length_le.trans h.others

/-- Noting the working directory changes no other variable. -/
theorem WithinCeilings.withCwd (h : e.WithinCeilings) (cwd : Path) :
    (e.withCwd cwd).WithinCeilings := by
  refine ⟨fun other hother => ?_, ?_⟩
  · rcases Table.mem_names_put.mp hother with rfl | hold
    · decide
    · exact h.names other hold
  · have hothers : (e.withCwd cwd).otherNames = e.otherNames := by
      rw [otherNames, Environment.withCwd, current_store]
      by_cases hmem : "PWD" ∈ e.current.names
      · rw [Table.names_put_of_mem _ hmem, otherNames]
      · rw [Table.names_put_of_not_mem _ hmem, List.filter_append, otherNames]
        simp
    rw [hothers]
    exact h.others

/-! ### All variables together -/

/-- Setting a variable does not go beyond the ceiling. -/
theorem length_set_le (h : e.current.length ≤ Variable.maxCount)
    (hset : e.set name value = .ok e') : e'.current.length ≤ Variable.maxCount := by
  obtain ⟨hvalidate, rfl⟩ := set_eq_ok_iff.mp hset
  obtain ⟨-, hroom⟩ := validate_eq_none_iff.mp hvalidate
  by_cases hmem : name ∈ e.current.names
  · rw [← Table.length_names, current_store, Table.names_put_of_mem _ hmem, Table.length_names]
    exact h
  · rw [current_store, Table.put_of_not_mem _ hmem, List.length_append, List.length_singleton]
    exact hroom.resolve_left hmem

/-- Nor does removing one. -/
theorem length_unset?_le (h : e.current.length ≤ Variable.maxCount)
    (hunset : e.unset? name = some e') : e'.current.length ≤ Variable.maxCount := by
  obtain ⟨-, -, rfl⟩ := unset?_eq_some_iff.mp hunset
  exact (List.length_filter_le _ _).trans h

/-- Noting the working directory keeps to the ceiling just where there is room for it. -/
theorem length_withCwd_le_iff (h : e.current.length ≤ Variable.maxCount) (cwd : Path) :
    (e.withCwd cwd).current.length ≤ Variable.maxCount ↔ e.LeavesRoom := by
  rw [Environment.withCwd, current_store, LeavesRoom]
  by_cases hmem : "PWD" ∈ e.current.names
  · rw [← Table.length_names, Table.names_put_of_mem _ hmem, Table.length_names]
    exact iff_of_true h (.inl hmem)
  · rw [Table.put_of_not_mem _ hmem, List.length_append, List.length_singleton]
    exact (or_iff_right hmem).symm

end Environment

/-! ## Runs -/

namespace Session

variable {s s' : Session} {now : Timestamp}

/-- A turn leaves the variables within the ceilings. -/
theorem Turn.withinCeilings (h : s.Turn now s') (hs : s.environment.WithinCeilings) :
    s'.environment.WithinCeilings := by
  cases h with
  | elsewhere _ henvironment => exact henvironment ▸ hs
  | setVariable hset => exact hs.set hset
  | unsetVariable hunset => exact hs.unset? hunset
  | setAlias | removeAlias | clearAliases => exact hs

/-- It adds no variable beyond the ceiling. -/
theorem Turn.length_le (h : s.Turn now s')
    (hs : s.environment.current.length ≤ Variable.maxCount) :
    s'.environment.current.length ≤ Variable.maxCount := by
  cases h with
  | elsewhere _ henvironment => exact henvironment ▸ hs
  | setVariable hset => exact Environment.length_set_le hs hset
  | unsetVariable hunset => exact Environment.length_unset?_le hs hunset
  | setAlias | removeAlias | clearAliases => exact hs

/-- After any lines the variables are within the ceilings. -/
theorem withinCeilings_afterLines (hs : s.environment.WithinCeilings)
    (calls : List (Timestamp × String)) : (s.afterLines calls).environment.WithinCeilings := by
  induction calls generalizing s with
  | nil => exact hs
  | cons call rest ih =>
    exact ih (keeps_execute (P := fun s => s.environment.WithinCeilings)
      (fun hturn => hturn.withinCeilings) (fun _ hp => hp.withCwd _) call.2 call.1 hs)

/-- Within the ceiling, a line ends within the ceiling just where it leaves room for the working
directory to be noted. -/
theorem length_execute_le_iff (hs : s.environment.current.length ≤ Variable.maxCount)
    (line : String) (now : Timestamp) :
    ((Execution.execute line).run now s).session.environment.current.length ≤ Variable.maxCount ↔
      ((Execution.runLine Aliases.maxDepth line none).run now
        s).session.environment.LeavesRoom := by
  rw [(Execution.run_execute line now s).2]
  exact Environment.length_withCwd_le_iff
    ((Execution.turns_runLine _ line none now s).keeps
      (P := fun s => s.environment.current.length ≤ Variable.maxCount)
      (fun hturn => hturn.length_le) hs) _

/-- The last line is executed in the session that the earlier ones lead to. -/
theorem afterLines_concat (s : Session) (earlier : List (Timestamp × String)) (now : Timestamp)
    (line : String) : s.afterLines (earlier ++ [(now, line)])
      = ((Execution.execute line).run now (s.afterLines earlier)).session := by
  rw [afterLines, List.foldl_append]
  rfl

/-- A run stays within the ceiling if each of its lines leaves room, and only then. -/
theorem length_afterLines_le_iff (hs : s.environment.current.length ≤ Variable.maxCount)
    (calls : List (Timestamp × String)) :
    (∀ earlier, earlier <+: calls →
        (s.afterLines earlier).environment.current.length ≤ Variable.maxCount) ↔
      ∀ earlier now line, earlier ++ [(now, line)] <+: calls →
        ((Execution.runLine Aliases.maxDepth line none).run now
          (s.afterLines earlier)).session.environment.LeavesRoom := by
  have hbegins {earlier : List (Timestamp × String)} {call : Timestamp × String}
      (h : earlier ++ [call] <+: calls) : earlier <+: calls :=
    (List.prefix_append earlier [call]).trans h
  constructor
  · intro hlength earlier now line h
    refine (length_execute_le_iff (hlength earlier (hbegins h)) line now).mp ?_
    rw [← afterLines_concat]
    exact hlength _ h
  · intro hroom earlier
    -- Induction on the lines so far: what was within the ceiling before the last of them still is.
    induction earlier using List.reverseRecOn with
    | nil => exact fun _ => hs
    | append_singleton earlier call ih =>
      intro h
      rw [afterLines_concat]
      exact (length_execute_le_iff (ih (hbegins h)) call.2 call.1).mpr (hroom earlier _ _ h)

end Session

namespace Execution

/-- Of the variables of a session that was started on any file system and in which lines were
executed: the names are short, and are identifiers unless a line feed stands at their end; there are
at most a hundred besides the one that shows the working directory; and there were at most a hundred
altogether after every line just where every line left room for that one. -/
theorem variables_after_lines (started : Timestamp) (fs : FileSystem) (mode user : String)
    (readsStartFile : Bool) (calls : List (Timestamp × String)) :
    let start := (Session.launch started fs mode user readsStartFile).session
    let table := fun earlier => (start.afterLines earlier).environment.current
    (∀ name ∈ (table calls).names, name.length ≤ Variable.maxNameLength ∧
        Text.isIdentifier (Text.dropFinalNewline name.toList) = true ∧
        (Text.isIdentifier name.toList = true ↔ '\n' ∉ name.toList)) ∧
      ((table calls).names.filter (· ≠ "PWD")).length ≤ Variable.maxCount ∧
      ((∀ earlier, earlier <+: calls → (table earlier).length ≤ Variable.maxCount) ↔
        ∀ earlier now line, earlier ++ [(now, line)] <+: calls →
          ((runLine Aliases.maxDepth line none).run now
            (start.afterLines earlier)).session.environment.LeavesRoom) := by
  intro start table
  have hlaunch := Session.turns_launch started fs mode user readsStartFile
  have hstart : start.environment.WithinCeilings :=
    hlaunch.keeps (P := fun s => s.environment.WithinCeilings)
      (fun hturn => hturn.withinCeilings) (Environment.withinCeilings_new fs.cwd user)
  have hlength : start.environment.current.length ≤ Variable.maxCount :=
    hlaunch.keeps (P := fun s => s.environment.current.length ≤ Variable.maxCount)
      (fun hturn => hturn.length_le) (Environment.length_new_le fs.cwd user)
  have hafter := Session.withinCeilings_afterLines hstart calls
  refine ⟨fun name hname => ?_, hafter.others, Session.length_afterLines_le_iff hlength calls⟩
  obtain ⟨hisName, hshort⟩ := hafter.names name hname
  exact ⟨hshort, Variable.isName_iff.mp hisName, Variable.isIdentifier_iff_of_isName hisName⟩

/-- Lines that set ninety-one variables, which a new session does not have, and then fill the place
of the one that shows the working directory. -/
def fillingLines : List (Timestamp × String) := [
  (.epoch, "export a b c d e f g h i j k l m n o p q r s t u v w x y z"),
  (.epoch, "export A B C D E F G H I J K L M N O P Q R S T U V W X Y Z"),
  (.epoch, "export aa ba ca da ea fa ga ha ia ja ka la ma na oa pa qa ra sa ta ua va wa xa ya za"),
  (.epoch, "export Aa Ba Ca Da Ea Fa Ga Ha Ia Ja Ka La Ma"),
  (.epoch, "unset PWD; export Na")]

/-- Neither does every name stay an identifier, nor the number of variables within a hundred. -/
theorem variables_beyond_ceilings :
    let fs := DefaultTree.fileSystem .epoch
    let start := (Session.launch .epoch fs "default" "user" false).session
    "A\n" ∈ (start.afterLines [(.epoch, "export 'A\n'")]).environment.current.names ∧
      Text.isIdentifier "A\n".toList = false ∧
      (start.afterLines fillingLines).environment.current.length = Variable.maxCount + 1 := by
  decide +kernel

end Execution

end VirtualShell
