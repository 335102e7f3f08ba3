import VirtualShell.Proofs.Document.Atomic
import VirtualShell.Proofs.Execution.Reached

/-!
# Which variables are restored

A document holds the variables that differ from those that the session started with, and these are
set on top of what the restoring session started with. Both start with the same variables up to the
user and the working directory. So a variable is restored with its value (`get?_restored`), with
four exceptions: the one that shows the working directory follows that, a user who was never changed
is the user of the restoring session, a variable that was removed is back if sessions start with it,
and where there would be too many variables some are left out.
-/

namespace VirtualShell

namespace Environment

variable {e : Environment} {name user : String}

/-! ## Variables of a new session -/

/-- New sessions differ in no variable but the user and the working directory. -/
theorem find?_defaultVariables (cwd cwd' : Option Path) (user user' : String)
    (hcwd : name ≠ "PWD") (huser : name ≠ "USER") :
    (defaultVariables cwd user).find? name = (defaultVariables cwd' user').find? name := by
  have hrest : ((defaultVariables cwd user).erase "USER").erase "PWD"
      = ((defaultVariables cwd' user').erase "USER").erase "PWD" := rfl
  rw [← Table.find?_erase_of_ne _ huser, ← Table.find?_erase_of_ne _ hcwd, hrest,
    Table.find?_erase_of_ne _ hcwd, Table.find?_erase_of_ne _ huser]

/-- By default the user is the one of the session. -/
theorem find?_defaultVariables_user (cwd : Option Path) (user : String) :
    (defaultVariables cwd user).find? "USER" = some user := by
  simp [defaultVariables, Table.find?_cons]

/-! ## Variables of a document -/

/-- A variable is written if it is not the working directory and differs from what it was. -/
theorem find?_changed (hd : e.current.Distinct) (name : String) :
    e.changed.find? name
      = (e.get? name).filter fun v => name ≠ "PWD" ∧ e.defaults.find? name ≠ some v :=
  Table.find?_filter hd _ name

/-- What is written of variables can be taken over. -/
theorem StartedWith.isValid_of_mem_changed {defaults : Table String} (h : e.StartedWith defaults)
    (hd : e.current.Distinct) : ∀ entry ∈ e.changed, Variable.IsValid entry.1 entry.2 := by
  intro entry hentry
  obtain ⟨hmem, hchanged⟩ := List.mem_filter.mp hentry
  obtain ⟨hcwd, hdefault⟩ := of_decide_eq_true hchanged
  rw [h.defaults_eq] at hdefault
  have hget : e.get? entry.1 = some entry.2 := Table.find?_of_mem hd hmem
  exact ((h.valid _ _ hget).resolve_left hcwd).resolve_left hdefault

/-- The value that a variable of a session for the user `user` is restored with in a session for the
user `other`: its own value, but the new user where the old one was never changed, and what sessions
start with where the variable is not set. -/
def restoredValue (e : Environment) (user other name : String) : Option String :=
  match e.get? name with
  | some value => some (if name = "USER" ∧ value = user then other else value)
  | none => (defaultVariables none other).find? name

/-- What is written of a variable, or else its value in a new session, is the restored value. -/
theorem find?_changed_or {cwd cwd' : Option Path} {other : String}
    (h : e.StartedWith (defaultVariables cwd user)) (hd : e.current.Distinct)
    (hname : name ≠ "PWD") :
    (e.changed.find? name).or ((defaultVariables cwd' other).find? name)
      = e.restoredValue user other name := by
  rw [find?_changed hd, h.defaults_eq, restoredValue]
  cases hget : e.get? name with
  | none =>
    by_cases huser : name = "USER"
    · subst huser
      simp only [Option.filter_none, Option.none_or, find?_defaultVariables_user]
    · exact find?_defaultVariables _ _ _ _ hname huser
  | some value =>
    by_cases huser : name = "USER"
    · subst huser
      rw [find?_defaultVariables_user, find?_defaultVariables_user, Option.filter_some]
      by_cases hvalue : value = user
      · simp [hvalue]
      · simp [hvalue, Ne.symm hvalue]
    · rw [find?_defaultVariables cwd' cwd other user hname huser, Option.filter_some]
      by_cases hdefault : (defaultVariables cwd user).find? name = some value
      · simp [hdefault, huser]
      · simp [hdefault, huser, hname]

/-- A variable is restored, or else there are more variables than there may be, and it is not one
that sessions start with. -/
theorem get?_restored {cwd : Path} (h : e.StartedWith (defaultVariables (some cwd) user))
    (hs : e.Sound) (start place : Path) (other : String) (hname : name ≠ "PWD") :
    let fresh := new start other
    let restored := (fresh.takeOver
      (e.changed.map fun (name, value) => (name, .str value))).withCwd place
    restored.get? name = e.restoredValue user other name ∨
      restored.get? name = none ∧ fresh.get? name = none ∧
        Variable.maxCount < (e.current.names ∪ fresh.current.names).length := by
  intro fresh restored
  let taken := fresh.takeOver (e.changed.map fun (name, value) => (name, .str value))
  have hplace : restored.get? name = taken.get? name := Table.find?_put_of_ne _ _ hname
  have hchanged : e.changed.Distinct := hs.distinct.filter _
  have htaken := get?_takeOver (e := fresh) hchanged (h.isValid_of_mem_changed hs.distinct) name
  rw [hplace]
  refine htaken.imp (fun hfound => ?_) fun ⟨hmissing, hunknown, hmem, hfull⟩ => ?_
  · exact hfound.trans (find?_changed_or h hs.distinct hname)
  · -- The variable that is missing is one more than those that fill the environment.
    refine ⟨hmissing, hunknown, ?_⟩
    have hold : ∀ other ∈ e.changed.names, other ∈ e.current.names := fun other hother =>
      (List.filter_sublist.map Prod.fst).subset hother
    have hnodup : (name :: taken.current.names).Nodup :=
      List.nodup_cons.mpr ⟨Table.find?_eq_none_iff.mp hmissing,
        ((sound_new start other).takeOver _).distinct⟩
    have hsubset : name :: taken.current.names ⊆ e.current.names ∪ fresh.current.names := by
      refine List.cons_subset.mpr
        ⟨List.mem_union_iff.mpr (.inl (hold name hmem)), fun other hother => ?_⟩
      rcases mem_names_takeOver hother with hfresh | hnew
      · exact List.mem_union_iff.mpr (.inr hfresh)
      · rw [Table.names, List.map_map] at hnew
        exact List.mem_union_iff.mpr (.inl (hold other hnew))
    have hlength := (List.subperm_of_subset hnodup hsubset).length_le
    rw [List.length_cons, Table.length_names] at hlength
    exact Nat.lt_of_lt_of_le (Nat.lt_succ_of_le hfull) hlength

end Environment

/-! ## Sessions -/

namespace Document

variable {s : Session}

/-- Applying a document takes over its variables and notes the working directory. -/
theorem environment_apply (d : Document) (now : Timestamp) (target : Session) :
    (d.apply now target).session.environment
      = (target.environment.takeOver d.environment).withCwd d.workingDirectory := by
  rw [session_apply]
  rfl

/-- Applying what was saved of a session takes over its changed variables. -/
theorem environment_apply_saved (hs : s.Sound) (savedAt now : Timestamp) (target : Session) :
    ((saved savedAt s).apply now target).session.environment
      = (target.environment.takeOver
          (s.environment.changed.map fun (name, value) => (name, .str value))).withCwd
            s.fileSystem.cwd := by
  rw [environment_apply, workingDirectory_saved hs]
  rfl

/-- A session that was started without its start file, or in which a line has been executed, shows
its working directory. -/
theorem showsCwd_reached (fs : FileSystem) (mode user : String) (started : Timestamp)
    {readsStartFile : Bool} {calls : List (Timestamp × String)}
    (h : readsStartFile = false ∨ calls ≠ []) :
    let s := (Session.launch started fs mode user readsStartFile).session.afterLines calls
    s.environment.get? "PWD" = some s.fileSystem.cwd.text := by
  intro s
  rcases List.eq_nil_or_concat calls with hnil | ⟨earlier, call, hconcat⟩
  · obtain rfl := h.resolve_right (not_not_intro hnil)
    subst hnil
    rfl
  · have hlast : s = ((Execution.execute call.2).run call.1
        ((Session.launch started fs mode user readsStartFile).session.afterLines
          earlier)).session := by
      simp only [s, Session.afterLines, hconcat, List.concat_eq_append, List.foldl_concat]
    rw [hlast, (Execution.run_execute call.2 call.1 _).2]
    exact Environment.get?_withCwd _ _

/-- After a session has been saved and its document has been applied in a new session, every
variable has the value that it had, apart from the exceptions that `restoredValue` makes and from
variables for which there is no room; and the working directory is shown. -/
theorem variables_restored {fs : FileSystem} (hfs : fs.Sound)
    (hpermissions : fs.root.HasPermissionTexts) (hsizes : fs.root.HasWritableSizes)
    (mode user : String) (readsStartFile : Bool) (calls : List (Timestamp × String))
    (started savedAt created now : Timestamp) :
    let s := (Session.launch started fs mode user readsStartFile).session.afterLines calls
    let fresh :=
      (Session.launch created (DefaultTree.fileSystem created) "default" "user" false).session
    ∃ d, load now (save savedAt s) = .ok d ∧
      let applied := d.apply now fresh
      let restored := applied.session.environment
      applied.error = none ∧
        restored.get? "PWD" = some s.fileSystem.cwd.text ∧
        (readsStartFile = false ∨ calls ≠ [] →
          s.environment.get? "PWD" = some s.fileSystem.cwd.text) ∧
        ∀ name ≠ "PWD",
          restored.get? name = s.environment.restoredValue user "user" name ∨
            restored.get? name = none ∧ fresh.environment.get? name = none ∧
              Variable.maxCount
                < (s.environment.current.names ∪ fresh.environment.current.names).length := by
  intro s fresh
  obtain ⟨hs, hstorable⟩ : s.Sound ∧
      s.Storable (Environment.defaultVariables (some fs.cwd) user) :=
    Session.storable_reached hfs hpermissions hsizes mode user started readsStartFile calls
  have hroot := hs.fileSystem.tree.kept hstorable.permissions hstorable.sizes
  refine ⟨saved savedAt s, load_save hs hroot savedAt now, ?_, ?_, ?_, fun name hname => ?_⟩
  · exact Aliases.error_ofJson_toJson now s.aliases
  · rw [environment_apply_saved hs]
    exact Environment.get?_withCwd _ _
  · exact showsCwd_reached fs mode user started
  · rw [environment_apply_saved hs]
    exact Environment.get?_restored hstorable.environment hs.environment _ _ _ hname

/-! ## The default tree -/

/-- A text has no more characters than bytes. -/
theorem length_le_utf8ByteSize (s : String) : s.length ≤ s.utf8ByteSize := by
  rw [← String.length_toList, ← String.size_toByteArray, ← String.utf8Encode_toList]
  induction s.toList with
  | nil => exact Nat.zero_le _
  | cons c rest ih =>
    have hsize : [c].utf8Encode.size = c.utf8Size := by simp [List.utf8Encode_singleton]
    have hpos := c.utf8Size_pos
    rw [List.utf8Encode_cons, ByteArray.size_append, hsize, List.length_cons]
    omega

/-- The default tree can be saved without loss, whenever it is made. -/
theorem storable_defaultTree (now : Timestamp) :
    (DefaultTree.fileSystem now).root.HasPermissionTexts ∧
      (DefaultTree.fileSystem now).root.HasWritableSizes := by
  constructor
  · change (DefaultTree.root now).HasPermissionTexts
    refine Node.everywhere_of_decide ?_
    simp only [DefaultTree.root, DefaultTree.dir, Node.newDirectory, Node.newFile,
      DefaultTree.manualPages, List.map, Node.name, Node.info]
    rfl
  · -- Bytes are counted, as it takes long to evaluate the number of characters of a text.
    let check := fun (_ : Path) (face : Node.Face) =>
      face.content.all fun content => content.utf8ByteSize ≤ Limits.maxFileSize
    have hsizes : (DefaultTree.root now).Everywhere fun path face => check path face = true := by
      refine @Node.everywhere_of_passes check [] _ ?_
      simp only [DefaultTree.root, DefaultTree.dir, Node.newDirectory, Node.newFile,
        DefaultTree.manualPages, List.map, Node.name, Node.info, Node.passes, Node.entriesPass,
        Node.face, check, Option.all_none, Option.all_some]
      decide +kernel
    intro path m hm content hcontent
    have hsize : m.face.content.all (·.utf8ByteSize ≤ Limits.maxFileSize) = true :=
      hsizes path m hm
    rw [Option.mem_def.mp hcontent] at hsize
    exact Nat.lt_of_le_of_lt
      (Nat.le_trans (length_le_utf8ByteSize content) (of_decide_eq_true hsize))
      FileSystem.maxFileSize_lt

/-- A new session on the default tree. -/
def newSession : Session :=
  (Session.launch .epoch (DefaultTree.fileSystem .epoch) "default" "user" false).session

/-- The session of a user who has added a variable and removed one. -/
def guestSession : Session :=
  let s := (Session.launch .epoch (DefaultTree.fileSystem .epoch) "default" "guest" false).session
  s.afterLines [(.epoch, "export X=1; unset LANG")]

/-- A variable that was added is restored, one that was removed is back, and the user is the one of
the new session. -/
theorem restored_for_another_user :
    (DefaultTree.fileSystem .epoch).Sound ∧ ∃ d, load .epoch (save .epoch guestSession) = .ok d ∧
      let restored := (d.apply .epoch newSession).session.environment
      restored.get? "X" = some "1" ∧ restored.get? "LANG" = some "en_US.UTF-8" ∧
        restored.get? "USER" = some "user" := by
  have hfs := DefaultTree.sound_fileSystem .epoch
  obtain ⟨hpermissions, hsizes⟩ := storable_defaultTree .epoch
  obtain ⟨d, hload, -, -, -, hrestored⟩ := variables_restored hfs hpermissions hsizes "default"
    "guest" false [(.epoch, "export X=1; unset LANG")] .epoch .epoch .epoch .epoch
  have hroom : (guestSession.environment.current.names
      ∪ newSession.environment.current.names).length ≤ Variable.maxCount := by decide +kernel
  rw [guestSession, newSession] at hroom
  have hvalue : ∀ name ≠ "PWD", (d.apply .epoch newSession).session.environment.get? name
      = guestSession.environment.restoredValue "guest" "user" name := fun name hname =>
    (hrestored name hname).resolve_right fun h => absurd h.2.2 (Nat.not_lt.mpr hroom)
  refine ⟨hfs, d, hload, ?_, ?_, ?_⟩
  · rw [hvalue "X" (by decide)]
    decide +kernel
  · rw [hvalue "LANG" (by decide)]
    decide +kernel
  · rw [hvalue "USER" (by decide)]
    decide +kernel

/-- A session from which a variable was removed that sessions start with. -/
def prunedSession : Session :=
  newSession.afterLines [(.epoch, "unset EDITOR")]

/-- The variable does not stay removed. -/
theorem removed_variable_comes_back :
    ∃ d, load .epoch (save .epoch prunedSession) = .ok d ∧
      prunedSession.environment.get? "EDITOR" = none ∧
      (d.apply .epoch newSession).session.environment.get? "EDITOR" = some "vi" := by
  obtain ⟨hpermissions, hsizes⟩ := storable_defaultTree .epoch
  obtain ⟨hs, hstorable⟩ : prunedSession.Sound ∧
      prunedSession.Storable (Environment.defaultVariables (some Path.home) "user") :=
    Session.storable_reached (DefaultTree.sound_fileSystem .epoch) hpermissions hsizes "default"
      "user" .epoch false [(.epoch, "unset EDITOR")]
  have hroot := hs.fileSystem.tree.kept hstorable.permissions hstorable.sizes
  have hremoved : prunedSession.environment.get? "EDITOR" = none := by decide +kernel
  have hvalue : prunedSession.environment.restoredValue "user" "user" "EDITOR" = some "vi" := by
    rw [Environment.restoredValue, hremoved]
    decide
  refine ⟨saved .epoch prunedSession, load_save hs hroot .epoch .epoch, hremoved, ?_⟩
  rw [environment_apply_saved hs, ← hvalue]
  have hrestored := Environment.get?_restored hstorable.environment hs.environment Path.home
    prunedSession.fileSystem.cwd "user" (by decide : "EDITOR" ≠ "PWD")
  exact hrestored.resolve_right fun h => by cases h.2.1

end Document

end VirtualShell
