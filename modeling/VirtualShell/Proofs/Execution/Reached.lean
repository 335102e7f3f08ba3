import VirtualShell.Proofs.Builtin.Limits
import VirtualShell.Proofs.Execution.Runs
import VirtualShell.Proofs.Tree.RoundTrip

/-!
# Sessions that can be reached

A session is reached by starting one on a sound file system, with or without its start file, and
executing lines in it. What a new session has, and what every listed change keeps and the notes at
the end of a line keep, every session that is reached has (`keeps_reached`).

Two such things matter where a session is saved. The tree can be written into a document
(`HasPermissionTexts`, `HasWritableSizes`), as new nodes get permissions of their own and no file
grows beyond its ceiling. And every variable is as it was at the start, or shows the working
directory, or has been validated (`StartedWith`).
-/

namespace VirtualShell

/-! ## Nodes -/

namespace FileSystem

open Node

/-- What can be seen of every node by its permissions and its content stays true if it is true of
new directories, of new files and of new contents that are not too long. -/
theorem Change.everywhere {now : Timestamp} {fs fs' : FileSystem} {Q : Json → Option String → Prop}
    (h : fs.Change now fs') (hs : fs.Sound)
    (hroot : fs.root.Everywhere fun _ face => Q face.info.permissions face.content)
    (hdirectory : Q directoryPermissions none)
    (hfile : ∀ content, content.length ≤ Limits.maxFileSize → Q filePermissions (some content))
    (hwrite : ∀ permissions old content, content.length ≤ Limits.maxFileSize →
      Q permissions (some old) → Q permissions (some content)) :
    fs'.root.Everywhere fun _ face => Q face.info.permissions face.content := by
  cases h with
  | enter _ => exact hroot
  | touch path =>
    refine hroot.touchAt fun m hm => ?_
    rw [face_touch]
    exact hroot path m hm
  | @add path info entries name node hat _ _ hnode hcheck =>
    have hsize := ((Limits.check_eq_ok_none_iff hs.whole).mp hcheck).2.1
    have hface := hroot path _ hat
    refine hroot.putAt hat hface (hnode.everywhere ?_)
    cases hnode with
    | file content => exact hfile content hsize
    | directory => exact hdirectory
  | @write path info old content hat hcheck =>
    have hsize := ((Limits.check_eq_ok_none_iff hs.whole).mp hcheck).2.1
    exact hroot.writeAt hat (hwrite _ old _ hsize (hroot path _ hat))
  | @remove path info entries name hat _ _ =>
    have hface := hroot path _ hat
    exact hroot.eraseAt hat hface

/-- A change leaves only permissions that are texts. -/
theorem Change.hasPermissionTexts {now : Timestamp} {fs fs' : FileSystem} (h : fs.Change now fs')
    (hs : fs.Sound) (hroot : fs.root.HasPermissionTexts) : fs'.root.HasPermissionTexts :=
  h.everywhere (Q := fun permissions _ => ∃ text ∈ permissions.text?, text ≠ "") hs hroot
    ⟨_, rfl, by decide⟩ (fun _ _ => ⟨_, rfl, by decide⟩) fun _ _ _ _ hold => hold

/-- The ceiling of a file is far below what a document can hold. -/
theorem maxFileSize_lt : Limits.maxFileSize < 10 ^ Text.maxDigits :=
  Nat.lt_of_lt_of_le (by decide : Limits.maxFileSize < 10 ^ 7)
    (Nat.pow_le_pow_right (by decide) (by decide))

/-- It leaves only sizes that can be written. -/
theorem Change.hasWritableSizes {now : Timestamp} {fs fs' : FileSystem} (h : fs.Change now fs')
    (hs : fs.Sound) (hroot : fs.root.HasWritableSizes) : fs'.root.HasWritableSizes := by
  have hnew : ∀ content : String, content.length ≤ Limits.maxFileSize →
      ∀ text ∈ some content, text.length < 10 ^ Text.maxDigits := by
    intro content hsize text htext
    obtain rfl : content = text := Option.some.inj htext
    exact Nat.lt_of_le_of_lt hsize maxFileSize_lt
  exact h.everywhere
    (Q := fun _ content => ∀ text ∈ content, text.length < 10 ^ Text.maxDigits) hs hroot nofun hnew
    fun _ _ content hsize _ => hnew content hsize

end FileSystem

/-! ## Variables -/

namespace Environment

/-- The environment of a session that started with certain variables: every variable is one of them,
or shows the working directory, or is valid. -/
structure StartedWith (defaults : Table String) (e : Environment) : Prop where
  defaults_eq : e.defaults = defaults
  valid : ∀ name value, e.get? name = some value →
    name = "PWD" ∨ defaults.find? name = some value ∨ Variable.IsValid name value

variable {defaults : Table String} {e e' : Environment} {name value : String}

/-- A new environment has started with the defaults. -/
theorem startedWith_new (cwd : Path) (user : String) :
    (new cwd user).StartedWith (defaultVariables (some cwd) user) :=
  ⟨rfl, fun _ _ h => .inr (.inl h)⟩

/-- Storing a variable leaves the start as it was. -/
theorem StartedWith.store (h : e.StartedWith defaults)
    (hnew : name = "PWD" ∨ Variable.IsValid name value) :
    (e.store name value).StartedWith defaults := by
  refine ⟨h.defaults_eq, fun other v hother => ?_⟩
  rw [get?, current_store] at hother
  by_cases hname : other = name
  · subst hname
    rw [Table.find?_put_self] at hother
    obtain rfl : value = v := Option.some.inj hother
    exact hnew.imp_right .inr
  · rw [Table.find?_put_of_ne _ _ hname] at hother
    exact h.valid other v hother

/-- So does setting one. -/
theorem StartedWith.set (h : e.StartedWith defaults) (hset : e.set name value = .ok e') :
    e'.StartedWith defaults := by
  obtain ⟨hvalidate, rfl⟩ := set_eq_ok_iff.mp hset
  exact h.store (.inr (validate_eq_none_iff.mp hvalidate).1)

/-- So does removing one. -/
theorem StartedWith.unset? (h : e.StartedWith defaults) (hunset : e.unset? name = some e') :
    e'.StartedWith defaults := by
  obtain ⟨-, -, rfl⟩ := unset?_eq_some_iff.mp hunset
  refine ⟨h.defaults_eq, fun other v hother => ?_⟩
  change Table.find? (Table.erase e.current name) other = some v at hother
  by_cases hname : other = name
  · rw [hname, Table.find?_erase_self] at hother
    cases hother
  · rw [Table.find?_erase_of_ne _ hname] at hother
    exact h.valid other v hother

end Environment

/-! ## Runs -/

namespace Session

variable {fs : FileSystem} {mode user : String}

/-- The session with the notes that are made at the end of a line. -/
def noted (s : Session) (code : Int) : Session :=
  { s with lastExitCode := code, environment := s.environment.withCwd s.fileSystem.cwd }

/-- Starting a session is a sequence of changes of a new one. -/
theorem changes_launch (hfs : fs.Sound) (now : Timestamp) (mode user : String)
    (readsStartFile : Bool) :
    (new fs mode user).Changes now (launch now fs mode user readsStartFile).session := by
  have haction : (if readsStartFile then loadStartFile else pure none).Lawful := by
    cases readsStartFile with
    | true => exact lawful_loadStartFile
    | false => exact Shell.Lawful.pure _
  have hdiscard := (haction.bind fun _ => Shell.Lawful.pure ()) now _ (sound_new hfs mode user)
  rw [launch, Functor.discard]
  exact hdiscard.changes

/-- What a new session has, and what changes and the notes at the end of a line keep, every session
that is reached has. -/
theorem keeps_reached {P : Session → Prop} (hfs : fs.Sound) (hnew : P (new fs mode user))
    (hchange : ∀ {now s s'}, s.Sound → s.Change now s' → P s → P s')
    (hnoted : ∀ {s} code, P s → P (s.noted code)) (started : Timestamp) (readsStartFile : Bool)
    (calls : List (Timestamp × String)) :
    let s := (launch started fs mode user readsStartFile).session.afterLines calls
    s.Sound ∧ P s := by
  have hlaunch := (changes_launch hfs started mode user readsStartFile).keeps hchange
    (sound_new hfs mode user) hnew
  refine keeps_afterLines (fun {s} hs hp line now => ?_) hlaunch.1 hlaunch.2 calls
  rw [(Execution.run_execute line now s).2]
  exact hnoted _ ((Execution.changes_runLine hs line now).keeps hchange hs hp).2

/-- A session that can be saved without loss, and that started with certain variables. -/
structure Storable (defaults : Table String) (s : Session) : Prop where
  permissions : s.fileSystem.root.HasPermissionTexts
  sizes : s.fileSystem.root.HasWritableSizes
  environment : s.environment.StartedWith defaults

/-- A change leaves a session that can be stored. -/
theorem Change.storable {now : Timestamp} {s s' : Session} {defaults : Table String}
    (h : s.Change now s') (hs : s.Sound) (hstorable : s.Storable defaults) :
    s'.Storable defaults := by
  obtain ⟨hpermissions, hsizes, henvironment⟩ := hstorable
  cases h with
  | fileSystem h =>
    exact ⟨h.hasPermissionTexts hs.fileSystem hpermissions,
      h.hasWritableSizes hs.fileSystem hsizes, henvironment⟩
  | setVariable hset => exact ⟨hpermissions, hsizes, henvironment.set hset⟩
  | unsetVariable hunset => exact ⟨hpermissions, hsizes, henvironment.unset? hunset⟩
  | exitCode | setAlias | removeAlias | clearAliases => exact ⟨hpermissions, hsizes, henvironment⟩

/-- Every session that is reached can be saved without loss. -/
theorem storable_reached (hfs : fs.Sound) (hpermissions : fs.root.HasPermissionTexts)
    (hsizes : fs.root.HasWritableSizes) (mode user : String) (started : Timestamp)
    (readsStartFile : Bool) (calls : List (Timestamp × String)) :
    let s := (launch started fs mode user readsStartFile).session.afterLines calls
    s.Sound ∧ s.Storable (Environment.defaultVariables (some fs.cwd) user) :=
  keeps_reached hfs ⟨hpermissions, hsizes, Environment.startedWith_new fs.cwd user⟩
    (fun hs hchange hstorable => hchange.storable hs hstorable)
    (fun _ hstorable =>
      ⟨hstorable.permissions, hstorable.sizes, hstorable.environment.store (.inl rfl)⟩)
    started readsStartFile calls

end Session

end VirtualShell
