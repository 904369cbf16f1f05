import Tabular.Proofs.Footprints
import Tabular.Proofs.Sessions

/-!
Documents behind handles. A document that is saved reads back as it was written, and the lock beside
it can come and go without touching it.
-/
namespace Tabular

namespace Path

theorem getLast?_join (directory : String) {path : String} {c : Char}
    (h : path.toList.getLast? = some c) : (join directory path).toList.getLast? = some c := by
  unfold join
  split
  · exact h
  · split
    · rw [String.toList_append, List.getLast?_append, h, Option.some_or]
    · rw [String.toList_append, List.getLast?_append, h, Option.some_or]

theorem getLast?_withFileName (path : String) {name : String} {c : Char}
    (h : name.toList.getLast? = some c) : (withFileName path name).toList.getLast? = some c := by
  unfold withFileName
  split <;> exact getLast?_join _ h

end Path

namespace CatalogHandle

theorem getLast?_pathOf (directory name : String) :
    (pathOf directory name).toList.getLast? = some 'n' := by
  refine Path.getLast?_join directory ?_
  have suffix : documentSuffix.toList.getLast? = some 'n' := by decide
  rw [String.toList_append, List.getLast?_append, suffix, Option.some_or]

theorem getLast?_lockPath (path : String) : (lockPath path).toList.getLast? = some 'k' := by
  refine Path.getLast?_withFileName path ?_
  have suffix : lockSuffix.toList.getLast? = some 'k' := by decide
  rw [String.toList_append, List.getLast?_append, suffix, Option.some_or]

/-- The lock of a document has another name. -/
theorem base_lockPath_ne {path : String} (ends : path.toList.getLast? = some 'n') :
    Path.base (lockPath path).toList ≠ Path.base path.toList := by
  intro same
  have lock := Path.getLast?_base (getLast?_lockPath path) (by decide)
  have document := Path.getLast?_base ends (by decide)
  rw [same, document] at lock
  exact absurd lock (by decide)

end CatalogHandle

namespace Store

variable {s t u : Store}

/-- The document at a path is the text of a catalog, or reads as one. -/
def Holds (s : Store) (path : String) (c : Catalog) : Prop :=
  ∃ text, s.read path = .ok text ∧
    (text = c.toText ∨ Catalog.parse? text = some (Catalog.formatVersion, c))

def tablesAt (s : Store) (path : String) : List StoredTable :=
  match s.read path with
  | .ok text => ((Catalog.parse? text).map (·.2.tables)).getD []
  | .error _ => []

theorem tablesAt_eq {path text : String} {version : UInt32} {c : Catalog}
    (h : s.read path = .ok text) (hc : Catalog.parse? text = some (version, c)) :
    s.tablesAt path = c.tables := by
  unfold tablesAt
  rw [h]
  simp [hc]

theorem tablesAt_eq_nil {path : String} (h : s.isFile path = false) : s.tablesAt path = [] := by
  unfold tablesAt
  split
  · next text hr =>
    obtain ⟨p, hp, he⟩ := read_eq_ok_iff.mp hr
    rw [isFile_iff.mpr ⟨p, _, hp, he⟩] at h
    cases h
  · rfl

theorem run_create (path : String) : s.run (FileTask.create path) = s.outcome (s.create path) := rfl

theorem run_remove (path : String) : s.run (FileTask.remove path) = s.outcome (s.remove path) := rfl

theorem run_write (path text : String) :
    s.run (FileTask.write path text) = s.outcome (s.write path (.text text)) := rfl

theorem run_rename (path goal : String) :
    s.run (FileTask.rename path goal) = s.outcome (s.rename path goal) := rfl

theorem run_isFile (path : String) : s.run (FileTask.isFile path) = (s.isFile path, s) := rfl

theorem run_read (path : String) : s.run (FileTask.read path) = (s.read path, s) := rfl

theorem run_now : s.run FileTask.now = (s.clock, s) := rfl

end Store

namespace CatalogHandle

variable {s t u : Store}

theorem run_acquireLock_ok {path : String} (h : s.run (acquireLock path) = (.ok (), t)) :
    s.create (lockPath path) = .ok t := by
  unfold acquireLock at h
  rw [Store.run_bind, Store.run_create] at h
  cases hc : s.create (lockPath path) with
  | ok u =>
    rw [hc] at h
    exact congrArg Except.ok (Prod.mk.inj h).2
  | error e =>
    rw [hc] at h
    cases e <;> cases h

theorem run_releaseLock_ok {path : String} (h : s.run (releaseLock path) = (.ok (), t)) :
    s.remove (lockPath path) = .ok t := by
  unfold releaseLock at h
  rw [Store.run_bind, Store.run_remove] at h
  cases hc : s.remove (lockPath path) with
  | ok u =>
    rw [hc] at h
    exact congrArg Except.ok (Prod.mk.inj h).2
  | error e =>
    rw [hc] at h
    cases h

theorem run_locked_ok {α : Type} {path : String} {task : FileTask (Except Fault α)} {a : α}
    (h : s.run (locked path task) = (.ok a, u)) :
    ∃ t, s.create (lockPath path) = .ok t ∧ t.run task = (.ok a, u) := by
  unfold locked at h
  rw [Store.run_bind] at h
  rcases hl : s.run (acquireLock path) with ⟨_ | ⟨⟩, t⟩
  · rw [hl] at h
    cases h
  · rw [hl] at h
    refine ⟨t, run_acquireLock_ok hl, ?_⟩
    dsimp only at h
    rw [Store.run_bind] at h
    rcases ht : t.run task with ⟨f | b, v⟩
    · rw [ht] at h
      dsimp only at h
      rw [if_pos (show (!(Except.error f : Except Fault α).isOk) = true from rfl),
        Store.run_bind] at h
      cases (Prod.mk.inj h).1
    · rw [ht] at h
      exact h

theorem run_save_ok {h : CatalogHandle} (hs : s.run h.save = (.ok (), t)) :
    ∃ u, s.write (draftPath h.path) (.text h.catalog.toText) = .ok u ∧
      u.rename (draftPath h.path) h.path = .ok t := by
  unfold save at hs
  rw [Store.run_bind, Store.run_write] at hs
  cases hw : s.write (draftPath h.path) (.text h.catalog.toText) with
  | error e =>
    rw [hw] at hs
    cases hs
  | ok u =>
    rw [hw] at hs
    dsimp only [Store.outcome] at hs
    rw [Store.run_bind, Store.run_rename] at hs
    cases hr : u.rename (draftPath h.path) h.path with
    | error e =>
      rw [hr] at hs
      cases hs
    | ok v =>
      rw [hr] at hs
      obtain rfl : v = t := (Prod.mk.inj hs).2
      exact ⟨u, rfl, hr⟩

/-- What a save leaves behind: the text of the catalog in its place. -/
theorem read_of_run_save {h : CatalogHandle} (hs : s.run h.save = (.ok (), t)) :
    t.read h.path = .ok h.catalog.toText ∧ s.ChangesOnly [draftPath h.path, h.path] t := by
  obtain ⟨u, hw, hr⟩ := run_save_ok hs
  obtain ⟨written, draft⟩ := Store.write_ok hw
  obtain ⟨moved, document⟩ := Store.rename_ok hr
  exact ⟨Store.read_eq_ok_iff_file?.mpr (moved.trans written),
    (draft.mono (by simp)).trans document⟩

/-- Do files at the path of a document and of its draft have places where no directory is? -/
def Writable (s : Store) (path : String) : Prop :=
  ∃ p q, s.locate (draftPath path) = .ok ⟨p, true⟩ ∧ s.entry? p ≠ some .directory ∧
    s.locate path = .ok ⟨q, true⟩ ∧ s.entry? q ≠ some .directory

theorem Writable.of_sameDirectories {path : String} (writable : Writable s path)
    (dirs : s.SameDirectories t) : Writable t path := by
  obtain ⟨p, q, hp, freeP, hq, freeQ⟩ := writable
  exact ⟨p, q, dirs.locate hp, fun d => freeP ((dirs.directory p).mpr d), dirs.locate hq,
    fun d => freeQ ((dirs.directory q).mpr d)⟩

/-- Where a document can be written, a save goes well. -/
theorem exists_run_save {h : CatalogHandle} (writable : Writable s h.path) :
    ∃ t, s.run h.save = (.ok (), t) := by
  obtain ⟨p, q, hp, freeP, hq, freeQ⟩ := writable
  obtain ⟨u, hw⟩ : ∃ u, s.write (draftPath h.path) (.text h.catalog.toText) = .ok u :=
    ⟨_, Store.write_eq_ok_iff.mpr ⟨p, hp, freeP, rfl⟩⟩
  obtain ⟨v, hr⟩ : ∃ v, u.rename (draftPath h.path) h.path = .ok v := by
    obtain ⟨p', hp', -, rfl⟩ := Store.write_eq_ok_iff.mp hw
    have nonempty := Store.place_ne_nil hp
    obtain rfl : p = p' := (Store.Target.mk.inj (Except.ok.inj (hp.symm.trans hp'))).1
    have dirs := Store.sameDirectories_put nonempty (.text h.catalog.toText) freeP
    exact ⟨_, Store.rename_eq_ok_iff.mpr ⟨p, .text h.catalog.toText, q, dirs.locate hp,
      by rw [Store.entry?_put nonempty, if_pos rfl], dirs.locate hq,
      fun d => freeQ ((dirs.directory q).mpr d), rfl⟩⟩
  unfold save
  rw [Store.run_bind, Store.run_write, hw]
  dsimp only [Store.outcome]
  rw [Store.run_bind, Store.run_rename, hr]
  exact ⟨_, rfl⟩

/-- A document survives the removal of the lock beside it. -/
theorem holds_releaseLock {path : String} {c : Catalog} (ends : path.toList.getLast? = some 'n')
    (h : s.Holds path c) (hr : s.run (releaseLock path) = (.ok (), t)) : t.Holds path c := by
  obtain ⟨text, hread, hc⟩ := h
  obtain ⟨-, changed⟩ := Store.remove_ok (run_releaseLock_ok hr)
  exact ⟨text, (changed.read_of_ne (base_lockPath_ne ends)).mpr hread, hc⟩

/-- The document reads the same before and after the lock is made. -/
theorem read_lock {path text : String} (ends : path.toList.getLast? = some 'n')
    (hl : s.create (lockPath path) = .ok t) : t.read path = .ok text ↔ s.read path = .ok text := by
  obtain ⟨-, -, changed⟩ := Store.create_ok hl
  exact changed.read_of_ne (base_lockPath_ne ends)

/-! ### Opening -/

theorem ofText_eq_ok {path text : String} {h : CatalogHandle} (hh : ofText path text = .ok h) :
    h.path = path ∧ Catalog.parse? text = some (Catalog.formatVersion, h.catalog) := by
  unfold ofText at hh
  split at hh
  · cases hh
  · next version catalog hp =>
    split at hh
    · next same =>
      obtain rfl := Except.ok.inj hh
      exact ⟨rfl, by rw [hp, same]⟩
    · cases hh

theorem run_openAt_steps {path : String} {h : CatalogHandle}
    (hs : s.run (openAt path) = (.ok h, t)) :
    s.create (lockPath path) = .ok t ∧
      ∃ text, t.read path = .ok text ∧ ofText path text = .ok h := by
  unfold openAt at hs
  rw [Store.run_bind, Store.run_isFile] at hs
  dsimp only at hs
  split at hs
  · cases hs
  obtain ⟨u, hl, hs⟩ := run_locked_ok hs
  rw [Store.run_bind, Store.run_read] at hs
  cases hr : u.read path with
  | error e =>
    rw [hr] at hs
    cases hs
  | ok text =>
    rw [hr] at hs
    obtain ⟨hh, rfl⟩ := Prod.mk.inj hs
    exact ⟨hl, text, hr, hh⟩

theorem run_openAt_ok {path : String} {h : CatalogHandle}
    (ends : path.toList.getLast? = some 'n') (hs : s.run (openAt path) = (.ok h, t)) :
    h.path = path ∧ t.Holds path h.catalog ∧ s.tablesAt path = h.catalog.tables := by
  obtain ⟨hl, text, hr, hh⟩ := run_openAt_steps hs
  obtain ⟨hpath, hparse⟩ := ofText_eq_ok hh
  exact ⟨hpath, ⟨text, hr, .inr hparse⟩, Store.tablesAt_eq ((read_lock ends hl).mp hr) hparse⟩

/-- Where the lock can be made, a document that reads as a catalog can be opened. -/
theorem run_openAt {path text : String} {c : Catalog} (present : s.isFile path = true)
    (lock : s.create (lockPath path) = .ok t) (read : t.read path = .ok text)
    (parsed : Catalog.parse? text = some (Catalog.formatVersion, c)) :
    s.run (openAt path) = (.ok ⟨path, c⟩, t) := by
  have opened : ofText path text = .ok ⟨path, c⟩ := by
    unfold ofText
    rw [parsed]
    exact if_pos rfl
  have acquired : s.run (acquireLock path) = (.ok (), t) := by
    unfold acquireLock
    rw [Store.run_bind, Store.run_create, lock]
    rfl
  unfold openAt locked
  rw [Store.run_bind, Store.run_isFile, present]
  dsimp only
  rw [if_neg (by decide), Store.run_bind, acquired]
  dsimp only
  rw [Store.run_bind, Store.run_bind, Store.run_read, read]
  dsimp only
  rw [Store.run_pure, opened]
  rfl

theorem run_create_steps {path name : String} {h : CatalogHandle}
    (hs : s.run (create path name) = (.ok h, t)) :
    s.isFile path = false ∧ ∃ u, s.create (lockPath path) = .ok u ∧
      h = ⟨path, { name, createdAt := u.clock }⟩ ∧ u.run h.save = (.ok (), t) := by
  unfold create at hs
  rw [Store.run_bind, Store.run_isFile] at hs
  dsimp only at hs
  split at hs
  · cases hs
  next missing =>
  obtain ⟨u, hl, hs⟩ := run_locked_ok hs
  rw [Store.run_bind, Store.run_now] at hs
  dsimp only at hs
  rw [Store.run_bind] at hs
  refine ⟨by simpa using missing, u, hl, ?_⟩
  generalize (⟨path, { name, createdAt := u.clock }⟩ : CatalogHandle) = new at hs ⊢
  rcases hw : u.run new.save with ⟨e | ⟨⟩, v⟩
  · rw [hw] at hs
    cases hs
  · rw [hw] at hs
    obtain ⟨hh, rfl⟩ := Prod.mk.inj hs
    obtain rfl : new = h := Except.ok.inj hh
    exact ⟨rfl, hw⟩

theorem run_create_ok {path name : String} {h : CatalogHandle}
    (hs : s.run (create path name) = (.ok h, t)) :
    h.path = path ∧ t.Holds path h.catalog ∧ h.catalog.tables = [] ∧ s.isFile path = false := by
  obtain ⟨missing, u, -, rfl, saved⟩ := run_create_steps hs
  obtain ⟨read, -⟩ := read_of_run_save saved
  exact ⟨rfl, ⟨_, read, .inl rfl⟩, rfl, missing⟩

end CatalogHandle

/-- Does a run begin with a new catalog, whatever is there? -/
def Options.startsOver (o : Options) : Bool := o.overwrite && !o.useExisting

theorem Options.startsOver_eq_overwrite {o : Options} (fresh : ¬ o.useExisting = true) :
    o.startsOver = o.overwrite := by
  rw [startsOver, Bool.eq_false_iff.mpr fresh, Bool.not_false, Bool.and_true]

namespace CatalogDirectory

variable {d : CatalogDirectory} {s t : Store} {sch : Schema} {o : Options} {h : CatalogHandle}
  {step : DatabaseStep}

theorem catalogPath_eq_ok {database path : String} (h : d.catalogPath database = .ok path) :
    path.toList.getLast? = some 'n' := by
  unfold catalogPath at h
  dsimp only at h
  split at h
  · cases h
  cases hn : catalogName database with
  | error f => rw [hn] at h; cases h
  | ok name =>
    rw [hn] at h
    obtain rfl : CatalogHandle.pathOf d.path name = path := Except.ok.inj h
    exact CatalogHandle.getLast?_pathOf _ _

/-- The tables that a run starts from: those of the document at the path, unless it is to be
overwritten. -/
def tablesBefore (s : Store) (path : String) (o : Options) : List StoredTable :=
  if o.overwrite && !o.useExisting then [] else s.tablesAt path

structure Opens (t : Store) (path : String) (tables : List StoredTable) (h : CatalogHandle) :
    Prop where
  path_eq : h.path = path
  holds : t.Holds path h.catalog
  tables_eq : h.catalog.tables = tables

/-- A catalog that is kept is opened, and any other one is created. -/
theorem attempt_openOrCreate_source {name : String} {overwrite : Bool}
    (hs : s.attempt (d.openOrCreate name overwrite) = (.ok h, t)) :
    ∃ path, d.catalogPath name = .ok path ∧
      ((overwrite = false ∧ s.run (CatalogHandle.openAt path) = (.ok h, t)) ∨
        (overwrite = true ∨ s.isFile path = false) ∧
          ∃ u : Store, u.run (CatalogHandle.create path name) = (.ok h, t)) := by
  unfold openOrCreate at hs
  obtain ⟨path, hp, hs⟩ := Store.attempt_liftExcept_bind_eq_ok_iff.mp hs
  obtain ⟨present, u, hpresent, hs⟩ := Store.attempt_bind_eq_ok_iff.mp hs
  rw [Store.attempt_lift_eq_ok_iff, Store.run_isFile] at hpresent
  obtain ⟨rfl, rfl⟩ := Prod.mk.inj hpresent
  refine ⟨path, hp, ?_⟩
  dsimp only at hs
  split at hs
  · next kept =>
    rw [Bool.and_eq_true, Bool.not_eq_true'] at kept
    exact .inl ⟨kept.2, hs⟩
  · next free =>
    rw [Bool.and_eq_true, Bool.not_eq_true', not_and, Bool.not_eq_false] at free
    have anew : overwrite = true ∨ s.isFile path = false := by
      cases present : s.isFile path with
      | true => exact .inl (free present)
      | false => exact .inr rfl
    split at hs
    · obtain ⟨_, v, -, hs⟩ := Store.attempt_bind_eq_ok_iff.mp hs
      exact .inr ⟨anew, v, hs⟩
    · exact .inr ⟨anew, _, hs⟩

/-- A run starts from a catalog that was opened, or from one that was created. -/
theorem attempt_openFor_source (hs : s.attempt (d.openFor sch o) = (.ok (h, step), t)) :
    ∃ path, d.catalogPath sch.name = .ok path ∧
      ((o.startsOver = false ∧ s.run (CatalogHandle.openAt path) = (.ok h, t)) ∨
        (o.startsOver = true ∨ s.isFile path = false) ∧
          ∃ u : Store, u.run (CatalogHandle.create path sch.name) = (.ok h, t)) := by
  unfold openFor at hs
  split at hs
  · next existing =>
    obtain ⟨path, hp, hs⟩ := Store.attempt_liftExcept_bind_eq_ok_iff.mp hs
    obtain ⟨h', u, opened, hs⟩ := Store.attempt_bind_eq_ok_iff.mp hs
    obtain ⟨⟨⟩, rfl⟩ := Store.attempt_pure_eq_ok_iff.mp hs
    exact ⟨path, hp, .inl ⟨by rw [Options.startsOver, existing, Bool.not_true, Bool.and_false],
      opened⟩⟩
  · next fresh =>
    obtain ⟨h', u, opened, hs⟩ := Store.attempt_bind_eq_ok_iff.mp hs
    obtain ⟨⟨⟩, rfl⟩ := Store.attempt_pure_eq_ok_iff.mp hs
    rw [Options.startsOver_eq_overwrite fresh]
    exact attempt_openOrCreate_source opened

theorem attempt_openFor_ok (hs : s.attempt (d.openFor sch o) = (.ok (h, step), t)) :
    ∃ path, d.catalogPath sch.name = .ok path ∧ Opens t path (tablesBefore s path o) h := by
  obtain ⟨path, hp, ⟨stays, opened⟩ | ⟨anew, u, made⟩⟩ := attempt_openFor_source hs
  · obtain ⟨hpath, holds, tables⟩ := CatalogHandle.run_openAt_ok (catalogPath_eq_ok hp) opened
    exact ⟨path, hp, hpath, holds, tables.symm.trans (if_neg (Bool.eq_false_iff.mp stays)).symm⟩
  · obtain ⟨hpath, holds, tables, -⟩ := CatalogHandle.run_create_ok made
    refine ⟨path, hp, hpath, holds, ?_⟩
    rw [tables, tablesBefore]
    rcases anew with anew | missing
    · exact (if_pos anew).symm
    · rw [Store.tablesAt_eq_nil missing, ite_self]

end CatalogDirectory

end Tabular
