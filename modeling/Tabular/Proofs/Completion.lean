import Tabular.Proofs.Filling
import Tabular.Proofs.Rerunning
import Tabular.Proofs.Visits

/-!
When a run succeeds. A catalog that is there, or can be made, is opened for it; its changes are
written if the catalog accepts them, and then the catalog is free again. What a run that succeeds
leaves at its path is known, rows of the tables that it made included.
-/
namespace Tabular

open CatalogHandle (lockPath draftPath Writable Lasts HasDocument)

/-! ### What is read again -/

namespace StoredTable

/-- A table with the same columns and keys, and without rows if there were none. -/
structure Follows (t u : StoredTable) : Prop where
  frame : t.SameFrame u
  empty : t.rows = [] → u.rows = []

theorem Follows.refl (t : StoredTable) : t.Follows t := ⟨rfl, id⟩

theorem Follows.eq_of_empty {t u : StoredTable} (h : t.Follows u) (none_ : t.rows = []) :
    u = t := by
  have frame := h.frame
  rw [SameFrame, h.empty none_, ← none_] at frame
  exact frame

theorem ComesBackAs.follows {t u : StoredTable} (h : t.ComesBackAs u) : t.Follows u where
  frame := h.frame
  empty := fun none => by
    have rows := h.rows
    rw [none] at rows
    exact List.forall₂_nil_left_iff.mp rows

end StoredTable

/-- A legible catalog is read from its document, rows apart. -/
theorem Store.Holds.exists_catalogAt? {s : Store} {path : String} {c : Catalog}
    (holds : s.Holds path c) (legible : c.Legible) :
    ∃ c', s.catalogAt? path = some c' ∧ c'.Legible ∧
      List.Forall₂ StoredTable.Follows c.tables c'.tables := by
  obtain ⟨text, read, rfl | parsed⟩ := holds
  · obtain ⟨c', back, legible', -⟩ := legible.exists_reread?
    obtain ⟨tables, follow, rfl⟩ := Catalog.comesBack_of_reread? back
    refine ⟨_, Store.catalogAt?_eq_some_iff.mpr ⟨_, read, ?_⟩, legible',
      follow.imp fun _ _ h => h.follows⟩
    rw [Catalog.parse?_toText, back]
    rfl
  · exact ⟨c, Store.catalogAt?_eq_some_iff.mpr ⟨text, read, parsed⟩, legible,
      List.forall₂_same.mpr fun t _ => .refl t⟩

/-- A placement brings no rows into a catalog. -/
theorem Schema.Placement.legible_of_apply {s : Schema} {o : Options} {p : s.Placement o}
    {c c' : Catalog} (h : p.apply c = .ok c') (legible : c.Legible) : c'.Legible := by
  obtain ⟨gone, -, tables⟩ := p.apply_beside h
  intro t ht
  rw [tables] at ht
  rcases List.mem_append.mp ht with ht | ht
  · obtain ⟨u, hu, rfl⟩ := List.mem_map.mp ht
    exact legible u (List.mem_filter.mp hu).1
  · intro r hr
    rw [(of_mem_made ht).2] at hr
    cases hr

/-! ### Opening -/

namespace CatalogHandle

variable {s t : Store} {path : String} {c : Catalog}

theorem exists_create_lock (free : s.file? (lockPath path) = none)
    (place : s.HasPlace (lockPath path)) : ∃ t, s.create (lockPath path) = .ok t := by
  obtain ⟨p, hp, clear⟩ := place
  have none_ : s.entry? p = none := by
    cases he : s.entry? p with
    | none => rfl
    | some e =>
      cases e with
      | directory => exact absurd he clear
      | file content =>
        rw [Store.file?_eq_some_iff.mpr ⟨p, hp, he⟩] at free
        cases free
  exact ⟨_, Store.create_eq_ok_iff.mpr ⟨p, hp, none_, rfl⟩⟩

theorem run_acquireLock (lock : s.create (lockPath path) = .ok t) :
    s.run (acquireLock path) = (.ok (), t) := by
  unfold acquireLock
  rw [Store.run_bind, Store.run_create, lock]
  rfl

theorem exists_run_openAt (ends : path.toList.getLast? = some 'n')
    (found : s.catalogAt? path = some c) (free : s.file? (lockPath path) = none)
    (place : s.HasPlace (lockPath path)) :
    ∃ t, s.run (openAt path) = (.ok ⟨path, c⟩, t) ∧ t.file? (lockPath path) = some (.text "") ∧
      s.SameDirectories t := by
  obtain ⟨t, lock⟩ := exists_create_lock free place
  obtain ⟨-, locked, changes⟩ := Store.create_ok lock
  obtain ⟨text, read, parsed⟩ := Store.catalogAt?_eq_some_iff.mp found
  obtain ⟨q, hq, he⟩ := Store.read_eq_ok_iff.mp read
  exact ⟨t, run_openAt (Store.isFile_iff.mpr ⟨q, _, hq, he⟩) lock ((read_lock ends lock).mpr read)
    parsed, locked, changes.directories⟩

theorem exists_run_delete {content : Content} (ends : path.toList.getLast? = some 'n')
    (present : s.file? path = some content) (free : s.file? (lockPath path) = none)
    (place : s.HasPlace (lockPath path)) :
    ∃ t, s.run (delete path) = (.ok (), t) ∧ t.file? path = none ∧
      t.file? (lockPath path) = none ∧ s.SameDirectories t := by
  obtain ⟨u, lock⟩ := exists_create_lock free place
  obtain ⟨-, -, changes⟩ := Store.create_ok lock
  obtain ⟨v, removed⟩ := Store.exists_remove
    ((changes.file_of_ne (base_lockPath_ne ends)).trans present)
  have ok : (s.run (delete path)).1 = .ok () := by
    unfold delete
    rw [Store.run_bind, run_acquireLock lock]
    dsimp only
    rw [Store.run_bind, Store.run_remove, removed]
    dsimp only [Store.outcome]
    rw [Store.run_bind]
    rfl
  rcases run : s.run (delete path) with ⟨r, t⟩
  rw [run] at ok
  obtain rfl : r = .ok () := ok
  obtain ⟨-, unlocked, gone, changes⟩ := (run_delete ends run).2 rfl
  exact ⟨t, rfl, gone, unlocked, changes.directories⟩

theorem exists_run_create (name : String) (ends : path.toList.getLast? = some 'n')
    (absent : s.file? path = none) (free : s.file? (lockPath path) = none)
    (place : s.HasPlace (lockPath path)) (writable : Writable s path) :
    ∃ e t, s.run (create path name) = (.ok ⟨path, e⟩, t) ∧ e.tables = [] ∧
      t.file? (lockPath path) = some (.text "") ∧ s.SameDirectories t := by
  obtain ⟨u, lock⟩ := exists_create_lock free place
  obtain ⟨-, held, changes⟩ := Store.create_ok lock
  obtain ⟨t, saved⟩ := exists_run_save (h := ⟨path, { name, createdAt := u.clock }⟩)
    (writable.of_sameDirectories changes.directories)
  obtain ⟨-, written⟩ := read_of_run_save saved
  refine ⟨{ name, createdAt := u.clock }, t, ?_, rfl, ?_,
    changes.directories.trans written.directories⟩
  · have missing : s.isFile path = false := by
      rw [Store.isFile_eq_isSome, absent]
      rfl
    unfold create locked
    rw [Store.run_bind, Store.run_isFile, missing]
    dsimp only
    rw [if_neg Bool.false_ne_true, Store.run_bind, run_acquireLock lock]
    dsimp only
    rw [Store.run_bind, Store.run_bind, Store.run_now]
    dsimp only
    rw [Store.run_bind, saved]
    rfl
  · exact (file_lockPath ends written).trans held

end CatalogHandle

namespace CatalogDirectory

variable {d : CatalogDirectory} {s : Schema} {o : Options} {store store' t : Store}
  {handle : CatalogHandle} {step : DatabaseStep} {report : Report} {path : String} {c : Catalog}

/-- Once a catalog is open its lock stands, and it can be read again. -/
theorem attempt_openFor_ready (hs : store.attempt (d.openFor s o) = (.ok (handle, step), t)) :
    handle.catalog.Legible ∧ t.file? (lockPath handle.path) = some (.text "") ∧
      (o.startsOver = true → Writable t handle.path) := by
  obtain ⟨path, hp, ⟨kept, opened⟩ | ⟨-, u, made⟩⟩ := attempt_openFor_source hs
  · obtain ⟨rfl, -, legible, held, -⟩ :=
      CatalogHandle.run_openAt_found (catalogPath_eq_ok hp) opened
    exact ⟨legible, held, fun anew => by rw [kept] at anew; cases anew⟩
  · obtain ⟨-, v, lock, rfl, saved⟩ := CatalogHandle.run_create_steps made
    obtain ⟨-, held, -⟩ := Store.create_ok lock
    obtain ⟨-, written⟩ := CatalogHandle.read_of_run_save saved
    refine ⟨by simp [Catalog.Legible],
      (CatalogHandle.file_lockPath (catalogPath_eq_ok hp) written).trans held, fun _ => ?_⟩
    exact (CatalogHandle.writable_of_run_save saved).of_sameDirectories written.directories

/-! ### A run -/

structure Settled (s : Schema) (o : Options) (path : String) (store store' : Store) (c : Catalog) :
    Prop where
  document : store'.catalogAt? path = some c
  legible : c.Legible
  free : store'.file? (lockPath path) = none
  place : store'.HasPlace (lockPath path)
  writable : o.startsOver = true ∨ s.placedTables o ≠ [] → Writable store' path
  filled : ∃ (p : s.Placement o) (found filled : Catalog),
    found.tables = tablesBefore store path o ∧ p.apply found = .ok filled ∧
      List.Forall₂ StoredTable.Follows filled.tables c.tables

theorem settled_of_create (h : store.attempt (d.create s o) = (.ok report, store')) :
    ∃ path c, d.catalogPath s.name = .ok path ∧ Settled s o path store store' c := by
  obtain ⟨handle, step, t, filled, u, hopen, hpopulate, hclose⟩ := attempt_create_eq_ok_iff.mp h
  obtain ⟨path, hp, opens⟩ := attempt_openFor_ok hopen
  obtain ⟨legible, held, anew⟩ := attempt_openFor_ready hopen
  obtain ⟨rfl, holds, before⟩ := opens
  have ends := catalogPath_eq_ok hp
  obtain ⟨p, applied, own, after⟩ := Schema.exec_populate_ok ⟨rfl, holds⟩ hpopulate
  have place : t.HasPlace (lockPath handle.path) := by
    obtain ⟨q, hq, he⟩ := Store.file?_eq_some_iff.mp held
    exact ⟨q, hq, by rw [he]; simp⟩
  have writable : o.startsOver = true ∨ s.placedTables o ≠ [] → Writable t handle.path := by
    rintro (new | some)
    · exact anew new
    · exact Schema.writable_of_exec_populate some hpopulate
  -- The session is the one that its changes lead to, so its footprint is known.
  obtain ⟨u', run, changes⟩ := Schema.carries_populate step
    (fun some => writable (.inr some)) applied t (.refl t)
  obtain rfl : u = u' := (Prod.mk.inj (hpopulate.symm.trans run)).2
  have kept : u.file? (lockPath handle.path) = some (.text "") :=
    (CatalogHandle.file_lockPath ends changes).trans held
  have released : u.run (CatalogHandle.releaseLock handle.path) = (.ok (), store') := own ▸ hclose
  obtain ⟨free, unlock⟩ := Store.remove_ok (CatalogHandle.run_releaseLock_ok released)
  have dirs := changes.directories.trans unlock.directories
  obtain ⟨c, document, legible', follow⟩ :=
    (CatalogHandle.holds_releaseLock ends after released).exists_catalogAt?
      (p.legible_of_apply applied legible)
  exact ⟨handle.path, c, hp, document, legible', free, place.of_sameDirectories dirs,
    fun some => (writable some).of_sameDirectories dirs, p, handle.catalog, filled.catalog,
    before, applied, follow⟩

/-- A catalog that stays can be opened for a run. -/
theorem exists_openFor_found (hp : d.catalogPath s.name = .ok path) (stays : o.startsOver = false)
    (found : store.catalogAt? path = some c) (free : store.file? (lockPath path) = none)
    (place : store.HasPlace (lockPath path)) :
    ∃ step t, store.attempt (d.openFor s o) = (.ok (⟨path, c⟩, step), t) ∧
      t.file? (lockPath path) = some (.text "") ∧ store.SameDirectories t := by
  obtain ⟨t, opened, held, dirs⟩ :=
    CatalogHandle.exists_run_openAt (catalogPath_eq_ok hp) found free place
  unfold openFor
  split
  · exact ⟨_, t, Store.attempt_liftExcept_bind_eq_ok_iff.mpr ⟨path, hp,
      Store.attempt_bind_eq_ok_iff.mpr ⟨_, t, opened, rfl⟩⟩, held, dirs⟩
  · next fresh =>
    have kept : o.overwrite = false := (Options.startsOver_eq_overwrite fresh).symm.trans stays
    have present : store.isFile path = true := by
      obtain ⟨text, read, -⟩ := Store.catalogAt?_eq_some_iff.mp found
      rw [Store.isFile_eq_isSome, Store.read_eq_ok_iff_file?.mp read]
      rfl
    refine ⟨_, t, Store.attempt_bind_eq_ok_iff.mpr ⟨⟨path, c⟩, t, ?_, rfl⟩, held, dirs⟩
    refine Store.attempt_liftExcept_bind_eq_ok_iff.mpr ⟨path, hp,
      Store.attempt_bind_eq_ok_iff.mpr ⟨true, store, ?_, ?_⟩⟩
    · rw [Store.attempt_lift, Store.run_isFile, present]
    · rw [kept]
      exact opened

/-- A new catalog can be made for a run, in place of one that is there. -/
theorem exists_openFor_new (hp : d.catalogPath s.name = .ok path) (anew : o.startsOver = true)
    (free : store.file? (lockPath path) = none) (place : store.HasPlace (lockPath path))
    (writable : Writable store path) :
    ∃ e step t, store.attempt (d.openFor s o) = (.ok (⟨path, e⟩, step), t) ∧ e.tables = [] ∧
      t.file? (lockPath path) = some (.text "") ∧ store.SameDirectories t := by
  have ends := catalogPath_eq_ok hp
  rw [Options.startsOver, Bool.and_eq_true, Bool.not_eq_true'] at anew
  have present : store.attempt (ExceptT.lift (FileTask.isFile path)) =
      (.ok (store.isFile path), store) := by
    rw [Store.attempt_lift, Store.run_isFile]
  unfold openFor
  rw [anew.2, if_neg Bool.false_ne_true]
  cases hf : store.file? path with
  | none =>
    obtain ⟨e, t, made, none_, held, dirs⟩ :=
      CatalogHandle.exists_run_create s.name ends hf free place writable
    refine ⟨e, _, t, Store.attempt_bind_eq_ok_iff.mpr ⟨⟨path, e⟩, t, ?_, rfl⟩, none_, held, dirs⟩
    refine Store.attempt_liftExcept_bind_eq_ok_iff.mpr ⟨path, hp,
      Store.attempt_bind_eq_ok_iff.mpr ⟨_, store, present, ?_⟩⟩
    rw [Store.isFile_eq_isSome, hf]
    exact made
  | some content =>
    obtain ⟨v, deleted, gone, free', dirs'⟩ := CatalogHandle.exists_run_delete ends hf free place
    obtain ⟨e, t, made, none_, held, dirs⟩ :=
      CatalogHandle.exists_run_create s.name ends gone free'
        (place.of_sameDirectories dirs') (writable.of_sameDirectories dirs')
    refine ⟨e, _, t, Store.attempt_bind_eq_ok_iff.mpr ⟨⟨path, e⟩, t, ?_, rfl⟩, none_, held,
      dirs'.trans dirs⟩
    refine Store.attempt_liftExcept_bind_eq_ok_iff.mpr ⟨path, hp,
      Store.attempt_bind_eq_ok_iff.mpr ⟨_, store, present, ?_⟩⟩
    rw [Store.isFile_eq_isSome, hf, anew.1]
    exact Store.attempt_bind_eq_ok_iff.mpr ⟨(), v, deleted, made⟩

/-- A run on an open catalog succeeds if the catalog accepts its changes. -/
theorem exists_create {p : s.Placement o} {e e' : Catalog}
    (ends : path.toList.getLast? = some 'n')
    (hopen : store.attempt (d.openFor s o) = (.ok (⟨path, e⟩, step), t))
    (held : t.file? (lockPath path) = some (.text ""))
    (writable : s.placedTables o ≠ [] → Writable t path) (applied : p.apply e = .ok e') :
    ∃ report store', store.attempt (d.create s o) = (.ok report, store') := by
  obtain ⟨u, run, changes⟩ := Schema.carries_populate step writable applied t (.refl t)
  have kept : u.file? (lockPath path) = some (.text "") :=
    (CatalogHandle.file_lockPath ends changes).trans held
  obtain ⟨store', released, -⟩ := CatalogHandle.exists_run_releaseLock kept
  exact ⟨_, store', attempt_create_eq_ok_iff.mpr ⟨⟨path, e⟩, step, t, ⟨path, e'⟩, u, hopen, run,
    released⟩⟩

end CatalogDirectory

end Tabular
