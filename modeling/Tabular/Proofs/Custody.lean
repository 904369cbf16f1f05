import Tabular.Proofs.CatalogFiles
import Tabular.Proofs.Histories
import Mathlib.Data.List.Nodup

/-!
Who holds a catalog. Handles on the catalogs of a directory come and go in any order; a catalog has
one at most, its lock stands as long as that one is open, and its document is that one's. A deed on
one catalog touches no file of another, and a deed that fails changes nothing.
-/
namespace Tabular

open CatalogHandle (pathOf lockPath draftPath IsPlain Role Writable base_path_ne)

inductive Mutation where
  | appendTable (name : String) (columns : List StoredColumn)
  | appendKey (table : String) (key : StoredKey)
  | dropTable (name : String)
  | insert (table : String) (values : List (String × Json))
  | deleteRows (table : String) (criteria : Criteria)

namespace Mutation

def apply (c : Catalog) : Mutation → Except Refusal Catalog
  | appendTable name columns => c.appendTable name columns
  | appendKey table key => c.appendKey table key
  | dropTable name => c.dropTable name
  | insert table values => c.insert table values
  | deleteRows table criteria => (c.deleteRows table criteria).map (·.2)

def task (h : CatalogHandle) : Mutation → FileTask (Except Fault Unit × CatalogHandle)
  | appendTable name columns => h.appendTable name columns
  | appendKey table key => h.appendKey table key
  | dropTable name => h.dropTable name
  | insert table values => h.insert table values
  | deleteRows table criteria => do
    let (removed, h) ← h.deleteRows table criteria
    return (removed.map fun _ => (), h)

/-- A change is a commit of what it makes of the catalog. -/
theorem task_eq (m : Mutation) (h : CatalogHandle) : m.task h = h.commit (m.apply h.catalog) := by
  cases m with
  | deleteRows table criteria =>
    change (h.deleteRows table criteria >>= fun p => pure (p.1.map fun _ => (), p.2)) =
      h.commit ((h.catalog.deleteRows table criteria).map (·.2))
    unfold CatalogHandle.deleteRows
    cases h.catalog.deleteRows table criteria with
    | error e => rfl
    | ok p =>
      have answer (o : Except Fault Unit) : (o.map fun _ => p.1).map (fun _ => ()) = o := by
        cases o <;> rfl
      dsimp only [Except.map]
      simp only [bind_assoc, pure_bind]
      refine Eq.trans (bind_congr fun q => ?_) (bind_pure _)
      exact congrArg (fun o => pure (o, q.2)) (answer q.1)
  | _ => rfl

theorem run_task (m : Mutation) (h : CatalogHandle) (s : Store) :
    s.run (m.task h) = s.run (h.commit (m.apply h.catalog)) := by
  rw [m.task_eq]

end Mutation

inductive Event where
  | created (name : String) (createdAt : Timestamp)
  | opened
  | changed (m : Mutation)
  | closed
  | deleted

namespace World

/-- What is done to the catalogs of a directory: by name, or through the handle at a position. -/
inductive Deed where
  | create (name title : String)
  | openAt (name : String)
  | delete (name : String)
  | change (i : Nat) (m : Mutation)
  | close (i : Nat)
  | drop (i : Nat)
  | wait (clock : Timestamp)

def opening (w : World) (task : FileTask (Except Fault CatalogHandle)) :
    Except Fault Unit × World :=
  match w.store.run task with
  | (.ok h, store) => (.ok (), ⟨store, w.handles ++ [h]⟩)
  | (.error f, store) => (.error f, ⟨store, w.handles⟩)

/-- Does a deed. One for a handle that is not there has nothing to do. -/
def act (directory : String) (w : World) : Deed → Except Fault Unit × World
  | .create name title => w.opening (CatalogHandle.create (pathOf directory name) title)
  | .openAt name => w.opening (CatalogHandle.openAt (pathOf directory name))
  | .delete name =>
    let (result, store) := w.store.run (CatalogHandle.delete (pathOf directory name))
    (result, { w with store })
  | .change i m =>
    match w.handles[i]? with
    | none => (.ok (), w)
    | some h =>
      let ((result, h), store) := w.store.run (m.task h)
      (result, ⟨store, w.handles.set i h⟩)
  | .close i =>
    match w.handles[i]? with
    | none => (.ok (), w)
    | some h =>
      let (result, store) := w.store.run h.close
      (result, ⟨store, w.handles.eraseIdx i⟩)
  | .drop i =>
    match w.handles[i]? with
    | none => (.ok (), w)
    | some h => (.ok (), ⟨(w.store.run h.abandon).2, w.handles.eraseIdx i⟩)
  | .wait clock => (.ok (), { w with store := { w.store with clock } })

def acts (directory : String) (w : World) (deeds : List Deed) : World :=
  deeds.foldl (fun w deed => (w.act directory deed).2) w

/-- The catalog that a deed is about, by its path, with what happens to it if all goes well. -/
def aim? (directory : String) (w : World) : Deed → Option (String × Event)
  | .create name title =>
    some (pathOf directory name, .created title w.store.clock)
  | .openAt name => some (pathOf directory name, .opened)
  | .delete name => some (pathOf directory name, .deleted)
  | .change i m => w.handles[i]?.map fun h => (h.path, .changed m)
  | .close i | .drop i => w.handles[i]?.map fun h => (h.path, .closed)
  | .wait _ => none

def paths (w : World) : List String := w.handles.map (·.path)

end World

/-! ### Places for files -/

def Store.HasPlace (s : Store) (path : String) : Prop :=
  ∃ p, s.locate path = .ok ⟨p, true⟩ ∧ s.entry? p ≠ some .directory

theorem Store.HasPlace.of_sameDirectories {s t : Store} {path : String} (h : s.HasPlace path)
    (dirs : s.SameDirectories t) : t.HasPlace path := by
  obtain ⟨p, hp, free⟩ := h
  exact ⟨p, dirs.locate hp, fun d => free ((dirs.directory p).mpr d)⟩

/-- Nothing stands in the way of a document and its draft, wherever a lock can be made. -/
def Store.Admits (s : Store) (path : String) : Prop :=
  s.HasPlace (lockPath path) → Writable s path

theorem Store.Admits.of_sameDirectories {s t : Store} {path : String} (h : s.Admits path)
    (dirs : s.SameDirectories t) : t.Admits path := fun place =>
  (h (place.of_sameDirectories dirs.symm)).of_sameDirectories dirs

theorem Store.Admits.of_create {s t : Store} {path : String} (h : s.Admits path)
    (lock : s.create (lockPath path) = .ok t) : Writable t path := by
  obtain ⟨p, hp, free, -⟩ := Store.create_eq_ok_iff.mp lock
  obtain ⟨-, -, changed⟩ := Store.create_ok lock
  exact (h ⟨p, hp, by simp [free]⟩).of_sameDirectories changed.directories

theorem Store.Admits.of_file? {s : Store} {path : String} (h : s.Admits path)
    (lock : (s.file? (lockPath path)).isSome = true) : Writable s path := by
  obtain ⟨content, hc⟩ := Option.isSome_iff_exists.mp lock
  obtain ⟨p, hp, he⟩ := Store.file?_eq_some_iff.mp hc
  exact h ⟨p, hp, by simp [he]⟩

def World.Deed.Fits (d : String) (s : Store) : Deed → Prop
  | create name _ | openAt name | delete name => IsPlain name ∧ s.Admits (pathOf d name)
  | _ => True

theorem World.Deed.Fits.of_sameDirectories {d : String} {s t : Store} {deed : Deed}
    (fits : deed.Fits d s) (dirs : s.SameDirectories t) : deed.Fits d t := by
  cases deed with
  | create | openAt | delete => exact ⟨fits.1, fits.2.of_sameDirectories dirs⟩
  | _ => trivial

def Store.catalogAt? (s : Store) (path : String) : Option Catalog :=
  match s.file? path with
  | some (.text text) => (CatalogHandle.ofText path text).toOption.map (·.catalog)
  | _ => none

theorem Store.catalogAt?_eq_some_iff {s : Store} {path : String} {c : Catalog} :
    s.catalogAt? path = some c ↔
      ∃ text, s.read path = .ok text ∧ Catalog.parse? text = some (Catalog.formatVersion, c) := by
  simp only [Store.read_eq_ok_iff_file?]
  unfold Store.catalogAt?
  split
  · next text hf =>
    constructor
    · intro h
      obtain ⟨opened, ho, rfl⟩ := Option.map_eq_some_iff.mp h
      exact ⟨text, hf, (CatalogHandle.ofText_eq_ok (eq_ok_of_toOption ho)).2⟩
    · rintro ⟨text', hf', parsed⟩
      obtain rfl : text = text' := Content.text.inj (Option.some.inj (hf.symm.trans hf'))
      unfold CatalogHandle.ofText
      rw [parsed]
      rfl
  · next other =>
    constructor
    · intro h
      cases h
    · rintro ⟨text, hf, -⟩
      exact absurd hf (other text)

theorem Store.holds_of_catalogAt? {s : Store} {path : String} {c : Catalog}
    (h : s.catalogAt? path = some c) : s.Holds path c := by
  obtain ⟨text, read, parsed⟩ := Store.catalogAt?_eq_some_iff.mp h
  exact ⟨text, read, .inr parsed⟩

/-- A document depends on its file alone. -/
theorem Store.Holds.of_file? {s t : Store} {path : String} {c : Catalog} (h : s.Holds path c)
    (same : t.file? path = s.file? path) : t.Holds path c := by
  obtain ⟨text, read, hc⟩ := h
  rw [Store.read_eq_ok_iff_file?, ← same, ← Store.read_eq_ok_iff_file?] at read
  exact ⟨text, read, hc⟩

namespace World

variable {d : String} {w w' : World} {deed : Deed} {n m path : String} {e : Event}
  {held : Option Catalog}

/-! ### What a deed does -/

/-- How a world changes when something happens to the catalog of a path, with the catalog that a
handle on it has afterwards. -/
inductive Effect (w : World) (path : String) : Event → Option Catalog → World → Prop
  | created {t : Store} {name : String} {createdAt : Timestamp}
      (free : w.store.file? (lockPath path) = none)
      (locked : (t.file? (lockPath path)).isSome = true)
      (written : t.read path = .ok ({ name, createdAt } : Catalog).toText)
      (changes : w.store.ChangesOnly [path, lockPath path, draftPath path] t) :
      Effect w path (.created name createdAt) (some { name, createdAt })
        ⟨t, w.handles ++ [⟨path, { name, createdAt }⟩]⟩
  | opened {t : Store} {c : Catalog} (found : w.store.catalogAt? path = some c)
      (free : w.store.file? (lockPath path) = none)
      (locked : (t.file? (lockPath path)).isSome = true)
      (changes : w.store.ChangesOnly [lockPath path] t) :
      Effect w path .opened (some c) ⟨t, w.handles ++ [⟨path, c⟩]⟩
  | changed {t : Store} {c : Catalog} {i : Nat} {h : CatalogHandle} {m : Mutation}
      (found : w.handles[i]? = some h) (own : h.path = path) (applied : m.apply h.catalog = .ok c)
      (written : t.read path = .ok c.toText)
      (changes : w.store.ChangesOnly [draftPath path, path] t) :
      Effect w path (.changed m) (some c) ⟨t, w.handles.set i ⟨path, c⟩⟩
  | closed {t : Store} {i : Nat} {h : CatalogHandle} (found : w.handles[i]? = some h)
      (own : h.path = path) (unlocked : t.file? (lockPath path) = none)
      (changes : w.store.ChangesOnly [lockPath path] t) :
      Effect w path .closed none ⟨t, w.handles.eraseIdx i⟩
  | deleted {t : Store} (free : w.store.file? (lockPath path) = none)
      (unlocked : t.file? (lockPath path) = none) (gone : t.file? path = none)
      (changes : w.store.ChangesOnly [path, lockPath path] t) :
      Effect w path .deleted none ⟨t, w.handles⟩

theorem Effect.changesOnly (effect : Effect w path e held w') :
    w.store.ChangesOnly [path, lockPath path, draftPath path] w'.store := by
  cases effect with
  | created _ _ _ changes => exact changes
  | opened _ _ _ changes => exact changes.mono (by simp)
  | changed _ _ _ _ changes => exact changes.mono (by simp)
  | closed _ _ _ changes => exact changes.mono (by simp)
  | deleted _ _ _ changes => exact changes.mono (by simp)

/-- The files of another catalog are as they were. -/
theorem Effect.file_other (effect : Effect w (pathOf d n) e held w') (plain : IsPlain n)
    (plain' : IsPlain m) (apart : n ≠ m) (role : Role) :
    w'.store.file? (role.path (pathOf d m)) = w.store.file? (role.path (pathOf d m)) := by
  refine effect.changesOnly.file _ fun path hpath => ?_
  obtain ⟨own, rfl⟩ : ∃ own : Role, path = own.path (pathOf d n) := by
    simp only [List.mem_cons, List.not_mem_nil, or_false] at hpath
    rcases hpath with rfl | rfl | rfl
    · exact ⟨.document, rfl⟩
    · exact ⟨.lock, rfl⟩
    · exact ⟨.draft, rfl⟩
  exact base_path_ne own role plain plain' fun same => absurd same apart

/-! ### Custody -/

/-- What is always true of the handles on the catalogs of a directory. -/
structure Custody (d : String) (w : World) : Prop where
  named : ∀ path ∈ w.paths, ∃ n, IsPlain n ∧ path = pathOf d n
  /-- No catalog has two handles. -/
  single : w.paths.Nodup
  /-- A lock stands beside a catalog as long as it is open. -/
  locked : ∀ n, IsPlain n →
    ((w.store.file? (lockPath (pathOf d n))).isSome = true ↔ pathOf d n ∈ w.paths)
  /-- The document of an open catalog is up to date. -/
  holds : ∀ h ∈ w.handles, w.store.Holds h.path h.catalog

variable {s : Store}

/-- A document and its draft are written without touching the lock. -/
theorem file_lock_of_written {s t : Store} (plain : IsPlain n)
    (changes : s.ChangesOnly [draftPath (pathOf d n), pathOf d n] t) :
    t.file? (lockPath (pathOf d n)) = s.file? (lockPath (pathOf d n)) := by
  refine changes.file _ fun path hpath => ?_
  rcases List.mem_pair.mp hpath with rfl | rfl
  · exact base_path_ne .draft .lock plain plain fun _ => by decide
  · exact base_path_ne .document .lock plain plain fun _ => by decide

/-- A lock comes and goes without touching the document. -/
theorem file_document_of_lock {s t : Store} (plain : IsPlain n)
    (changes : s.ChangesOnly [lockPath (pathOf d n)] t) :
    t.file? (pathOf d n) = s.file? (pathOf d n) :=
  changes.file_of_ne
    (base_path_ne .lock .document plain plain fun _ => by decide)

inductive Outcome (d : String) (w : World) (deed : Deed) : Prop
  | idle (aim : w.aim? d deed = none) (clock : Timestamp)
      (same : w.act d deed = (.ok (), { w with store := { w.store with clock } }))
  | failed (fault : Fault) (same : w.act d deed = (.error fault, w))
  | done {n : String} {e : Event} {held : Option Catalog} {w' : World} (plain : IsPlain n)
      (admits : w.store.Admits (pathOf d n)) (aim : w.aim? d deed = some (pathOf d n, e))
      (same : w.act d deed = (.ok (), w')) (effect : w.Effect (pathOf d n) e held w')

theorem set_eq_self {α : Type} {xs : List α} {i : Nat} {x : α} (h : xs[i]? = some x) :
    xs.set i x = xs := by
  obtain ⟨inside, rfl⟩ := List.getElem?_eq_some_iff.mp h
  exact List.set_getElem_self inside

structure Orderly (d : String) (w : World) : Prop where
  custody : w.Custody d
  admits : ∀ path ∈ w.paths, w.store.Admits path

theorem Orderly.of_mem (orderly : w.Orderly d) {h : CatalogHandle} (hh : h ∈ w.handles) :
    ∃ n, IsPlain n ∧ h.path = pathOf d n ∧ w.store.Admits (pathOf d n) ∧
      (w.store.file? (lockPath (pathOf d n))).isSome = true := by
  have mem : h.path ∈ w.paths := List.mem_map_of_mem hh
  obtain ⟨n, plain, own⟩ := orderly.custody.named h.path mem
  rw [own] at mem
  exact ⟨n, plain, own, orderly.admits _ mem, (orderly.custody.locked n plain).mpr mem⟩

theorem outcome_create (plain : IsPlain n) (admits : w.store.Admits (pathOf d n)) (title : String) :
    w.Outcome d (.create n title) := by
  rcases hs : w.store.run (CatalogHandle.create (pathOf d n) title) with ⟨f | h, t⟩
  · have same := CatalogHandle.run_create_error (fun u lock => admits.of_create lock) hs
    refine .failed f ?_
    simp only [act, opening, hs, same]
  · obtain ⟨-, u, made, rfl, saved⟩ := CatalogHandle.run_create_steps hs
    have clock : u.clock = w.store.clock := by
      obtain ⟨p, -, -, rfl⟩ := Store.create_eq_ok_iff.mp made
      rfl
    rw [clock] at hs saved
    obtain ⟨read, written⟩ := CatalogHandle.read_of_run_save saved
    obtain ⟨free, locked, lock⟩ := Store.create_ok made
    have kept := (file_lock_of_written plain written).trans locked
    have same : w.act d (.create n title) = (.ok (), ⟨t, w.handles ++
        [⟨pathOf d n, { name := title, createdAt := w.store.clock }⟩]⟩) := by
      simp only [act, opening, hs]
    refine .done plain admits rfl same (.created free (by rw [kept]; rfl) read ?_)
    exact (lock.mono (by simp)).trans (written.mono (by simp))

theorem outcome_openAt (plain : IsPlain n) (admits : w.store.Admits (pathOf d n)) :
    w.Outcome d (.openAt n) := by
  rcases hs : w.store.run (CatalogHandle.openAt (pathOf d n)) with ⟨f | h, t⟩
  · have same := CatalogHandle.run_openAt_error hs
    refine .failed f ?_
    simp only [act, opening, hs, same]
  · obtain ⟨made, text, read, parsed⟩ := CatalogHandle.run_openAt_steps hs
    obtain ⟨path, c⟩ := h
    obtain rfl : path = pathOf d n := (CatalogHandle.ofText_eq_ok parsed).1
    obtain ⟨free, locked, lock⟩ := Store.create_ok made
    have found : w.store.catalogAt? (pathOf d n) = some c := by
      have before := (file_document_of_lock plain lock).symm.trans
        (Store.read_eq_ok_iff_file?.mp read)
      simp only [Store.catalogAt?, before, parsed]
      rfl
    have same : w.act d (.openAt n) = (.ok (), ⟨t, w.handles ++ [⟨pathOf d n, c⟩]⟩) := by
      simp only [act, opening, hs]
    exact .done plain admits rfl same (.opened found free (by rw [locked]; rfl) lock)

theorem outcome_delete (plain : IsPlain n) (admits : w.store.Admits (pathOf d n)) :
    w.Outcome d (.delete n) := by
  rcases hs : w.store.run (CatalogHandle.delete (pathOf d n)) with ⟨r, t⟩
  obtain ⟨failed, done⟩ := CatalogHandle.run_delete (CatalogHandle.getLast?_pathOf d n) hs
  cases r with
  | error f =>
    refine .failed f ?_
    simp only [act, hs, failed rfl]
  | ok _ =>
    obtain ⟨free, unlocked, gone, changes⟩ := done rfl
    have same : w.act d (.delete n) = (.ok (), ⟨t, w.handles⟩) := by
      simp only [act, hs]
    exact .done plain admits rfl same (.deleted free unlocked gone changes)

/-- A deed through a handle that is not there. -/
theorem outcome_of_none {deed : Deed} (aim : w.aim? d deed = none)
    (same : w.act d deed = (.ok (), w)) : w.Outcome d deed :=
  .idle aim w.store.clock same

variable {h : CatalogHandle} {i : Nat}

theorem outcome_change (orderly : w.Orderly d) (hi : w.handles[i]? = some h) (m : Mutation) :
    w.Outcome d (.change i m) := by
  obtain ⟨n, plain, own, admits, locked⟩ := orderly.of_mem (List.mem_of_getElem? hi)
  have writable : Writable w.store h.path := own ▸ admits.of_file? locked
  have task := m.run_task h w.store
  rcases CatalogHandle.run_commit writable (m.apply h.catalog) with
    ⟨e, -, run⟩ | ⟨c, t, applied, run, read, written⟩
  · refine .failed e.fault ?_
    simp only [act, hi, task.trans run, set_eq_self hi]
  · have same : w.act d (.change i m) = (.ok (), ⟨t, w.handles.set i ⟨h.path, c⟩⟩) := by
      simp only [act, hi, task.trans run]
    have aim : w.aim? d (.change i m) = some (h.path, .changed m) := by
      simp [aim?, hi]
    rw [own] at aim same read written
    exact .done plain admits aim same (.changed hi own applied read written)

theorem outcome_leave (orderly : w.Orderly d) (hi : w.handles[i]? = some h)
    (aim : w.aim? d deed = some (h.path, .closed))
    (same : ∀ t, w.store.run h.close = (.ok (), t) →
      w.act d deed = (.ok (), ⟨t, w.handles.eraseIdx i⟩)) : w.Outcome d deed := by
  obtain ⟨n, plain, own, admits, locked⟩ := orderly.of_mem (List.mem_of_getElem? hi)
  obtain ⟨content, hc⟩ := Option.isSome_iff_exists.mp locked
  obtain ⟨t, released, unlocked, changes⟩ := CatalogHandle.exists_run_releaseLock hc
  rw [own] at aim
  exact .done plain admits aim (same t (by rw [CatalogHandle.close, own, released]))
    (.closed hi own unlocked changes)

/-- A deed is done, or nothing has changed. -/
theorem outcome (orderly : w.Orderly d) (fits : deed.Fits d w.store) : w.Outcome d deed := by
  cases deed with
  | create n title => exact outcome_create fits.1 fits.2 title
  | openAt n => exact outcome_openAt fits.1 fits.2
  | delete n => exact outcome_delete fits.1 fits.2
  | change i m =>
    cases hi : w.handles[i]? with
    | none => exact outcome_of_none (by simp [aim?, hi]) (by simp [act, hi])
    | some h => exact outcome_change orderly hi m
  | close i =>
    cases hi : w.handles[i]? with
    | none => exact outcome_of_none (by simp [aim?, hi]) (by simp [act, hi])
    | some h =>
      exact outcome_leave orderly hi (by simp [aim?, hi]) fun t ht => by simp only [act, hi, ht]
  | drop i =>
    cases hi : w.handles[i]? with
    | none => exact outcome_of_none (by simp [aim?, hi]) (by simp [act, hi])
    | some h =>
      refine outcome_leave orderly hi (by simp [aim?, hi]) fun t ht => ?_
      have abandoned : w.store.run h.abandon = ((), t) := by
        unfold CatalogHandle.abandon
        rw [Store.run_bind, ht]
        rfl
      simp only [act, hi, abandoned]
  | wait clock => exact .idle rfl clock rfl

/-! ### Handles and paths -/

theorem paths_append (t : Store) (h : CatalogHandle) :
    (⟨t, w.handles ++ [h]⟩ : World).paths = w.paths ++ [h.path] := by
  simp [paths]

theorem paths_set {g : CatalogHandle} (found : w.handles[i]? = some h) (own : h.path = g.path)
    (t : Store) : (⟨t, w.handles.set i g⟩ : World).paths = w.paths := by
  have there : w.paths[i]? = some g.path := by
    rw [paths, List.getElem?_map, found, Option.map_some, own]
  simp only [paths, List.map_set]
  exact set_eq_self there

theorem paths_eraseIdx (found : w.handles[i]? = some h) (single : w.paths.Nodup) (t : Store) :
    (⟨t, w.handles.eraseIdx i⟩ : World).paths = w.paths.erase h.path := by
  obtain ⟨inside, rfl⟩ := List.getElem?_eq_some_iff.mp found
  have inside' : i < w.paths.length := by simpa [paths] using inside
  have there : w.handles[i].path = w.paths[i] := by simp [paths]
  rw [there, single.erase_getElem i inside']
  simp [paths, List.eraseIdx_map]

/-- Two handles on one catalog are at one position. -/
theorem eq_of_path_eq {j : Nat} {g : CatalogHandle} (single : w.paths.Nodup)
    (found : w.handles[i]? = some h) (found' : w.handles[j]? = some g) (same : h.path = g.path) :
    i = j := by
  have left : w.paths[i]? = some h.path := by rw [paths, List.getElem?_map, found]; rfl
  have right : w.paths[j]? = some h.path := by rw [paths, List.getElem?_map, found', same]; rfl
  obtain ⟨inside, -⟩ := List.getElem?_eq_some_iff.mp left
  exact (List.getElem?_inj inside single).mp (left.trans right.symm)

namespace Effect

variable (custody : w.Custody d) (plain : IsPlain n) (effect : w.Effect (pathOf d n) e held w')

include custody plain in
theorem not_mem_of_free (free : w.store.file? (lockPath (pathOf d n)) = none) :
    pathOf d n ∉ w.paths := by
  intro mem
  have locked := (custody.locked n plain).mpr mem
  rw [free] at locked
  cases locked

include custody effect

/-- Another catalog is open after a step if it was open before. -/
theorem mem_paths_iff {path : String} (other : path ≠ pathOf d n) :
    path ∈ w'.paths ↔ path ∈ w.paths := by
  cases effect with
  | created => simp [paths_append, other]
  | opened => simp [paths_append, other]
  | changed found own _ _ _ => rw [paths_set found own]
  | closed found own _ _ =>
    rw [paths_eraseIdx found custody.single, own, custody.single.mem_erase_iff]
    exact ⟨fun h => h.2, fun h => ⟨other, h⟩⟩
  | deleted => rfl

include plain

theorem nodup_paths : w'.paths.Nodup := by
  have fresh := not_mem_of_free custody plain
  cases effect with
  | created free _ _ _ =>
    rw [paths_append, ← List.concat_eq_append]
    exact custody.single.concat (fresh free)
  | opened _ free _ _ =>
    rw [paths_append, ← List.concat_eq_append]
    exact custody.single.concat (fresh free)
  | changed found own _ _ _ =>
    rw [paths_set found own]
    exact custody.single
  | closed found own _ _ =>
    rw [paths_eraseIdx found custody.single]
    exact custody.single.erase _
  | deleted => exact custody.single

/-- The lock of the catalog stands after the step if the catalog is open then. -/
theorem locked_iff :
    (w'.store.file? (lockPath (pathOf d n))).isSome = true ↔ pathOf d n ∈ w'.paths := by
  have fresh := not_mem_of_free custody plain
  cases effect with
  | created _ locked _ _ => simp [paths_append, locked]
  | opened _ _ locked _ => simp [paths_append, locked]
  | changed found own _ _ changes =>
    rw [paths_set found own, ← custody.locked n plain]
    simp only [file_lock_of_written plain changes]
  | closed found own unlocked _ =>
    rw [paths_eraseIdx found custody.single, own, custody.single.mem_erase_iff]
    simp [unlocked]
  | deleted free unlocked _ _ =>
    have absent := fresh free
    simp only [paths] at absent ⊢
    simp [unlocked, absent]

/-- A handle after the step is one on another catalog, as before, or has what is held. -/
theorem mem_or_held : ∀ h ∈ w'.handles,
    (h ∈ w.handles ∧ h.path ≠ pathOf d n) ∨ (h.path = pathOf d n ∧ held = some h.catalog) := by
  have fresh := not_mem_of_free custody plain
  have other (free : w.store.file? (lockPath (pathOf d n)) = none) (h : CatalogHandle)
      (hh : h ∈ w.handles) : h ∈ w.handles ∧ h.path ≠ pathOf d n :=
    ⟨hh, fun same => fresh free (same ▸ List.mem_map_of_mem hh)⟩
  intro h hh
  cases effect with
  | created free _ _ _ =>
    rcases List.mem_append.mp hh with hh | hh
    · exact .inl (other free h hh)
    · exact .inr (by simp [List.mem_singleton.mp hh])
  | opened _ free _ _ =>
    rcases List.mem_append.mp hh with hh | hh
    · exact .inl (other free h hh)
    · exact .inr (by simp [List.mem_singleton.mp hh])
  | @changed t c i g m found own _ _ _ =>
    obtain ⟨j, hj⟩ := List.getElem?_of_mem hh
    by_cases same : i = j
    · subst same
      obtain ⟨inside, -⟩ := List.getElem?_eq_some_iff.mp found
      rw [List.getElem?_set_self inside] at hj
      exact .inr (by simp [← Option.some.inj hj])
    · rw [List.getElem?_set_ne same] at hj
      exact .inl ⟨List.mem_of_getElem? hj, fun here =>
        same (eq_of_path_eq custody.single found hj (own.trans here.symm))⟩
  | closed found own _ _ =>
    have mem : h.path ∈ w.paths.erase (pathOf d n) := by
      rw [← own, ← paths_eraseIdx found custody.single]
      exact List.mem_map_of_mem hh
    exact .inl ⟨(List.eraseIdx_sublist _ _).subset hh, (custody.single.mem_erase_iff.mp mem).1⟩
  | deleted free _ _ _ => exact .inl (other free h hh)

omit custody in
/-- The document after the step is that of the catalog that is held. -/
theorem holds_held {c : Catalog} (some_ : held = some c) : w'.store.Holds (pathOf d n) c := by
  cases effect with
  | created _ _ written _ => exact Option.some.inj some_ ▸ ⟨_, written, .inl rfl⟩
  | opened found _ _ changes =>
    rw [some_] at found
    exact (Store.holds_of_catalogAt? found).of_file? (file_document_of_lock plain changes)
  | changed _ _ _ written _ => exact Option.some.inj some_ ▸ ⟨_, written, .inl rfl⟩
  | closed => cases some_
  | deleted => cases some_

/-- What happens to one catalog leaves all catalogs in custody. -/
theorem custody_after : w'.Custody d where
  named := by
    intro path hpath
    by_cases here : path = pathOf d n
    · exact ⟨n, plain, here⟩
    · exact custody.named path ((effect.mem_paths_iff custody here).mp hpath)
  single := effect.nodup_paths custody plain
  locked := by
    intro m plain'
    by_cases same : n = m
    · exact same ▸ effect.locked_iff custody plain
    · have apart : pathOf d m ≠ pathOf d n := fun h =>
        same (CatalogHandle.pathOf_injective plain' plain h).symm
      have untouched := effect.file_other plain plain' same .lock
      simp only [Role.path] at untouched
      rw [untouched, effect.mem_paths_iff custody apart, custody.locked m plain']
  holds := by
    intro h hh
    rcases effect.mem_or_held custody plain h hh with ⟨mem, other⟩ | ⟨here, held⟩
    · obtain ⟨m, plain', own⟩ := custody.named h.path (List.mem_map_of_mem mem)
      have same : n ≠ m := fun h => other (h ▸ own)
      have untouched := effect.file_other plain plain' same .document
      simp only [Role.path] at untouched
      exact (custody.holds h mem).of_file? (own ▸ untouched)
    · exact here ▸ effect.holds_held plain held

end Effect

/-! ### Runs -/

theorem changesOnly_clock (s : Store) (clock : Timestamp) :
    s.ChangesOnly [] { s with clock } where
  directories := ⟨rfl, fun _ => Iff.rfl⟩
  file := fun _ _ => Store.file?_of_entry ⟨rfl, fun _ => Iff.rfl⟩ fun _ _ => rfl

theorem Custody.of_changesOnly (custody : w.Custody d) {t : Store}
    (same : w.store.ChangesOnly [] t) : Custody d ⟨t, w.handles⟩ where
  named := custody.named
  single := custody.single
  locked := fun n plain => by
    have untouched := same.file (lockPath (pathOf d n)) (by simp)
    simp only [untouched]
    exact custody.locked n plain
  holds := fun h hh => (custody.holds h hh).of_file? (same.file h.path (by simp))

/-- Where no catalog is locked, none needs to be open. -/
theorem orderly_of_unlocked (unlocked : ∀ n, IsPlain n → s.file? (lockPath (pathOf d n)) = none) :
    Orderly d ⟨s, []⟩ where
  custody := {
    named := by simp [paths]
    single := .nil
    locked := fun n plain => by simp [unlocked n plain, paths]
    holds := by simp }
  admits := by simp [paths]

/-- A deed that fails changes nothing. -/
theorem Orderly.act_of_error (orderly : w.Orderly d) (fits : deed.Fits d w.store) {f : Fault}
    (failed : (w.act d deed).1 = .error f) : (w.act d deed).2 = w := by
  rcases outcome orderly fits with ⟨-, clock, same⟩ | ⟨g, same⟩ | ⟨-, -, -, same, -⟩
  · rw [same] at failed
    cases failed
  · rw [same]
  · rw [same] at failed
    cases failed

/-- A deed on one catalog leaves the files of another as they were. -/
theorem Orderly.file_other (orderly : w.Orderly d) (fits : deed.Fits d w.store) (plain : IsPlain n)
    (elsewhere : ∀ e, w.aim? d deed ≠ some (pathOf d n, e)) (role : Role) :
    (w.act d deed).2.store.file? (role.path (pathOf d n)) =
      w.store.file? (role.path (pathOf d n)) := by
  rcases outcome orderly fits with
    ⟨-, clock, same⟩ | ⟨f, same⟩ | @⟨m, e, held, w', plain', -, aim, same, effect⟩
  · rw [same]
    exact (changesOnly_clock w.store clock).file _ (by simp)
  · rw [same]
  · rw [same]
    refine effect.file_other plain' plain (fun here => ?_) role
    exact elsewhere e (here ▸ aim)

/-- What any deed leaves in order. -/
theorem Orderly.act (orderly : w.Orderly d) (fits : deed.Fits d w.store) :
    (w.act d deed).2.Orderly d ∧ w.store.SameDirectories (w.act d deed).2.store := by
  rcases outcome orderly fits with
    ⟨-, clock, same⟩ | ⟨f, same⟩ | @⟨n, e, held, w', plain, admits, -, same, effect⟩
  · have untouched := changesOnly_clock w.store clock
    rw [same]
    exact ⟨⟨orderly.custody.of_changesOnly untouched, fun path hpath =>
      (orderly.admits path hpath).of_sameDirectories untouched.directories⟩, untouched.directories⟩
  · rw [same]
    exact ⟨orderly, .refl _⟩
  · have dirs := effect.changesOnly.directories
    rw [same]
    refine ⟨⟨effect.custody_after orderly.custody plain, fun path hpath => ?_⟩, dirs⟩
    by_cases here : path = pathOf d n
    · exact here ▸ admits.of_sameDirectories dirs
    · have mem := (effect.mem_paths_iff orderly.custody here).mp hpath
      exact (orderly.admits path mem).of_sameDirectories dirs

/-- What any number of deeds leaves in order. -/
theorem Orderly.acts (orderly : w.Orderly d) {deeds : List Deed}
    (fits : ∀ deed ∈ deeds, deed.Fits d w.store) :
    (w.acts d deeds).Orderly d ∧ w.store.SameDirectories (w.acts d deeds).store := by
  unfold World.acts
  induction deeds generalizing w with
  | nil => exact ⟨orderly, .refl _⟩
  | cons deed deeds ih =>
    rw [List.forall_mem_cons] at fits
    obtain ⟨next, dirs⟩ := orderly.act fits.1
    obtain ⟨last, dirs'⟩ := ih next fun deed h => (fits.2 deed h).of_sameDirectories dirs
    rw [List.foldl_cons]
    exact ⟨last, dirs.trans dirs'⟩

end World

end Tabular
