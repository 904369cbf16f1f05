import Tabular.Proofs.Legibility
import Tabular.Proofs.Structure

/-!
Visits to a catalog: it is opened, changed and given up, and any of this may fail. After a visit the
lock is free, directories are as they were, and the document has what all changes preserve.
-/
namespace Tabular

namespace CatalogHandle

variable {s t : Store} {h : CatalogHandle} {path : String}

def HasOwnLock (path : String) : Prop :=
  Path.base (lockPath path).toList ≠ Path.base path.toList

instance : Decidable (HasOwnLock path) := inferInstanceAs (Decidable (_ ≠ _))

theorem HasOwnLock.ne (own : HasOwnLock path) : path ≠ lockPath path := by
  intro same
  refine own ?_
  rw [← same]

theorem getLast?_base_draftPath {name : String} (named : Path.fileName? path = some name) :
    (Path.base (draftPath path).toList).getLast? = some 'p' := by
  have suffix : "tmp".toList.getLast? = some 'p' := by decide
  refine Path.getLast?_base ?_ (by decide)
  unfold draftPath Path.withExtension
  rw [named]
  dsimp only
  rw [String.toList_append, List.getLast?_append, suffix, Option.some_or]

/-- The draft of a document has another name than the document. -/
theorem base_draftPath_ne (ends : path.toList.getLast? = some 'n') :
    Path.base (draftPath path).toList ≠ Path.base path.toList := by
  have draft := getLast?_base_draftPath (Path.fileName?_eq ends (by decide) (by decide))
  intro same
  rw [same, Path.getLast?_base ends (by decide)] at draft
  exact absurd draft (by decide)

/-- The draft has another name than a lock of its own. A path without a name is its own draft. -/
theorem HasOwnLock.base_draftPath_ne (own : HasOwnLock path) :
    Path.base (draftPath path).toList ≠ Path.base (lockPath path).toList := by
  cases named : Path.fileName? path with
  | none =>
    have draft : draftPath path = path := by
      unfold draftPath Path.withExtension
      rw [named]
    rw [draft]
    exact own.symm
  | some name =>
    have draft := getLast?_base_draftPath named
    intro same
    rw [same, Path.getLast?_base (getLast?_lockPath path) (by decide)] at draft
    exact absurd draft (by decide)

/-- A lock of its own is not touched where only the document and its draft are. -/
theorem HasOwnLock.file_lockPath (own : HasOwnLock path)
    (changes : s.ChangesOnly [draftPath path, path] t) :
    t.file? (lockPath path) = s.file? (lockPath path) := by
  refine changes.file _ ?_
  rw [List.forall_mem_cons, List.forall_mem_singleton]
  exact ⟨own.base_draftPath_ne, own.symm⟩

theorem hasOwnLock (ends : path.toList.getLast? = some 'n') : HasOwnLock path :=
  base_lockPath_ne ends

theorem file_lockPath (ends : path.toList.getLast? = some 'n')
    (changes : s.ChangesOnly [draftPath path, path] t) :
    t.file? (lockPath path) = s.file? (lockPath path) :=
  (hasOwnLock ends).file_lockPath changes

/-! ### Saving -/

/-- A save that fails has left the document as it was. -/
theorem run_save (ends : h.path.toList.getLast? = some 'n') (s : Store) :
    s.ChangesOnly [draftPath h.path, h.path] (s.run h.save).2 ∧
      ((s.run h.save).2.file? h.path = s.file? h.path ∨
        (s.run h.save).2.file? h.path = some (.text h.catalog.toText)) := by
  rcases hs : s.run h.save with ⟨r, t⟩
  unfold save at hs
  rw [Store.run_bind, Store.run_write] at hs
  cases hw : s.write (draftPath h.path) (.text h.catalog.toText) with
  | error e =>
    rw [hw] at hs
    obtain ⟨-, rfl⟩ := Prod.mk.inj hs
    exact ⟨.refl _ _, .inl rfl⟩
  | ok u =>
    obtain ⟨written, draft⟩ := Store.write_ok hw
    rw [hw] at hs
    dsimp only [Store.outcome] at hs
    rw [Store.run_bind, Store.run_rename] at hs
    cases hr : u.rename (draftPath h.path) h.path with
    | error e =>
      rw [hr] at hs
      obtain ⟨-, rfl⟩ := Prod.mk.inj hs
      exact ⟨draft.mono (by simp), .inl (draft.file_of_ne (base_draftPath_ne ends))⟩
    | ok v =>
      obtain ⟨moved, document⟩ := Store.rename_ok hr
      rw [hr] at hs
      obtain ⟨-, rfl⟩ := Prod.mk.inj hs
      exact ⟨(draft.mono (by simp)).trans document, .inr (moved.trans written)⟩

theorem run_task (ends : h.path.toList.getLast? = some 'n') (m : Mutation) (s : Store) :
    (s.run (m.task h)).1.2 = ⟨h.path, m.settle h.catalog⟩ ∧
      s.ChangesOnly [draftPath h.path, h.path] (s.run (m.task h)).2 ∧
      ((s.run (m.task h)).2.file? h.path = s.file? h.path ∨
        (s.run (m.task h)).2.file? h.path = some (.text (m.settle h.catalog).toText)) := by
  rw [m.run_task]
  refine ⟨snd_run_commit s h _, ?_⟩
  cases applied : m.apply h.catalog with
  | error e => exact ⟨.refl _ s, .inl rfl⟩
  | ok c =>
    have saved : (s.run (h.commit (.ok c))).2 = (s.run (save ⟨h.path, c⟩)).2 := by
      unfold commit
      dsimp only
      rw [Store.run_bind, Store.run_pure]
    rw [saved, Mutation.settle_of_ok applied]
    exact run_save (h := ⟨h.path, c⟩) ends s

/-! ### Changes -/

def HasDocument (G : Catalog → Prop) (path : String) (s : Store) : Prop :=
  ∃ c, s.catalogAt? path = some c ∧ G c

theorem HasDocument.of_file? {G : Catalog → Prop} (h : HasDocument G path s)
    (same : t.file? path = s.file? path) : HasDocument G path t := by
  obtain ⟨c, hc, hG⟩ := h
  exact ⟨c, (Store.catalogAt?_of_file? same).trans hc, hG⟩

def Lasts (G : Catalog → Prop) : Prop := ∀ c, G c → ∃ c', c.reread? = some c' ∧ G c'

theorem Lasts.hasDocument {G : Catalog → Prop} (lasts : Lasts G) {c : Catalog} (hc : G c)
    (written : s.file? path = some (.text c.toText)) : HasDocument G path s := by
  obtain ⟨c', read, hG⟩ := lasts c hc
  refine ⟨c', Store.catalogAt?_eq_some_iff.mpr
    ⟨c.toText, Store.read_eq_ok_iff_file?.mpr written, ?_⟩, hG⟩
  rw [Catalog.parse?_toText, read]
  rfl

/-- Changes touch no file but the document and its draft. -/
theorem changesOnly_perform (ends : h.path.toList.getLast? = some 'n') (ms : List Mutation)
    (s : Store) : s.ChangesOnly [draftPath h.path, h.path] (s.run (h.perform ms)).2 := by
  induction ms generalizing s h with
  | nil => exact .refl _ s
  | cons m ms ih =>
    obtain ⟨next, changes, -⟩ := run_task ends m s
    have rest := ih (h := ⟨h.path, m.settle h.catalog⟩) ends (s.run (m.task h)).2
    rw [perform, Store.run_bind]
    dsimp only
    rw [next]
    exact changes.trans rest

theorem locked_perform {content : Content} (ends : h.path.toList.getLast? = some 'n')
    (ms : List Mutation) (locked : s.file? (lockPath h.path) = some content) :
    (s.run (h.perform ms)).2.file? (lockPath h.path) = some content :=
  (file_lockPath ends (changesOnly_perform ends ms s)).trans locked

/-- What every change preserves is there in the document in the end. -/
theorem hasDocument_perform {G : Catalog → Prop} (lasts : Lasts G)
    (ends : h.path.toList.getLast? = some 'n') {ms : List Mutation}
    (keeps : ∀ m ∈ ms, ∀ c, G c → G (m.settle c)) (hG : G h.catalog)
    (document : HasDocument G h.path s) : HasDocument G h.path (s.run (h.perform ms)).2 := by
  induction ms generalizing s h with
  | nil => exact document
  | cons m ms ih =>
    rw [List.forall_mem_cons] at keeps
    obtain ⟨next, -, file⟩ := run_task ends m s
    have after : HasDocument G h.path (s.run (m.task h)).2 := by
      rcases file with same | written
      · exact document.of_file? same
      · exact lasts.hasDocument (keeps.1 _ hG) written
    rw [perform, Store.run_bind]
    dsimp only
    rw [next]
    exact ih (h := ⟨h.path, m.settle h.catalog⟩) ends keeps.2 (keeps.1 _ hG) after

/-! ### Visits -/

def visit (path : String) (ms : List Mutation) : FileTask Unit := do
  match ← openAt path with
  | .error _ => return ()
  | .ok h => (← h.perform ms).abandon

/-- An opened catalog is the one in the document, which only the lock has joined. -/
theorem run_openAt_found (ends : path.toList.getLast? = some 'n')
    (hs : s.run (openAt path) = (.ok h, t)) :
    h.path = path ∧ s.catalogAt? path = some h.catalog ∧ h.catalog.Legible ∧
      t.file? (lockPath path) = some (.text "") ∧ s.ChangesOnly [lockPath path] t := by
  obtain ⟨lock, text, read, opened⟩ := run_openAt_steps hs
  obtain ⟨own, parsed⟩ := ofText_eq_ok opened
  obtain ⟨-, locked, changes⟩ := Store.create_ok lock
  exact ⟨own, Store.catalogAt?_eq_some_iff.mpr ⟨text, (read_lock ends lock).mp read, parsed⟩,
    Catalog.legible_of_parse? parsed, locked, changes⟩

theorem run_abandon {content : Content} (h : CatalogHandle)
    (locked : s.file? (lockPath h.path) = some content) :
    (s.run h.abandon).2.file? (lockPath h.path) = none ∧
      s.ChangesOnly [lockPath h.path] (s.run h.abandon).2 := by
  obtain ⟨t, released, free, changes⟩ := exists_run_releaseLock locked
  have run : s.run h.abandon = ((), t) := by
    unfold abandon close
    rw [Store.run_bind, released]
    rfl
  rw [run]
  exact ⟨free, changes⟩

/-- After a visit a catalog is free again. -/
theorem run_visit (ends : path.toList.getLast? = some 'n') (ms : List Mutation)
    (free : s.file? (lockPath path) = none) :
    (s.run (visit path ms)).2.file? (lockPath path) = none ∧
      s.SameDirectories (s.run (visit path ms)).2 := by
  unfold visit
  rw [Store.run_bind]
  rcases opened : s.run (openAt path) with ⟨f | h, t⟩
  · obtain rfl := run_openAt_error opened
    exact ⟨free, .refl t⟩
  · obtain ⟨rfl, -, -, locked, lock⟩ := run_openAt_found ends opened
    have changes := changesOnly_perform ends ms t
    dsimp only
    rw [Store.run_bind, run_perform]
    obtain ⟨free, release⟩ := run_abandon
      { h with catalog := ms.foldl Mutation.settle h.catalog } (locked_perform ends ms locked)
    exact ⟨free, lock.directories.trans (changes.directories.trans release.directories)⟩

theorem hasDocument_visit {G : Catalog → Prop} (lasts : Lasts G)
    (ends : path.toList.getLast? = some 'n') {ms : List Mutation}
    (keeps : ∀ m ∈ ms, ∀ c, G c → G (m.settle c)) (document : HasDocument G path s) :
    HasDocument G path (s.run (visit path ms)).2 := by
  unfold visit
  rw [Store.run_bind]
  rcases opened : s.run (openAt path) with ⟨f | h, t⟩
  · obtain rfl := run_openAt_error opened
    exact document
  · obtain ⟨rfl, found, -, locked, lock⟩ := run_openAt_found ends opened
    have hG : G h.catalog := by
      obtain ⟨c, hc, hG⟩ := document
      obtain rfl := Option.some.inj (found.symm.trans hc)
      exact hG
    have before : HasDocument G h.path t :=
      document.of_file? (lock.file_of_ne (base_lockPath_ne ends))
    dsimp only
    rw [Store.run_bind, run_perform]
    obtain ⟨-, release⟩ := run_abandon
      { h with catalog := ms.foldl Mutation.settle h.catalog } (locked_perform ends ms locked)
    exact (hasDocument_perform lasts ends keeps hG before).of_file?
      (release.file_of_ne (base_lockPath_ne ends))

end CatalogHandle

def Store.visited (path : String) (visits : List (List Mutation)) (s : Store) : Store :=
  visits.foldl (fun s ms => (s.run (CatalogHandle.visit path ms)).2) s

open CatalogHandle (lockPath Lasts HasDocument)

namespace Store

variable {s : Store} {path : String}

theorem free_visited (ends : path.toList.getLast? = some 'n') (visits : List (List Mutation))
    (free : s.file? (lockPath path) = none) :
    (s.visited path visits).file? (lockPath path) = none ∧
      s.SameDirectories (s.visited path visits) := by
  induction visits generalizing s with
  | nil => exact ⟨free, .refl s⟩
  | cons ms visits ih =>
    obtain ⟨free, dirs⟩ := CatalogHandle.run_visit ends ms free
    obtain ⟨free, rest⟩ := ih free
    exact ⟨free, dirs.trans rest⟩

theorem hasDocument_visited {G : Catalog → Prop} (lasts : Lasts G)
    (ends : path.toList.getLast? = some 'n') {visits : List (List Mutation)}
    (keeps : ∀ ms ∈ visits, ∀ m ∈ ms, ∀ c, G c → G (m.settle c)) (document : HasDocument G path s) :
    HasDocument G path (s.visited path visits) := by
  induction visits generalizing s with
  | nil => exact document
  | cons ms visits ih =>
    rw [List.forall_mem_cons] at keeps
    exact ih keeps.2 (CatalogHandle.hasDocument_visit lasts ends keeps.1 document)

end Store

end Tabular
