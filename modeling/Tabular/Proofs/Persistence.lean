import Tabular.Proofs.Completion

/-!
A handle and its document, at any path. From its creation on the document is up to date, so that the
catalog that is opened next is the one that was closed, down to the members that its rows leave out.
The lock has to be another file than the document: where it is not, closing a catalog removes it.
-/
namespace Tabular

namespace CatalogHandle

variable {s t : Store} {h : CatalogHandle} {path title : String}

/-- A handle whose document is up to date and can be written again, with its lock beside it. -/
structure Current (h : CatalogHandle) (s : Store) : Prop where
  writable : Writable s h.path
  document : s.read h.path = .ok h.catalog.toText
  lock : ∃ content, s.file? (lockPath h.path) = some content

theorem current_of_run_create (own : HasOwnLock path)
    (created : s.run (create path title) = (.ok h, t)) : h.path = path ∧ h.Current t := by
  obtain ⟨-, u, lock, rfl, saved⟩ := run_create_steps created
  obtain ⟨-, held, -⟩ := Store.create_ok lock
  obtain ⟨read, changes⟩ := read_of_run_save saved
  exact ⟨rfl, (writable_of_run_save saved).of_sameDirectories changes.directories, read, _,
    (own.file_lockPath changes).trans held⟩

/-- A change keeps a handle current, whether it is refused or not. -/
theorem Current.task (current : h.Current s) (own : HasOwnLock h.path) (m : Mutation) :
    (s.run (m.task h)).1.2.path = h.path ∧ (s.run (m.task h)).1.2.Current (s.run (m.task h)).2 := by
  rw [m.run_task]
  rcases run_commit current.writable (m.apply h.catalog) with
    ⟨e, -, run⟩ | ⟨c, t, -, run, read, changes⟩
  · rw [run]
    exact ⟨rfl, current⟩
  · obtain ⟨content, held⟩ := current.lock
    rw [run]
    exact ⟨rfl, current.writable.of_sameDirectories changes.directories, read, content,
      (own.file_lockPath changes).trans held⟩

theorem Current.perform (current : h.Current s) (own : HasOwnLock h.path) (ms : List Mutation) :
    (s.run (h.perform ms)).1.Current (s.run (h.perform ms)).2 := by
  induction ms generalizing s h with
  | nil => exact current
  | cons m ms ih =>
    obtain ⟨same, next⟩ := current.task own m
    rw [CatalogHandle.perform, Store.run_bind]
    exact ih next (same ▸ own)

/-- A current handle is closed, and the catalog is opened as it was. -/
theorem Current.reopen (current : h.Current s) (own : HasOwnLock h.path)
    (back : h.catalog.reread? = some h.catalog) :
    ∃ t u, s.run h.close = (.ok (), t) ∧ t.run (openAt h.path) = (.ok h, u) ∧ h.Current u := by
  obtain ⟨content, held⟩ := current.lock
  obtain ⟨p, hp, he⟩ := Store.file?_eq_some_iff.mp held
  obtain ⟨t, closed, free, release⟩ := exists_run_releaseLock held
  have place : s.HasPlace (lockPath h.path) := ⟨p, hp, by simp [he]⟩
  obtain ⟨u, lock⟩ := exists_create_lock free (place.of_sameDirectories release.directories)
  obtain ⟨-, locked, changes⟩ := Store.create_ok lock
  have left : t.read h.path = .ok h.catalog.toText :=
    (release.read_of_ne own).mpr current.document
  have read : u.read h.path = .ok h.catalog.toText := (changes.read_of_ne own).mpr left
  have parsed : Catalog.parse? h.catalog.toText = some (Catalog.formatVersion, h.catalog) := by
    rw [Catalog.parse?_toText, back]
    rfl
  have present : t.isFile h.path = true := by
    rw [Store.isFile_eq_isSome, Store.read_eq_ok_iff_file?.mp left]
    rfl
  have dirs := release.directories.trans changes.directories
  exact ⟨t, u, closed, run_openAt present lock read parsed,
    current.writable.of_sameDirectories dirs, read, _, locked⟩

end CatalogHandle

/-- Whatever is done to a catalog, its new rows have their members in order. -/
theorem Mutation.hasRow_foldl {c : Catalog} {ms : List Mutation} {r : Row}
    (hr : (ms.foldl settle c).HasRow r) : c.HasRow r ∨ Json.Ordered r := by
  induction ms generalizing c with
  | nil => exact .inl hr
  | cons m ms ih =>
    rcases ih hr with old | ordered
    · cases applied : m.apply c with
      | error e =>
        rw [settle, applied] at old
        exact .inl old
      | ok c' =>
        rw [settle_of_ok applied] at old
        have new := hasRow_of_apply (Q := fun _ => True) (fun _ => trivial)
          (fun _ _ _ _ _ => trivial) applied old
        exact new.imp id (·.ordered)
    · exact .inr ordered

namespace CatalogHandle

variable {s t : Store} {h : CatalogHandle} {path title : String}

/-- A catalog that was created and changed in any way can be closed, and whoever opens it next has
the very same catalog, as long as its values are read as they are printed. -/
theorem openAt_close (own : HasOwnLock path) (created : s.run (create path title) = (.ok h, t))
    (ms : List Mutation)
    (values : ∀ r, (t.run (h.perform ms)).1.catalog.HasRow r → ∀ m ∈ r, m.2.ComesBack) :
    ∃ u v, (t.run (h.perform ms)).2.run (t.run (h.perform ms)).1.close = (.ok (), u) ∧
      u.run (openAt path) = (.ok (t.run (h.perform ms)).1, v) := by
  obtain ⟨rfl, current⟩ := current_of_run_create own created
  obtain ⟨-, -, empty, -⟩ := run_create_ok created
  have same : (t.run (h.perform ms)).1 = { h with catalog := ms.foldl Mutation.settle h.catalog } :=
    run_perform t h ms
  have back : (ms.foldl Mutation.settle h.catalog).reread? =
      some (ms.foldl Mutation.settle h.catalog) := by
    rw [Catalog.reread?_eq_self_iff]
    intro r hr
    rw [same] at values
    refine Row.IsOf.reread? ⟨?_, values r hr⟩
    rcases Mutation.hasRow_foldl hr with ⟨table, mem, -⟩ | ordered
    · rw [empty] at mem
      cases mem
    · exact ordered
  have latest := current.perform own ms
  rw [same] at latest ⊢
  obtain ⟨u, v, closed, opened, -⟩ := latest.reopen own back
  exact ⟨u, v, closed, opened⟩

def sparse : List Mutation :=
  [.appendTable "t" [⟨"k", ⟨.integer, 4, false⟩⟩, ⟨"d", ⟨.double, 8, true⟩⟩],
    .appendKey "t" (.primary "p" ["k"]), .insert "t" [("k", .int 1), ("d", .null)],
    .insert "t" [("k", .int 2)]]

def sparseTable : StoredTable :=
  ⟨"t", [⟨"k", ⟨.integer, 4, false⟩⟩, ⟨"d", ⟨.double, 8, true⟩⟩], [.primary "p" ["k"]],
    [[("d", .null), ("k", .int 1)], [("k", .int 2)]]⟩

theorem openAt_close_sparse :
    HasOwnLock "s.jet.json" ∧ ∃ h t u v,
      Store.empty.run (create "s.jet.json" "s") = (.ok h, t) ∧
      (t.run (h.perform sparse)).1.catalog.tables = [sparseTable] ∧
      (∀ r, (t.run (h.perform sparse)).1.catalog.HasRow r → ∀ m ∈ r, m.2.ComesBack) ∧
      (t.run (h.perform sparse)).2.run (t.run (h.perform sparse)).1.close = (.ok (), u) ∧
      u.run (openAt "s.jet.json") = (.ok (t.run (h.perform sparse)).1, v) := by
  have own : HasOwnLock "s.jet.json" := by decide
  have made : (Store.empty.run (create "s.jet.json" "s")).1.toOption =
      some ⟨"s.jet.json", ⟨"s", .epoch, []⟩⟩ := by
    decide +kernel
  rcases created : Store.empty.run (create "s.jet.json" "s") with ⟨r, t⟩
  rw [created] at made
  obtain rfl := eq_ok_of_toOption made
  have tables : (t.run (perform ⟨"s.jet.json", ⟨"s", .epoch, []⟩⟩ sparse)).1.catalog.tables =
      [sparseTable] := by
    rw [run_perform]
    decide +kernel
  have back : ∀ r ∈ sparseTable.rows, ∀ m ∈ r, m.2.ComesBack := by
    have number (n : Int) (low : -2 ^ 63 ≤ n) (high : n < 2 ^ 64) : (Json.int n).ComesBack := by
      have read : (Number.int n).reread? = some (.int n) := Number.reread?_int low high
      simp [Json.ComesBack, Json.int, Json.printed, read, JsonTree.value?]
    have null : Json.null.ComesBack := rfl
    have one := number 1 (by decide) (by decide)
    have two := number 2 (by decide) (by decide)
    rw [sparseTable, List.forall_mem_cons, List.forall_mem_singleton, List.forall_mem_cons,
      List.forall_mem_singleton, List.forall_mem_singleton]
    exact ⟨⟨null, one⟩, two⟩
  have values : ∀ r, (t.run (perform ⟨"s.jet.json", ⟨"s", .epoch, []⟩⟩ sparse)).1.catalog.HasRow r →
      ∀ m ∈ r, m.2.ComesBack := by
    rintro r ⟨table, mem, hr⟩
    rw [tables, List.mem_singleton] at mem
    exact back r (mem ▸ hr)
  obtain ⟨u, v, closed, opened⟩ := openAt_close own created sparse values
  exact ⟨own, _, t, u, v, rfl, tables, values, closed, opened⟩

/-- The path at which a document is its own lock: it is gone once the catalog is closed. -/
theorem close_removes_document :
    let path := "catalog.jet.lock"
    let created := Store.empty.run (create path "s")
    let closed := created.2.run (close ⟨path, ⟨"s", .epoch, []⟩⟩)
    created.1.toOption = some ⟨path, ⟨"s", .epoch, []⟩⟩ ∧ created.2.isFile path = true ∧
      closed.1.isOk = true ∧ closed.2.isFile path = false ∧
      (closed.2.run (openAt path)).1.isOk = false := by
  decide +kernel

end CatalogHandle

end Tabular
