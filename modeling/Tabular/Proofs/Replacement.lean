import Tabular.Proofs.Aftermath
import Tabular.Proofs.Population

/-!
What is left of a table that could not be appended. A table of its name makes room for it first, and
is written as gone before it is known whether the new columns can be stored; so a failure loses the
table that was there, with its rows and the foreign keys to it.
-/
namespace Tabular

open CatalogHandle (HasOwnDraft)

namespace CatalogSession

variable {α β : Type} {lock : String} {h g : CatalogHandle} {s u : Store} {r : Except Fault β}

def Ends (lock : String) (m : CatalogSession α) (h : CatalogHandle) (s : Store) (r : Except Fault α)
    (g : CatalogHandle) (u : Store) : Prop :=
  Store.Ends lock (m.run.run h) s (r, g) u

theorem ends_exec (lock : String) (m : CatalogSession α) (h : CatalogHandle) (s : Store) :
    Ends lock m h s (exec m h s).1.1 (exec m h s).1.2 (exec m h s).2 :=
  Store.ends_run lock (m.run.run h) s

/-- A session in two parts ends with the fault of the first, or where its second part ends. -/
theorem ends_bind_iff {m : CatalogSession α} {k : α → CatalogSession β} :
    Ends lock (m >>= k) h s r g u ↔
      (∃ f, r = .error f ∧ Ends lock m h s (.error f) g u) ∨
        ∃ a h' s', Ends lock m h s (.ok a) h' s' ∧ Ends lock (k a) h' s' r g u := by
  have whole : Ends lock (m >>= k) h s r g u ↔ ∃ p s', Store.Ends lock (m.run.run h) s p s' ∧
      Store.Ends lock ((ExceptT.bindCont k p.1).run p.2) s' (r, g) u :=
    Store.ends_bind_iff
  rw [whole]
  constructor
  · rintro ⟨⟨_ | a, h'⟩, s', first, rest⟩
    · next f =>
      obtain ⟨same, rfl⟩ := Store.ends_pure_iff.mp rest
      cases same
      exact .inl ⟨f, rfl, first⟩
    · exact .inr ⟨a, h', s', first, rest⟩
  · rintro (⟨f, rfl, first⟩ | ⟨a, h', s', first, rest⟩)
    · exact ⟨(.error f, g), u, first, rfl, rfl⟩
    · exact ⟨(.ok a, h'), s', first, rest⟩

theorem ends_ofExcept_iff {x : Except Fault β} :
    Ends lock (ofExcept x) h s r g u ↔ x = r ∧ h = g ∧ s = u := by
  refine Store.ends_pure_iff.trans ?_
  rw [Prod.mk.injEq, and_assoc]

theorem ends_get_iff {r : Except Fault CatalogHandle} :
    Ends lock get h s r g u ↔ .ok h = r ∧ h = g ∧ s = u := by
  refine Store.ends_pure_iff.trans ?_
  rw [Prod.mk.injEq, and_assoc]

theorem commits_of_ends {change : CatalogHandle → Except Refusal Catalog} {o : Except Fault Unit}
    (ended : Ends lock (ofStep fun h => h.commit (change h)) h s o g u) :
    h.Commits s (change h) o g u :=
  CatalogHandle.commits_of_ends ended

end CatalogSession

namespace Catalog

variable {c cleared : Catalog} {name : String}

/-- A table that is there can be dropped. -/
theorem exists_dropTable (taken : (c.table? name).isSome = true) :
    ∃ cleared, c.dropTable name = .ok cleared := by
  obtain ⟨⟨i, t⟩, located⟩ := exists_locate (c.table?_isSome_eq name ▸ taken)
  exact ⟨_, dropTable_eq_ok_iff.mpr ⟨i, t, located, rfl⟩⟩

theorem length_dropTable (h : c.dropTable name = .ok cleared) :
    cleared.tables.length + 1 = c.tables.length := by
  obtain ⟨i, t, located, rfl⟩ := dropTable_eq_ok_iff.mp h
  obtain ⟨ht, -⟩ := of_locate located
  have inside := (List.getElem?_eq_some_iff.mp ht).1
  rw [List.length_map, List.length_eraseIdx_of_lt inside]
  omega

end Catalog

namespace Table

variable {t : Table} {o : Options} {lock name : String} {h g : CatalogHandle} {s u : Store}
  {f : Fault} {c cleared written : Catalog}

def appendedTo (t : Table) (name : String) (c : Catalog) : Except Fault Catalog := do
  let columns ← t.storedColumns
  (c.appendTable name columns).mapError Refusal.fault

theorem appendedTo_of_ok {columns : List StoredColumn} (fit : t.storedColumns = .ok columns) :
    t.appendedTo name c = (c.appendTable name columns).mapError Refusal.fault := by
  unfold appendedTo
  rw [fit]
  rfl

theorem appendedTo_of_error (unfit : t.storedColumns = .error f) :
    t.appendedTo name c = .error f := by
  unfold appendedTo
  rw [unfit]
  rfl

/-- The part of a session that comes after the old table has gone. -/
def appendAs (t : Table) (name : String) : CatalogSession Unit := do
  let columns ← CatalogSession.ofExcept t.storedColumns
  CatalogSession.ofStep (·.appendTable name columns)

/-- What a new table that fails leaves behind: nothing if it cannot be stored, and itself in the
handle if it cannot be written. -/
theorem appendAs_fails (ended : CatalogSession.Ends lock (t.appendAs name) h s (.error f) g u)
    (own : HasOwnDraft h.path) (holds : s.Holds h.path written) :
    (t.appendedTo name h.catalog = .error f ∧ g = h ∧ u = s) ∨
      ∃ c, ∃ e : FileError, t.appendedTo name h.catalog = .ok c ∧ f = e.fault ∧
        g = { h with catalog := c } ∧ u.Holds h.path written := by
  unfold appendAs at ended
  rcases CatalogSession.ends_bind_iff.mp ended with
    ⟨f', same, first⟩ | ⟨columns, h', s', first, rest⟩
  · cases same
    obtain ⟨unfit, rfl, rfl⟩ := CatalogSession.ends_ofExcept_iff.mp first
    exact .inl ⟨appendedTo_of_error unfit, rfl, rfl⟩
  · obtain ⟨fit, rfl, rfl⟩ := CatalogSession.ends_ofExcept_iff.mp first
    rw [appendedTo_of_ok fit]
    have commits := CatalogSession.commits_of_ends rest
    have document := commits.document_error own holds
    generalize h.catalog.appendTable name columns = r at commits ⊢
    cases commits with
    | refused e => exact .inl ⟨rfl, rfl, rfl⟩
    | unsaved e changes => exact .inr ⟨_, e, rfl, rfl, rfl, document⟩

/-- What a table that cannot be appended leaves behind. If it has no name in the catalog, nothing
has changed. If no table of its name is there, the catalog is as it was, unless a step on files
failed: then the new table is in the handle, and not in the document. If there is one, it is gone
from the handle whatever failed, and from the document as well, unless it was the very step on files
that was to write it as gone. -/
theorem append_fails_leaving (own : HasOwnDraft h.path) (holds : s.Holds h.path written)
    (ended : CatalogSession.Ends lock (t.append o) h s (.error f) g u) :
    (t.storedName o = .error f ∧ g = h ∧ u = s) ∨ ∃ name, t.storedName o = .ok name ∧
      ((h.catalog.table? name = none ∧
          ((t.appendedTo name h.catalog = .error f ∧ g = h ∧ u = s) ∨
            ∃ c, ∃ e : FileError, t.appendedTo name h.catalog = .ok c ∧ f = e.fault ∧
              g = { h with catalog := c } ∧ u.Holds h.path written)) ∨
        ∃ cleared, h.catalog.dropTable name = .ok cleared ∧
          cleared.tables.length + 1 = h.catalog.tables.length ∧
          ((∃ e : FileError, f = e.fault ∧ g = { h with catalog := cleared } ∧
              u.Holds h.path written) ∨
            (t.appendedTo name cleared = .error f ∧ g = { h with catalog := cleared } ∧
              u.Holds h.path cleared) ∨
            ∃ c, ∃ e : FileError, t.appendedTo name cleared = .ok c ∧ f = e.fault ∧
              g = { h with catalog := c } ∧ u.Holds h.path cleared)) := by
  rw [append_eq] at ended
  rcases CatalogSession.ends_bind_iff.mp ended with ⟨f', same, first⟩ | ⟨name, h', s', first, rest⟩
  · cases same
    obtain ⟨unnamed, rfl, rfl⟩ := CatalogSession.ends_ofExcept_iff.mp first
    exact .inl ⟨unnamed, rfl, rfl⟩
  obtain ⟨named, rfl, rfl⟩ := CatalogSession.ends_ofExcept_iff.mp first
  refine .inr ⟨name, named, ?_⟩
  unfold remakeAs at rest
  rcases CatalogSession.ends_bind_iff.mp rest with ⟨f', -, impossible⟩ | ⟨h', _, _, got, rest⟩
  · cases (CatalogSession.ends_get_iff.mp impossible).1
  obtain ⟨same, rfl, rfl⟩ := CatalogSession.ends_get_iff.mp got
  cases same
  dsimp only at rest
  split at rest
  · next taken =>
    obtain ⟨cleared, dropped⟩ := Catalog.exists_dropTable taken
    refine .inr ⟨cleared, dropped, Catalog.length_dropTable dropped, ?_⟩
    rcases CatalogSession.ends_bind_iff.mp rest with ⟨f', same, first⟩ | ⟨⟨⟩, h₁, s₁, first, rest⟩
    · cases same
      have commits := CatalogSession.commits_of_ends first
      have document := commits.document_error own holds
      rw [dropped] at commits
      cases commits with
      | unsaved e changes => exact .inl ⟨e, rfl, rfl, document⟩
    · have commits := CatalogSession.commits_of_ends first
      have document := commits.document_ok
      rw [dropped] at commits
      cases commits with
      | saved _ changes =>
        rcases appendAs_fails rest own document with ⟨unfit, rfl, rfl⟩ | unwritten
        · exact .inr (.inl ⟨unfit, rfl, document⟩)
        · exact .inr (.inr unwritten)
  · next free =>
    refine .inl ⟨by simpa using free, ?_⟩
    exact appendAs_fails rest own holds

def related : CatalogHandle :=
  ⟨"s.jet.json", ⟨"s", .epoch,
    [⟨"t", [⟨"a", ⟨.integer, 4, false⟩⟩], [.primary "t" ["a"]], [[("a", .int 1)]]⟩,
      ⟨"c", [⟨"b", ⟨.integer, 4, true⟩⟩], [.foreign "f" ["b"] "t" ["a"]], [[("b", .int 1)]]⟩]⟩⟩

def bereft : List StoredTable := [⟨"c", [⟨"b", ⟨.integer, 4, true⟩⟩], [], [[("b", .int 1)]]⟩]

/-- A table of the same name with a column in two spellings. -/
def doubled : Table :=
  ⟨"T", [{ name := "A", type := some .int32 }, { name := "a", type := some .int32 }], none⟩

def refusal? {α : Type} : Except Fault α → Option Int
  | .ok _ => none
  | .error f => f.engineCode?

theorem exec_append_doubled :
    let s := (Store.empty.run related.save).2
    let r := CatalogSession.exec (doubled.append {}) related s
    (s.read related.path).toOption = some related.catalog.toText ∧
      refusal? r.1.1 = some 3191 ∧ r.1.2.catalog.tables = bereft ∧
      (r.2.read related.path).toOption = some r.1.2.catalog.toText := by
  decide +kernel

theorem append_fails_leaving_bereft :
    HasOwnDraft related.path ∧ ∃ s f g u, s.Holds related.path related.catalog ∧
      CatalogSession.Ends "s.jet.lock" (doubled.append {}) related s (.error f) g u ∧
      related.catalog.tables.length = 2 ∧ g.catalog.tables = bereft ∧
      u.Holds related.path g.catalog := by
  have own : HasOwnDraft related.path := by decide
  obtain ⟨s, read, refused, left⟩ : ∃ s : Store,
      (s.read related.path).toOption = some related.catalog.toText ∧
      refusal? (CatalogSession.exec (doubled.append {}) related s).1.1 = some 3191 ∧
      (CatalogSession.exec (doubled.append {}) related s).1.2.catalog.tables = bereft :=
    have ⟨read, refused, left, _⟩ := exec_append_doubled
    ⟨_, read, refused, left⟩
  have holds : s.Holds related.path related.catalog := ⟨_, eq_ok_of_toOption read, .inl rfl⟩
  have ended := CatalogSession.ends_exec "s.jet.lock" (doubled.append {}) related s
  rcases run : CatalogSession.exec (doubled.append {}) related s with ⟨⟨f | _, g⟩, u⟩
  · rw [run] at refused left ended
    have sound (e : FileError) : f ≠ e.fault := by
      rintro rfl
      cases refused
    have named : doubled.storedName {} = .ok "t" := eq_ok_of_toOption (by decide +kernel)
    refine ⟨own, s, f, g, u, holds, ended, rfl, left, ?_⟩
    rcases append_fails_leaving own holds ended with ⟨unnamed, -⟩ | ⟨name, named', h⟩
    · rw [named] at unnamed
      cases unnamed
    · obtain rfl := Except.ok.inj (named.symm.trans named')
      rcases h with ⟨free, -⟩ | ⟨cleared, -, -, h⟩
      · have taken : (related.catalog.table? "t").isSome = true := by decide +kernel
        rw [free] at taken
        cases taken
      · rcases h with ⟨e, fault, -⟩ | ⟨-, rfl, document⟩ | ⟨c, e, -, fault, -⟩
        · exact absurd fault (sound e)
        · exact document
        · exact absurd fault (sound e)
  · rw [run] at refused
    cases refused

/-- A table without a defect whose columns are one to the catalog: it is refused, and the table of
its name is lost, with its row and the foreign key to it, in the handle and in the document. -/
theorem append_loses_table :
    let s := (Store.empty.run related.save).2
    let r := CatalogSession.exec (doubled.append {}) related s
    Schema.soundTables ⟨"s", [doubled], []⟩ .catalog = [doubled] ∧
      (s.read related.path).toOption = some related.catalog.toText ∧
      refusal? r.1.1 = some 3191 ∧
      r.1.2.catalog.tables = bereft ∧
      (r.2.read related.path).toOption = some r.1.2.catalog.toText :=
  ⟨by decide +kernel, exec_append_doubled⟩

end Table

end Tabular
