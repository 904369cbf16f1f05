import Tabular.Catalog.Definition
import Mathlib.Data.List.Basic

/-!
What the operations that define tables and keys do when they succeed, and what they have checked by
then.
-/
namespace Tabular

section

variable {α : Type} {same : α → α → Bool}

theorem firstRepeated?_eq_none_iff {seen xs : List α} :
    firstRepeated? same seen xs = none ↔
      (∀ y ∈ seen, ∀ x ∈ xs, same y x = false) ∧ xs.Pairwise (same · · = false) := by
  induction xs generalizing seen with
  | nil => simp [firstRepeated?]
  | cons x xs ih =>
    unfold firstRepeated?
    split
    · next repeated =>
      obtain ⟨y, hy, hyx⟩ := List.any_eq_true.mp repeated
      constructor
      · intro h
        cases h
      · rintro ⟨h, -⟩
        rw [h y hy x (by simp)] at hyx
        cases hyx
    · next fresh =>
      have apart : ∀ y ∈ seen, same y x = false := by simpa using fresh
      rw [ih, List.pairwise_cons]
      constructor
      · rintro ⟨h, tail⟩
        refine ⟨fun y hy z hz => ?_, fun z hz => h x (by simp) z hz, tail⟩
        rcases List.mem_cons.mp hz with rfl | hz
        · exact apart y hy
        · exact h y (by simp [hy]) z hz
      · rintro ⟨h, head, tail⟩
        refine ⟨fun y hy z hz => ?_, tail⟩
        rcases List.mem_append.mp hy with hy | hy
        · exact h y hy z (by simp [hz])
        · obtain rfl := List.mem_singleton.mp hy
          exact head z hz

end

namespace StoredTable

/-- The table with one more key. A primary key keeps null out of its columns. -/
def withKey (t : StoredTable) (k : StoredKey) : StoredTable :=
  match k.kind with
  | .primary =>
    { t with columns := Catalog.requireColumns k.columns t.columns, keys := t.keys ++ [k] }
  | .foreign => { t with keys := t.keys ++ [k] }

@[simp] theorem withKey_name (t : StoredTable) (k : StoredKey) : (t.withKey k).name = t.name := by
  unfold withKey
  split <;> rfl

@[simp] theorem withKey_keys (t : StoredTable) (k : StoredKey) :
    (t.withKey k).keys = t.keys ++ [k] := by
  unfold withKey
  split <;> rfl

@[simp] theorem withKey_rows (t : StoredTable) (k : StoredKey) : (t.withKey k).rows = t.rows := by
  unfold withKey
  split <;> rfl

def withoutKeysTo (t : StoredTable) (name : String) : StoredTable :=
  { t with keys := t.keys.filter (!·.refersTo name) }

theorem column?_isSome_iff {t : StoredTable} {name : String} :
    (t.column? name).isSome = true ↔ ∃ column ∈ t.columns, sameName column.name name = true :=
  List.find?_isSome

end StoredTable

namespace Catalog

variable {c c' : Catalog} {name : String}

theorem locate_eq_ok_iff {i : Nat} {t : StoredTable} :
    c.locate name = .ok (i, t) ↔
      c.tables[i]? = some t ∧ sameName t.name name = true ∧
        ∀ j < i, ∀ u, c.tables[j]? = some u → sameName u.name name = false := by
  have found : c.locate name = .ok (i, t) ↔
      c.tables.zipIdx.find? (sameName ·.1.name name) = some (t, i) := by
    unfold locate
    split
    · next u j h =>
      rw [h]
      constructor
      · intro e
        obtain ⟨rfl, rfl⟩ := Prod.mk.inj (Except.ok.inj e)
        rfl
      · intro e
        obtain ⟨rfl, rfl⟩ := Prod.mk.inj (Option.some.inj e)
        rfl
    · next h => simp [h]
  rw [found, List.find?_eq_some_iff_getElem]
  constructor
  · rintro ⟨same, k, hk, hkt, before⟩
    rw [List.getElem_zipIdx, Nat.zero_add] at hkt
    obtain ⟨rfl, rfl⟩ := Prod.mk.inj hkt
    rw [List.length_zipIdx] at hk
    refine ⟨List.getElem?_eq_getElem hk, same, fun j hj u hu => ?_⟩
    have := before j hj
    rw [List.getElem_zipIdx] at this
    obtain ⟨hlt, rfl⟩ := List.getElem?_eq_some_iff.mp hu
    simpa using this
  · rintro ⟨ht, same, before⟩
    obtain ⟨hlt, rfl⟩ := List.getElem?_eq_some_iff.mp ht
    refine ⟨same, i, by rw [List.length_zipIdx]; exact hlt, ?_, fun j hj => ?_⟩
    · rw [List.getElem_zipIdx, Nat.zero_add]
    · rw [List.getElem_zipIdx]
      simpa using before j hj _ (List.getElem?_eq_getElem (Nat.lt_trans hj hlt))

theorem of_locate {i : Nat} {t : StoredTable} (h : c.locate name = .ok (i, t)) :
    c.tables[i]? = some t ∧ sameName t.name name = true :=
  ⟨(locate_eq_ok_iff.mp h).1, (locate_eq_ok_iff.mp h).2.1⟩

theorem table?_isSome_iff :
    (c.table? name).isSome = true ↔ ∃ t ∈ c.tables, sameName t.name name = true :=
  List.find?_isSome

theorem appendTable_eq_ok_iff {columns : List StoredColumn} :
    c.appendTable name columns = .ok c' ↔
      (∀ t ∈ c.tables, sameName t.name name = false) ∧
        columns.Pairwise (fun a b => sameName a.name b.name = false) ∧
        { c with tables := c.tables ++ [{ name, columns }] } = c' := by
  unfold appendTable
  split
  · next taken =>
    obtain ⟨t, mem, same⟩ := table?_isSome_iff.mp taken
    constructor
    · intro h
      cases h
    · rintro ⟨h, -⟩
      rw [h t mem] at same
      cases same
  · next free =>
    have apart : ∀ t ∈ c.tables, sameName t.name name = false := by
      intro t mem
      rw [Bool.eq_false_iff]
      exact fun same => free (table?_isSome_iff.mpr ⟨t, mem, same⟩)
    split
    · next column repeated =>
      constructor
      · intro h
        cases h
      · rintro ⟨-, distinct, -⟩
        rw [firstRepeated?_eq_none_iff.mpr ⟨by simp, distinct⟩] at repeated
        cases repeated
    · next distinct =>
      have pairwise := (firstRepeated?_eq_none_iff.mp distinct).2
      constructor
      · intro h
        exact ⟨apart, pairwise, Except.ok.inj h⟩
      · rintro ⟨-, -, rfl⟩
        rfl

theorem dropTable_eq_ok_iff :
    c.dropTable name = .ok c' ↔
      ∃ i t, c.locate name = .ok (i, t) ∧
        { c with tables := (c.tables.eraseIdx i).map (·.withoutKeysTo name) } = c' := by
  unfold dropTable
  cases c.locate name with
  | error e => simp [bind, Except.bind]
  | ok found =>
    obtain ⟨i, t⟩ := found
    constructor
    · intro h
      exact ⟨i, t, rfl, Except.ok.inj h⟩
    · rintro ⟨j, u, h, rfl⟩
      obtain ⟨rfl, rfl⟩ := Prod.mk.inj (Except.ok.inj h)
      rfl

/-- A foreign key refers to the primary key of its table, column by column. -/
def Refers (c : Catalog) (k : StoredKey) : Prop :=
  ∃ i related primary, c.locate k.target = .ok (i, related) ∧
    related.primaryKey? = some primary ∧ pairsWith k primary = true

theorem refers_of_checkForeignKey {k : StoredKey} (h : c.checkForeignKey k = .ok ()) :
    c.Refers k := by
  unfold checkForeignKey at h
  cases hl : c.locate k.target with
  | error e => rw [hl] at h; cases h
  | ok found =>
    obtain ⟨i, related⟩ := found
    rw [hl] at h
    simp only [bind, Except.bind] at h
    split at h
    · cases h
    · split at h
      · cases h
      · next paired =>
        have some : related.primaryKey?.any (pairsWith k) = true := by simpa using paired
        obtain ⟨primary, hp, pairs⟩ := (Option.any_eq_true _ _).mp some
        exact ⟨i, related, primary, hl, hp, pairs⟩

structure KeyFits (c : Catalog) (table : String) (k : StoredKey) (i : Nat) (t : StoredTable) :
    Prop where
  located : c.locate table = .ok (i, t)
  fresh : ∀ l ∈ t.keys, sameName l.name k.name = false
  columns : ∀ column ∈ k.columns, ∃ stored ∈ t.columns, sameName stored.name column = true
  only : k.kind = .primary → t.primaryKey? = none
  refers : k.kind = .foreign → c.Refers k

theorem appendKey_eq_ok {table : String} {k : StoredKey} (h : c.appendKey table k = .ok c') :
    ∃ i t, c.KeyFits table k i t ∧ c.replace i (t.withKey k) = c' := by
  unfold appendKey at h
  cases hl : c.locate table with
  | error e => rw [hl] at h; cases h
  | ok found =>
    obtain ⟨i, t⟩ := found
    rw [hl] at h
    simp only [bind, Except.bind] at h
    split at h
    · cases h
    next fresh =>
    split at h
    · cases h
    next noMissing =>
    have named : ∀ l ∈ t.keys, sameName l.name k.name = false := by simpa using fresh
    have columns : ∀ column ∈ k.columns, ∃ stored ∈ t.columns,
        sameName stored.name column = true := by
      intro column mem
      have := List.find?_eq_none.mp noMissing column mem
      rw [Option.isNone_iff_eq_none, ← ne_eq, Option.ne_none_iff_isSome] at this
      exact StoredTable.column?_isSome_iff.mp this
    split at h
    · next kind =>
      split at h
      · cases h
      next first =>
      refine ⟨i, t, ⟨hl, named, columns, fun _ => by simpa using first, ?_⟩, ?_⟩
      · rw [kind]
        intro h
        cases h
      · rw [← Except.ok.inj h, StoredTable.withKey, kind]
    · next kind =>
      cases hc : c.checkForeignKey k with
      | error e => rw [hc] at h; cases h
      | ok _ =>
        rw [hc] at h
        refine ⟨i, t, ⟨hl, named, columns, ?_, fun _ => refers_of_checkForeignKey hc⟩, ?_⟩
        · rw [kind]
          intro h
          cases h
        · rw [← Except.ok.inj h, StoredTable.withKey, kind]

end Catalog

end Tabular
