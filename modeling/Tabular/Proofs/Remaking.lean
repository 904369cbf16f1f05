import Tabular.Proofs.CatalogNames
import Tabular.Proofs.Definitions

/-!
Tables made anew, one after the other, and the keys put on them. Tables of other names stay, but
for their foreign keys to a table that had to give way.
-/
namespace Tabular

namespace Catalog

def remake (c : Catalog) (name : String) (columns : List StoredColumn) :
    Except Refusal Catalog := do
  let c ← if (c.table? name).isSome then c.dropTable name else pure c
  c.appendTable name columns

def emptyTable (name : String) (columns : List StoredColumn) : StoredTable :=
  ⟨name, columns, [], []⟩

def isTaken (tables : List StoredTable) (name : String) : Bool := tables.any (sameName ·.name name)

/-- What stays of tables once tables of these names are made anew: the tables of other names,
without their foreign keys to a name that was taken. -/
def keptTables (names : List String) (tables : List StoredTable) : List StoredTable :=
  (tables.filter fun t => !names.any (sameName t.name)).map fun t =>
    { t with keys := t.keys.filter fun k =>
        !names.any fun n => k.refersTo n && isTaken tables n }

theorem table?_isSome_eq (c : Catalog) (name : String) :
    (c.table? name).isSome = isTaken c.tables name := by
  rw [Bool.eq_iff_iff, table?_isSome_iff, isTaken, List.any_eq_true]

theorem filter_eq_eraseIdx {α : Type} {p : α → Bool} {xs : List α} {i : Nat} {x : α}
    (hx : xs[i]? = some x) (hp : p x = true) (others : ∀ y ∈ xs.eraseIdx i, p y = false) :
    xs.filter (!p ·) = xs.eraseIdx i := by
  obtain ⟨hi, rfl⟩ := List.getElem?_eq_some_iff.mp hx
  rw [List.eraseIdx_eq_take_drop_succ] at others ⊢
  have whole : xs = xs.take i ++ xs[i] :: xs.drop (i + 1) := by
    rw [List.getElem_cons_drop, List.take_append_drop]
  conv_lhs => rw [whole]
  rw [List.filter_append, List.filter_cons_of_neg (by simpa using hp)]
  congr 1
  · exact List.filter_eq_self.mpr fun y hy => by simp [others y (by simp [hy])]
  · exact List.filter_eq_self.mpr fun y hy => by simp [others y (by simp [hy])]

/-- One table made anew. Had another table had its name as well, it would have been refused. -/
theorem remake_eq_ok {c c' : Catalog} {name : String} {columns : List StoredColumn}
    (h : c.remake name columns = .ok c') :
    columns.Pairwise (fun a b => sameName a.name b.name = false) ∧
      c'.tables = keptTables [name] c.tables ++ [emptyTable name columns] := by
  unfold remake at h
  rw [table?_isSome_eq] at h
  unfold keptTables
  simp only [List.any_cons, List.any_nil, Bool.or_false]
  cases taken : isTaken c.tables name with
  | false =>
    rw [taken] at h
    obtain ⟨apart, distinct, rfl⟩ := appendTable_eq_ok_iff.mp h
    refine ⟨distinct, ?_⟩
    rw [List.filter_eq_self.mpr fun t mem => by simp [apart t mem]]
    simp [emptyTable]
  | true =>
    rw [taken] at h
    simp only [if_true, bind, Except.bind] at h
    split at h
    · cases h
    next dropped hdrop =>
    obtain ⟨i, t, hl, rfl⟩ := dropTable_eq_ok_iff.mp hdrop
    obtain ⟨apart, distinct, rfl⟩ := appendTable_eq_ok_iff.mp h
    obtain ⟨ht, same⟩ := of_locate hl
    refine ⟨distinct, ?_⟩
    rw [filter_eq_eraseIdx (p := fun t => sameName t.name name) ht same]
    · simp only [Bool.and_true]
      rfl
    · intro u mem
      exact apart (u.withoutKeysTo name) (List.mem_map_of_mem mem)

/-- The tables of other names are the same before and after. -/
theorem isTaken_remade {tables : List StoredTable} {name other : String} {t : StoredTable}
    (ht : t.name = name) (apart : sameName name other = false) :
    isTaken (keptTables [name] tables ++ [t]) other = isTaken tables other := by
  unfold isTaken keptTables
  rw [List.any_append, List.any_map, List.any_filter, List.any_cons, ht, apart]
  simp only [List.any_nil, Bool.or_false, List.any_cons, Function.comp_def]
  congr 1
  funext u
  cases hu : sameName u.name other with
  | false => rw [Bool.and_false]
  | true =>
    have other' : sameName u.name name = false := by
      rw [Bool.eq_false_iff]
      intro same
      rw [sameName_trans (sameName_symm same) hu] at apart
      cases apart
    rw [other']
    rfl

theorem keptTables_remade {tables : List StoredTable} {name : String} {names : List String}
    {columns : List StoredColumn} (apart : ∀ n ∈ names, sameName name n = false) :
    keptTables names (keptTables [name] tables ++ [emptyTable name columns]) =
      keptTables (name :: names) tables ++ [emptyTable name columns] := by
  have taken : ∀ n ∈ names,
      isTaken (keptTables [name] tables ++ [emptyTable name columns]) n = isTaken tables n :=
    fun n hn => isTaken_remade rfl (apart n hn)
  have keys : ∀ k : StoredKey,
      (names.any fun n =>
        k.refersTo n && isTaken (keptTables [name] tables ++ [emptyTable name columns]) n) =
      names.any fun n => k.refersTo n && isTaken tables n := by
    intro k
    rw [Bool.eq_iff_iff, List.any_eq_true, List.any_eq_true]
    constructor
    · rintro ⟨n, hn, h⟩
      exact ⟨n, hn, by rwa [taken n hn] at h⟩
    · rintro ⟨n, hn, h⟩
      exact ⟨n, hn, by rwa [taken n hn]⟩
  have free : names.any (sameName (emptyTable name columns).name) = false := by
    rw [List.any_eq_false]
    intro n hn
    simpa [emptyTable] using apart n hn
  rw [keptTables.eq_def names]
  simp only [keys]
  unfold keptTables
  simp only [List.filter_append, List.map_append, List.filter_map, List.map_map, List.filter_filter,
    Function.comp_def, List.any_cons, List.any_nil, Bool.or_false, List.filter_cons,
    List.filter_nil, free, Bool.not_false, if_true]
  congr 2
  · funext t
    congr 1
    exact List.filter_congr fun k _ => by rw [Bool.not_or, Bool.and_comm]
  · exact List.filter_congr fun t _ => by rw [Bool.not_or, Bool.and_comm]

def remakeAll (c : Catalog) (tables : List (String × List StoredColumn)) :
    Except Refusal Catalog :=
  tables.foldlM (fun c p => c.remake p.1 p.2) c

theorem remakeAll_eq_ok {c c' : Catalog} {tables : List (String × List StoredColumn)}
    (h : c.remakeAll tables = .ok c')
    (apart : (tables.map (·.1)).Pairwise (sameName · · = false)) :
    (∀ p ∈ tables, p.2.Pairwise (fun a b => sameName a.name b.name = false)) ∧
      c'.tables = keptTables (tables.map (·.1)) c.tables ++
        tables.map fun p => emptyTable p.1 p.2 := by
  induction tables generalizing c with
  | nil =>
    obtain rfl : c = c' := Except.ok.inj h
    refine ⟨by simp, ?_⟩
    simp [keptTables]
  | cons p ps ih =>
    unfold remakeAll at h
    rw [List.foldlM_cons] at h
    cases hr : c.remake p.1 p.2 with
    | error e => rw [hr] at h; cases h
    | ok c₁ =>
      rw [hr] at h
      rw [List.map_cons, List.pairwise_cons] at apart
      obtain ⟨distinct, htables⟩ := remake_eq_ok hr
      obtain ⟨rest, final⟩ := ih h apart.2
      refine ⟨?_, ?_⟩
      · intro q hq
        rcases List.mem_cons.mp hq with rfl | hq
        · exact distinct
        · exact rest q hq
      · rw [final, htables, keptTables_remade apart.1, List.append_assoc]
        rfl

/-! ### Keys -/

def Single (tables : List StoredTable) (name : String) : Prop :=
  ∀ (i j : Nat) (t u : StoredTable), tables[i]? = some t → tables[j]? = some u →
    sameName t.name name = true → sameName u.name name = true → i = j

theorem Single.map {tables : List StoredTable} {name : String} {f : StoredTable → StoredTable}
    (hf : ∀ t, (f t).name = t.name) (h : Single tables name) : Single (tables.map f) name := by
  intro i j t u ht hu st su
  rw [List.getElem?_map, Option.map_eq_some_iff] at ht hu
  obtain ⟨t', ht, rfl⟩ := ht
  obtain ⟨u', hu, rfl⟩ := hu
  exact h i j t' u' ht hu (by rwa [hf] at st) (by rwa [hf] at su)

theorem set_eq_map {tables : List StoredTable} {name : String} {i : Nat} {t : StoredTable}
    (single : Single tables name) (ht : tables[i]? = some t) (same : sameName t.name name = true)
    (f : StoredTable → StoredTable) :
    tables.set i (f t) = tables.map fun u => if sameName u.name name then f u else u := by
  apply List.ext_getElem?
  intro j
  rw [List.getElem?_map, List.getElem?_set]
  split
  · next at_ =>
    subst at_
    obtain ⟨hi, -⟩ := List.getElem?_eq_some_iff.mp ht
    rw [if_pos hi, ht, Option.map_some, if_pos same]
  · next apart =>
    cases hu : tables[j]? with
    | none => rfl
    | some u =>
      rw [Option.map_some]
      split
      · next other => exact absurd (single i j t u ht hu same other) apart
      · rfl

theorem appendKey_tables {c c' : Catalog} {name : String} {k : StoredKey}
    (single : Single c.tables name) (h : c.appendKey name k = .ok c') :
    c'.tables = c.tables.map fun t => if sameName t.name name then t.withKey k else t := by
  obtain ⟨i, t, fits, rfl⟩ := appendKey_eq_ok h
  obtain ⟨ht, same⟩ := of_locate fits.located
  exact set_eq_map single ht same (·.withKey k)

def appendKeys (c : Catalog) (keys : List (String × StoredKey)) : Except Refusal Catalog :=
  keys.foldlM (fun c p => c.appendKey p.1 p.2) c

end Catalog

namespace StoredTable

def withKeys (t : StoredTable) (keys : List (String × StoredKey)) : StoredTable :=
  keys.foldl (fun t p => if sameName t.name p.1 then t.withKey p.2 else t) t

theorem withKeys_cons (t : StoredTable) (p : String × StoredKey)
    (keys : List (String × StoredKey)) :
    t.withKeys (p :: keys) = (if sameName t.name p.1 then t.withKey p.2 else t).withKeys keys := rfl

@[simp] theorem withKeys_name (t : StoredTable) (keys : List (String × StoredKey)) :
    (t.withKeys keys).name = t.name := by
  induction keys generalizing t with
  | nil => rfl
  | cons p ps ih =>
    rw [withKeys_cons, ih]
    split <;> simp

theorem withKeys_append (t : StoredTable) (keys more : List (String × StoredKey)) :
    t.withKeys (keys ++ more) = (t.withKeys keys).withKeys more := List.foldl_append

theorem withKeys_keys (t : StoredTable) (keys : List (String × StoredKey)) :
    (t.withKeys keys).keys =
      t.keys ++ (keys.filter fun p => sameName t.name p.1).map (·.2) := by
  induction keys generalizing t with
  | nil => simp [withKeys]
  | cons p ps ih =>
    rw [withKeys_cons, ih]
    cases h : sameName t.name p.1 <;> simp [h]

theorem withKeys_rows (t : StoredTable) (keys : List (String × StoredKey)) :
    (t.withKeys keys).rows = t.rows := by
  induction keys generalizing t with
  | nil => rfl
  | cons p ps ih =>
    rw [withKeys_cons, ih]
    split <;> simp

/-- A table keeps its columns if every primary key it gets is of columns without null. -/
theorem withKeys_columns {t : StoredTable} {keys : List (String × StoredKey)}
    (h : ∀ p ∈ keys, sameName t.name p.1 = true → p.2.kind = .primary →
      Catalog.requireColumns p.2.columns t.columns = t.columns) :
    (t.withKeys keys).columns = t.columns := by
  induction keys generalizing t with
  | nil => rfl
  | cons p ps ih =>
    have same : (if sameName t.name p.1 then t.withKey p.2 else t).columns = t.columns := by
      split
      · next named =>
        unfold withKey
        split
        · next kind => exact h p (by simp) named kind
        · rfl
      · rfl
    have name : (if sameName t.name p.1 then t.withKey p.2 else t).name = t.name := by
      split <;> simp
    rw [withKeys_cons, ih, same]
    intro q hq
    rw [same, name]
    exact h q (by simp [hq])

end StoredTable

namespace Catalog

theorem appendKeys_eq_ok {c c' : Catalog} {keys : List (String × StoredKey)}
    (h : c.appendKeys keys = .ok c') (single : ∀ p ∈ keys, Single c.tables p.1) :
    c'.tables = c.tables.map (·.withKeys keys) := by
  induction keys generalizing c with
  | nil =>
    obtain rfl : c = c' := Except.ok.inj h
    exact (List.map_id _).symm
  | cons p ps ih =>
    unfold appendKeys at h
    rw [List.foldlM_cons] at h
    cases hk : c.appendKey p.1 p.2 with
    | error e => rw [hk] at h; cases h
    | ok c₁ =>
      rw [hk] at h
      have first := appendKey_tables (single p (by simp)) hk
      have names : ∀ t : StoredTable,
          (if sameName t.name p.1 then t.withKey p.2 else t).name = t.name := by
        intro t
        split <;> simp
      rw [ih h fun q hq => first ▸ (single q (by simp [hq])).map names, first, List.map_map]
      rfl

end Catalog

end Tabular
