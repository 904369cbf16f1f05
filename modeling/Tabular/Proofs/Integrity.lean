import Tabular.Proofs.CatalogNames
import Tabular.Proofs.Definitions
import Tabular.Proofs.Rows

/-!
What the rows of a catalog owe to its keys. Key columns are spelled as they are stored, keys come to
tables without rows, and every foreign key cascades; so each operation keeps rows and keys in step.
-/
namespace Tabular

def Row.IsFull (r : Row) (columns : List String) : Prop :=
  ∀ column ∈ columns, (r.value column).isNull = false

def HasTarget (tables : List StoredTable) (k : StoredKey) : Prop :=
  ∃ u ∈ tables, sameName u.name k.target = true ∧
    ∃ p, u.primaryKey? = some p ∧ p.columns = k.relatedColumns

def Referred (tables : List StoredTable) (k : StoredKey) (r : Row) : Prop :=
  ∃ u ∈ tables, sameName u.name k.target = true ∧
    u.holds k.relatedColumns (r.project k.columns) = true

namespace StoredTable

/-- A table in itself: keys name columns as they are stored, columns of the primary key take no
null, foreign keys cascade, and rows have values where they have to. -/
structure Sound (P : Number → Prop) (t : StoredTable) : Prop where
  keyColumns : ∀ k ∈ t.keys, ∀ name ∈ k.columns, ∃ column ∈ t.columns, column.name = name
  required : ∀ k, t.primaryKey? = some k → ∀ column ∈ t.columns, column.name ∈ k.columns →
    column.type.nullable = false
  cascading : ∀ k ∈ t.foreignKeys, k.deleteRule = .cascade ∧ k.relatedTable = some k.target
  within : ∀ r ∈ t.rows, r.Within P
  valued : ∀ r ∈ t.rows, ∀ column ∈ t.columns, column.type.nullable = false →
    (r.value column.name).isNull = false

/-- The columns of the primary key have values in every row. -/
theorem Sound.isFull {P : Number → Prop} {t : StoredTable} (sound : t.Sound P) {k : StoredKey}
    (hk : t.primaryKey? = some k) {r : Row} (hr : r ∈ t.rows) : r.IsFull k.columns := by
  intro name hname
  obtain ⟨column, hcolumn, rfl⟩ :=
    sound.keyColumns k (List.mem_of_find?_eq_some hk) name hname
  exact sound.valued r hr column hcolumn (sound.required k hk column hcolumn hname)

/-- A table that another one takes the place of, with all its rows and the same primary key. -/
structure StaysIn (t u : StoredTable) : Prop where
  name : u.name = t.name
  rows : ∀ r ∈ t.rows, r ∈ u.rows
  primaryKey : ∀ k, t.primaryKey? = some k → u.primaryKey? = some k

theorem StaysIn.refl (t : StoredTable) : t.StaysIn t := ⟨rfl, fun _ hr => hr, fun _ hk => hk⟩

def SameFrame (t u : StoredTable) : Prop := u = { t with rows := u.rows }

section

variable {t u : StoredTable}

theorem SameFrame.name (h : t.SameFrame u) : u.name = t.name := by rw [h]

theorem SameFrame.foreignKeys (h : t.SameFrame u) : u.foreignKeys = t.foreignKeys := by
  rw [h]
  rfl

theorem SameFrame.primaryKey? (h : t.SameFrame u) : u.primaryKey? = t.primaryKey? := by
  rw [h]
  rfl

theorem SameFrame.columns (h : t.SameFrame u) : u.columns = t.columns := by rw [h]

/-- What has to be shown of other rows in a table that is sound. -/
theorem Sound.reframe {P : Number → Prop} (sound : t.Sound P) (h : t.SameFrame u)
    (within : ∀ r ∈ u.rows, r.Within P)
    (valued : ∀ r ∈ u.rows, ∀ column ∈ t.columns, column.type.nullable = false →
      (r.value column.name).isNull = false) : u.Sound P := by
  rw [h]
  exact ⟨sound.keyColumns, sound.required, sound.cascading, within, valued⟩

end

end StoredTable

theorem eq_ok_of_forM {α ε : Type} {f : α → Except ε Unit} {xs : List α}
    (h : xs.forM f = .ok ()) : ∀ x ∈ xs, f x = .ok () := by
  induction xs with
  | nil => simp
  | cons x xs ih =>
    obtain ⟨_, hx, hxs⟩ := bind_eq_ok_iff.mp h
    rw [List.forall_mem_cons]
    exact ⟨hx, ih hxs⟩

namespace Catalog

/-- Tables that are told apart by name, sound in themselves, with keys that refer to primary keys
and rows that refer to rows. -/
structure Sound (P : Number → Prop) (c : Catalog) : Prop where
  names : (c.tables.map (·.name)).Pairwise (sameName · · = false)
  tables : ∀ t ∈ c.tables, t.Sound P
  targets : ∀ t ∈ c.tables, ∀ k ∈ t.foreignKeys, HasTarget c.tables k
  referring : ∀ t ∈ c.tables, ∀ k ∈ t.foreignKeys, ∀ r ∈ t.rows, r.IsFull k.columns →
    Referred c.tables k r

def KeysDistinct (c : Catalog) : Prop :=
  ∀ t ∈ c.tables, ∀ k, t.primaryKey? = some k →
    t.rows.Pairwise fun r q => agreeing (r.project k.columns) (q.project k.columns) = false

/-! ### Tables that stay -/

def Keeps (tables tables' : List StoredTable) : Prop := ∀ t ∈ tables, ∃ u ∈ tables', t.StaysIn u

theorem Keeps.referred {tables tables' : List StoredTable} (keeps : Keeps tables tables')
    {k : StoredKey} {r : Row} (h : Referred tables k r) : Referred tables' k r := by
  obtain ⟨u, hu, same, held⟩ := h
  obtain ⟨u', hu', stays⟩ := keeps u hu
  obtain ⟨q, hq, agree⟩ := StoredTable.holds_iff.mp held
  exact ⟨u', hu', by rwa [stays.name], StoredTable.holds_iff.mpr ⟨q, stays.rows q hq, agree⟩⟩

theorem Keeps.hasTarget {tables tables' : List StoredTable} (keeps : Keeps tables tables')
    {k : StoredKey} (h : HasTarget tables k) : HasTarget tables' k := by
  obtain ⟨u, hu, same, p, hp, columns⟩ := h
  obtain ⟨u', hu', stays⟩ := keeps u hu
  exact ⟨u', hu', by rwa [stays.name], p, stays.primaryKey p hp, columns⟩

theorem keeps_append (tables more : List StoredTable) : Keeps tables (tables ++ more) :=
  fun t ht => ⟨t, List.mem_append_left more ht, .refl t⟩

theorem mem_set_of_ne {tables : List StoredTable} {i j : Nat} {t u : StoredTable}
    (hu : tables[j]? = some u) (apart : j ≠ i) : u ∈ tables.set i t := by
  refine List.mem_of_getElem? (i := j) ?_
  rw [List.getElem?_set_ne (Ne.symm apart)]
  exact hu

theorem keeps_set {tables : List StoredTable} {i : Nat} {t t' : StoredTable}
    (ht : tables[i]? = some t) (stays : t.StaysIn t') : Keeps tables (tables.set i t') := by
  intro u hu
  obtain ⟨j, hj⟩ := List.getElem?_of_mem hu
  by_cases h : j = i
  · subst h
    obtain rfl := Option.some.inj (ht.symm.trans hj)
    exact ⟨t', List.mem_set (List.getElem?_eq_some_iff.mp ht).1 _, stays⟩
  · exact ⟨u, mem_set_of_ne hj h, .refl u⟩

/-- What a table shares with the one that takes its place, all tables share. -/
theorem map_set_of_eq {α : Type} {f : StoredTable → α} {tables : List StoredTable} {i : Nat}
    {t t' : StoredTable} (ht : tables[i]? = some t) (same : f t' = f t) :
    (tables.set i t').map f = tables.map f := by
  apply List.ext_getElem?
  intro j
  rw [List.getElem?_map, List.getElem?_map, List.getElem?_set]
  by_cases h : i = j
  · subst h
    rw [if_pos rfl, if_pos (List.getElem?_eq_some_iff.mp ht).1, ht, Option.map_some,
      Option.map_some, same]
  · rw [if_neg h]

theorem map_name_set {tables : List StoredTable} {i : Nat} {t t' : StoredTable}
    (ht : tables[i]? = some t) (name : t'.name = t.name) :
    (tables.set i t').map (·.name) = tables.map (·.name) :=
  map_set_of_eq ht name

variable {P : Number → Prop} {c c' : Catalog}

/-- One table changed: what has to be shown of it when the others stay. -/
theorem Sound.replace {i : Nat} {t t' : StoredTable} (sound : c.Sound P)
    (ht : c.tables[i]? = some t) (stays : t.StaysIn t') (new : t'.Sound P)
    (targets : ∀ k ∈ t'.foreignKeys, HasTarget c.tables k)
    (referring : ∀ k ∈ t'.foreignKeys, ∀ r ∈ t'.rows, r.IsFull k.columns →
      Referred c.tables k r ∨ Referred (c.tables.set i t') k r) : (c.replace i t').Sound P := by
  have keeps : Keeps c.tables (c.tables.set i t') := keeps_set ht stays
  refine ⟨?_, fun u hu => ?_, fun u hu k hk => ?_, fun u hu k hk r hr full => ?_⟩
  · change ((c.tables.set i t').map (·.name)).Pairwise _
    rw [map_name_set ht stays.name]
    exact sound.names
  · rcases List.mem_or_eq_of_mem_set hu with hu | rfl
    · exact sound.tables u hu
    · exact new
  · rcases List.mem_or_eq_of_mem_set hu with hu | rfl
    · exact keeps.hasTarget (sound.targets u hu k hk)
    · exact keeps.hasTarget (targets k hk)
  · rcases List.mem_or_eq_of_mem_set hu with hu | rfl
    · exact keeps.referred (sound.referring u hu k hk r hr full)
    · rcases referring k hk r hr full with old | new
      · exact keeps.referred old
      · exact new

theorem KeysDistinct.replace {i : Nat} {t' : StoredTable} (distinct : c.KeysDistinct)
    (new : ∀ k, t'.primaryKey? = some k → t'.rows.Pairwise fun r q =>
      agreeing (r.project k.columns) (q.project k.columns) = false) :
    (c.replace i t').KeysDistinct := by
  intro u hu k hk
  rcases List.mem_or_eq_of_mem_set hu with hu | rfl
  · exact distinct u hu k hk
  · exact new k hk

theorem map_name_of_sameFrame {tables tables' : List StoredTable}
    (h : List.Forall₂ StoredTable.SameFrame tables tables') :
    tables'.map (·.name) = tables.map (·.name) := by
  induction h with
  | nil => rfl
  | cons htu _ ih => rw [List.map_cons, List.map_cons, htu.name, ih]

/-- Rows changed all over: what has to be shown of the tables. -/
theorem Sound.reframe {tables : List StoredTable} (sound : c.Sound P)
    (frames : List.Forall₂ StoredTable.SameFrame c.tables tables)
    (new : ∀ u ∈ tables, u.Sound P)
    (referring : ∀ u ∈ tables, ∀ k ∈ u.foreignKeys, ∀ r ∈ u.rows, r.IsFull k.columns →
      Referred tables k r) : Sound P { c with tables } := by
  refine ⟨?_, new, fun u hu k hk => ?_, referring⟩
  · rw [map_name_of_sameFrame frames]
    exact sound.names
  · obtain ⟨t, ht, htu⟩ := exists_of_forall₂_right frames hu
    rw [htu.foreignKeys] at hk
    obtain ⟨v, hv, target, p, hp, columns⟩ := sound.targets t ht k hk
    obtain ⟨w, hw, hvw⟩ := exists_of_forall₂_left frames hv
    exact ⟨w, hw, by rwa [hvw.name], p, by rwa [hvw.primaryKey?], columns⟩

/-! ### Definitions -/

theorem Sound.appendTable {name : String} {columns : List StoredColumn} (sound : c.Sound P)
    (h : c.appendTable name columns = .ok c') : c'.Sound P := by
  obtain ⟨apart, -, rfl⟩ := appendTable_eq_ok_iff.mp h
  have keeps : Keeps c.tables _ := keeps_append c.tables [{ name := name, columns := columns }]
  refine ⟨?_, fun u hu => ?_, fun u hu k hk => ?_, fun u hu k hk r hr full => ?_⟩
  · rw [List.map_append, List.pairwise_append]
    refine ⟨sound.names, List.pairwise_singleton _ _, fun a ha b hb => ?_⟩
    obtain ⟨t, ht, rfl⟩ := List.mem_map.mp ha
    obtain rfl : b = name := by simpa using hb
    exact apart t ht
  · rcases List.mem_append.mp hu with hu | hu
    · exact sound.tables u hu
    · obtain rfl := List.mem_singleton.mp hu
      exact ⟨by simp, by simp [StoredTable.primaryKey?], by simp [StoredTable.foreignKeys],
        by simp, by simp⟩
  · rcases List.mem_append.mp hu with hu | hu
    · exact keeps.hasTarget (sound.targets u hu k hk)
    · obtain rfl := List.mem_singleton.mp hu
      cases hk
  · rcases List.mem_append.mp hu with hu | hu
    · exact keeps.referred (sound.referring u hu k hk r hr full)
    · obtain rfl := List.mem_singleton.mp hu
      cases hr

theorem KeysDistinct.appendTable {name : String} {columns : List StoredColumn}
    (distinct : c.KeysDistinct) (h : c.appendTable name columns = .ok c') : c'.KeysDistinct := by
  obtain ⟨-, -, rfl⟩ := appendTable_eq_ok_iff.mp h
  intro u hu k hk
  rcases List.mem_append.mp hu with hu | hu
  · exact distinct u hu k hk
  · obtain rfl := List.mem_singleton.mp hu
    exact .nil

/-- The tables that are left when one is dropped. -/
theorem mem_dropped {tables : List StoredTable} {name : String} {i : Nat} {u : StoredTable}
    (hu : u ∈ (tables.eraseIdx i).map (·.withoutKeysTo name)) :
    ∃ t ∈ tables, t.withoutKeysTo name = u := by
  obtain ⟨t, ht, rfl⟩ := List.mem_map.mp hu
  exact ⟨t, (List.eraseIdx_sublist _ _).subset ht, rfl⟩

theorem primaryKey?_withoutKeysTo (t : StoredTable) (name : String) :
    (t.withoutKeysTo name).primaryKey? = t.primaryKey? := by
  unfold StoredTable.withoutKeysTo StoredTable.primaryKey?
  rw [List.find?_filter]
  congr 1
  funext k
  cases h : k.kind <;> simp [StoredKey.isPrimary, StoredKey.refersTo, StoredKey.isForeign, h]

theorem mem_foreignKeys_withoutKeysTo {t : StoredTable} {name : String} {k : StoredKey} :
    k ∈ (t.withoutKeysTo name).foreignKeys ↔ k ∈ t.foreignKeys ∧ k.refersTo name = false := by
  unfold StoredTable.withoutKeysTo StoredTable.foreignKeys
  simp only [List.mem_filter, Bool.not_eq_true']
  constructor
  · rintro ⟨⟨mem, stays⟩, foreign⟩
    exact ⟨⟨mem, foreign⟩, stays⟩
  · rintro ⟨⟨mem, foreign⟩, stays⟩
    exact ⟨⟨mem, stays⟩, foreign⟩

/-- The target of a key that is left is left too: a key to the dropped table would be gone. -/
theorem mem_dropped_of_target {name : String} {i : Nat} {t u : StoredTable} {k : StoredKey}
    (ht : c.tables[i]? = some t) (same : sameName t.name name = true) (hu : u ∈ c.tables)
    (target : sameName u.name k.target = true) (foreign : k.isForeign = true)
    (related : k.relatedTable = some k.target) (stays : k.refersTo name = false) :
    u.withoutKeysTo name ∈ (c.tables.eraseIdx i).map (·.withoutKeysTo name) := by
  obtain ⟨j, hj⟩ := List.getElem?_of_mem hu
  refine List.mem_map_of_mem (List.mem_eraseIdx_iff_getElem?.mpr ⟨j, ?_, hj⟩)
  rintro rfl
  obtain rfl := Option.some.inj (ht.symm.trans hj)
  have refers : k.refersTo name = true := by
    rw [StoredKey.refersTo, foreign, related]
    exact sameName_trans (sameName_symm target) same
  rw [refers] at stays
  cases stays

theorem isForeign_of_mem {t : StoredTable} {k : StoredKey} (h : k ∈ t.foreignKeys) :
    k.isForeign = true := (List.mem_filter.mp h).2

theorem Sound.dropTable {name : String} (sound : c.Sound P) (h : c.dropTable name = .ok c') :
    c'.Sound P := by
  obtain ⟨i, t, hl, rfl⟩ := dropTable_eq_ok_iff.mp h
  obtain ⟨ht, same⟩ := of_locate hl
  refine ⟨?_, fun u hu => ?_, fun u hu k hk => ?_, fun u hu k hk r hr full => ?_⟩
  · rw [List.map_map]
    exact sound.names.sublist ((List.eraseIdx_sublist _ _).map _)
  · obtain ⟨w, hw, rfl⟩ := mem_dropped hu
    have old := sound.tables w hw
    refine ⟨fun k hk => old.keyColumns k (List.mem_filter.mp hk).1, fun k hk => old.required k ?_,
      fun k hk => old.cascading k (mem_foreignKeys_withoutKeysTo.mp hk).1, old.within, old.valued⟩
    rwa [← primaryKey?_withoutKeysTo w name]
  · obtain ⟨w, hw, rfl⟩ := mem_dropped hu
    obtain ⟨hk, stays⟩ := mem_foreignKeys_withoutKeysTo.mp hk
    obtain ⟨v, hv, target, p, hp, columns⟩ := sound.targets w hw k hk
    exact ⟨v.withoutKeysTo name, mem_dropped_of_target ht same hv target (isForeign_of_mem hk)
      ((sound.tables w hw).cascading k hk).2 stays, target, p,
      by rwa [primaryKey?_withoutKeysTo], columns⟩
  · obtain ⟨w, hw, rfl⟩ := mem_dropped hu
    obtain ⟨hk, stays⟩ := mem_foreignKeys_withoutKeysTo.mp hk
    obtain ⟨v, hv, target, held⟩ := sound.referring w hw k hk r hr full
    exact ⟨v.withoutKeysTo name, mem_dropped_of_target ht same hv target (isForeign_of_mem hk)
      ((sound.tables w hw).cascading k hk).2 stays, target, held⟩

theorem KeysDistinct.dropTable {name : String} (distinct : c.KeysDistinct)
    (h : c.dropTable name = .ok c') : c'.KeysDistinct := by
  obtain ⟨i, t, -, rfl⟩ := dropTable_eq_ok_iff.mp h
  intro u hu k hk
  obtain ⟨w, hw, rfl⟩ := mem_dropped hu
  rw [primaryKey?_withoutKeysTo] at hk
  exact distinct w hw k hk

/-! ### Keys -/

theorem exists_mem_requireColumns {names : List String} {columns : List StoredColumn}
    {column : StoredColumn} (h : column ∈ columns) :
    ∃ stored ∈ requireColumns names columns, stored.name = column.name := by
  refine ⟨_, List.mem_map_of_mem h, ?_⟩
  split <;> rfl

/-- A key changes no name of a column. -/
theorem exists_column_withKey {t : StoredTable} {name : String} (k : StoredKey)
    (h : ∃ column ∈ t.columns, column.name = name) :
    ∃ column ∈ (t.withKey k).columns, column.name = name := by
  obtain ⟨column, hcolumn, rfl⟩ := h
  unfold StoredTable.withKey
  split
  · exact exists_mem_requireColumns hcolumn
  · exact ⟨column, hcolumn, rfl⟩

theorem nullable_of_mem_requireColumns {names : List String} {columns : List StoredColumn}
    {column : StoredColumn} (h : column ∈ requireColumns names columns)
    (hname : column.name ∈ names) :
    column.type.nullable = false := by
  obtain ⟨old, hold, rfl⟩ := List.mem_map.mp h
  split
  · rfl
  · next free =>
    rw [if_neg free] at hname
    exact (free (List.any_eq_true.mpr ⟨old.name, hname, sameName_refl old.name⟩)).elim

structure TakesKey (c : Catalog) (t : StoredTable) (k : StoredKey) : Prop where
  rows : t.rows = []
  columns : ∀ name ∈ k.columns, ∃ column ∈ t.columns, column.name = name
  foreign : k.kind = .foreign →
    k.deleteRule = .cascade ∧ k.relatedTable = some k.target ∧ HasTarget c.tables k

theorem staysIn_withKey {t : StoredTable} {k : StoredKey} : t.StaysIn (t.withKey k) := by
  refine ⟨StoredTable.withKey_name t k, fun r hr => by rwa [StoredTable.withKey_rows], ?_⟩
  intro p hp
  unfold StoredTable.primaryKey? at hp ⊢
  rw [StoredTable.withKey_keys, List.find?_append, hp, Option.some_or]

theorem mem_foreignKeys_withKey {t : StoredTable} {k l : StoredKey}
    (h : l ∈ (t.withKey k).foreignKeys) : l ∈ t.foreignKeys ∨ l = k ∧ k.kind = .foreign := by
  obtain ⟨mem, foreign⟩ := List.mem_filter.mp h
  rw [StoredTable.withKey_keys] at mem
  rcases List.mem_append.mp mem with old | new
  · exact .inl (List.mem_filter.mpr ⟨old, foreign⟩)
  · obtain rfl := List.mem_singleton.mp new
    exact .inr ⟨rfl, by simpa [StoredKey.isForeign] using foreign⟩

theorem sound_withKey {t : StoredTable} {k : StoredKey} (sound : t.Sound P)
    (takes : c.TakesKey t k) (only : k.kind = .primary → t.primaryKey? = none) :
    (t.withKey k).Sound P := by
  refine ⟨?_, ?_, ?_, by simp [takes.rows], by simp [takes.rows]⟩
  · intro l hl name hname
    refine exists_column_withKey k ?_
    rw [StoredTable.withKey_keys] at hl
    rcases List.mem_append.mp hl with old | new
    · exact sound.keyColumns l old name hname
    · obtain rfl := List.mem_singleton.mp new
      exact takes.columns name hname
  · intro l hl column hcolumn hname
    unfold StoredTable.primaryKey? at hl
    rw [StoredTable.withKey_keys, List.find?_append] at hl
    unfold StoredTable.withKey at hcolumn
    split at hcolumn
    · next kind =>
      have none_ : t.keys.find? (·.isPrimary) = none := only kind
      rw [none_, Option.none_or, List.find?_singleton] at hl
      obtain ⟨-, rfl⟩ : _ ∧ k = l := by simpa using hl
      exact nullable_of_mem_requireColumns hcolumn hname
    · next kind =>
      have other : k.isPrimary = false := by simp [StoredKey.isPrimary, kind]
      rw [List.find?_singleton, other, if_neg Bool.false_ne_true, Option.or_none] at hl
      exact sound.required l hl column hcolumn hname
  · intro l hl
    rcases mem_foreignKeys_withKey hl with old | ⟨rfl, kind⟩
    · exact sound.cascading l old
    · exact ⟨(takes.foreign kind).1, (takes.foreign kind).2.1⟩

variable {table : String} {i : Nat} {t : StoredTable} {k : StoredKey}

theorem Sound.withKey (sound : c.Sound P) (fits : c.KeyFits table k i t) (takes : c.TakesKey t k) :
    (c.replace i (t.withKey k)).Sound P := by
  obtain ⟨ht, -⟩ := of_locate fits.located
  have old : t ∈ c.tables := List.mem_of_getElem? ht
  refine sound.replace ht staysIn_withKey (sound_withKey (sound.tables t old) takes fits.only) ?_ ?_
  · intro l hl
    rcases mem_foreignKeys_withKey hl with hl | ⟨rfl, kind⟩
    · exact sound.targets t old l hl
    · exact (takes.foreign kind).2.2
  · intro l _ r hr
    rw [StoredTable.withKey_rows, takes.rows] at hr
    cases hr

theorem KeysDistinct.withKey (distinct : c.KeysDistinct) (takes : c.TakesKey t k) :
    (c.replace i (t.withKey k)).KeysDistinct := by
  refine distinct.replace fun l _ => ?_
  rw [StoredTable.withKey_rows, takes.rows]
  exact .nil

/-! ### Rows -/

theorem isFull_iff {r : Row} {columns : List String} :
    r.IsFull columns ↔ (r.project columns).any (·.isNull) = false := by
  unfold Row.IsFull Row.project
  simp [List.any_map]

theorem referred_of_checkReference {r : Row} (h : c.checkReference r k = .ok ())
    (full : r.IsFull k.columns) : Referred c.tables k r := by
  unfold checkReference at h
  simp only [isFull_iff.mp full, Bool.false_eq_true, if_false] at h
  obtain ⟨⟨i, related⟩, hl, h⟩ := bind_eq_ok_iff.mp h
  obtain ⟨ht, same⟩ := of_locate hl
  dsimp only at h
  split at h
  · cases h
  · next held => exact ⟨related, List.mem_of_getElem? ht, same, by simpa using held⟩

structure RowFits (c : Catalog) (table : String) (values : List (String × Json)) (i : Nat)
    (t : StoredTable) (stored : List (String × Json)) : Prop where
  located : c.locate table = .ok (i, t)
  coerced : t.coerceAll table values = .ok stored
  valued : t.missingValue? (StoredTable.rowOf stored) = none
  fresh : t.repeatsKey (StoredTable.rowOf stored) = false
  refers : ∀ k ∈ t.foreignKeys, c.checkReference (StoredTable.rowOf stored) k = .ok ()

theorem insert_eq_ok {values : List (String × Json)} (h : c.insert table values = .ok c') :
    ∃ i t stored, c.RowFits table values i t stored ∧
      c.replace i { t with rows := t.rows ++ [StoredTable.rowOf stored] } = c' := by
  unfold insert at h
  obtain ⟨⟨i, t⟩, hl, h⟩ := bind_eq_ok_iff.mp h
  obtain ⟨stored, hstored, h⟩ := bind_eq_ok_iff.mp h
  dsimp only at h
  split at h
  · cases h
  next valued =>
  split at h
  · cases h
  next fresh =>
  obtain ⟨_, hrefers, h⟩ := bind_eq_ok_iff.mp h
  exact ⟨i, t, stored, ⟨hl, hstored, valued, by simpa using fresh, eq_ok_of_forM hrefers⟩,
    Except.ok.inj h⟩

variable {values stored : List (String × Json)}

theorem RowFits.insert_eq (fits : c.RowFits table values i t stored) :
    c.insert table values =
      .ok (c.replace i { t with rows := t.rows ++ [StoredTable.rowOf stored] }) := by
  have refers : t.foreignKeys.forM (c.checkReference (StoredTable.rowOf stored)) = .ok () := by
    have each := fits.refers
    generalize t.foreignKeys = keys at each ⊢
    induction keys with
    | nil => rfl
    | cons k keys ih =>
      rw [List.forall_mem_cons] at each
      exact bind_eq_ok_iff.mpr ⟨(), each.1, ih each.2⟩
  unfold Catalog.insert
  refine bind_eq_ok_iff.mpr ⟨(i, t), fits.located, bind_eq_ok_iff.mpr ⟨stored, fits.coerced, ?_⟩⟩
  dsimp only
  rw [fits.valued]
  dsimp only
  rw [fits.fresh, if_neg Bool.false_ne_true]
  exact bind_eq_ok_iff.mpr ⟨(), refers, rfl⟩

theorem Sound.insert (sound : c.Sound P) (fits : c.RowFits table values i t stored)
    (hvalues : ∀ v ∈ values, v.2.Within P) :
    (c.replace i { t with rows := t.rows ++ [StoredTable.rowOf stored] }).Sound P := by
  obtain ⟨ht, -⟩ := of_locate fits.located
  have mem : t ∈ c.tables := List.mem_of_getElem? ht
  have old := sound.tables t mem
  have row : (StoredTable.rowOf stored).Within P :=
    Row.within_iff.mpr
      (Row.isOf_rowOf (StoredTable.of_coerceAll (fun _ => trivial) fits.coerced hvalues))
  refine sound.replace ht ⟨rfl, fun r hr => List.mem_append_left _ hr, fun _ hk => hk⟩
    ⟨old.keyColumns, old.required, old.cascading, ?_, ?_⟩ (sound.targets t mem) ?_
  · intro r hr
    rcases List.mem_append.mp hr with hr | hr
    · exact old.within r hr
    · obtain rfl := List.mem_singleton.mp hr
      exact row
  · intro r hr
    rcases List.mem_append.mp hr with hr | hr
    · exact old.valued r hr
    · obtain rfl := List.mem_singleton.mp hr
      exact StoredTable.isNull_of_missingValue? fits.valued
  · intro k hk r hr full
    rcases List.mem_append.mp hr with hr | hr
    · exact .inl (sound.referring t mem k hk r hr full)
    · obtain rfl := List.mem_singleton.mp hr
      exact .inl (referred_of_checkReference (fits.refers k hk) full)

/-- An inserted row has a primary key of its own. -/
theorem RowFits.apart (fits : c.RowFits table values i t stored) (hk : t.primaryKey? = some k)
    {r : Row} (hr : r ∈ t.rows) :
    agreeing (r.project k.columns) ((StoredTable.rowOf stored).project k.columns) = false := by
  have fresh : t.holds k.columns ((StoredTable.rowOf stored).project k.columns) = false := by
    have := fits.fresh
    rwa [StoredTable.repeatsKey, hk] at this
  rw [Bool.eq_false_iff]
  intro same
  rw [StoredTable.holds_iff.mpr ⟨r, hr, same⟩] at fresh
  cases fresh

theorem KeysDistinct.insert (distinct : c.KeysDistinct) (fits : c.RowFits table values i t stored) :
    (c.replace i { t with rows := t.rows ++ [StoredTable.rowOf stored] }).KeysDistinct := by
  obtain ⟨ht, -⟩ := of_locate fits.located
  refine distinct.replace fun k hk => ?_
  have hk : t.primaryKey? = some k := hk
  refine List.pairwise_append.mpr ⟨distinct t (List.mem_of_getElem? ht) k hk,
    List.pairwise_singleton _ _, fun r hr q hq => ?_⟩
  obtain rfl := List.mem_singleton.mp hq
  exact fits.apart hk hr

end Catalog

end Tabular
