import Tabular.Proofs.Population
import Tabular.Proofs.Statements
import Mathlib.Data.List.Nodup

/-!
The catalog that a run leaves behind. What was there under other names stays as it was, but for
foreign keys to a table that had to give way; behind it stand the tables of the schema in declared
order, without rows, each with its primary key and then its foreign keys.
-/
namespace Tabular

/-! ### What is stored for a schema -/

structure Column.StoredAs (t : Table) (c : Column) (u : StoredColumn) : Prop where
  name : catalogName c.name = .ok u.name
  type : ∃ type, c.type = some type ∧ (u.type.kind, u.type.size) = NativeKind.of type c.maxLength
  nullable : u.type.nullable = false ↔ c.nullable = false ∨ c.name ∈ t.keyColumns

structure Relation.StoredAs (o : Options) (r : Relation) (k : StoredKey) : Prop where
  name : catalogName r.name = .ok k.name
  kind : k.kind = .foreign
  columns : catalogNames r.childColumns = .ok k.columns
  target : ∃ parent, catalogName (o.tablePrefix ++ r.parentTable) = .ok parent ∧
    k.relatedTable = some parent
  relatedColumns : catalogNames r.parentColumns = .ok k.relatedColumns
  deleteRule : k.deleteRule = .cascade
  updateRule : k.updateRule = .nothing

/-- A table as it is stored for a table of a schema. The primary key has the name of the table and
the declared columns; the foreign keys are those of the table's relations. -/
structure Table.StoredAs (s : Schema) (o : Options) (t : Table) (u : StoredTable) : Prop where
  name : t.storedName o = .ok u.name
  columns : List.Forall₂ (Column.StoredAs t) t.columns u.columns
  keys : ∃ foreign, List.Forall₂ (Relation.StoredAs o)
      ((s.placedRelations o).filter (·.childTable == t.name)) foreign ∧
    (t.hasKey = false → u.keys = foreign) ∧
    (t.hasKey = true → ∃ names, catalogNames t.keyColumns = .ok names ∧
      u.keys = .primary u.name names :: foreign)
  rows : u.rows = []

/-! ### Lists side by side -/

theorem forall₂_filter {α β : Type} {R : α → β → Prop} {p : α → Bool} {q : β → Bool} {xs : List α}
    {ys : List β} (h : List.Forall₂ R xs ys) (same : ∀ x ∈ xs, ∀ y, R x y → p x = q y) :
    List.Forall₂ R (xs.filter p) (ys.filter q) := by
  induction h with
  | nil => exact .nil
  | @cons x y xs ys hxy _ ih =>
    have tail := ih fun z hz => same z (List.mem_cons_of_mem x hz)
    rw [List.filter_cons, List.filter_cons, same x (by simp) y hxy]
    split
    · exact .cons hxy tail
    · exact tail

theorem filter_eq_singleton {α β : Type} [DecidableEq β] {f : α → β} {xs : List α} {x : α}
    (h : (xs.map f).Nodup) (hx : x ∈ xs) : xs.filter (f · == f x) = [x] := by
  induction xs with
  | nil => cases hx
  | cons y ys ih =>
    rw [List.map_cons, List.nodup_cons] at h
    rcases List.mem_cons.mp hx with rfl | hx
    · rw [List.filter_cons_of_pos (by simp)]
      congr 1
      refine List.filter_eq_nil_iff.mpr fun z hz => ?_
      have : f z ≠ f x := fun same => h.1 (same ▸ List.mem_map_of_mem hz)
      simpa using this
    · have : f y ≠ f x := fun same => h.1 (same ▸ List.mem_map_of_mem hx)
      rw [List.filter_cons_of_neg (by simpa using this)]
      exact ih h.2 hx

/-! ### Columns -/

theorem storedAs_of_storedColumns {t : Table} {columns : List StoredColumn}
    (h : t.storedColumns = .ok columns) : List.Forall₂ (Column.StoredAs t) t.columns columns := by
  refine (mapM_eq_ok_iff.mp h).imp fun c u hu => ?_
  obtain ⟨type, htype, hu⟩ := bind_eq_ok_iff.mp hu
  obtain ⟨name, hname, hu⟩ := bind_eq_ok_iff.mp hu
  obtain rfl : ⟨name, type⟩ = u := Except.ok.inj hu
  obtain ⟨resolved, hresolved, htype⟩ := bind_eq_ok_iff.mp htype
  obtain rfl : NativeType.of resolved c.maxLength (c.nullableIn t) = type := Except.ok.inj htype
  refine ⟨hname, ⟨resolved, ?_, rfl⟩, ?_⟩
  · unfold Column.resolvedType at hresolved
    split at hresolved
    · next type htype => rw [htype, Except.ok.inj hresolved]
    · cases hresolved
  · simp only [NativeType.of, Column.nullableIn, Table.isKeyColumn, Bool.and_eq_false_iff,
      Bool.not_eq_false', List.contains_iff_mem]

theorem eq_of_sameName_columns {columns : List StoredColumn} {u v : StoredColumn}
    (distinct : columns.Pairwise (fun a b => sameName a.name b.name = false)) (hu : u ∈ columns)
    (hv : v ∈ columns) (same : sameName u.name v.name = true) : u = v := by
  induction distinct with
  | nil => cases hu
  | @cons w ws first _ ih =>
    rcases List.mem_cons.mp hu with rfl | left
    · rcases List.mem_cons.mp hv with rfl | right
      · rfl
      · rw [first v right] at same
        cases same
    · rcases List.mem_cons.mp hv with rfl | right
      · rw [sameName_comm, first u left] at same
        cases same
      · exact ih left right

/-- The columns of a key take no null in the first place, so the key asks nothing more of them. -/
theorem requireColumns_storedColumns {t : Table} {columns : List StoredColumn} {names : List String}
    (wf : t.WellFormed .catalog) (hcolumns : t.storedColumns = .ok columns)
    (distinct : columns.Pairwise (fun a b => sameName a.name b.name = false))
    (hnames : catalogNames t.keyColumns = .ok names) :
    Catalog.requireColumns names columns = columns := by
  have stored := storedAs_of_storedColumns hcolumns
  have noNull : ∀ u ∈ columns, names.any (sameName · u.name) = true → u.type.nullable = false := by
    intro u hu taken
    obtain ⟨name, hname, same⟩ := List.any_eq_true.mp taken
    obtain ⟨key, hkey, hstored⟩ := exists_of_mem_results hnames hname
    obtain ⟨c, hc, rfl⟩ := Table.keyColumns_subset wf key hkey
    obtain ⟨v, hv, hcv⟩ := exists_of_forall₂_left stored hc
    obtain rfl : name = v.name := Except.ok.inj (hstored.symm.trans hcv.name)
    rw [← eq_of_sameName_columns distinct hv hu same]
    exact hcv.nullable.mpr (.inr hkey)
  unfold Catalog.requireColumns
  refine (List.map_congr_left fun u hu => ?_).trans (List.map_id columns)
  split
  · next taken =>
    have := noNull u hu taken
    obtain ⟨name, kind, size, nullable⟩ := u
    simp_all
  · rfl

/-! ### Relations -/

theorem Relation.storedKey_eq_ok {r : Relation} {o : Options} {p : String × StoredKey}
    (h : r.storedKey o = .ok p) :
    catalogName (o.tablePrefix ++ r.childTable) = .ok p.1 ∧ r.StoredAs o p.2 := by
  obtain ⟨child, hchild, h⟩ := bind_eq_ok_iff.mp h
  obtain ⟨parent, hparent, h⟩ := bind_eq_ok_iff.mp h
  obtain ⟨name, hname, h⟩ := bind_eq_ok_iff.mp h
  obtain ⟨childColumns, hchildColumns, h⟩ := bind_eq_ok_iff.mp h
  obtain ⟨parentColumns, hparentColumns, h⟩ := bind_eq_ok_iff.mp h
  obtain rfl := Except.ok.inj h
  exact ⟨hchild, hname, rfl, hchildColumns, ⟨parent, hparent, rfl⟩, hparentColumns, rfl, rfl⟩

theorem Schema.exists_childTable {s : Schema} {o : Options} {r : Relation}
    (h : r ∈ s.placedRelations o) : ∃ t ∈ s.placedTables o, t.name = r.childTable := by
  have both := (List.mem_filter.mp h).2
  rw [Bool.and_eq_true, List.contains_iff_mem, List.contains_iff_mem] at both
  exact List.mem_map.mp both.2

/-! ### Tables behind those that stay -/

theorem pairwise_apart {names : List String} (small : ∀ name ∈ names, IsSmall name)
    (distinct : names.Nodup) : names.Pairwise (sameName · · = false) := by
  induction distinct with
  | nil => exact .nil
  | @cons name rest first _ ih =>
    refine .cons (fun other hother => ?_) (ih fun n hn => small n (by simp [hn]))
    rw [Bool.eq_false_iff]
    intro same
    exact first other hother
      ((small name (by simp)).eq_of_sameName (small other (by simp [hother])) same)

namespace Catalog

theorem single_append {kept fresh : List StoredTable} {name : String}
    (others : ∀ t ∈ kept, sameName t.name name = false)
    (apart : (fresh.map (·.name)).Pairwise (sameName · · = false)) :
    Single (kept ++ fresh) name := by
  have behind : ∀ i t, (kept ++ fresh)[i]? = some t → sameName t.name name = true →
      ∃ j, i = kept.length + j ∧ fresh[j]? = some t := by
    intro i t ht same
    rcases Nat.lt_or_ge i kept.length with before | after
    · rw [List.getElem?_append_left before] at ht
      rw [others t (List.mem_of_getElem? ht)] at same
      cases same
    · rw [List.getElem?_append_right after] at ht
      exact ⟨i - kept.length, by omega, ht⟩
  have ordered : ∀ (i j : Nat) (t u : StoredTable), i < j → fresh[i]? = some t →
      fresh[j]? = some u → sameName t.name u.name = false := by
    intro i j t u hij ht hu
    obtain ⟨hi, rfl⟩ := List.getElem?_eq_some_iff.mp ht
    obtain ⟨hj, rfl⟩ := List.getElem?_eq_some_iff.mp hu
    have := List.pairwise_iff_getElem.mp apart i j (by simpa using hi) (by simpa using hj) hij
    simpa using this
  intro i j t u ht hu st su
  obtain ⟨m, rfl, hm⟩ := behind i t ht st
  obtain ⟨n, rfl, hn⟩ := behind j u hu su
  have same := sameName_trans st (sameName_symm su)
  rcases Nat.lt_trichotomy m n with less | rfl | more
  · rw [ordered m n t u less hm hn] at same
    cases same
  · rfl
  · rw [sameName_comm, ordered n m u t more hn hm] at same
    cases same

theorem of_mem_keptTables {names : List String} {tables : List StoredTable} {t : StoredTable}
    (h : t ∈ keptTables names tables) : ∀ name ∈ names, sameName t.name name = false := by
  obtain ⟨u, hu, rfl⟩ := List.mem_map.mp h
  have kept := (List.mem_filter.mp hu).2
  rw [Bool.not_eq_true', List.any_eq_false] at kept
  exact fun name hname => by simpa using kept name hname

end Catalog

theorem StoredTable.withKeys_eq_self {t : StoredTable} {keys : List (String × StoredKey)}
    (h : ∀ p ∈ keys, sameName t.name p.1 = false) : t.withKeys keys = t := by
  induction keys with
  | nil => rfl
  | cons p ps ih =>
    rw [withKeys_cons, h p (by simp), if_neg (by decide)]
    exact ih fun q hq => h q (by simp [hq])

namespace Schema.Placement

variable {s : Schema} {o : Options} (p : s.Placement o)

def names : List String := p.tables.map (·.1)

def keys : List (String × StoredKey) := p.primaryKeys ++ p.foreignKeys

def fresh : List StoredTable :=
  p.tables.map fun q => (Catalog.emptyTable q.1 q.2).withKeys p.keys

theorem names_eq : p.names.map Except.ok = (s.placedTables o).map (·.storedName o) := by
  rw [names, List.map_map, ← List.forall₂_eq_eq_eq, List.forall₂_map_left_iff,
    List.forall₂_map_right_iff]
  exact p.tables_eq.flip.imp fun q t h => h.1.symm

theorem mem_names_iff {name : String} :
    name ∈ p.names ↔ ∃ t ∈ s.placedTables o, t.storedName o = .ok name := by
  have : name ∈ p.names ↔ (.ok name : Except Fault String) ∈ p.names.map Except.ok := by
    rw [List.mem_map_of_injective fun a b h => Except.ok.inj h]
  rw [this, p.names_eq, List.mem_map]

theorem isSmall_of_mem_names {name : String} (h : name ∈ p.names) : IsSmall name := by
  obtain ⟨t, -, ht⟩ := p.mem_names_iff.mp h
  exact isSmall_catalogName ht

/-- Every key is for one of the tables. -/
theorem mem_names_of_mem_keys {q : String × StoredKey} (h : q ∈ p.keys) : q.1 ∈ p.names := by
  rw [p.mem_names_iff]
  rcases List.mem_append.mp h with h | h
  · obtain ⟨t, ht, hname, -⟩ := exists_of_forall₂_right p.primaryKeys_eq h
    exact ⟨t, (List.mem_filter.mp ht).1, hname⟩
  · obtain ⟨r, hr, hkey⟩ := exists_of_forall₂_right p.foreignKeys_eq h
    obtain ⟨t, ht, hchild⟩ := exists_childTable hr
    refine ⟨t, ht, ?_⟩
    rw [Table.storedName, hchild]
    exact (Relation.storedKey_eq_ok hkey).1

/-- The whole of a run: the tables of other names stay, and the new ones follow. -/
theorem apply_tables {c c' : Catalog} (h : p.apply c = .ok c') (distinct : p.names.Nodup) :
    (∀ q ∈ p.tables, q.2.Pairwise (fun a b => sameName a.name b.name = false)) ∧
      c'.tables = Catalog.keptTables p.names c.tables ++ p.fresh := by
  obtain ⟨c₁, c₂, htables, hprimary, hforeign⟩ := apply_eq_ok_iff.mp h
  have apart := pairwise_apart (fun _ => p.isSmall_of_mem_names) distinct
  obtain ⟨columns, remade⟩ := Catalog.remakeAll_eq_ok htables apart
  have single : ∀ q ∈ p.keys, Catalog.Single c₁.tables q.1 := by
    intro q hq
    rw [remade]
    refine Catalog.single_append ?_ ?_
    · exact fun t ht => Catalog.of_mem_keptTables ht q.1 (p.mem_names_of_mem_keys hq)
    · rw [List.map_map]
      exact apart
  have keyed := Catalog.appendKeys_eq_ok hprimary fun q hq => single q (by simp [keys, hq])
  have related := Catalog.appendKeys_eq_ok hforeign fun q hq =>
    keyed ▸ (single q (by simp [keys, hq])).map fun t => t.withKeys_name _
  refine ⟨columns, ?_⟩
  rw [related, keyed, remade, List.map_map, List.map_append, List.map_map]
  congr 1
  · refine (List.map_congr_left fun t ht => ?_).trans (List.map_id _)
    have free : ∀ q ∈ p.keys, sameName t.name q.1 = false := fun q hq =>
      Catalog.of_mem_keptTables ht q.1 (p.mem_names_of_mem_keys hq)
    rw [Function.comp_apply, ← StoredTable.withKeys_append]
    exact StoredTable.withKeys_eq_self free
  · exact List.map_congr_left fun q _ => (StoredTable.withKeys_append _ _ _).symm

theorem nodup_names (distinct : ((s.placedTables o).map (·.storedName o)).Nodup) :
    p.names.Nodup := by
  rw [← p.names_eq] at distinct
  exact distinct.of_map

variable {p}

/-- Placed tables with names that are the same up to case are the same table. -/
theorem eq_of_sameName {t u : Table} {a b : String}
    (distinct : ((s.placedTables o).map (·.storedName o)).Nodup) (ht : t ∈ s.placedTables o)
    (hu : u ∈ s.placedTables o) (ha : t.storedName o = .ok a) (hb : u.storedName o = .ok b)
    (same : sameName a b = true) : t = u := by
  obtain rfl := (isSmall_catalogName ha).eq_of_sameName (isSmall_catalogName hb) same
  exact List.inj_on_of_nodup_map distinct ht hu (ha.trans hb.symm)

theorem keys_fresh (q : String × List StoredColumn) :
    ((Catalog.emptyTable q.1 q.2).withKeys p.keys).keys =
      (p.primaryKeys.filter fun k => sameName q.1 k.1).map (·.2) ++
        (p.foreignKeys.filter fun k => sameName q.1 k.1).map (·.2) := by
  rw [StoredTable.withKeys_keys, keys, List.filter_append, List.map_append]
  rfl

theorem columns_fresh {t : Table} {q : String × List StoredColumn}
    (distinct : ((s.placedTables o).map (·.storedName o)).Nodup) (ht : t ∈ s.placedTables o)
    (hname : t.storedName o = .ok q.1) (hcolumns : t.storedColumns = .ok q.2)
    (apart : q.2.Pairwise (fun a b => sameName a.name b.name = false)) :
    ((Catalog.emptyTable q.1 q.2).withKeys p.keys).columns = q.2 := by
  refine StoredTable.withKeys_columns fun k hk same kind => ?_
  rcases List.mem_append.mp hk with hk | hk
  · obtain ⟨u, hu, huname, hkey⟩ := exists_of_forall₂_right p.primaryKeys_eq hk
    obtain rfl := eq_of_sameName distinct ht (List.mem_filter.mp hu).1 hname huname same
    obtain ⟨names, hnames, hkey⟩ := bind_eq_ok_iff.mp hkey
    rw [← Except.ok.inj hkey]
    obtain ⟨-, wf, -⟩ := of_mem_soundTables (List.mem_filter.mp ht).1
    exact requireColumns_storedColumns wf hcolumns apart hnames
  · obtain ⟨r, -, hkey⟩ := exists_of_forall₂_right p.foreignKeys_eq hk
    rw [(Relation.storedKey_eq_ok hkey).2.kind] at kind
    cases kind

/-- The primary keys for the table: its own, if it has one. -/
theorem primaryKeys_fresh {t : Table} {name : String}
    (distinct : ((s.placedTables o).map (·.storedName o)).Nodup) (ht : t ∈ s.placedTables o)
    (hname : t.storedName o = .ok name) :
    List.Forall₂ (fun u q => u.storedName o = .ok q.1 ∧ u.storedKey q.1 = .ok q.2)
      (if t.hasKey then [t] else []) (p.primaryKeys.filter fun q => sameName name q.1) := by
  have filtered := forall₂_filter (p := (·.name == t.name)) (q := fun q => sameName name q.1)
    p.primaryKeys_eq fun u hu q hq => by
      rw [Bool.eq_iff_iff, beq_iff_eq]
      constructor
      · intro same
        have hu' : u.storedName o = .ok name := by rw [← hname, Table.storedName, same]; rfl
        rw [Except.ok.inj (hu'.symm.trans hq.1), sameName_refl]
      · intro same
        rw [eq_of_sameName distinct ht (List.mem_filter.mp hu).1 hname hq.1 same]
  have names : ((s.placedTables o).map (·.name)).Nodup := by
    refine List.Nodup.of_map (fun n => catalogName (o.tablePrefix ++ n)) ?_
    rw [List.map_map]
    exact distinct
  have own : ((s.placedTables o).filter (·.hasKey)).filter (·.name == t.name) =
      if t.hasKey then [t] else [] := by
    rw [List.filter_comm, filter_eq_singleton names ht, List.filter_cons, List.filter_nil]
  rwa [own] at filtered

theorem foreignKeys_fresh {t : Table} {name : String}
    (distinct : ((s.placedTables o).map (·.storedName o)).Nodup) (ht : t ∈ s.placedTables o)
    (hname : t.storedName o = .ok name) :
    List.Forall₂ (fun r q => r.storedKey o = .ok q)
      ((s.placedRelations o).filter (·.childTable == t.name))
      (p.foreignKeys.filter fun q => sameName name q.1) := by
  refine forall₂_filter p.foreignKeys_eq fun r hr q hq => ?_
  have hchild := (Relation.storedKey_eq_ok hq).1
  rw [Bool.eq_iff_iff, beq_iff_eq]
  constructor
  · intro same
    rw [same] at hchild
    rw [Except.ok.inj (hname.symm.trans hchild), sameName_refl]
  · intro same
    obtain ⟨u, hu, child⟩ := exists_childTable hr
    rw [← child] at hchild
    rw [eq_of_sameName distinct ht hu hname hchild same, child]

theorem storedAs_fresh {t : Table} {q : String × List StoredColumn}
    (distinct : ((s.placedTables o).map (·.storedName o)).Nodup) (ht : t ∈ s.placedTables o)
    (hname : t.storedName o = .ok q.1) (hcolumns : t.storedColumns = .ok q.2)
    (apart : q.2.Pairwise (fun a b => sameName a.name b.name = false)) :
    t.StoredAs s o ((Catalog.emptyTable q.1 q.2).withKeys p.keys) := by
  refine ⟨by rw [StoredTable.withKeys_name]; exact hname, ?_, ?_, StoredTable.withKeys_rows _ _⟩
  · rw [columns_fresh distinct ht hname hcolumns apart]
    exact storedAs_of_storedColumns hcolumns
  · have primary := primaryKeys_fresh (p := p) distinct ht hname
    have foreign := foreignKeys_fresh (p := p) distinct ht hname
    refine ⟨(p.foreignKeys.filter fun k => sameName q.1 k.1).map (·.2), ?_, ?_, ?_⟩
    · rw [List.forall₂_map_right_iff]
      exact foreign.imp fun r k h => (Relation.storedKey_eq_ok h).2
    · intro none
      rw [none, if_neg (by decide), List.forall₂_nil_left_iff] at primary
      rw [keys_fresh, primary]
      rfl
    · intro some
      rw [some, if_pos rfl] at primary
      obtain ⟨k, rest, ⟨hk, hkey⟩, hrest, heq⟩ := List.forall₂_cons_left_iff.mp primary
      rw [List.forall₂_nil_left_iff] at hrest
      obtain ⟨names, hnames, hkey⟩ := bind_eq_ok_iff.mp hkey
      have key : k.2 = .primary q.1 names := by
        rw [← Except.ok.inj hkey, Except.ok.inj (hname.symm.trans hk)]
      refine ⟨names, hnames, ?_⟩
      rw [keys_fresh, heq, hrest, List.map_singleton, key, StoredTable.withKeys_name]
      rfl

theorem forall₂_fresh (distinct : ((s.placedTables o).map (·.storedName o)).Nodup)
    (apart : ∀ q ∈ p.tables, q.2.Pairwise (fun a b => sameName a.name b.name = false)) :
    List.Forall₂ (Table.StoredAs s o) (s.placedTables o) p.fresh := by
  rw [fresh, List.forall₂_map_right_iff]
  have inside := List.forall₂_iff_zip.mp p.tables_eq
  refine List.forall₂_iff_zip.mpr ⟨inside.1, fun {t q} hmem => ?_⟩
  obtain ⟨hname, hcolumns⟩ := inside.2 hmem
  obtain ⟨ht, hq⟩ := List.of_mem_zip hmem
  exact storedAs_fresh distinct ht hname hcolumns (apart q hq)

theorem map_name_fresh : p.fresh.map (·.name) = p.names := by
  rw [fresh, names, List.map_map]
  exact List.map_congr_left fun q _ => StoredTable.withKeys_name _ _

end Schema.Placement

/-! ### Whole runs -/

namespace CatalogDirectory

variable {d : CatalogDirectory} {s : Schema} {o : Options} {store store' : Store} {report : Report}

/-- A run that succeeds has opened the catalog, filled it and closed it. -/
theorem attempt_create_ok (h : store.attempt (d.create s o) = (.ok report, store')) :
    ∃ path catalog opened, d.catalogPath s.name = .ok path ∧ store'.Holds path catalog ∧
      opened.tables = tablesBefore store path o ∧
        ∃ p : s.Placement o, p.apply opened = .ok catalog := by
  obtain ⟨handle, step, t, filled, u, hopen, hpopulate, hclose⟩ := attempt_create_eq_ok_iff.mp h
  obtain ⟨path, hpath, opens⟩ := attempt_openFor_ok hopen
  have ends := catalogPath_eq_ok hpath
  obtain ⟨p, applied, hfilled, holds⟩ :=
    Schema.exec_populate_ok ⟨opens.path_eq, opens.holds⟩ hpopulate
  rw [CatalogHandle.close, hfilled] at hclose
  exact ⟨path, filled.catalog, handle.catalog, hpath,
    CatalogHandle.holds_releaseLock ends holds hclose, opens.tables_eq, p, applied⟩

/-- The catalog that a run leaves behind: the tables of other names as they were, but for foreign
keys to a table that was made anew, and then the tables of the schema. -/
theorem create_materialises (distinct : ((s.placedTables o).map (·.storedName o)).Nodup)
    (h : store.attempt (d.create s o) = (.ok report, store')) :
    ∃ path catalog fresh, d.catalogPath s.name = .ok path ∧ store'.Holds path catalog ∧
      List.Forall₂ (Table.StoredAs s o) (s.placedTables o) fresh ∧
      catalog.tables =
        Catalog.keptTables (fresh.map (·.name)) (tablesBefore store path o) ++ fresh := by
  obtain ⟨path, catalog, opened, hpath, holds, before, p, applied⟩ := attempt_create_ok h
  obtain ⟨apart, tables⟩ := p.apply_tables applied (p.nodup_names distinct)
  refine ⟨path, catalog, p.fresh, hpath, holds, Schema.Placement.forall₂_fresh distinct apart, ?_⟩
  rw [tables, before, Schema.Placement.map_name_fresh]

/-- Trees are made anew; the birds beside them stay, without the key that leads to trees. -/
theorem create_materialises_tree :
    let text := "[1,\"f\",\"1970-01-01T00:00:00Z\",[[\"Tree_Node\",[]],[\"bird\",[]," ++
      "[[\"nests\",\"foreign\",[],\"tree_node\",[],\"none\",\"none\"]," ++
      "[\"mates\",\"foreign\",[],\"bird\",[],\"none\",\"none\"]],[\x7b\"ring\":3\x7d]]]]"
    let key (name related : String) : StoredKey :=
      { StoredKey.foreign name [] related [] with deleteRule := .nothing }
    let bird (keys : List StoredKey) : StoredTable :=
      ⟨"bird", [], keys, [[("ring", .number (.int 3))]]⟩
    let s : Schema := ⟨"f", [⟨"Tree Node", [⟨"Id", some .int32, none, -1, true⟩,
      ⟨"Up", some .int32, none, -1, true⟩], some ["Id"]⟩],
      [⟨"Above", "Tree Node", ["Id"], "Tree Node", ["Up"]⟩]⟩
    let store : Store := ⟨[(["f.jet.json"], .file (.text text))], [], .epoch⟩
    ((s.placedTables {}).map (·.storedName {})).Nodup ∧
      tablesBefore store "./f.jet.json" {} =
        [⟨"Tree_Node", [], [], []⟩, bird [key "nests" "tree_node", key "mates" "bird"]] ∧
      ∃ report store', store.attempt (working.create s {}) = (.ok report, store') ∧
        ∃ catalog fresh, store'.Holds "./f.jet.json" catalog ∧
          List.Forall₂ (Table.StoredAs s {}) (s.placedTables {}) fresh ∧
          catalog.tables = bird [key "mates" "bird"] :: fresh := by
  intro text key bird s store
  have placed : s.placedTables {} = s.tables := by decide +kernel
  have distinct : ((s.placedTables {}).map (·.storedName {})).Nodup := by
    rw [placed]
    exact List.nodup_singleton _
  have place : working.catalogPath s.name = .ok "./f.jet.json" :=
    eq_ok_of_toOption (by decide +kernel)
  have start : tablesBefore store "./f.jet.json" {} =
      [⟨"Tree_Node", [], [], []⟩, bird [key "nests" "tree_node", key "mates" "bird"]] := by
    decide +kernel
  have ok : (store.attempt (working.create s {})).1.isOk = true := by decide +kernel
  rcases h : store.attempt (working.create s {}) with ⟨_ | report, store'⟩
  · rw [h] at ok
    cases ok
  obtain ⟨path, catalog, fresh, hpath, holds, stored, tables⟩ := create_materialises distinct h
  obtain rfl : "./f.jet.json" = path := Except.ok.inj (place.symm.trans hpath)
  refine ⟨distinct, start, report, store', rfl, catalog, fresh, holds, stored, ?_⟩
  rw [placed] at stored
  obtain ⟨u, rest, made, none_, rfl⟩ := List.forall₂_cons_left_iff.mp stored
  obtain rfl := List.forall₂_nil_left_iff.mp none_
  have name : "tree_node" = u.name :=
    Except.ok.inj ((eq_ok_of_toOption (by decide +kernel)).symm.trans made.name)
  have kept : Catalog.keptTables ["tree_node"] [⟨"Tree_Node", [], [], []⟩,
      bird [key "nests" "tree_node", key "mates" "bird"]] = [bird [key "mates" "bird"]] := by
    decide +kernel
  rw [tables, start, List.map_singleton, ← name, kept]
  rfl

/-- A foreign key to a table that is missing outlives the creation of a table of that name: nothing
gives way, so nothing that refers to it is looked for. -/
theorem create_keeps_dangling_key :
    let text := "[1,\"s\",\"1970-01-01T00:00:00Z\"," ++
      "[[\"a\",[],[[\"k\",\"foreign\",[],\"b\",[],\"none\",\"none\"]]]]]"
    let s : Schema := ⟨"s", [⟨"b", [], none⟩], []⟩
    let store : Store := ⟨[(["s.jet.json"], .file (.text text))], [], .epoch⟩
    let d : CatalogDirectory := ⟨"."⟩
    (s.placedTables {}).map (·.storedName {}) = [.ok "b"] ∧
      ∃ report store' path catalog, store.attempt (d.create s {}) = (.ok report, store') ∧
        d.catalogPath s.name = .ok path ∧ store'.Holds path catalog ∧
          ∃ t ∈ catalog.tables, t.name = "a" ∧ ∃ k ∈ t.keys, k.refersTo "b" = true := by
  intro text s store d
  have placed : s.placedTables {} = s.tables := by decide +kernel
  have name : catalogName ("" ++ "b") = .ok "b" := eq_ok_of_toOption (by decide +kernel)
  have created : (s.placedTables {}).map (·.storedName {}) = [.ok "b"] := by
    rw [placed]
    exact congrArg (fun r => [r]) name
  have ok : (store.attempt (d.create s {})).1.isOk = true := by decide +kernel
  have place : d.catalogPath s.name = .ok "./s.jet.json" := eq_ok_of_toOption (by decide +kernel)
  have start : tablesBefore store "./s.jet.json" {} =
      [⟨"a", [], [{ StoredKey.foreign "k" [] "b" [] with deleteRule := .nothing }], []⟩] := by
    decide +kernel
  rcases h : store.attempt (d.create s {}) with ⟨_ | report, store'⟩
  · rw [h] at ok
    cases ok
  obtain ⟨path, catalog, opened, hpath, holds, before, p, applied⟩ := attempt_create_ok h
  obtain rfl : "./s.jet.json" = path := Except.ok.inj (place.symm.trans hpath)
  have names : p.names = ["b"] :=
    List.map_injective_iff.mpr (fun _ _ => Except.ok.inj) (p.names_eq.trans created)
  obtain ⟨-, tables⟩ := p.apply_tables applied (by rw [names]; decide)
  rw [names, before, start] at tables
  refine ⟨created, report, store', _, catalog, rfl, place, holds, ?_⟩
  rw [tables]
  exact ⟨_, List.mem_append_left _ (List.mem_singleton.mpr rfl), rfl, _,
    List.mem_singleton.mpr rfl, by decide⟩

end CatalogDirectory

end Tabular
