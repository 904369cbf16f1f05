import Tabular.Proofs.Continuity

/-!
What the tables and keys of a catalog are like, whatever is done to it through a handle. Names are
taken once, keys name columns, and foreign keys pair their columns with the columns of a primary
key; rows play no part in it.
-/
namespace Tabular

namespace StoredTable

structure Structured (t : StoredTable) : Prop where
  columns : t.columns.Pairwise fun a b => sameName a.name b.name = false
  keys : t.keys.Pairwise fun k l => sameName k.name l.name = false
  primary : (t.keys.filter (·.isPrimary)).length ≤ 1
  keyColumns : ∀ k ∈ t.keys, ∀ name ∈ k.columns, ∃ column ∈ t.columns,
    sameName column.name name = true
  required : ∀ k ∈ t.keys, k.isPrimary = true → ∀ column ∈ t.columns,
    k.columns.any (sameName · column.name) = true → column.type.nullable = false

/-- Is this the table that a foreign key refers to? Its primary key has as many columns as the
foreign key, each in its place. -/
structure Answers (t : StoredTable) (k : StoredKey) : Prop where
  name : sameName t.name k.target = true
  primary : ∃ p, t.primaryKey? = some p ∧
    List.Forall₂ (sameName · · = true) p.columns k.relatedColumns
  paired : k.columns.length = k.relatedColumns.length

end StoredTable

namespace Catalog

structure Structured (c : Catalog) : Prop where
  names : (c.tables.map (·.name)).Pairwise (sameName · · = false)
  tables : ∀ t ∈ c.tables, t.Structured

def Answered (K : StoredKey → Prop) (c : Catalog) : Prop :=
  ∀ t ∈ c.tables, ∀ k ∈ t.foreignKeys, K k → ∃ u ∈ c.tables, u.Answers k

end Catalog

/-! ### Rows changed -/

namespace StoredTable

variable {t u : StoredTable}

theorem Structured.of_sameFrame (h : t.Structured) (same : t.SameFrame u) : u.Structured := by
  rw [same]
  exact ⟨h.columns, h.keys, h.primary, h.keyColumns, h.required⟩

theorem Answers.of_sameFrame {k : StoredKey} (h : t.Answers k) (same : t.SameFrame u) :
    u.Answers k := by
  rw [same]
  exact ⟨h.name, h.primary, h.paired⟩

end StoredTable

namespace Catalog

variable {c c' : Catalog} {K : StoredKey → Prop}

theorem Structured.reframe {tables : List StoredTable} (h : c.Structured)
    (frames : List.Forall₂ StoredTable.SameFrame c.tables tables) :
    Structured { c with tables } where
  names := by
    rw [map_name_of_sameFrame frames]
    exact h.names
  tables := fun u hu => by
    obtain ⟨t, ht, same⟩ := exists_of_forall₂_right frames hu
    exact (h.tables t ht).of_sameFrame same

theorem Answered.reframe {tables : List StoredTable} (h : c.Answered K)
    (frames : List.Forall₂ StoredTable.SameFrame c.tables tables) :
    Answered K { c with tables } := by
  intro u hu k hk kind
  obtain ⟨t, ht, same⟩ := exists_of_forall₂_right frames hu
  rw [same.foreignKeys] at hk
  obtain ⟨v, hv, answers⟩ := h t ht k hk kind
  obtain ⟨w, hw, same'⟩ := exists_of_forall₂_left frames hv
  exact ⟨w, hw, answers.of_sameFrame same'⟩

theorem sameFrame_set {tables : List StoredTable} {i : Nat} {t u : StoredTable}
    (ht : tables[i]? = some t) (same : t.SameFrame u) :
    List.Forall₂ StoredTable.SameFrame tables (tables.set i u) :=
  forall₂_set_right (R := StoredTable.SameFrame) (fun _ => rfl) ht same

theorem sameFrame_insert {table : String} {values : List (String × Json)}
    (h : c.insert table values = .ok c') :
    ∃ tables, List.Forall₂ StoredTable.SameFrame c.tables tables ∧ { c with tables } = c' := by
  obtain ⟨i, t, stored, fits, rfl⟩ := insert_eq_ok h
  exact ⟨_, sameFrame_set (u := { t with rows := _ }) (of_locate fits.located).1 rfl, rfl⟩

theorem sameFrame_deleteRows {table : String} {criteria : Criteria} {removed : Nat}
    (h : c.deleteRows table criteria = .ok (removed, c')) :
    ∃ tables, List.Forall₂ StoredTable.SameFrame c.tables tables ∧ { c with tables } = c' := by
  obtain ⟨pending, rfl⟩ := deleteRows_eq_ok h
  exact ⟨_, (deleteAll_shrinks c.tables pending).imp fun _ _ shrinks => shrinks.frame, rfl⟩

/-! ### Tables made and dropped -/

theorem Structured.appendTable {name : String} {columns : List StoredColumn} (h : c.Structured)
    (done : c.appendTable name columns = .ok c') : c'.Structured := by
  obtain ⟨apart, distinct, rfl⟩ := appendTable_eq_ok_iff.mp done
  refine ⟨?_, fun t ht => ?_⟩
  · rw [List.map_append, List.pairwise_append]
    refine ⟨h.names, List.pairwise_singleton _ _, fun a ha b hb => ?_⟩
    obtain ⟨t, ht, rfl⟩ := List.mem_map.mp ha
    obtain rfl : b = name := by simpa using hb
    exact apart t ht
  · rcases List.mem_append.mp ht with ht | ht
    · exact h.tables t ht
    · obtain rfl := List.mem_singleton.mp ht
      exact ⟨distinct, .nil, Nat.zero_le 1, by simp, by simp⟩

theorem Answered.appendTable {name : String} {columns : List StoredColumn} (h : c.Answered K)
    (done : c.appendTable name columns = .ok c') : c'.Answered K := by
  obtain ⟨-, -, rfl⟩ := appendTable_eq_ok_iff.mp done
  intro t ht k hk kind
  rcases List.mem_append.mp ht with ht | ht
  · obtain ⟨u, hu, answers⟩ := h t ht k hk kind
    exact ⟨u, List.mem_append_left _ hu, answers⟩
  · obtain rfl := List.mem_singleton.mp ht
    cases hk

end Catalog

theorem StoredTable.Structured.withoutKeysTo {t : StoredTable} (h : t.Structured) (name : String) :
    (t.withoutKeysTo name).Structured where
  columns := h.columns
  keys := h.keys.sublist List.filter_sublist
  primary := (List.filter_sublist.filter _).length_le.trans h.primary
  keyColumns := fun k hk => h.keyColumns k (List.mem_of_mem_filter hk)
  required := fun k hk => h.required k (List.mem_of_mem_filter hk)

theorem StoredTable.Answers.withoutKeysTo {t : StoredTable} {k : StoredKey} (h : t.Answers k)
    (name : String) : (t.withoutKeysTo name).Answers k where
  name := h.name
  primary := by
    rw [Catalog.primaryKey?_withoutKeysTo]
    exact h.primary
  paired := h.paired

namespace Catalog

variable {c c' : Catalog} {K : StoredKey → Prop}

theorem Structured.dropTable {name : String} (h : c.Structured)
    (done : c.dropTable name = .ok c') : c'.Structured := by
  obtain ⟨i, t, hl, rfl⟩ := dropTable_eq_ok_iff.mp done
  refine ⟨?_, fun u hu => ?_⟩
  · rw [List.map_map]
    exact h.names.sublist ((List.eraseIdx_sublist _ _).map _)
  · obtain ⟨w, hw, rfl⟩ := mem_dropped hu
    exact (h.tables w hw).withoutKeysTo name

/-- A table of another name is not the one that is dropped. -/
theorem mem_dropped_of_apart {name : String} {i : Nat} {t u : StoredTable}
    (hl : c.locate name = .ok (i, t)) (hu : u ∈ c.tables) (apart : sameName u.name name = false) :
    u.withoutKeysTo name ∈ (c.tables.eraseIdx i).map (·.withoutKeysTo name) := by
  obtain ⟨ht, same⟩ := of_locate hl
  obtain ⟨j, hj⟩ := List.getElem?_of_mem hu
  refine List.mem_map_of_mem (List.mem_eraseIdx_iff_getElem?.mpr ⟨j, ?_, hj⟩)
  rintro rfl
  obtain rfl := Option.some.inj (ht.symm.trans hj)
  rw [same] at apart
  cases apart

theorem eq_empty_of_sameName {name : String} (h : sameName "" name = true) : name = "" := by
  have none_ : name.toList = [] := List.map_eq_nil_iff.mp (sameName_iff.mp h).symm
  exact String.toList_eq_nil_iff.mp none_

/-- A key without a related table is taken to refer to a table without a name, but is not purged
when that one is dropped. -/
theorem Answered.dropTable {name : String} (h : c.Answered K)
    (spared : name = "" → ∀ k, K k → k.relatedTable.isSome = true)
    (done : c.dropTable name = .ok c') : c'.Answered K := by
  obtain ⟨i, t, hl, rfl⟩ := dropTable_eq_ok_iff.mp done
  intro u hu k hk kind
  obtain ⟨w, hw, rfl⟩ := mem_dropped hu
  obtain ⟨hk, stays⟩ := mem_foreignKeys_withoutKeysTo.mp hk
  obtain ⟨v, hv, answers⟩ := h w hw k hk kind
  refine ⟨_, mem_dropped_of_apart hl hv ?_, answers.withoutKeysTo name⟩
  rw [Bool.eq_false_iff]
  intro same
  have target : sameName k.target name = true := sameName_trans (sameName_symm answers.name) same
  cases related : k.relatedTable with
  | some x =>
    rw [StoredKey.target, related] at target
    rw [StoredKey.refersTo, isForeign_of_mem hk, related] at stays
    exact absurd target (Bool.eq_false_iff.mp stays)
  | none =>
    rw [StoredKey.target, related] at target
    have nameless : name = "" := eq_empty_of_sameName target
    have named := spared nameless k kind
    rw [related] at named
    cases named

/-! ### Keys made -/

theorem requireColumns_pairwise {names : List String} {columns : List StoredColumn}
    (h : columns.Pairwise fun a b => sameName a.name b.name = false) :
    (requireColumns names columns).Pairwise fun a b => sameName a.name b.name = false := by
  have name (column : StoredColumn) : (if names.any (sameName · column.name) then
      { column with type := { column.type with nullable := false } } else column).name =
        column.name := by
    split <;> rfl
  rw [requireColumns, List.pairwise_map]
  simpa only [name] using h

theorem nullable_of_any_requireColumns {names : List String} {columns : List StoredColumn}
    {column : StoredColumn} (h : column ∈ requireColumns names columns)
    (hname : names.any (sameName · column.name) = true) : column.type.nullable = false := by
  obtain ⟨old, hold, rfl⟩ := List.mem_map.mp h
  split
  · rfl
  · next free =>
    rw [if_neg free] at hname
    exact absurd hname free

end Catalog

theorem StoredTable.Structured.withKey {t : StoredTable} {k : StoredKey} (h : t.Structured)
    (fresh : ∀ l ∈ t.keys, sameName l.name k.name = false)
    (columns : ∀ name ∈ k.columns, ∃ column ∈ t.columns, sameName column.name name = true)
    (only : k.kind = .primary → t.primaryKey? = none) : (t.withKey k).Structured := by
  have keys : (t.keys ++ [k]).Pairwise fun k l => sameName k.name l.name = false := by
    refine List.pairwise_append.mpr ⟨h.keys, List.pairwise_singleton _ _, fun l hl m hm => ?_⟩
    obtain rfl := List.mem_singleton.mp hm
    exact fresh l hl
  have keyColumns : ∀ l ∈ t.keys ++ [k], ∀ name ∈ l.columns, ∃ column ∈ t.columns,
      sameName column.name name = true := by
    intro l hl
    rcases List.mem_append.mp hl with old | new
    · exact h.keyColumns l old
    · obtain rfl := List.mem_singleton.mp new
      exact columns
  unfold StoredTable.withKey
  cases kind : k.kind with
  | primary =>
    have none_ : ∀ l ∈ t.keys, ¬ l.isPrimary = true := List.find?_eq_none.mp (only kind)
    refine ⟨Catalog.requireColumns_pairwise h.columns, keys, ?_, ?_, ?_⟩
    · rw [List.filter_append, List.filter_eq_nil_iff.mpr none_]
      exact List.length_filter_le _ _
    · intro l hl name hname
      obtain ⟨column, hcolumn, same⟩ := keyColumns l hl name hname
      obtain ⟨stored, hstored, named⟩ := Catalog.exists_mem_requireColumns hcolumn
      exact ⟨stored, hstored, named ▸ same⟩
    · intro l hl primary column hcolumn hname
      rcases List.mem_append.mp hl with old | new
      · exact absurd primary (none_ l old)
      · obtain rfl := List.mem_singleton.mp new
        exact Catalog.nullable_of_any_requireColumns hcolumn hname
  | foreign =>
    have other : k.isPrimary = false := by simp [StoredKey.isPrimary, kind]
    refine ⟨h.columns, keys, ?_, keyColumns, ?_⟩
    · simpa [List.filter_append, other] using h.primary
    · intro l hl primary
      rcases List.mem_append.mp hl with old | new
      · exact h.required l old primary
      · obtain rfl := List.mem_singleton.mp new
        rw [other] at primary
        cases primary

theorem StoredTable.Answers.of_staysIn {t u : StoredTable} {k : StoredKey} (h : t.Answers k)
    (stays : t.StaysIn u) : u.Answers k := by
  obtain ⟨p, hp, columns⟩ := h.primary
  exact ⟨stays.name ▸ h.name, ⟨p, stays.primaryKey p hp, columns⟩, h.paired⟩

namespace Catalog

variable {c c' : Catalog} {K : StoredKey → Prop}

/-- What is checked of a foreign key. -/
theorem exists_answers_of_refers {k : StoredKey} (h : c.Refers k) :
    ∃ u ∈ c.tables, u.Answers k := by
  obtain ⟨i, u, p, hl, hp, pairs⟩ := h
  obtain ⟨hu, name⟩ := of_locate hl
  simp only [pairsWith, Bool.and_eq_true, beq_iff_eq, List.all_eq_true] at pairs
  obtain ⟨⟨paired, length⟩, same⟩ := pairs
  exact ⟨u, List.mem_of_getElem? hu, name,
    ⟨p, hp, List.forall₂_iff_zip.mpr ⟨length, fun hxy => same _ hxy⟩⟩, paired⟩

theorem Structured.appendKey {table : String} {k : StoredKey} (h : c.Structured)
    (done : c.appendKey table k = .ok c') : c'.Structured := by
  obtain ⟨i, t, fits, rfl⟩ := appendKey_eq_ok done
  obtain ⟨ht, -⟩ := of_locate fits.located
  refine ⟨?_, fun u hu => ?_⟩
  · change ((c.tables.set i _).map (·.name)).Pairwise _
    rw [map_name_set ht (t.withKey_name k)]
    exact h.names
  · rcases List.mem_or_eq_of_mem_set hu with hu | rfl
    · exact h.tables u hu
    · exact (h.tables t (List.mem_of_getElem? ht)).withKey fits.fresh fits.columns fits.only

theorem Answered.appendKey {table : String} {k : StoredKey} (h : c.Answered K)
    (done : c.appendKey table k = .ok c') : c'.Answered K := by
  obtain ⟨i, t, fits, rfl⟩ := appendKey_eq_ok done
  obtain ⟨ht, -⟩ := of_locate fits.located
  -- A table that answers a key does so with one more key, too.
  have keeps {l : StoredKey} (old : ∃ u ∈ c.tables, u.Answers l) :
      ∃ u ∈ c.tables.set i (t.withKey k), u.Answers l := by
    obtain ⟨u, hu, answers⟩ := old
    obtain ⟨v, hv, stays⟩ := keeps_set ht staysIn_withKey u hu
    exact ⟨v, hv, answers.of_staysIn stays⟩
  intro u hu l hl kind
  rcases List.mem_or_eq_of_mem_set hu with hu | rfl
  · exact keeps (h u hu l hl kind)
  · rcases mem_foreignKeys_withKey hl with old | ⟨rfl, foreign⟩
    · exact keeps (h t (List.mem_of_getElem? ht) l old kind)
    · exact keeps (exists_answers_of_refers (fits.refers foreign))

end Catalog

/-! ### Changes -/

namespace Mutation

/-- The catalog after a change, the same as before if the change is refused. -/
def settle (c : Catalog) (m : Mutation) : Catalog := ((m.apply c).toOption).getD c

theorem settle_of_ok {c c' : Catalog} {m : Mutation} (h : m.apply c = .ok c') :
    m.settle c = c' := by
  rw [settle, h]
  rfl

variable {c : Catalog} {K : StoredKey → Prop}

/-- What any change preserves. -/
theorem structured_settle (m : Mutation) (h : c.Structured) : (m.settle c).Structured := by
  cases applied : m.apply c with
  | error e =>
    rw [settle, applied]
    exact h
  | ok c' =>
    rw [settle_of_ok applied]
    cases m with
    | appendTable => exact h.appendTable applied
    | appendKey => exact h.appendKey applied
    | dropTable => exact h.dropTable applied
    | insert =>
      obtain ⟨tables, frames, rfl⟩ := Catalog.sameFrame_insert applied
      exact h.reframe frames
    | deleteRows =>
      obtain ⟨removed, deleted⟩ := apply_deleteRows_eq_ok applied
      obtain ⟨tables, frames, rfl⟩ := Catalog.sameFrame_deleteRows deleted
      exact h.reframe frames

def Spares (K : StoredKey → Prop) (m : Mutation) : Prop :=
  m = .dropTable "" → ∀ k, K k → k.relatedTable.isSome = true

theorem answered_settle {m : Mutation} (spares : m.Spares K) (h : c.Answered K) :
    (m.settle c).Answered K := by
  cases applied : m.apply c with
  | error e =>
    rw [settle, applied]
    exact h
  | ok c' =>
    rw [settle_of_ok applied]
    cases m with
    | appendTable => exact h.appendTable applied
    | appendKey => exact h.appendKey applied
    | dropTable name => exact h.dropTable (fun nameless => spares (by rw [nameless])) applied
    | insert =>
      obtain ⟨tables, frames, rfl⟩ := Catalog.sameFrame_insert applied
      exact h.reframe frames
    | deleteRows =>
      obtain ⟨removed, deleted⟩ := apply_deleteRows_eq_ok applied
      obtain ⟨tables, frames, rfl⟩ := Catalog.sameFrame_deleteRows deleted
      exact h.reframe frames

theorem structured_foldl (ms : List Mutation) (h : c.Structured) :
    (ms.foldl settle c).Structured := by
  induction ms generalizing c with
  | nil => exact h
  | cons m ms ih => exact ih (structured_settle m h)

theorem answered_foldl {ms : List Mutation} (spares : ∀ m ∈ ms, m.Spares K) (h : c.Answered K) :
    (ms.foldl settle c).Answered K := by
  induction ms generalizing c with
  | nil => exact h
  | cons m ms ih =>
    rw [List.forall_mem_cons] at spares
    exact ih spares.2 (answered_settle spares.1 h)

end Mutation

namespace CatalogHandle

def perform (h : CatalogHandle) : List Mutation → FileTask CatalogHandle
  | [] => pure h
  | m :: ms => do
    let (_, h) ← m.task h
    h.perform ms

theorem snd_run_commit (s : Store) (h : CatalogHandle) (r : Except Refusal Catalog) :
    (s.run (h.commit r)).1.2 = { h with catalog := r.toOption.getD h.catalog } := by
  cases r with
  | error e => rfl
  | ok c =>
    unfold commit
    rw [Store.run_bind]
    rfl

/-- The catalog that changes lead to, whatever becomes of its document on the way. -/
theorem run_perform (s : Store) (h : CatalogHandle) (ms : List Mutation) :
    (s.run (h.perform ms)).1 = { h with catalog := ms.foldl Mutation.settle h.catalog } := by
  induction ms generalizing s h with
  | nil => rfl
  | cons m ms ih =>
    have changed : (s.run (m.task h)).1.2 = { h with catalog := m.settle h.catalog } := by
      rw [m.run_task, snd_run_commit]
      rfl
    rw [perform, Store.run_bind]
    dsimp only
    rw [changed, ih]
    rfl

/-- What any changes, refused or not, make of an empty catalog: names taken once, one primary key
at most, keys on columns that are there, and foreign keys that refer to primary keys. Only a key
without a related table can lose the table that it was taken to refer to, when a table without a
name is dropped. -/
theorem perform_structured (s : Store) (path name : String) (createdAt : Timestamp)
    (ms : List Mutation) :
    let c := (s.run (perform ⟨path, { name, createdAt }⟩ ms)).1.catalog
    c.Structured ∧
      c.Answered fun k => k.relatedTable.isSome = true ∨ Mutation.dropTable "" ∉ ms := by
  rw [run_perform]
  have empty : Catalog.Structured { name, createdAt } := ⟨.nil, by simp⟩
  have unanswered (K : StoredKey → Prop) : Catalog.Answered K { name, createdAt } := by
    intro t ht
    cases ht
  exact ⟨Mutation.structured_foldl ms empty, Mutation.answered_foldl (fun m hm nameless k kind =>
    kind.resolve_right fun never => never (nameless ▸ hm)) (unanswered _)⟩

def strayKey : StoredKey :=
  { name := "f", kind := .foreign, columns := ["b"], relatedColumns := ["a"] }

/-- The table without a name gets a primary key, the stray key is checked against it, and the table
goes. -/
def straying : List Mutation :=
  [.appendTable "" [⟨"a", ⟨.integer, 4, true⟩⟩], .appendKey "" (.primary "p" ["a"]),
    .appendTable "c" [⟨"b", ⟨.integer, 4, true⟩⟩], .appendKey "c" strayKey, .dropTable ""]

/-- A key without a related table outlives the table that it was checked against. -/
theorem perform_straying :
    let c := (Store.empty.run (perform ⟨"s.jet.json", ⟨"s", .epoch, []⟩⟩ straying)).1.catalog
    c.tables = [⟨"c", [⟨"b", ⟨.integer, 4, true⟩⟩], [strayKey], []⟩] ∧
      ¬ c.Answered fun _ => True := by
  have left : (straying.foldl Mutation.settle ⟨"s", .epoch, []⟩).tables =
      [⟨"c", [⟨"b", ⟨.integer, 4, true⟩⟩], [strayKey], []⟩] := by
    decide +kernel
  rw [run_perform]
  refine ⟨left, fun answered => ?_⟩
  unfold Catalog.Answered at answered
  simp only [left] at answered
  obtain ⟨u, hu, answers⟩ :=
    answered _ List.mem_cons_self strayKey List.mem_cons_self trivial
  obtain rfl := List.mem_singleton.mp hu
  exact absurd answers.name (by decide)

end CatalogHandle

end Tabular
