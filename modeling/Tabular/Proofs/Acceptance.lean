import Tabular.Proofs.Spellings

/-!
What rows owe to a key that is appended to their table. No row is looked at when a key is appended;
from then on every row that is inserted obeys the key. So the rows that break a key are rows that
were stored before it.
-/
namespace Tabular

/-- Do rows obey a key, after some rows in front of them? They have values in the columns of a
primary key, and no row has them again; with values in all columns of a foreign key they have the
row that they refer to. -/
def Obey (tables : List StoredTable) (k : StoredKey) (front rows : List Row) : Prop :=
  match k.kind with
  | .primary =>
    (∀ r ∈ rows, r.IsFull k.columns) ∧
      rows.Pairwise (fun r q => agreeing (r.project k.columns) (q.project k.columns) = false) ∧
      ∀ r ∈ front, ∀ q ∈ rows, agreeing (r.project k.columns) (q.project k.columns) = false
  | .foreign => ∀ r ∈ rows, r.IsFull k.columns → Referred tables k r

section

variable {tables tables' : List StoredTable} {k : StoredKey} {front rows more : List Row}

theorem obey_iff_of_primary (kind : k.kind = .primary) :
    Obey tables k front rows ↔ (∀ r ∈ rows, r.IsFull k.columns) ∧
      rows.Pairwise (fun r q => agreeing (r.project k.columns) (q.project k.columns) = false) ∧
      ∀ r ∈ front, ∀ q ∈ rows, agreeing (r.project k.columns) (q.project k.columns) = false := by
  unfold Obey
  rw [kind]

theorem obey_iff_of_foreign (kind : k.kind = .foreign) :
    Obey tables k front rows ↔ ∀ r ∈ rows, r.IsFull k.columns → Referred tables k r := by
  unfold Obey
  rw [kind]

instance (r : Row) (columns : List String) : Decidable (r.IsFull columns) :=
  inferInstanceAs (Decidable (∀ column ∈ columns, (r.value column).isNull = false))

instance (tables : List StoredTable) (k : StoredKey) (r : Row) : Decidable (Referred tables k r) :=
  inferInstanceAs (Decidable (∃ u ∈ tables, sameName u.name k.target = true ∧
    u.holds k.relatedColumns (r.project k.columns) = true))

instance (tables : List StoredTable) (k : StoredKey) (front rows : List Row) :
    Decidable (Obey tables k front rows) :=
  match kind : k.kind with
  | .primary => decidable_of_iff _ (obey_iff_of_primary kind).symm
  | .foreign => decidable_of_iff _ (obey_iff_of_foreign kind).symm

theorem obey_append :
    Obey tables k front (rows ++ more) ↔
      Obey tables k front rows ∧ Obey tables k (front ++ rows) more := by
  cases kind : k.kind with
  | foreign =>
    simp only [obey_iff_of_foreign kind]
    exact List.forall_mem_append
  | primary =>
    simp only [obey_iff_of_primary kind, List.forall_mem_append, List.pairwise_append, forall_and]
    constructor
    · rintro ⟨⟨full, full'⟩, ⟨apart, apart', across⟩, before, before'⟩
      exact ⟨⟨full, apart, before⟩, full', apart', before', across⟩
    · rintro ⟨⟨full, apart, before⟩, full', apart', before', across⟩
      exact ⟨⟨full, full'⟩, ⟨apart, apart', across⟩, before, before'⟩

theorem Obey.nil : Obey tables k front [] := by
  unfold Obey
  split <;> simp

/-- Rows obey a key as long as no table loses rows. -/
theorem Obey.mono (h : Obey tables k front rows) (keeps : Catalog.Keeps tables tables') :
    Obey tables' k front rows := by
  cases kind : k.kind with
  | primary => exact (obey_iff_of_primary kind).mpr ((obey_iff_of_primary kind).mp h)
  | foreign =>
    rw [obey_iff_of_foreign kind] at h ⊢
    exact fun r hr full => keeps.referred (h r hr full)

/-- What rows owe to a key is a matter of the rows of tables. -/
theorem obey_congr
    (same : tables'.map (fun t => (t.name, t.rows)) = tables.map fun t => (t.name, t.rows)) :
    Obey tables' k front rows ↔ Obey tables k front rows := by
  have referred (ts : List StoredTable) (r : Row) : Referred ts k r ↔
      ∃ p ∈ ts.map fun t => (t.name, t.rows), sameName p.1 k.target = true ∧
        p.2.any (fun q => agreeing (q.project k.relatedColumns) (r.project k.columns)) = true := by
    simp only [List.mem_map, exists_exists_and_eq_and]
    rfl
  unfold Obey
  simp only [referred, same]

end

/-! ### Tables with a key -/

/-- A table with a key on columns as they are spelled; if it is the primary key then none of its
columns takes null. -/
structure StoredTable.Carries (t : StoredTable) (k : StoredKey) : Prop where
  mem : k ∈ t.keys
  first : k.kind = .primary → t.primaryKey? = some k
  columns : ∀ name ∈ k.columns, ∃ column ∈ t.columns, column.name = name
  required : k.kind = .primary → ∀ column ∈ t.columns, column.name ∈ k.columns →
    column.type.nullable = false

namespace StoredTable.Carries

variable {t : StoredTable} {k : StoredKey}

/-- One more key changes nothing about the others. -/
theorem withKey (h : t.Carries k) (l : StoredKey) : (t.withKey l).Carries k where
  mem := by
    rw [withKey_keys]
    exact List.mem_append_left _ h.mem
  first := fun kind => Catalog.staysIn_withKey.primaryKey k (h.first kind)
  columns := fun name hname => Catalog.exists_column_withKey l (h.columns name hname)
  required := by
    intro kind column hcolumn hname
    unfold StoredTable.withKey at hcolumn
    split at hcolumn
    · obtain ⟨old, hold, rfl⟩ := List.mem_map.mp hcolumn
      split
      · rfl
      · next free =>
        rw [if_neg free] at hname
        exact h.required kind old hold hname
    · exact h.required kind column hcolumn hname

theorem withRows (h : t.Carries k) (rows : List Row) : StoredTable.Carries { t with rows } k :=
  ⟨h.mem, h.first, h.columns, h.required⟩

/-- What is inserted has values in the columns of the primary key. -/
theorem isFull (h : t.Carries k) (kind : k.kind = .primary) {r : Row}
    (valued : t.missingValue? r = none) : r.IsFull k.columns := by
  intro name hname
  obtain ⟨column, hcolumn, rfl⟩ := h.columns name hname
  exact StoredTable.isNull_of_missingValue? valued column hcolumn
    (h.required kind column hcolumn hname)

end StoredTable.Carries

namespace Catalog

variable {c c' : Catalog} {table : String} {i j : Nat} {t t' : StoredTable} {k : StoredKey}
  {old : List Row} {values stored : List (String × Json)}

theorem KeyFits.carries (fits : c.KeyFits table k i t)
    (spelled : ∀ name ∈ k.columns, ∃ column ∈ t.columns, column.name = name) :
    (t.withKey k).Carries k where
  mem := by
    rw [StoredTable.withKey_keys]
    exact List.mem_append_right _ List.mem_cons_self
  first := by
    intro kind
    have none_ : t.keys.find? (·.isPrimary) = none := fits.only kind
    unfold StoredTable.primaryKey?
    rw [StoredTable.withKey_keys, List.find?_append, none_, Option.none_or, List.find?_singleton,
      if_pos (by simp [StoredKey.isPrimary, kind])]
  columns := fun name hname => exists_column_withKey k (spelled name hname)
  required := by
    intro kind column hcolumn hname
    unfold StoredTable.withKey at hcolumn
    rw [kind] at hcolumn
    exact nullable_of_mem_requireColumns hcolumn hname

/-- A row that is inserted obeys the keys of its table. -/
theorem RowFits.obey (fits : c.RowFits table values i t stored) (carries : t.Carries k) :
    Obey c.tables k t.rows [StoredTable.rowOf stored] := by
  cases kind : k.kind with
  | foreign =>
    rw [obey_iff_of_foreign kind]
    have foreign : k ∈ t.foreignKeys :=
      List.mem_filter.mpr ⟨carries.mem, by simp [StoredKey.isForeign, kind]⟩
    intro r hr full
    obtain rfl := List.mem_singleton.mp hr
    exact referred_of_checkReference (fits.refers k foreign) full
  | primary =>
    rw [obey_iff_of_primary kind]
    refine ⟨fun r hr => ?_, List.pairwise_singleton _ _, fun r hr q hq => ?_⟩
    · obtain rfl := List.mem_singleton.mp hr
      exact carries.isFull kind fits.valued
    · obtain rfl := List.mem_singleton.mp hq
      exact fits.apart (carries.first kind) hr

/-! ### Catalogs that grow -/

/-- Do the rows of the table at a position obey a key, all but those that were there first? -/
def Binds (c : Catalog) (i : Nat) (k : StoredKey) (old : List Row) : Prop :=
  ∃ u new, c.tables[i]? = some u ∧ u.Carries k ∧ u.rows = old ++ new ∧ Obey c.tables k old new

/-- One table changes without a loss. -/
theorem Binds.replace (h : c.Binds i k old) (ht : c.tables[j]? = some t) (stays : t.StaysIn t')
    (carries : t.Carries k → t'.Carries k)
    (rows : t.Carries k → ∃ more, t'.rows = t.rows ++ more ∧ Obey c.tables k t.rows more) :
    (c.replace j t').Binds i k old := by
  obtain ⟨u, new, hu, carried, split, obey⟩ := h
  have keeps : Keeps c.tables (c.replace j t').tables := keeps_set ht stays
  by_cases same : j = i
  · subst same
    obtain rfl : t = u := Option.some.inj (ht.symm.trans hu)
    obtain ⟨more, grown, obey'⟩ := rows carried
    refine ⟨t', new ++ more, ?_, carries carried, ?_, Obey.mono ?_ keeps⟩
    · exact (List.getElem?_set_self (List.getElem?_eq_some_iff.mp ht).1)
    · rw [grown, split, List.append_assoc]
    · exact obey_append.mpr ⟨obey, split ▸ obey'⟩
  · exact ⟨u, new, (List.getElem?_set_ne same).trans hu, carried, split, obey.mono keeps⟩

end Catalog

namespace Mutation

def Grows : Mutation → Prop
  | dropTable _ | deleteRows .. => False
  | _ => True

variable {c : Catalog} {i : Nat} {k : StoredKey} {old : List Row}

/-- Whatever is added, it is bound by the key. -/
theorem binds_settle {m : Mutation} (grows : m.Grows) (h : c.Binds i k old) :
    (m.settle c).Binds i k old := by
  cases applied : m.apply c with
  | error e =>
    rw [settle, applied]
    exact h
  | ok c' =>
    rw [settle_of_ok applied]
    cases m with
    | dropTable | deleteRows => exact grows.elim
    | appendTable name columns =>
      obtain ⟨-, -, rfl⟩ := Catalog.appendTable_eq_ok_iff.mp applied
      obtain ⟨u, new, hu, carries, split, obey⟩ := h
      refine ⟨u, new, ?_, carries, split, obey.mono (Catalog.keeps_append _ _)⟩
      exact (List.getElem?_append_left (List.getElem?_eq_some_iff.mp hu).1).trans hu
    | appendKey table l =>
      obtain ⟨j, t, fits, rfl⟩ := Catalog.appendKey_eq_ok applied
      obtain ⟨ht, -⟩ := Catalog.of_locate fits.located
      refine h.replace ht Catalog.staysIn_withKey (·.withKey l) fun _ => ⟨[], ?_, .nil⟩
      rw [StoredTable.withKey_rows, List.append_nil]
    | insert table values =>
      obtain ⟨j, t, stored, fits, rfl⟩ := Catalog.insert_eq_ok applied
      obtain ⟨ht, -⟩ := Catalog.of_locate fits.located
      refine h.replace ht ⟨rfl, fun r hr => List.mem_append_left _ hr, fun _ hk => hk⟩
        (·.withRows _) fun carries => ⟨[StoredTable.rowOf stored], rfl, fits.obey carries⟩

theorem binds_foldl {ms : List Mutation} (grow : ∀ m ∈ ms, m.Grows) (h : c.Binds i k old) :
    (ms.foldl settle c).Binds i k old := by
  induction ms generalizing c with
  | nil => exact h
  | cons m ms ih =>
    rw [List.forall_mem_cons] at grow
    exact ih grow.2 (binds_settle grow.1 h)

end Mutation

namespace Catalog

/-- A key that is appended to a table. It is taken whatever rows the tables hold, and the rows stay
as they are, so they obey it afterwards only if they did so before. Every row that is inserted from
then on obeys it, beside all rows in front of it, if its columns are spelled as they are stored;
rows that break it are rows that were there first. -/
theorem appendKey_binds {c c' : Catalog} {table : String} {k : StoredKey}
    (done : c.appendKey table k = .ok c') :
    ∃ i t, c.locate table = .ok (i, t) ∧
      (∀ tables, List.Forall₂ StoredTable.SameFrame c.tables tables →
        (appendKey { c with tables } table k).isOk = true) ∧
      c'.tables.map (fun t => (t.name, t.rows)) = c.tables.map (fun t => (t.name, t.rows)) ∧
      (Obey c'.tables k [] t.rows ↔ Obey c.tables k [] t.rows) ∧
      ((∀ name ∈ k.columns, ∃ column ∈ t.columns, column.name = name) →
        ∀ ms : List Mutation, (∀ m ∈ ms, m.Grows) →
          let e := ms.foldl Mutation.settle c'
          ∃ u new, e.tables[i]? = some u ∧ k ∈ u.keys ∧ u.rows = t.rows ++ new ∧
            Obey e.tables k t.rows new ∧
            (Obey c.tables k [] t.rows → Obey e.tables k [] u.rows)) := by
  obtain ⟨i, t, fits, rfl⟩ := appendKey_eq_ok done
  obtain ⟨ht, -⟩ := of_locate fits.located
  have same : (c.replace i (t.withKey k)).tables.map (fun t => (t.name, t.rows)) =
      c.tables.map (fun t => (t.name, t.rows)) := by
    refine map_set_of_eq ht ?_
    rw [StoredTable.withKey_name, StoredTable.withKey_rows]
  refine ⟨i, t, fits.located, fun tables frames => ?_, same, obey_congr same,
    fun spelled ms grow => ?_⟩
  · have alike : c.Respells False { c with tables } :=
      (Respells.refl False c).of_sameFrame (List.forall₂_same.mpr fun _ _ => rfl) frames
    obtain ⟨d, accepted, -⟩ :=
      (alike.appendKey (sameName_refl table) (.refl False k)).exists_ok done
    rw [accepted]
    rfl
  · have row : (c.replace i (t.withKey k)).tables[i]? = some (t.withKey k) :=
      List.getElem?_set_self (List.getElem?_eq_some_iff.mp ht).1
    have rows : (t.withKey k).rows = t.rows := StoredTable.withKey_rows t k
    have carries : (t.withKey k).Carries k := fits.carries spelled
    have binds : (c.replace i (t.withKey k)).Binds i k t.rows :=
      ⟨_, [], row, carries, rows.trans (List.append_nil _).symm, .nil⟩
    obtain ⟨u, new, hu, carried, grown, obey⟩ := Mutation.binds_foldl grow binds
    refine ⟨u, new, hu, carried.mem, grown, obey, fun before => ?_⟩
    -- Rows that obey the key already are bound by it like those that follow.
    have all : (c.replace i (t.withKey k)).Binds i k [] :=
      ⟨_, t.rows, row, carries, rows, (obey_congr same).mpr before⟩
    obtain ⟨u', new', hu', -, rfl, obey'⟩ := Mutation.binds_foldl grow all
    obtain rfl := Option.some.inj (hu.symm.trans hu')
    exact obey'

def shelf : StoredTable :=
  ⟨"t", [⟨"a", ⟨.integer, 4, true⟩⟩], [], [[("a", .number (.int 1))]]⟩

theorem appendKey_binds_shelf :
    let c : Catalog := ⟨"s", .epoch, [shelf]⟩
    let k : StoredKey := .primary "p" ["a"]
    let c' := c.replace 0 (shelf.withKey k)
    let ms : List Mutation :=
      [.insert "t" [("a", .number (.int 1))], .insert "t" [("a", .number (.int 2))]]
    let e := ms.foldl Mutation.settle c'
    c.appendKey "t" k = .ok c' ∧ Obey c.tables k [] shelf.rows ∧ (∀ m ∈ ms, m.Grows) ∧
      ∃ u, e.tables = [u] ∧
        u.rows = [[("a", .number (.int 1))], [("a", .number (.int 2))]] ∧
        Obey e.tables k [] u.rows := by
  intro c k c' ms e
  have done : c.appendKey "t" k = .ok c' := eq_ok_of_toOption (by decide +kernel)
  have before : Obey c.tables k [] shelf.rows := by decide +kernel
  have grow : ∀ m ∈ ms, m.Grows := by simp [ms, Mutation.Grows]
  refine ⟨done, before, grow, ?_⟩
  obtain ⟨i, t, located, -, -, -, later⟩ := appendKey_binds done
  have first : c.locate "t" = .ok (0, shelf) := eq_ok_of_toOption (by decide +kernel)
  obtain ⟨rfl, rfl⟩ := Prod.mk.inj (Except.ok.inj (first.symm.trans located))
  obtain ⟨u, new, hu, -, -, -, obey⟩ := later (by decide) ms grow
  have tables : e.tables = [{ shelf.withKey k with
      rows := [[("a", .number (.int 1))], [("a", .number (.int 2))]] }] := by
    decide +kernel
  have last : e.tables[0]? = some u := hu
  rw [tables] at last
  obtain rfl := Option.some.inj last
  exact ⟨_, tables, rfl, obey before⟩

/-- Two tables and their rows: a row twice, one without a value, and one that is to refer to none of
them. -/
def unkept : List Mutation :=
  [.appendTable "t" [⟨"a", ⟨.integer, 4, true⟩⟩], .insert "t" [("a", .number (.int 1))],
    .insert "t" [("a", .number (.int 1))], .insert "t" [],
    .appendTable "c" [⟨"b", ⟨.integer, 4, true⟩⟩], .insert "c" [("b", .number (.int 7))]]

/-- Keys are taken that the rows do not obey: a primary key in spite of a row twice and a row
without a value, and a foreign key in spite of a row without the row that it refers to. -/
theorem appendKey_unkept :
    let c := unkept.foldl Mutation.settle ⟨"s", .epoch, []⟩
    let p : StoredKey := .primary "p" ["a"]
    let f : StoredKey := .foreign "f" ["b"] "t" ["a"]
    let t : StoredTable := ⟨"t", [⟨"a", ⟨.integer, 4, true⟩⟩], [],
      [[("a", .number (.int 1))], [("a", .number (.int 1))], []]⟩
    let u : StoredTable := ⟨"c", [⟨"b", ⟨.integer, 4, true⟩⟩], [], [[("b", .number (.int 7))]]⟩
    let c' := c.replace 0 (t.withKey p)
    let c'' := c'.replace 1 (u.withKey f)
    c.tables = [t, u] ∧ c.appendKey "t" p = .ok c' ∧ c'.appendKey "c" f = .ok c'' ∧
      ¬ Obey c'.tables p [] t.rows ∧ ¬ Obey c''.tables f [] u.rows := by
  intro c p f t u c' c''
  refine ⟨by decide +kernel, eq_ok_of_toOption (by decide +kernel),
    eq_ok_of_toOption (by decide +kernel), by decide +kernel, by decide +kernel⟩

end Catalog

end Tabular
