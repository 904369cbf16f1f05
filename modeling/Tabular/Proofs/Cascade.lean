import Mathlib.Data.Finset.Card
import Mathlib.Order.Bounds.Basic
import Tabular.Proofs.Deletion

/-!
What a deletion removes. Rows are told apart by their positions before it, so that equal rows are
rows of their own. Those removed are the least set that has the rows asked for and, with a row, all
rows that depend on it; a deletion takes them out table by table and comes back to a table as often
as keys lead to it.
-/
namespace Tabular

/-- Does a row store a value in a column? Zeros of either sign are one number. -/
def Row.Stores (r : Row) (column : String) (v : Json) : Prop :=
  ∃ w, r.get? column = some w ∧ w.agrees v = true

theorem Row.meets_iff {r : Row} {criteria : Criteria} :
    r.meets criteria = true ↔ ∀ p ∈ criteria, r.Stores p.1 p.2 := by
  simp [meets, Stores, Option.any_eq_true]

/-- A row of a catalog: the position of its table and its position in the table. -/
abbrev Occurrence := Nat × Nat

namespace Catalog

structure IsAt (tables : List StoredTable) (x : Occurrence) (t : StoredTable) (r : Row) :
    Prop where
  table : tables[x.1]? = some t
  row : t.rows[x.2]? = some r

def Meets (tables : List StoredTable) (work : Nat × Criteria) (x : Occurrence) : Prop :=
  x.1 = work.1 ∧ ∃ t r, IsAt tables x t r ∧ ∀ p ∈ work.2, r.Stores p.1 p.2

/-- Has the table of a row a foreign key that cascades deletions from the table of another row, and
does the row store, in every column of the key with a related column beside it, the value that the
other row has in the related column, null if it has none? -/
def DependsOn (tables : List StoredTable) (y x : Occurrence) : Prop :=
  ∃ t r u q, IsAt tables x t r ∧ IsAt tables y u q ∧
    ∃ k ∈ u.foreignKeys, k.deleteRule = .cascade ∧ k.refersTo t.name = true ∧
      ∀ p ∈ k.columns.zip k.relatedColumns, q.Stores p.1 (r.value p.2)

/-- Has a set of rows those of a table that meet the criteria and, with a row, all rows that depend
on it? -/
structure ClosedUnderDeletion (tables : List StoredTable) (i : Nat) (criteria : Criteria)
    (rows : Set Occurrence) : Prop where
  named : ∀ x, Meets tables (i, criteria) x → x ∈ rows
  dependent : ∀ x ∈ rows, ∀ y, DependsOn tables y x → y ∈ rows

def survivors (gone : Finset Occurrence) (i : Nat) (t : StoredTable) : StoredTable :=
  { t with rows := (t.rows.zipIdx.filter fun p => (i, p.2) ∉ gone).map (·.1) }

def remaining (tables : List StoredTable) (gone : Finset Occurrence) : List StoredTable :=
  tables.mapIdx (survivors gone)

variable {tables : List StoredTable} {gone : Finset Occurrence} {rows : Set Occurrence}
  {i j : Nat} {t : StoredTable} {criteria : Criteria} {pending : List (Nat × Criteria)}

theorem getElem?_remaining :
    (remaining tables gone)[i]? = tables[i]?.map (survivors gone i) :=
  List.getElem?_mapIdx

theorem remaining_empty : remaining tables ∅ = tables := by
  have whole (i : Nat) (t : StoredTable) : survivors ∅ i t = t := by
    simp [survivors]
  refine List.ext_getElem? fun i => ?_
  rw [getElem?_remaining, funext (whole i), Option.map_id']

/-! ### One step -/

def matched (gone : Finset Occurrence) (i : Nat) (t : StoredTable) (criteria : Criteria) :
    List (Row × Nat) :=
  t.rows.zipIdx.filter fun p => (i, p.2) ∉ gone ∧ p.1.meets criteria = true

def newlyGone (gone : Finset Occurrence) (i : Nat) (t : StoredTable) (criteria : Criteria) :
    Finset Occurrence :=
  (((matched gone i t criteria).map (·.2)).map (Prod.mk i)).toFinset

theorem mem_newlyGone {x : Occurrence} :
    x ∈ newlyGone gone i t criteria ↔
      x.1 = i ∧ x ∉ gone ∧ ∃ r, t.rows[x.2]? = some r ∧ r.meets criteria = true := by
  obtain ⟨j, n⟩ := x
  simp only [newlyGone, matched, List.mem_toFinset, List.mem_map, List.mem_filter, Prod.exists,
    List.mem_zipIdx_iff_getElem?, decide_eq_true_eq, Prod.mk.injEq]
  constructor
  · rintro ⟨_, ⟨r, _, ⟨at_, left, meets⟩, rfl⟩, rfl, rfl⟩
    exact ⟨rfl, left, r, at_, meets⟩
  · rintro ⟨rfl, left, r, at_, meets⟩
    exact ⟨n, ⟨r, n, ⟨at_, left, meets⟩, rfl⟩, rfl, rfl⟩

theorem meeting_survivors :
    meeting (survivors gone i t) criteria = (matched gone i t criteria).map (·.1) := by
  unfold meeting survivors matched
  rw [List.filter_map, List.filter_filter]
  congr 1
  exact List.filter_congr fun p _ => by simp [Bool.and_comm]

theorem mem_meeting_survivors {r : Row} :
    r ∈ meeting (survivors gone i t) criteria ↔
      ∃ n, (i, n) ∈ newlyGone gone i t criteria ∧ t.rows[n]? = some r := by
  rw [meeting_survivors]
  simp only [matched, List.mem_map, List.mem_filter, Prod.exists, List.mem_zipIdx_iff_getElem?,
    decide_eq_true_eq, mem_newlyGone]
  constructor
  · rintro ⟨_, n, ⟨at_, left, meets⟩, rfl⟩
    exact ⟨n, ⟨trivial, left, _, at_, meets⟩, at_⟩
  · rintro ⟨n, ⟨-, left, q, hq, meets⟩, at_⟩
    obtain rfl := Option.some.inj (hq.symm.trans at_)
    exact ⟨q, n, ⟨hq, left, meets⟩, rfl⟩

theorem card_newlyGone :
    (newlyGone gone i t criteria).card = (meeting (survivors gone i t) criteria).length := by
  have positions : ((matched gone i t criteria).map (·.2)).Nodup := by
    have all : (t.rows.zipIdx.map (·.2)).Nodup := by
      rw [List.zipIdx_map_snd]
      exact List.nodup_range'
    exact all.sublist (List.filter_sublist.map _)
  rw [newlyGone, List.toFinset_card_of_nodup (positions.map (Prod.mk_right_injective i)),
    meeting_survivors, List.length_map, List.length_map, List.length_map]

theorem survivors_union_self :
    survivors (gone ∪ newlyGone gone i t criteria) i t =
      { survivors gone i t with
        rows := (survivors gone i t).rows.filter (!·.meets criteria) } := by
  unfold survivors
  dsimp only
  rw [List.filter_map, List.filter_filter]
  congr 2
  refine List.filter_congr fun p hp => ?_
  have at_ := List.mem_zipIdx_iff_getElem?.mp hp
  by_cases left : (i, p.2) ∈ gone
  · simp [left]
  · simp [left, mem_newlyGone, at_]

theorem survivors_union_of_ne (other : j ≠ i) (u : StoredTable) :
    survivors (gone ∪ newlyGone gone i t criteria) j u = survivors gone j u := by
  simp [survivors, mem_newlyGone, other]

/-- What is taken out of what remains is gone, and no more. -/
theorem without_remaining (ht : tables[i]? = some t) :
    without (remaining tables gone) i (survivors gone i t) criteria =
      remaining tables (gone ∪ newlyGone gone i t criteria) := by
  refine List.ext_getElem? fun j => ?_
  unfold without
  rw [List.getElem?_set, getElem?_remaining, getElem?_remaining]
  split
  · next same =>
    subst same
    have inside : i < (remaining tables gone).length := by
      simpa [remaining] using (List.getElem?_eq_some_iff.mp ht).1
    rw [if_pos inside, ht, Option.map_some, survivors_union_self]
  · next other =>
    rw [funext (survivors_union_of_ne (Ne.symm other))]

/-! ### What depends on a row -/

theorem mem_dependents_iff {r : Row} {k : StoredKey} {p : String × Json} :
    p ∈ dependents r k ↔ ∃ q ∈ k.columns.zip k.relatedColumns, (q.1, r.value q.2) = p := by
  unfold dependents Row.project
  rw [List.zip_map_right, List.mem_map]
  rfl

/-- The rows that depend on a row are those that meet the work it leads to, whatever is gone. -/
theorem dependsOn_iff (gone : Finset Occurrence) {x y : Occurrence} {r : Row}
    (hx : IsAt tables x t r) :
    DependsOn tables y x ↔
      ∃ work ∈ dependentWork (remaining tables gone) t.name r, Meets tables work y := by
  constructor
  · rintro ⟨t', r', u, q, hx', hy, k, hk, cascade, refers, stores⟩
    obtain rfl := Option.some.inj (hx.table.symm.trans hx'.table)
    obtain rfl := Option.some.inj (hx.row.symm.trans hx'.row)
    refine ⟨(y.1, dependents r k), List.mem_map.mpr ⟨(y.1, k), ?_, rfl⟩, rfl, u, q, hy, ?_⟩
    · refine mem_cascades_iff.mpr ⟨survivors gone y.1 u, ?_, hk, cascade, refers⟩
      rw [getElem?_remaining, hy.table, Option.map_some]
    · intro p hp
      obtain ⟨pair, hpair, rfl⟩ := mem_dependents_iff.mp hp
      exact stores pair hpair
  · rintro ⟨work, hwork, position, u, q, hy, stores⟩
    obtain ⟨⟨j, k⟩, hk, rfl⟩ := List.mem_map.mp hwork
    obtain ⟨u', hu', mem, cascade, refers⟩ := mem_cascades_iff.mp hk
    obtain rfl : y.1 = j := position
    rw [getElem?_remaining, hy.table, Option.map_some] at hu'
    obtain rfl := Option.some.inj hu'
    exact ⟨t, r, u, q, hx, hy, k, mem, cascade, refers, fun p hp =>
      stores (p.1, r.value p.2) (mem_dependents_iff.mpr ⟨p, hp, rfl⟩)⟩

/-! ### All steps -/

/-- Has a set of rows those that are gone, those that meet pending work and, with a row that is not
gone, all rows that depend on it? -/
structure Settles (tables : List StoredTable) (gone : Finset Occurrence)
    (pending : List (Nat × Criteria)) (rows : Set Occurrence) : Prop where
  past : ∀ x ∈ gone, x ∈ rows
  due : ∀ work ∈ pending, ∀ x, Meets tables work x → x ∈ rows
  dependent : ∀ x ∈ rows, x ∉ gone → ∀ y, DependsOn tables y x → y ∈ rows

theorem settles_empty_iff :
    Settles tables ∅ [(i, criteria)] rows ↔ ClosedUnderDeletion tables i criteria rows := by
  constructor
  · exact fun h => ⟨h.due _ List.mem_cons_self, fun x hx => h.dependent x hx (by simp)⟩
  · intro h
    exact ⟨by simp, by simpa using h.named, fun x hx _ => h.dependent x hx⟩

theorem settles_missing_iff (missing : tables[i]? = none) :
    Settles tables gone ((i, criteria) :: pending) rows ↔ Settles tables gone pending rows := by
  constructor
  · exact fun h => ⟨h.past, fun w hw => h.due w (List.mem_cons_of_mem _ hw), h.dependent⟩
  · refine fun h => ⟨h.past, List.forall_mem_cons.mpr ⟨?_, h.due⟩, h.dependent⟩
    rintro ⟨j, n⟩ ⟨rfl, t, r, at_, -⟩
    exact absurd (missing.symm.trans at_.table) (by simp)

def moreWork (tables : List StoredTable) (gone : Finset Occurrence) (i : Nat) (t : StoredTable)
    (criteria : Criteria) : List (Nat × Criteria) :=
  (meeting (survivors gone i t) criteria).flatMap
    (dependentWork (remaining tables (gone ∪ newlyGone gone i t criteria)) t.name)

/-- What a step leads to is what depends on the rows that it takes out. -/
theorem exists_moreWork_iff (ht : tables[i]? = some t) {y : Occurrence} :
    (∃ work ∈ moreWork tables gone i t criteria, Meets tables work y) ↔
      ∃ x ∈ newlyGone gone i t criteria, DependsOn tables y x := by
  constructor
  · rintro ⟨work, hwork, meets⟩
    obtain ⟨r, hr, hwork⟩ := List.mem_flatMap.mp hwork
    obtain ⟨n, hn, at_⟩ := mem_meeting_survivors.mp hr
    exact ⟨(i, n), hn, (dependsOn_iff _ ⟨ht, at_⟩).mpr ⟨work, hwork, meets⟩⟩
  · rintro ⟨⟨j, n⟩, hx, depends⟩
    obtain ⟨rfl, -, r, at_, -⟩ := mem_newlyGone.mp hx
    obtain ⟨work, hwork, meets⟩ := (dependsOn_iff _ ⟨ht, at_⟩).mp depends
    have hr := mem_meeting_survivors.mpr ⟨n, hx, at_⟩
    exact ⟨work, List.mem_flatMap.mpr ⟨r, hr, hwork⟩, meets⟩

/-- The rows that meet pending work are gone before a step or with it. -/
theorem mem_union_newlyGone_of_meets (ht : tables[i]? = some t) {x : Occurrence}
    (meets : Meets tables (i, criteria) x) : x ∈ gone ∪ newlyGone gone i t criteria := by
  obtain ⟨rfl, u, r, at_, stores⟩ := meets
  obtain rfl := Option.some.inj (ht.symm.trans at_.table)
  refine Finset.mem_union.mpr ?_
  by_cases old : x ∈ gone
  · exact .inl old
  · exact .inr (mem_newlyGone.mpr ⟨rfl, old, r, at_.row, Row.meets_iff.mpr stores⟩)

theorem Settles.step (ht : tables[i]? = some t)
    (h : Settles tables gone ((i, criteria) :: pending) rows) :
    Settles tables (gone ∪ newlyGone gone i t criteria)
      (moreWork tables gone i t criteria ++ pending) rows := by
  have taken : ∀ x ∈ newlyGone gone i t criteria, x ∈ rows := fun x hx => by
    obtain ⟨position, -, r, at_, meets⟩ := mem_newlyGone.mp hx
    subst position
    exact h.due _ List.mem_cons_self x ⟨rfl, t, r, ⟨ht, at_⟩, Row.meets_iff.mp meets⟩
  constructor
  case past => exact fun x hx => (Finset.mem_union.mp hx).elim (h.past x) (taken x)
  case due =>
    intro work hwork y meets
    rcases List.mem_append.mp hwork with new | old
    · obtain ⟨x, hx, depends⟩ := (exists_moreWork_iff ht).mp ⟨work, new, meets⟩
      exact h.dependent x (taken x hx) (mem_newlyGone.mp hx).2.1 y depends
    · exact h.due work (List.mem_cons_of_mem _ old) y meets
  case dependent =>
    exact fun x hx left => h.dependent x hx fun old => left (Finset.mem_union_left _ old)

theorem Settles.of_step (ht : tables[i]? = some t)
    (h : Settles tables (gone ∪ newlyGone gone i t criteria)
      (moreWork tables gone i t criteria ++ pending) rows) :
    Settles tables gone ((i, criteria) :: pending) rows := by
  constructor
  case past => exact fun x hx => h.past x (Finset.mem_union_left _ hx)
  case due =>
    refine List.forall_mem_cons.mpr ⟨fun x meets => ?_, fun work hwork => ?_⟩
    · exact h.past x (mem_union_newlyGone_of_meets ht meets)
    · exact h.due work (List.mem_append_right _ hwork)
  case dependent =>
    intro x hx left y depends
    by_cases new : x ∈ newlyGone gone i t criteria
    · obtain ⟨work, hwork, meets⟩ := (exists_moreWork_iff ht).mpr ⟨x, new, depends⟩
      exact h.due work (List.mem_append_left _ hwork) y meets
    · exact h.dependent x hx (by simp [left, new]) y depends

/-- One step changes what is gone and what is pending, but not what settles them. -/
theorem settles_step_iff (ht : tables[i]? = some t) :
    Settles tables gone ((i, criteria) :: pending) rows ↔
      Settles tables (gone ∪ newlyGone gone i t criteria)
        (moreWork tables gone i t criteria ++ pending) rows :=
  ⟨.step ht, .of_step ht⟩

theorem card_union_newlyGone :
    (gone ∪ newlyGone gone i t criteria).card =
      gone.card + (meeting (survivors gone i t) criteria).length := by
  have apart : Disjoint gone (newlyGone gone i t criteria) :=
    Finset.disjoint_right.mpr fun x hx => (mem_newlyGone.mp hx).2.1
  rw [Finset.card_union_of_disjoint apart, card_newlyGone]

/-- A deletion takes out the least set that settles what is gone and what is pending. -/
theorem exists_isLeast_deleteAll (tables : List StoredTable) (gone : Finset Occurrence)
    (pending : List (Nat × Criteria)) :
    ∃ final : Finset Occurrence, IsLeast {rows | Settles tables gone pending rows} ↑final ∧
      (deleteAll (remaining tables gone) pending).1 = remaining tables final ∧
      gone.card + (deleteAll (remaining tables gone) pending).2 = final.card := by
  generalize left : remaining tables gone = current
  -- The rows that are gone, and with them what is pending, grow along the recursion.
  fun_induction deleteAll current pending generalizing gone with
  | case1 current =>
    refine ⟨gone, ⟨⟨fun x hx => hx, by simp, fun x hx out => absurd hx out⟩, ?_⟩, left.symm, rfl⟩
    exact fun rows h => h.past
  | case2 current i criteria pending missing ih =>
    obtain ⟨final, least, shape, count⟩ := ih gone left
    refine ⟨final, ?_, shape, count⟩
    have absent : tables[i]? = none := by
      rw [← left, getElem?_remaining] at missing
      exact Option.map_eq_none_iff.mp missing
    simpa only [settles_missing_iff absent] using least
  | case3 current i criteria pending u found gone' left' stays ih =>
    subst left
    obtain ⟨t, ht, rfl⟩ := Option.map_eq_some_iff.mp (getElem?_remaining.symm.trans found)
    have none_ : meeting (survivors gone i t) criteria = [] := List.isEmpty_iff.mp stays
    obtain ⟨final, least, shape, count⟩ := ih _ (without_remaining ht).symm
    refine ⟨final, ?_, shape, ?_⟩
    · simpa only [settles_step_iff ht, moreWork, none_, List.flatMap_nil, List.nil_append]
        using least
    · simpa only [card_union_newlyGone, none_, List.length_nil, Nat.add_zero] using count
  | case4 current i criteria pending u found gone' left' _ current' removed h ih =>
    subst left
    obtain ⟨t, ht, rfl⟩ := Option.map_eq_some_iff.mp (getElem?_remaining.symm.trans found)
    obtain ⟨final, least, shape, count⟩ := ih _ (without_remaining ht).symm
    rw [h] at shape count
    refine ⟨final, ?_, shape, ?_⟩
    · have work : moreWork tables gone i t criteria =
          gone'.flatMap (dependentWork left' (survivors gone i t).name) := by
        rw [moreWork, ← without_remaining ht]
        rfl
      simpa only [settles_step_iff ht, work] using least
    · rw [card_union_newlyGone] at count
      rw [← count, Nat.add_assoc]

/-- What is removed and what is left are all the rows. -/
theorem deleteAll_add_rowCount (tables : List StoredTable) (pending : List (Nat × Criteria)) :
    (deleteAll tables pending).2 + rowCount (deleteAll tables pending).1 = rowCount tables := by
  fun_induction deleteAll tables pending with
  | case1 tables => exact Nat.zero_add _
  | case2 tables i criteria pending missing ih => exact ih
  | case3 tables i criteria pending t found gone left stays ih =>
    have none_ : gone = [] := List.isEmpty_iff.mp stays
    have count : rowCount left + gone.length = rowCount tables := rowCount_without criteria found
    rw [ih, ← count, none_, List.length_nil, Nat.add_zero]
  | case4 tables i criteria pending t found gone left _ final removed h ih =>
    rw [h] at ih
    have count : rowCount left + gone.length = rowCount tables := rowCount_without criteria found
    calc gone.length + removed + rowCount final
      _ = removed + rowCount final + gone.length := by omega
      _ = rowCount tables := by rw [ih, count]

/-- A deletion of the rows of a table that meet criteria. -/
theorem deleteRows_eq_remaining {c : Catalog} {table : String} {given : Criteria}
    (located : c.locate table = .ok (i, t)) (coerced : t.coerceAll table given = .ok criteria) :
    ∃ removed : Finset Occurrence,
      IsLeast {rows | ClosedUnderDeletion c.tables i criteria rows} ↑removed ∧
      removed.card + rowCount (remaining c.tables removed) = rowCount c.tables ∧
      c.deleteRows table given =
        .ok (removed.card, { c with tables := remaining c.tables removed }) := by
  obtain ⟨removed, least, shape, count⟩ := exists_isLeast_deleteAll c.tables ∅ [(i, criteria)]
  have total := deleteAll_add_rowCount c.tables [(i, criteria)]
  rw [remaining_empty] at shape count
  rw [Finset.card_empty, Nat.zero_add] at count
  refine ⟨removed, ?_, ?_, ?_⟩
  · simpa only [settles_empty_iff] using least
  · rwa [shape, count] at total
  · unfold deleteRows
    rw [located]
    change (t.coerceAll table given >>= _) = _
    rw [coerced, ← shape, ← count]
    rfl

end Catalog

namespace CatalogHandle

open Catalog

/-- A deletion removes the least set of rows that has those of the table that store the values and,
with a row, all that depend on it. All other rows stay in their order, the catalog is otherwise as
it was, and the number is that of the rows removed. -/
theorem deleteRows_removes_least (h : CatalogHandle) {table : String} {given criteria : Criteria}
    {i : Nat} {t : StoredTable} (located : h.catalog.locate table = .ok (i, t))
    (coerced : t.coerceAll table given = .ok criteria) :
    ∃ removed : Finset Occurrence,
      let left : CatalogHandle :=
        { h with catalog.tables := remaining h.catalog.tables removed }
      IsLeast {rows | ClosedUnderDeletion h.catalog.tables i criteria rows} ↑removed ∧
      removed.card + rowCount left.catalog.tables = rowCount h.catalog.tables ∧
      h.catalog.deleteRows table given = .ok (removed.card, left.catalog) ∧
      h.deleteRows table given = do
        let written ← left.save
        return (written.map fun () => removed.card, left) := by
  obtain ⟨removed, least, total, result⟩ := deleteRows_eq_remaining located coerced
  refine ⟨removed, least, total, result, ?_⟩
  unfold CatalogHandle.deleteRows commit
  rw [result]
  simp only [bind_assoc, pure_bind]

/-- Rows that refer to each other go together, and each of two equal rows counts. -/
theorem deleteRows_removes_least_circle :
    let column (name : String) : StoredColumn := ⟨name, ⟨.wChar, 0, true⟩⟩
    let row (id next : String) : Row := [("id", .string id), ("next", .string next)]
    let t : StoredTable :=
      ⟨"node", [column "id", column "next"], [.foreign "next" ["next"] "NODE" ["id"]],
        [row "a" "b", row "b" "a", row "a" "b", row "c" "c"]⟩
    let h : CatalogHandle := ⟨"x.jet.json", { name := "x", createdAt := .epoch, tables := [t] }⟩
    let given : Criteria := [("ID", .string "a")]
    let criteria : Criteria := [("id", .string "a")]
    h.catalog.locate "Node" = .ok (0, t) ∧ t.coerceAll "Node" given = .ok criteria ∧
      ∃ removed : Finset Occurrence,
        IsLeast {rows | ClosedUnderDeletion [t] 0 criteria rows} ↑removed ∧
        removed.card = 3 ∧ remaining [t] removed = [{ t with rows := [row "c" "c"] }] := by
  intro column row t h given criteria
  have located : h.catalog.locate "Node" = .ok (0, t) := eq_ok_of_toOption (by decide +kernel)
  have coerced : t.coerceAll "Node" given = .ok criteria := eq_ok_of_toOption (by decide +kernel)
  obtain ⟨removed, least, -, result, -⟩ := deleteRows_removes_least h located coerced
  have run : h.catalog.deleteRows "Node" given =
      .ok (3, { h.catalog with tables := [{ t with rows := [row "c" "c"] }] }) := by
    subst h t row column given
    cbv
  obtain ⟨count, left⟩ := Prod.mk.inj (Except.ok.inj (result.symm.trans run))
  exact ⟨located, coerced, removed, least, count, congrArg Catalog.tables left⟩

end CatalogHandle

end Tabular
