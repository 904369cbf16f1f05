import Tabular.Proofs.Integrity

/-!
Deletion of rows. While rows are pending to go, every row of a table has the row that it refers to
or is one of those pending; when none is pending, every row that is left has the row that it refers
to, however the keys run in circles.
-/
namespace Tabular

namespace StoredTable

structure ShrinksTo (t u : StoredTable) : Prop where
  frame : t.SameFrame u
  rows : u.rows.Sublist t.rows

theorem ShrinksTo.refl (t : StoredTable) : t.ShrinksTo t := ⟨rfl, .refl _⟩

theorem ShrinksTo.trans {t u v : StoredTable} (h : t.ShrinksTo u) (k : u.ShrinksTo v) :
    t.ShrinksTo v := by
  refine ⟨?_, k.rows.trans h.rows⟩
  unfold SameFrame
  rw [k.frame, h.frame]

end StoredTable

namespace Catalog

open StoredTable (ShrinksTo)

/-! ### Tables while rows go -/

theorem without_shrinks {tables : List StoredTable} {i : Nat} {t : StoredTable}
    (criteria : Criteria) (ht : tables[i]? = some t) :
    List.Forall₂ ShrinksTo tables (without tables i t criteria) :=
  forall₂_set_right ShrinksTo.refl ht ⟨rfl, List.filter_sublist⟩

theorem deleteAll_shrinks (tables : List StoredTable) (pending : List (Nat × Criteria)) :
    List.Forall₂ ShrinksTo tables (deleteAll tables pending).1 := by
  have join {ts us vs : List StoredTable} (h : List.Forall₂ ShrinksTo ts us)
      (k : List.Forall₂ ShrinksTo us vs) : List.Forall₂ ShrinksTo ts vs := by
    induction h generalizing vs with
    | nil => exact k
    | cons htu _ ih =>
      cases k with
      | cons huv k => exact .cons (htu.trans huv) (ih k)
  fun_induction deleteAll tables pending with
  | case1 tables => exact List.forall₂_same.mpr fun t _ => .refl t
  | case2 tables i criteria pending missing ih => exact ih
  | case3 tables i criteria pending t found gone left stays ih =>
    exact join (without_shrinks criteria found) ih
  | case4 tables i criteria pending t found gone left _ final removed h ih =>
    rw [h] at ih
    exact join (without_shrinks criteria found) ih

variable {P : Number → Prop} {c c' : Catalog}

/-! ### Rows that refer to rows that go -/

def Cascading (tables : List StoredTable) : Prop :=
  ∀ t ∈ tables, ∀ k ∈ t.foreignKeys, k.deleteRule = .cascade ∧ k.relatedTable = some k.target

/-- Has every row the row that it refers to, or meets it some of the pending criteria? -/
def Covered (tables : List StoredTable) (pending : List (Nat × Criteria)) : Prop :=
  ∀ j u, tables[j]? = some u → ∀ k ∈ u.foreignKeys, ∀ r ∈ u.rows, r.IsFull k.columns →
    Referred tables k r ∨ ∃ criteria, (j, criteria) ∈ pending ∧ r.meets criteria = true

theorem meets_dependents {r q : Row} {k : StoredKey} (full : r.IsFull k.columns)
    (agree : agreeing (q.project k.relatedColumns) (r.project k.columns) = true) :
    r.meets (dependents q k) = true := by
  unfold agreeing Row.project at agree
  rw [decide_eq_true_eq] at agree
  unfold dependents Row.project Row.meets
  unfold Row.IsFull at full
  generalize k.columns = columns at full agree ⊢
  generalize k.relatedColumns = related at agree ⊢
  induction columns generalizing related with
  | nil => rfl
  | cons column columns ih =>
    cases related with
    | nil => rfl
    | cons name related =>
      rw [List.forall_mem_cons] at full
      obtain ⟨head, tail⟩ := List.cons.inj agree
      rw [List.map_cons, List.zip_cons_cons, List.all_cons, ih full.2 related tail, Bool.and_true,
        Row.get?_eq_some_value full.1]
      exact Json.agrees_iff.mpr head.symm

theorem mem_cascades_iff {tables : List StoredTable} {name : String} {j : Nat} {k : StoredKey} :
    (j, k) ∈ cascades tables name ↔
      ∃ u, tables[j]? = some u ∧ k ∈ u.foreignKeys ∧ k.deleteRule = .cascade ∧
        k.refersTo name = true := by
  simp only [cascades, List.mem_flatMap, List.mem_map, List.mem_filter, Prod.exists,
    List.mem_zipIdx_iff_getElem?, Prod.mk.injEq, Bool.and_eq_true, beq_iff_eq]
  constructor
  · rintro ⟨u, _, hu, _, ⟨hk, cascade, refers⟩, rfl, rfl⟩
    exact ⟨u, hu, hk, cascade, refers⟩
  · rintro ⟨u, hu, hk, cascade, refers⟩
    exact ⟨u, j, hu, k, ⟨hk, cascade, refers⟩, rfl, rfl⟩

/-- Rows that refer to a row that goes become pending. -/
theorem mem_dependentWork {tables : List StoredTable} {j : Nat} {t u : StoredTable} {k : StoredKey}
    {q : Row} (hu : tables[j]? = some u) (hk : k ∈ u.foreignKeys) (cascading : Cascading tables)
    (target : sameName t.name k.target = true) :
    (j, dependents q k) ∈ dependentWork tables t.name q := by
  obtain ⟨cascade, related⟩ := cascading u (List.mem_of_getElem? hu) k hk
  refine List.mem_map.mpr ⟨(j, k), mem_cascades_iff.mpr ⟨u, hu, hk, cascade, ?_⟩, rfl⟩
  rw [StoredKey.refersTo, isForeign_of_mem hk, related]
  exact sameName_symm target

theorem Cascading.shrink {tables tables' : List StoredTable} (cascading : Cascading tables)
    (h : List.Forall₂ ShrinksTo tables tables') : Cascading tables' := by
  intro u hu k hk
  obtain ⟨t, ht, shrinks⟩ := exists_of_forall₂_right h hu
  rw [shrinks.frame.foreignKeys] at hk
  exact cascading t ht k hk

/-- A row that is left refers to a row that is left, or to one that goes. -/
theorem referred_without {tables : List StoredTable} {i : Nat} {t : StoredTable}
    (criteria : Criteria) {k : StoredKey} {r : Row} (ht : tables[i]? = some t)
    (h : Referred tables k r) :
    Referred (without tables i t criteria) k r ∨
      ∃ q ∈ meeting t criteria, sameName t.name k.target = true ∧
        agreeing (q.project k.relatedColumns) (r.project k.columns) = true := by
  obtain ⟨u, hu, target, held⟩ := h
  obtain ⟨q, hq, agree⟩ := StoredTable.holds_iff.mp held
  obtain ⟨j, hj⟩ := List.getElem?_of_mem hu
  by_cases same : j = i
  · subst same
    obtain rfl := Option.some.inj (ht.symm.trans hj)
    cases meets : q.meets criteria with
    | true => exact .inr ⟨q, List.mem_filter.mpr ⟨hq, meets⟩, target, agree⟩
    | false =>
      refine .inl ⟨_, List.mem_set (List.getElem?_eq_some_iff.mp ht).1 _, target, ?_⟩
      exact StoredTable.holds_iff.mpr ⟨q, List.mem_filter.mpr ⟨hq, by simp [meets]⟩, agree⟩
  · exact .inl ⟨u, mem_set_of_ne hj same, target, StoredTable.holds_iff.mpr ⟨q, hq, agree⟩⟩

/-- One step of a deletion: what goes is no longer pending, what refers to it is. -/
theorem Covered.step {tables : List StoredTable} {i : Nat} {t : StoredTable} {criteria : Criteria}
    {pending more : List (Nat × Criteria)} (cascading : Cascading tables)
    (ht : tables[i]? = some t) (covered : Covered tables ((i, criteria) :: pending))
    (dependent : ∀ q ∈ meeting t criteria,
      dependentWork (without tables i t criteria) t.name q ⊆ more) :
    Covered (without tables i t criteria) (more ++ pending) := by
  have shrinks := without_shrinks criteria ht
  intro j u hu k hk r hr full
  obtain ⟨v, hv, hk', hr', left⟩ : ∃ v, tables[j]? = some v ∧ k ∈ v.foreignKeys ∧ r ∈ v.rows ∧
      (j = i → r.meets criteria = false) := by
    unfold without at hu
    rw [List.getElem?_set] at hu
    split at hu
    · next same =>
      subst same
      rw [if_pos (List.getElem?_eq_some_iff.mp ht).1] at hu
      obtain rfl := Option.some.inj hu
      obtain ⟨mem, stays⟩ := List.mem_filter.mp hr
      exact ⟨t, ht, hk, mem, fun _ => by simpa using stays⟩
    · next other => exact ⟨u, hu, hk, hr, fun same => absurd same.symm other⟩
  rcases covered j v hv k hk' r hr' full with referred | ⟨cr, hcr, meets⟩
  · rcases referred_without criteria ht referred with stays | ⟨q, hq, target, agree⟩
    · exact .inl stays
    · refine .inr ⟨dependents q k, List.mem_append_left _ (dependent q hq ?_),
        meets_dependents full agree⟩
      exact mem_dependentWork hu hk (cascading.shrink shrinks) target
  · rcases List.mem_cons.mp hcr with here | later
    · obtain ⟨rfl, rfl⟩ := Prod.mk.inj here
      rw [left rfl] at meets
      cases meets
    · exact .inr ⟨cr, List.mem_append_right _ later, meets⟩

/-- What is pending goes, and what refers to it: in the end no reference is left open. -/
theorem covered_deleteAll {tables : List StoredTable} {pending : List (Nat × Criteria)}
    (cascading : Cascading tables) (covered : Covered tables pending) :
    Covered (deleteAll tables pending).1 [] := by
  fun_induction deleteAll tables pending with
  | case1 tables => exact covered
  | case2 tables i criteria pending missing ih =>
    refine ih cascading fun j u hu k hk r hr full => ?_
    rcases covered j u hu k hk r hr full with referred | ⟨cr, hcr, meets⟩
    · exact .inl referred
    rcases List.mem_cons.mp hcr with here | later
    · obtain ⟨rfl, -⟩ := Prod.mk.inj here
      rw [missing] at hu
      cases hu
    · exact .inr ⟨cr, later, meets⟩
  | case3 tables i criteria pending t found gone left stays ih =>
    refine ih (cascading.shrink (without_shrinks criteria found)) ?_
    have none_ : meeting t criteria = [] := List.isEmpty_iff.mp stays
    have step : Covered left ([] ++ pending) := by
      refine Covered.step cascading found covered fun q hq => ?_
      rw [none_] at hq
      cases hq
    exact step
  | case4 tables i criteria pending t found gone left _ final removed h ih =>
    rw [h] at ih
    refine ih (cascading.shrink (without_shrinks criteria found)) ?_
    exact Covered.step cascading found covered fun q hq work hwork =>
      List.mem_flatMap.mpr ⟨q, hq, hwork⟩

/-! ### Catalogs -/

theorem deleteRows_eq_ok {table : String} {criteria : Criteria} {removed : Nat}
    (h : c.deleteRows table criteria = .ok (removed, c')) :
    ∃ pending, { c with tables := (deleteAll c.tables pending).1 } = c' := by
  unfold deleteRows at h
  obtain ⟨⟨i, t⟩, -, h⟩ := bind_eq_ok_iff.mp h
  obtain ⟨resolved, -, h⟩ := bind_eq_ok_iff.mp h
  exact ⟨[(i, resolved)], (Prod.mk.inj (Except.ok.inj h)).2⟩

theorem Sound.deleteRows {table : String} {criteria : Criteria} {removed : Nat}
    (sound : c.Sound P) (h : c.deleteRows table criteria = .ok (removed, c')) : c'.Sound P := by
  obtain ⟨pending, rfl⟩ := deleteRows_eq_ok h
  have shrinks := deleteAll_shrinks c.tables pending
  have covered : Covered (deleteAll c.tables pending).1 [] :=
    covered_deleteAll (fun t ht => (sound.tables t ht).cascading) fun j u hu k hk r hr full =>
      .inl (sound.referring u (List.mem_of_getElem? hu) k hk r hr full)
  refine sound.reframe (shrinks.imp fun t u htu => htu.frame) (fun u hu => ?_) ?_
  · obtain ⟨t, ht, htu⟩ := exists_of_forall₂_right shrinks hu
    have old := sound.tables t ht
    exact old.reframe htu.frame (fun r hr => old.within r (htu.rows.subset hr))
      fun r hr => old.valued r (htu.rows.subset hr)
  · intro u hu k hk r hr full
    obtain ⟨j, hj⟩ := List.getElem?_of_mem hu
    rcases covered j u hj k hk r hr full with referred | ⟨_, none_, -⟩
    · exact referred
    · cases none_

theorem KeysDistinct.deleteRows {table : String} {criteria : Criteria} {removed : Nat}
    (distinct : c.KeysDistinct) (h : c.deleteRows table criteria = .ok (removed, c')) :
    c'.KeysDistinct := by
  obtain ⟨pending, rfl⟩ := deleteRows_eq_ok h
  intro u hu k hk
  obtain ⟨t, ht, htu⟩ := exists_of_forall₂_right (deleteAll_shrinks c.tables pending) hu
  rw [htu.frame.primaryKey?] at hk
  exact (distinct t ht k hk).sublist htu.rows

end Catalog

end Tabular
