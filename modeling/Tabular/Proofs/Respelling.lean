import Tabular.Proofs.Spellings

/-!
Rows in any spelling of names. The names of a call are looked up among the columns of a table, and
its values are kept under the names found there; the columns of a key are looked up in rows as they
are spelled. So what is done to rows goes the same way if only calls are spelled in other ways, and
keys are not.
-/
namespace Tabular

def SameValues (vs ws : List (String × Json)) : Prop :=
  List.Forall₂ (fun v w => sameName v.1 w.1 = true ∧ w.2 = v.2) vs ws

namespace Agree

variable {ε κ α β γ : Type} {code : ε → κ} {R : α → β → Prop}

theorem refl (code : ε → κ) (x : Except ε α) : Agree code Eq x x := by
  cases x with
  | ok a => exact .ok rfl
  | error e => exact .error rfl

/-- Checks that agree one by one agree as a whole. -/
theorem forM {f : α → Except ε PUnit} {g : β → Except ε PUnit} {xs : List α} {ys : List β}
    (h : List.Forall₂ R xs ys) (each : ∀ x y, R x y → Agree code Eq (f x) (g y)) :
    Agree code Eq (xs.forM f) (ys.forM g) := by
  induction h with
  | nil => exact .ok rfl
  | cons head _ ih => exact (each _ _ head).bind fun _ _ _ => ih

end Agree

namespace StoredTable.Respells

variable {exact : Prop} {t u : StoredTable} {n m : String} {vs ws : List (String × Json)}

/-- Values are stored under the names of the columns, however a call spells them. -/
theorem coerceAll (h : t.Respells exact u) (same : SameValues vs ws) :
    Agree Refusal.code Eq (t.coerceAll n vs) (u.coerceAll m ws) := by
  induction same with
  | nil => exact .ok rfl
  | @cons v w vs ws head _ ih =>
    obtain ⟨name, x⟩ := v
    obtain ⟨name', y⟩ := w
    obtain ⟨named, rfl⟩ : sameName name name' = true ∧ y = x := head
    unfold StoredTable.coerceAll
    rw [h.column? named]
    cases t.column? name with
    | none => exact .error rfl
    | some column =>
      refine (Agree.refl Refusal.code (column.coerce y)).bind fun stored _ same => ?_
      obtain rfl := same
      refine ih.bind fun rest _ same => ?_
      obtain rfl := same
      exact .ok rfl

theorem missingValue? (h : t.Respells exact u) (r : Row) :
    u.missingValue? r = t.missingValue? r := by
  unfold StoredTable.missingValue?
  rw [h.columns]

theorem repeatsKey (h : t.Respells exact u) (hx : exact) (r : Row) :
    u.repeatsKey r = t.repeatsKey r := by
  have primary := h.primaryKey?
  unfold StoredTable.repeatsKey
  generalize t.primaryKey? = x at primary ⊢
  generalize u.primaryKey? = y at primary ⊢
  cases primary with
  | none => rfl
  | some key =>
    dsimp only
    unfold StoredTable.holds
    rw [(key.spelled hx).1, h.rows hx]

theorem withRows (h : t.Respells exact u) {rows rows' : List Row} (same : exact → rows' = rows) :
    StoredTable.Respells exact { t with rows } { u with rows := rows' } where
  name := h.name
  columns := h.columns
  keys := h.keys
  rows := same

end StoredTable.Respells

namespace Catalog

/-! ### Insertion -/

namespace Respells

variable {exact : Prop} {c d : Catalog} {n m : String} {vs ws : List (String × Json)}

theorem checkReference {k l : StoredKey} (h : c.Respells exact d) (hx : exact)
    (key : k.Respells exact l) (r : Row) :
    Agree Refusal.code Eq (c.checkReference r k) (d.checkReference r l) := by
  obtain ⟨columns, related⟩ := key.spelled hx
  unfold Catalog.checkReference
  rw [columns]
  dsimp only
  split
  · exact .ok rfl
  · refine (h.locate key.target).bind fun p q located => ?_
    obtain ⟨i, t⟩ := p
    obtain ⟨j, u⟩ := q
    dsimp only
    unfold StoredTable.holds
    rw [related, StoredTable.Respells.rows located.2 hx]
    split
    · exact .error rfl
    · exact .ok rfl

/-- A row is taken in both catalogs or in neither, and it is the same row. -/
theorem insert (h : c.Respells exact d) (hx : exact) (same : sameName n m = true)
    (values : SameValues vs ws) :
    Agree Refusal.code (Respells exact) (c.insert n vs) (d.insert m ws) := by
  unfold Catalog.insert
  refine (h.locate same).bind fun p q located => ?_
  obtain ⟨i, t⟩ := p
  obtain ⟨j, u⟩ := q
  obtain rfl : j = i := located.1
  have table : t.Respells exact u := located.2
  refine (table.coerceAll values).bind fun stored stored' alike => ?_
  obtain rfl := alike
  dsimp only
  rw [table.missingValue?, table.repeatsKey hx]
  split
  · exact .error rfl
  · split
    · exact .error rfl
    · refine (Agree.forM table.foreignKeys fun k l key => h.checkReference hx key _).bind
        fun _ _ _ => .ok ?_
      exact h.replace (table.withRows fun exactly => by rw [table.rows exactly]) j

end Respells

/-! ### Deletion -/

section

variable {exact : Prop} {ts us : List StoredTable} {t u : StoredTable} {n m : String}

theorem cascades_respelled (h : List.Forall₂ (StoredTable.Respells exact) ts us)
    (same : sameName n m = true) :
    List.Forall₂ (fun p q : Nat × StoredKey => q.1 = p.1 ∧ p.2.Respells exact q.2)
      (cascades ts n) (cascades us m) := by
  unfold cascades
  refine List.rel_flatMap (forall₂_zipIdx h 0) fun x y table => ?_
  obtain ⟨t, i⟩ := x
  obtain ⟨u, j⟩ := y
  obtain rfl : j = i := table.2
  have keys : List.Forall₂ (StoredKey.Respells exact) t.foreignKeys u.foreignKeys :=
    StoredTable.Respells.foreignKeys table.1
  refine List.rel_map (fun k l key => ⟨rfl, key⟩) (List.rel_filter (fun k l key => ?_) keys)
  have cascading : (l.deleteRule == .cascade && l.refersTo m) =
      (k.deleteRule == .cascade && k.refersTo n) := by
    rw [key.deleteRule, key.refersTo same]
  exact iff_of_eq (congrArg (· = true) cascading.symm)

/-- The work that the deletion of a row leads to is the same in any spelling of tables. -/
theorem dependentWork_respelled (h : List.Forall₂ (StoredTable.Respells exact) ts us) (hx : exact)
    (same : sameName n m = true) : dependentWork us m = dependentWork ts n := by
  funext r
  unfold dependentWork
  have work : List.Forall₂ Eq ((cascades ts n).map fun p => (p.1, dependents r p.2))
      ((cascades us m).map fun p => (p.1, dependents r p.2)) := by
    refine List.rel_map (fun p q related => ?_) (cascades_respelled h same)
    obtain ⟨place, key⟩ := related
    obtain ⟨columns, relatedColumns⟩ := key.spelled hx
    unfold dependents
    rw [place, columns, relatedColumns]
  rw [List.forall₂_eq_eq_eq] at work
  exact work.symm

theorem deleteAll_missing {tables : List StoredTable} {i : Nat} {criteria : Criteria}
    {pending : List (Nat × Criteria)} (h : tables[i]? = none) :
    deleteAll tables ((i, criteria) :: pending) = deleteAll tables pending := by
  rw [deleteAll]
  split
  · rfl
  · next found =>
    rw [h] at found
    cases found

theorem deleteAll_found {tables : List StoredTable} {i : Nat} {criteria : Criteria}
    {pending : List (Nat × Criteria)} (h : tables[i]? = some t) :
    let left := without tables i t criteria
    let gone := meeting t criteria
    let rest := deleteAll left (gone.flatMap (dependentWork left t.name) ++ pending)
    deleteAll tables ((i, criteria) :: pending) = (rest.1, gone.length + rest.2) := by
  intro left gone rest
  rw [deleteAll]
  split
  · next missing =>
    rw [h] at missing
    cases missing
  · next t' found =>
    obtain rfl : t = t' := Option.some.inj (h.symm.trans found)
    dsimp only
    split
    · next empty =>
      have none_ : gone = [] := List.isEmpty_iff.mp empty
      simp [rest, none_, left]
    · rfl

/-- One step of a deletion: the same rows go, and the same rows depend on them. -/
theorem without_respelled {i : Nat} (h : List.Forall₂ (StoredTable.Respells exact) ts us)
    (hx : exact) (ht : ts[i]? = some t) (criteria : Criteria) :
    ∃ u, us[i]? = some u ∧ meeting u criteria = meeting t criteria ∧
      List.Forall₂ (StoredTable.Respells exact) (without ts i t criteria)
        (without us i u criteria) ∧
      dependentWork (without us i u criteria) u.name =
        dependentWork (without ts i t criteria) t.name := by
  obtain ⟨u, hu, table⟩ := forall₂_getElem? h ht
  have left : List.Forall₂ (StoredTable.Respells exact) (without ts i t criteria)
      (without us i u criteria) :=
    forall₂_set h (table.withRows fun exactly => by rw [table.rows exactly]) i
  refine ⟨u, hu, ?_, left, dependentWork_respelled left hx table.name⟩
  unfold meeting
  rw [table.rows hx]

/-- The same rows go, however tables and keys are spelled, if the columns of keys are spelled
alike. -/
theorem deleteAll_respelled (us : List StoredTable)
    (h : List.Forall₂ (StoredTable.Respells exact) ts us) (hx : exact)
    (pending : List (Nat × Criteria)) :
    List.Forall₂ (StoredTable.Respells exact) (deleteAll ts pending).1 (deleteAll us pending).1 ∧
      (deleteAll us pending).2 = (deleteAll ts pending).2 := by
  -- Both recursions do the same work, so one is followed and the other goes along.
  fun_induction deleteAll ts pending generalizing us with
  | case1 ts =>
    rw [deleteAll]
    exact ⟨h, rfl⟩
  | case2 ts i criteria pending missing ih =>
    have missing' : us[i]? = none := by
      rw [List.getElem?_eq_none_iff] at missing ⊢
      rwa [← h.length_eq]
    rw [deleteAll_missing missing']
    exact ih us h
  | case3 ts i criteria pending t found gone left stays ih =>
    obtain ⟨u, hu, alike, left', -⟩ := without_respelled h hx found criteria
    have none_ : meeting u criteria = [] := alike.trans (List.isEmpty_iff.mp stays)
    rw [deleteAll_found hu, none_]
    dsimp only [List.flatMap_nil, List.nil_append, List.length_nil]
    rw [Nat.zero_add]
    exact ih _ left'
  | case4 ts i criteria pending t found gone left _ final removed rest ih =>
    obtain ⟨u, hu, alike, left', work⟩ := without_respelled h hx found criteria
    rw [deleteAll_found hu, alike, work]
    rw [rest] at ih
    exact ⟨(ih _ left').1, congrArg (gone.length + ·) (ih _ left').2⟩

end

/-- Rows go from both catalogs or from neither, and they are the same rows. -/
theorem Respells.deleteRows {exact : Prop} {c d : Catalog} {n m : String} {vs ws : Criteria}
    (h : c.Respells exact d) (hx : exact) (same : sameName n m = true)
    (criteria : SameValues vs ws) :
    Agree Refusal.code (fun p q => q.1 = p.1 ∧ p.2.Respells exact q.2) (c.deleteRows n vs)
      (d.deleteRows m ws) := by
  unfold Catalog.deleteRows
  refine (h.locate same).bind fun p q located => ?_
  obtain ⟨i, t⟩ := p
  obtain ⟨j, u⟩ := q
  obtain rfl : j = i := located.1
  refine (StoredTable.Respells.coerceAll located.2 criteria).bind fun stored stored' alike => ?_
  obtain rfl := alike
  obtain ⟨tables, removed⟩ := deleteAll_respelled d.tables h hx [(j, stored)]
  exact .ok ⟨removed, tables⟩

end Catalog

end Tabular
