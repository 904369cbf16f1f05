import Tabular.Catalog.Rows
import Tabular.Proofs.Documents
import Tabular.Proofs.Outcomes

/-!
Rows that are built from values, and rows that come back from a document. A row has a value for a
column when it is read again if it had one before, and null only if it was null.
-/
namespace Tabular

namespace Row

/-! ### Values by column -/

/-- A value that is not null is stored. -/
theorem get?_eq_some_value {r : Row} {column : String} (h : (r.value column).isNull = false) :
    r.get? column = some (r.value column) := by
  unfold value at h ⊢
  cases hr : r.get? column with
  | none =>
    rw [hr] at h
    cases h
  | some v => rfl

structure IsOf (Q : Json → Prop) (r : Row) : Prop where
  ordered : Json.Ordered r
  values : ∀ m ∈ r, Q m.2

theorem IsOf.put {Q : Json → Prop} {r : Row} {name : String} {v : Json} (hr : r.IsOf Q) (hv : Q v) :
    (r.put name v).IsOf Q := by
  refine ⟨hr.ordered.insertMember, fun m hm => ?_⟩
  rcases Json.mem_insertMember hm with rfl | hm
  · exact hv
  · exact hr.values m hm

theorem isOf_rowOf {Q : Json → Prop} {values : List (String × Json)} (h : ∀ v ∈ values, Q v.2) :
    (StoredTable.rowOf values).IsOf Q := by
  have grow (r : Row) (hr : r.IsOf Q) : (values.foldl (fun r p => r.put p.1 p.2) r).IsOf Q := by
    induction values generalizing r with
    | nil => exact hr
    | cons v vs ih =>
      exact ih (fun w hw => h w (List.mem_cons_of_mem v hw)) _ (hr.put (h v (by simp)))
  exact grow [] ⟨.nil, by simp⟩

def Within (P : Number → Prop) (r : Row) : Prop := (Json.object r).Within P

variable {P : Number → Prop}

theorem within_iff {r : Row} : r.Within P ↔ r.IsOf (Json.Within P) := by
  unfold Within
  rw [Json.Within, Json.withinMembers_iff]
  exact ⟨fun h => ⟨h.1, h.2⟩, fun h => ⟨h.ordered, h.values⟩⟩

/-- The value of a column as it is found in a row. -/
theorem within_value {r : Row} (hr : r.Within P) (column : String) : (r.value column).Within P := by
  unfold value
  cases h : r.get? column with
  | none => trivial
  | some v =>
    unfold get? at h
    obtain ⟨m, hm, rfl⟩ := Option.map_eq_some_iff.mp h
    exact (within_iff.mp hr).values m (List.mem_of_find?_eq_some hm)

/-! ### Rows read again -/

theorem rereadMembers?_of_reread? {r r' : Row} (hr : r.Within P) (h : r.reread? = some r') :
    Json.rereadMembers? r = some r' := by
  obtain ⟨ns, hns, hsort⟩ := Option.bind_eq_some_iff.mp h
  have read := Json.rereadMembers?_of_memberValues? hr.2 hns
  have ordered : Json.Ordered ns := by
    unfold Json.Ordered
    rw [Json.map_fst_of_rereadMembers? read]
    exact hr.1
  rw [read, ← Option.some.inj hsort, Json.sortMembers_of_ordered ordered]

theorem Within.reread? (closed : Number.Closed P) {r r' : Row} (hr : r.Within P)
    (h : r.reread? = some r') : r'.Within P := by
  refine Json.Within.reread? closed hr ?_
  rw [Json.reread?, rereadMembers?_of_reread? hr h]
  rfl

/-- The value of a column is read again like any value, and a missing one stays null. -/
theorem reread?_value {r r' : Row} (hr : r.Within P) (h : r.reread? = some r') (column : String) :
    (r.value column).reread? = some (r'.value column) := by
  have pairs := Json.rereadMembers?_eq_some_iff.mp (rereadMembers?_of_reread? hr h)
  clear h hr
  unfold value get?
  induction pairs with
  | nil => rfl
  | @cons m n ms ns hmn _ ih =>
    rw [List.find?_cons, List.find?_cons, hmn.1]
    cases n.1 == column with
    | true => exact hmn.2
    | false => exact ih

end Row

theorem Json.isNull_reread? {v w : Json} (h : v.reread? = some w) : w.isNull = v.isNull := by
  have form := ctorIdx_reread? h
  cases v with
  | null => exact Option.some.inj h ▸ rfl
  | _ => cases w <;> first | rfl | cases form

namespace Row

variable {P : Number → Prop}

/-- Projections that agree still agree when the rows are read again. -/
theorem agreeing_of_reread? {r q r' q' : Row} {columns others : List String} (hr : r.Within P)
    (hq : q.Within P) (hr' : r.reread? = some r') (hq' : q.reread? = some q')
    (h : agreeing (r.project columns) (q.project others) = true) :
    agreeing (r'.project columns) (q'.project others) = true := by
  unfold agreeing project at h ⊢
  rw [decide_eq_true_eq] at h ⊢
  induction columns generalizing others with
  | nil =>
    cases others with
    | nil => rfl
    | cons d ds => cases h
  | cons c cs ih =>
    cases others with
    | nil => cases h
    | cons d ds =>
      obtain ⟨head, tail⟩ := List.cons.inj h
      exact congrArg₂ List.cons (Json.unsignedZeros_eq_of_reread? head
        (reread?_value hr hr' c) (reread?_value hq hq' d)) (ih tail)

/-- Among rows with numbers that are kept apart, no projections come to agree. -/
theorem agreeing_of_keptApart (apart : Number.KeptApart P) {r q r' q' : Row}
    {columns : List String} (hr : r.Within P) (hq : q.Within P) (hr' : r.reread? = some r')
    (hq' : q.reread? = some q')
    (h : agreeing (r'.project columns) (q'.project columns) = true) :
    agreeing (r.project columns) (q.project columns) = true := by
  unfold agreeing project at h ⊢
  rw [decide_eq_true_eq] at h ⊢
  induction columns with
  | nil => rfl
  | cons c cs ih =>
    obtain ⟨head, tail⟩ := List.cons.inj h
    exact congrArg₂ List.cons (Json.unsignedZeros_eq_of_keptApart apart (within_value hr c)
      (within_value hq c) (reread?_value hr hr' c) (reread?_value hq hq' c) head) (ih tail)

end Row

/-! ### Values for columns -/

namespace StoredColumn

variable {c : StoredColumn} {v w : Json}

/-- A column of GUIDs stores the canonical spelling of a text that has one. -/
theorem coerce_guid_eq_ok_iff (kind : c.type.kind = .guid) (given : v ≠ .null) :
    c.coerce v = .ok w ↔ ∃ s g, v = .string s ∧ Guid.canonical? s = some g ∧ w = .string g := by
  unfold coerce
  split
  · contradiction
  · rw [kind]
    change (c.text v >>= fun s => _) = _ ↔ _
    rw [bind_eq_ok_iff]
    constructor
    · rintro ⟨s, isText, h⟩
      unfold text at isText
      split at isText
      · obtain rfl := Except.ok.inj isText
        split at h
        · next g canonical => exact ⟨_, g, rfl, canonical, (Except.ok.inj h).symm⟩
        · cases h
      · cases isText
    · rintro ⟨s, g, rfl, canonical, rfl⟩
      refine ⟨s, rfl, ?_⟩
      rw [canonical]
      rfl

/-- Any other column stores a value as it is. -/
theorem eq_of_coerce (kind : c.type.kind ≠ .guid) (h : c.coerce v = .ok w) : w = v := by
  unfold coerce at h
  split at h
  · exact (Except.ok.inj h).symm
  · split at h
    · next guid => exact absurd guid kind
    · obtain ⟨s, -, h⟩ := bind_eq_ok_iff.mp h
      split at h
      · cases h
      · exact (Except.ok.inj h).symm
    · obtain ⟨s, -, h⟩ := bind_eq_ok_iff.mp h
      split at h
      · cases h
      · exact (Except.ok.inj h).symm
    · split at h
      · exact (Except.ok.inj h).symm
      · cases h
    all_goals first
      | exact (Except.ok.inj h).symm
      | split at h
        · exact (Except.ok.inj h).symm
        · cases h

@[simp] theorem coerce_null : c.coerce .null = .ok .null := rfl

/-- A value is stored as it is, or as a text. -/
theorem coerce_eq_ok (h : c.coerce v = .ok w) : w = v ∨ ∃ s, w = .string s := by
  by_cases kind : c.type.kind = .guid
  · by_cases given : v = .null
    · subst given
      exact .inl (Except.ok.inj h).symm
    · obtain ⟨s, g, -, -, rfl⟩ := (coerce_guid_eq_ok_iff kind given).mp h
      exact .inr ⟨g, rfl⟩
  · exact .inl (eq_of_coerce kind h)

end StoredColumn

namespace StoredTable

variable {t : StoredTable} {table : String}

/-- Values are stored of the kind that they are given in, if all texts are of that kind. -/
theorem of_coerceAll {Q : Json → Prop} (texts : ∀ s, Q (.string s))
    {values stored : List (String × Json)} (h : t.coerceAll table values = .ok stored)
    (hv : ∀ v ∈ values, Q v.2) : ∀ w ∈ stored, Q w.2 := by
  induction values generalizing stored with
  | nil =>
    obtain rfl := Except.ok.inj h
    simp
  | cons v vs ih =>
    obtain ⟨name, v⟩ := v
    unfold coerceAll at h
    split at h
    · cases h
    · obtain ⟨w, hw, h⟩ := bind_eq_ok_iff.mp h
      obtain ⟨ws, hws, h⟩ := bind_eq_ok_iff.mp h
      obtain rfl := Except.ok.inj h
      rw [List.forall_mem_cons] at hv ⊢
      refine ⟨?_, ih hws hv.2⟩
      rcases StoredColumn.coerce_eq_ok hw with rfl | ⟨s, rfl⟩
      · exact hv.1
      · exact texts s

/-- A row that no column misses a value in has one in every column that takes no null. -/
theorem isNull_of_missingValue? {r : Row} (h : t.missingValue? r = none) :
    ∀ column ∈ t.columns, column.type.nullable = false → (r.value column.name).isNull = false := by
  intro column hcolumn takesNone
  have := List.find?_eq_none.mp h column hcolumn
  rw [takesNone] at this
  simpa using this

theorem holds_iff {columns : List String} {values : List Json} :
    t.holds columns values = true ↔ ∃ q ∈ t.rows, agreeing (q.project columns) values = true :=
  List.any_eq_true

end StoredTable

end Tabular
