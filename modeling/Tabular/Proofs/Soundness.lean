import Tabular.Validation

/-!
What the validator's verdicts mean: a table or relation without a defect is well formed, and a
table without a defect is the first of its name.
-/
namespace Tabular

structure Table.WellFormed (mode : ValidationMode) (t : Table) : Prop where
  nonempty : mode = .script → t.columns ≠ []
  columnNames : ∀ c ∈ t.columns, isValidName c.name = true
  distinct : (t.columns.map (·.name)).Nodup
  resolved : ∀ c ∈ t.columns, c.type.isSome = true
  key : ∀ names, t.primaryKey = some names →
    names ≠ [] ∧ ∀ name ∈ names, ∃ c ∈ t.columns, c.name = name

/-- A list of names of columns of the first table of a name. -/
def Schema.HasColumns (s : Schema) (table : String) (names : List String) : Prop :=
  ∃ t, s.table? table = some t ∧ ∀ name ∈ names, ∃ c ∈ t.columns, c.name = name

structure Relation.WellFormed (s : Schema) (r : Relation) : Prop where
  name : isValidName r.name = true
  nonempty : r.parentColumns ≠ []
  paired : r.parentColumns.length = r.childColumns.length
  parent : s.HasColumns r.parentTable r.parentColumns
  child : s.HasColumns r.childTable r.childColumns

namespace Table

theorem column?_isSome_iff {t : Table} {name : String} :
    (t.column? name).isSome = true ↔ ∃ c ∈ t.columns, c.name = name := by
  simp [column?, List.find?_isSome]

theorem columnDefect?_eq_none_iff {seen : List String} {cs : List Column} :
    columnDefect? seen cs = none ↔
      (∀ c ∈ cs, isValidName c.name = true) ∧ (cs.map (·.name)).Nodup ∧
        (∀ c ∈ cs, c.name ∉ seen) ∧ ∀ c ∈ cs, c.type.isSome = true := by
  induction cs generalizing seen with
  | nil => simp [columnDefect?]
  | cons c cs ih =>
    unfold columnDefect?
    split
    · next hn =>
      have : isValidName c.name = false := by simpa using hn
      simp [this]
    · next hn =>
      have valid : isValidName c.name = true := by simpa using hn
      split
      · next hs =>
        have : c.name ∈ seen := by simpa using hs
        simp [this]
      · next hs =>
        have fresh : c.name ∉ seen := by simpa using hs
        split
        · next ht =>
          have : c.type = none := by simpa using ht
          simp [this]
        · next ht =>
          have typed : c.type.isSome = true := by simpa [Option.isSome_iff_ne_none] using ht
          rw [ih, List.forall_mem_cons, List.forall_mem_cons, List.forall_mem_cons]
          simp only [List.map_cons, List.nodup_cons, List.mem_map, List.mem_cons, not_or, valid,
            fresh, typed, not_false_eq_true, true_and]
          constructor
          · rintro ⟨hv, hd, hnew, hty⟩
            exact ⟨hv, ⟨fun ⟨d, hd, same⟩ => (hnew d hd).1 same, hd⟩,
              fun d hd => (hnew d hd).2, hty⟩
          · rintro ⟨hv, ⟨hc, hd⟩, hnew, hty⟩
            exact ⟨hv, hd, fun d hd => ⟨fun same => hc ⟨d, hd, same⟩, hnew d hd⟩, hty⟩

theorem keyDefect?_eq_none_iff {t : Table} :
    t.keyDefect? = none ↔ ∀ names, t.primaryKey = some names →
      names ≠ [] ∧ ∀ name ∈ names, ∃ c ∈ t.columns, c.name = name := by
  unfold keyDefect?
  split
  · next h => simp [h]
  · next h => simp [h]
  · next names hne h =>
    have hne : names ≠ [] := fun e => hne e
    simp only [Option.map_eq_none_iff, List.find?_eq_none, Option.isNone_iff_eq_none, h,
      Option.some.injEq, forall_eq']
    simp only [← column?_isSome_iff, Option.isSome_iff_ne_none]
    exact ⟨fun all => ⟨hne, all⟩, fun all => all.2⟩

theorem bodyDefect?_eq_none_iff {mode : ValidationMode} {t : Table} :
    t.bodyDefect? mode = none ↔ t.WellFormed mode := by
  unfold bodyDefect?
  split
  · next h =>
    obtain ⟨he, hm⟩ : t.columns = [] ∧ mode = .script := by simpa using h
    exact ⟨fun none => by simp at none, fun wf => absurd he (wf.nonempty hm)⟩
  · next h =>
    rw [Option.or_eq_none_iff, columnDefect?_eq_none_iff, keyDefect?_eq_none_iff]
    constructor
    · rintro ⟨⟨names, distinct, -, resolved⟩, key⟩
      exact ⟨fun hm he => h (by simp [hm, he]), names, distinct, resolved, key⟩
    · intro wf
      exact ⟨⟨wf.columnNames, wf.distinct, by simp, wf.resolved⟩, wf.key⟩

@[simp] theorem length_defects (mode : ValidationMode) (seen : List String) (ts : List Table) :
    (defects mode seen ts).length = ts.length := by
  induction ts generalizing seen with
  | nil => rfl
  | cons t ts ih =>
    unfold defects
    split
    · simp [ih]
    · split <;> simp [ih]

/-- Behind a table without a defect there is a well-formed table, new by its name and the first
that has it. -/
theorem of_mem_zip_defects {mode : ValidationMode} {seen : List String} {ts : List Table}
    {t : Table} (h : (t, none) ∈ ts.zip (defects mode seen ts)) :
    isValidName t.name = true ∧ t.name ∉ seen ∧ t.WellFormed mode ∧
      ts.find? (·.name == t.name) = some t := by
  induction ts generalizing seen with
  | nil => simp at h
  | cons u ts ih =>
    -- A later table without a defect cannot have a name that was refused or remembered before.
    have later {seen' : List String} (hm : (t, none) ∈ ts.zip (defects mode seen' ts))
        (hne : isValidName t.name = true → t.name ∉ seen' → u.name ≠ t.name)
        (hsub : ∀ name ∈ seen, name ∈ seen') :
        isValidName t.name = true ∧ t.name ∉ seen ∧ t.WellFormed mode ∧
          (u :: ts).find? (·.name == t.name) = some t := by
      obtain ⟨valid, fresh, body, first⟩ := ih hm
      refine ⟨valid, fun hs => fresh (hsub _ hs), body, ?_⟩
      rw [List.find?_cons_of_neg (by simpa using hne valid fresh)]
      exact first
    unfold defects at h
    split at h
    · next hn =>
      have invalid : isValidName u.name = false := by simpa using hn
      simp only [List.zip_cons_cons, List.mem_cons, Prod.mk.injEq, reduceCtorEq, and_false,
        false_or] at h
      exact later h (fun valid _ same => by simp [same, valid] at invalid) (fun _ hs => hs)
    · next hn =>
      have valid : isValidName u.name = true := by simpa using hn
      split at h
      · next hs =>
        have old : u.name ∈ seen := by simpa using hs
        simp only [List.zip_cons_cons, List.mem_cons, Prod.mk.injEq, reduceCtorEq, and_false,
          false_or] at h
        exact later h (fun _ fresh same => fresh (same ▸ old)) (fun _ hs => hs)
      · next hs =>
        have fresh : u.name ∉ seen := by simpa using hs
        rw [List.zip_cons_cons, List.mem_cons] at h
        rcases h with h | h
        · obtain ⟨rfl, body⟩ := Prod.mk.inj h
          exact ⟨valid, fresh, bodyDefect?_eq_none_iff.mp body.symm, by simp⟩
        · exact later h (fun _ fresh same => fresh (by simp [same])) (fun _ hs => by simp [hs])

end Table

namespace Relation

theorem sideDefect?_eq_none_iff {s : Schema} {side : Side} {table : String}
    {names : List String} : sideDefect? s side table names = none ↔ s.HasColumns table names := by
  unfold sideDefect? Schema.HasColumns
  split
  · next h => simp [h]
  · next t h =>
    simp only [Option.map_eq_none_iff, List.find?_eq_none, Option.isNone_iff_eq_none, h,
      Option.some.injEq, exists_eq_left', ← Table.column?_isSome_iff, Option.isSome_iff_ne_none]

theorem bodyDefect?_eq_none_iff {s : Schema} {r : Relation} :
    r.bodyDefect? s = none ↔ r.WellFormed s := by
  unfold bodyDefect?
  split
  · next h =>
    have invalid : isValidName r.name = false := by simpa using h
    exact ⟨fun none => by simp at none, fun wf => by simp [wf.name] at invalid⟩
  · next h =>
    have valid : isValidName r.name = true := by simpa using h
    split
    · next he =>
      refine ⟨fun none => by simp at none, fun wf => ?_⟩
      rcases (by simpa using he : r.parentColumns = [] ∨ r.childColumns = []) with hp | hc
      · exact absurd hp wf.nonempty
      · have := wf.paired
        rw [hc] at this
        exact absurd (List.length_eq_zero_iff.mp this) wf.nonempty
    · next he =>
      obtain ⟨hp, -⟩ : r.parentColumns ≠ [] ∧ r.childColumns ≠ [] := by simpa using he
      split
      · next hl =>
        have uneven : r.parentColumns.length ≠ r.childColumns.length := by simpa using hl
        exact ⟨fun none => by simp at none, fun wf => absurd wf.paired uneven⟩
      · next hl =>
        have even : r.parentColumns.length = r.childColumns.length := by simpa using hl
        rw [Option.or_eq_none_iff, sideDefect?_eq_none_iff, sideDefect?_eq_none_iff]
        exact ⟨fun ⟨parent, child⟩ => ⟨valid, hp, even, parent, child⟩,
          fun wf => ⟨wf.parent, wf.child⟩⟩

@[simp] theorem length_defects (s : Schema) (seen : List String) (rs : List Relation) :
    (defects s seen rs).length = rs.length := by
  induction rs generalizing seen with
  | nil => rfl
  | cons r rs ih => simp [defects, ih]

theorem of_mem_zip_defects {s : Schema} {seen : List String} {rs : List Relation} {r : Relation}
    (h : (r, none) ∈ rs.zip (defects s seen rs)) : r.WellFormed s := by
  induction rs generalizing seen with
  | nil => simp at h
  | cons q rs ih =>
    rw [defects, List.zip_cons_cons, List.mem_cons] at h
    rcases h with h | h
    · obtain ⟨rfl, verdict⟩ := Prod.mk.inj h
      split at verdict
      · simp at verdict
      · exact bodyDefect?_eq_none_iff.mp verdict.symm
    · exact ih h

end Relation

namespace Schema

theorem mem_sound_iff {α δ : Type} {xs : List α} {defects : List (Option δ)} {x : α} :
    x ∈ sound xs defects ↔ (x, none) ∈ xs.zip defects := by
  simp only [sound, List.mem_filterMap, Prod.exists]
  constructor
  · rintro ⟨y, d, hm, hd⟩
    split at hd
    · next hnone =>
      obtain rfl : y = x := by simpa using hd
      obtain rfl : d = none := by simpa using hnone
      exact hm
    · simp at hd
  · intro hm
    exact ⟨x, none, hm, by simp⟩

theorem of_mem_soundTables {s : Schema} {mode : ValidationMode} {t : Table}
    (h : t ∈ s.soundTables mode) :
    isValidName t.name = true ∧ t.WellFormed mode ∧ s.table? t.name = some t := by
  obtain ⟨valid, -, body, first⟩ := Table.of_mem_zip_defects (mem_sound_iff.mp h)
  exact ⟨valid, body, first⟩

theorem of_mem_soundRelations {s : Schema} {mode : ValidationMode} {r : Relation}
    (h : r ∈ s.soundRelations mode) : r.WellFormed s :=
  Relation.of_mem_zip_defects (mem_sound_iff.mp h)

end Schema

end Tabular
