import Tabular.Proofs.Population

/-!
What a run reports. If a run that fills a catalog succeeds, its report is a matter of the schema and
the options: nothing that stood in the catalog before shows in it.
-/
namespace Tabular

def Table.omission? (t : Table) (o : Options) : Option Fault :=
  match t.storedName o with
  | .ok _ => none
  | .error f => some (f.forEntity t.name)

def Relation.omission? (r : Relation) (created : List String) : Option Fault :=
  if created.contains r.parentTable && created.contains r.childTable then none
  else some (.argument r.name "skipped because a related table was not created")

namespace Report

/-- To note elements one by one is to count those that were made and to skip the others. -/
theorem foldl_note {α : Type} (r : Report) (k : CommandKind) (omission? : α → Option Fault)
    (xs : List α) :
    xs.foldl (fun r x => r.note k (omission? x)) r =
      ((xs.filter fun x => (omission? x).isNone).foldl (fun r _ => r.count k) r).skipAll
        (xs.filterMap omission?) := by
  have skipped (f : Fault) (ys : List α) (r : Report) :
      ys.foldl (fun r _ => r.count k) (r.skip f) =
        (ys.foldl (fun r _ => r.count k) r).skip f := by
    simp only [← List.foldl_map (f := fun _ => k) (g := count), foldl_count, skip]
  induction xs generalizing r with
  | nil => rfl
  | cons x xs ih =>
    rw [List.foldl_cons, ih]
    cases omitted : omission? x with
    | none => simp [omitted, note]
    | some f => simp [omitted, note, skipped, skipAll]

/-- What was made of one kind is counted by its number. -/
theorem foldl_count_kind {α : Type} (r : Report) (k : CommandKind) (xs : List α) :
    xs.foldl (fun r _ => r.count k) r = (List.replicate xs.length k).foldl count r := by
  rw [← List.map_const', List.foldl_map]

end Report

namespace Schema

/-- The report of a run that succeeds. -/
def fillReport (s : Schema) (o : Options) (step : DatabaseStep) : Report :=
  let report : Report :=
    { engine := .jet, database := s.name, step, tablesCreated := (s.placedTables o).length
      primaryKeysCreated := ((s.placedTables o).filter (·.hasKey)).length
      relationsCreated := (s.placedRelations o).length }
  report.skipAll (s.entityFaults .catalog ++ (s.soundTables .catalog).filterMap (·.omission? o) ++
    (s.soundRelations .catalog).filterMap (·.omission? ((s.placedTables o).map (·.name))))

end Schema

namespace CatalogSession

variable {α : Type} {h h' : CatalogHandle} {s s' : Store}

/-- If it is known of every element why it is left out, it is known what is appended and noted. -/
theorem appendEach_result {kind : CommandKind} {append : α → CatalogSession (Option Fault)}
    (omission? : α → Option Fault) {xs kept : List α} {report report' : Report}
    (each : ∀ x ∈ xs, ∀ h s r h' s', exec (append x) h s = ((.ok r, h'), s') → r = omission? x)
    (hx : exec (appendEach kind append report xs) h s = ((.ok (kept, report'), h'), s')) :
    kept = xs.filter (fun x => (omission? x).isNone) ∧
      report' = xs.foldl (fun r x => r.note kind (omission? x)) report := by
  induction xs generalizing h s h' s' kept report report' with
  | nil =>
    obtain ⟨⟨⟩, -, -⟩ := exec_pure_eq_ok_iff.mp hx
    exact ⟨rfl, rfl⟩
  | cons x xs ih =>
    obtain ⟨r, h₁, s₁, later, hfirst, hrest, rfl⟩ := exec_appendEach_cons_eq_ok hx
    obtain rfl := each x (by simp) _ _ _ _ _ hfirst
    obtain ⟨rfl, rfl⟩ := ih (fun y hy => each y (List.mem_cons_of_mem x hy)) hrest
    rw [List.filter_cons]
    exact ⟨rfl, rfl⟩

end CatalogSession

open CatalogSession hiding ofExcept

namespace Table

variable {t : Table} {o : Options} {h h' : CatalogHandle} {s s' : Store}

theorem omission?_isNone : (t.omission? o).isNone = (t.storedName o).isOk := by
  unfold omission?
  cases t.storedName o <;> rfl

theorem appendOrSkip_result {columns : List StoredColumn} {r : Option Fault}
    (hcolumns : t.storedColumns = .ok columns)
    (hx : exec (t.appendOrSkip o) h s = ((.ok r, h'), s')) : r = t.omission? o := by
  unfold omission?
  obtain ⟨f, hname, rfl, -, -⟩ | ⟨name, hname, rfl, -⟩ := exec_appendOrSkip_cases hcolumns hx
  · rw [hname]
  · rw [hname]

end Table

namespace Relation

variable {r : Relation} {o : Options} {h h' : CatalogHandle} {s s' : Store}

theorem omission?_isNone (created : List String) : (r.omission? created).isNone =
    (created.contains r.parentTable && created.contains r.childTable) := by
  unfold omission?
  split
  · next both => rw [both]; rfl
  · next missing => rw [Bool.eq_false_iff.mpr missing]; rfl

theorem appendOrSkip_result {created : List String} {q : Option Fault}
    (hx : exec (r.appendOrSkip o created) h s = ((.ok q, h'), s')) :
    q = r.omission? created := by
  unfold omission?
  obtain ⟨missing, rfl, -, -⟩ | ⟨both, rfl, -⟩ := exec_appendOrSkip_cases hx
  · rw [missing, if_neg Bool.false_ne_true]
  · rw [both, if_pos rfl]

end Relation

namespace Schema

variable {s : Schema} {o : Options} {h h' : CatalogHandle} {t t' : Store}

/-- What the passes note one after the other. -/
theorem fillReport_eq (s : Schema) (o : Options) (step : DatabaseStep) :
    s.fillReport o step =
      let start : Report := { engine := .jet, database := s.name, step }
      let tables := (s.soundTables .catalog).foldl
        (fun r t => r.note .createTable (t.omission? o)) (start.skipAll (s.entityFaults .catalog))
      let keyed := ((s.placedTables o).filter (·.hasKey)).foldl (fun r _ => r.count .primaryKey)
        tables
      (s.soundRelations .catalog).foldl
        (fun r q => r.note .foreignKey (q.omission? ((s.placedTables o).map (·.name)))) keyed := by
  simp only [Report.foldl_note, Report.foldl_count_kind, Report.foldl_count, Report.skipAll_eq,
    List.count_replicate, Table.omission?_isNone, Relation.omission?_isNone]
  simp [fillReport, placedTables, placedRelations, Report.skipAll_eq]

theorem populate_report {step : DatabaseStep} {report : Report}
    (hx : exec (s.populate o step) h t = ((.ok report, h'), t')) :
    report = s.fillReport o step := by
  rw [populate_eq] at hx
  obtain ⟨⟨tables, made⟩, h₁, t₁, htables, hx⟩ := exec_bind_eq_ok_iff.mp hx
  obtain ⟨_, h₂, t₂, hkeys, hx⟩ := exec_bind_eq_ok_iff.mp hx
  obtain ⟨⟨relations, noted⟩, h₃, t₃, hrelations, hx⟩ := exec_bind_eq_ok_iff.mp hx
  obtain ⟨rfl, rfl⟩ := appendEach_result (·.omission? o) (fun u hu _ _ _ _ _ hu' => by
    obtain ⟨-, wf, -⟩ := of_mem_soundTables hu
    obtain ⟨columns, hcolumns⟩ := Table.exists_storedColumns wf
    exact Table.appendOrSkip_result hcolumns hu') htables
  obtain ⟨-, rfl⟩ := appendEach_result _ (fun r _ _ _ _ _ _ hr =>
    Relation.appendOrSkip_result hr) hrelations
  simp only [Table.omission?_isNone] at hx
  rw [fillReport_eq]
  exact (exec_pure_eq_ok_iff.mp hx).1.symm

end Schema

namespace CatalogDirectory

variable {d : CatalogDirectory} {s : Schema} {o : Options} {store store' : Store} {report : Report}

theorem openFor_step {handle : CatalogHandle} {step : DatabaseStep} {t : Store}
    (h : store.attempt (d.openFor s o) = (.ok (handle, step), t)) :
    step = if o.useExisting then .usedExisting else .created := by
  unfold openFor at h
  split at h
  · next existing =>
    rw [existing, if_pos rfl]
    obtain ⟨_, _, -, h⟩ := Store.attempt_bind_eq_ok_iff.mp h
    obtain ⟨_, _, -, h⟩ := Store.attempt_bind_eq_ok_iff.mp h
    exact (Prod.mk.inj (Store.attempt_pure_eq_ok_iff.mp h).1).2.symm
  · next fresh =>
    rw [if_neg fresh]
    obtain ⟨_, _, -, h⟩ := Store.attempt_bind_eq_ok_iff.mp h
    exact (Prod.mk.inj (Store.attempt_pure_eq_ok_iff.mp h).1).2.symm

/-- What a run that succeeds reports. -/
theorem create_report (h : store.attempt (d.create s o) = (.ok report, store')) :
    report = s.fillReport o (if o.useExisting then .usedExisting else .created) := by
  obtain ⟨handle, step, t, filled, u, hopen, hpopulate, -⟩ := attempt_create_eq_ok_iff.mp h
  rw [← openFor_step hopen]
  exact Schema.populate_report hpopulate

end CatalogDirectory

end Tabular
