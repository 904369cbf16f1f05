import Tabular.Proofs.Accounting

/-!
Compilation without what is skipped. The tables and relations that have a statement are a schema of
their own, in which each is as sound as before and stands for the same name; so it compiles to the
same statements, and nothing of it is skipped.
-/
namespace Tabular

section

variable {α β δ ε : Type}

def kept (xs : List α) (outcomes : List (Except ε β)) : List α :=
  ((xs.zip outcomes).filter (·.2.isOk)).map (·.1)

theorem succeeded_map_filter_isOk (f : α → Except ε β) (xs : List α) :
    succeeded ((xs.filter fun x => (f x).isOk).map f) = succeeded (xs.map f) := by
  induction xs with
  | nil => rfl
  | cons x xs ih => cases h : f x <;> simpa [h, Except.isOk, Except.toBool] using ih

theorem sound_replicate (xs : List α) :
    Schema.sound xs (List.replicate xs.length (none : Option δ)) = xs := by
  induction xs with
  | nil => rfl
  | cons x xs ih => exact congrArg (List.cons x) ih

theorem filterMap_zip_replicate (f : α → δ → β) (xs : List α) :
    (xs.zip (List.replicate xs.length (none : Option δ))).filterMap
      (fun p => p.2.map (f p.1)) = [] := by
  induction xs with
  | nil => rfl
  | cons x xs ih => exact ih

end

/-! ### Entities without a defect -/

namespace Table

theorem defects_eq_replicate {mode : ValidationMode} {seen : List String} {ts : List Table}
    (valid : ∀ t ∈ ts, isValidName t.name = true) (wf : ∀ t ∈ ts, t.WellFormed mode)
    (distinct : (ts.map (·.name)).Nodup) (fresh : ∀ t ∈ ts, t.name ∉ seen) :
    defects mode seen ts = List.replicate ts.length none := by
  induction ts generalizing seen with
  | nil => rfl
  | cons t ts ih =>
    rw [List.forall_mem_cons] at valid wf fresh
    rw [List.map_cons, List.nodup_cons] at distinct
    have tail : defects mode (t.name :: seen) ts = List.replicate ts.length none := by
      refine ih valid.2 wf.2 distinct.2 fun u hu same => ?_
      rcases List.mem_cons.mp same with same | old
      · exact distinct.1 (List.mem_map.mpr ⟨u, hu, same⟩)
      · exact fresh.2 u hu old
    unfold defects
    rw [if_neg (by simp [valid.1]), if_neg (by simp [fresh.1]), tail,
      bodyDefect?_eq_none_iff.mpr wf.1]
    rfl

/-- Tables without a defect have names of their own. -/
theorem nodup_sound_defects (mode : ValidationMode) (seen : List String) (ts : List Table) :
    ((Schema.sound ts (defects mode seen ts)).map (·.name)).Nodup := by
  induction ts generalizing seen with
  | nil => exact List.nodup_nil
  | cons t ts ih =>
    unfold defects
    split
    · exact ih seen
    split
    · exact ih seen
    cases h : t.bodyDefect? mode with
    | some d => exact ih (t.name :: seen)
    | none =>
      refine List.nodup_cons.mpr ⟨fun repeated => ?_, ih (t.name :: seen)⟩
      obtain ⟨u, hu, same⟩ := List.mem_map.mp repeated
      obtain ⟨-, fresh, -⟩ := of_mem_zip_defects (Schema.mem_sound_iff.mp hu)
      exact fresh (by simp [same])

end Table

namespace Relation

theorem defects_eq_replicate {s : Schema} {seen : List String} {rs : List Relation}
    (wf : ∀ r ∈ rs, r.WellFormed s) (distinct : (rs.map (·.name)).Nodup)
    (fresh : ∀ r ∈ rs, r.name ∉ seen) :
    defects s seen rs = List.replicate rs.length none := by
  induction rs generalizing seen with
  | nil => rfl
  | cons r rs ih =>
    rw [List.forall_mem_cons] at wf fresh
    rw [List.map_cons, List.nodup_cons] at distinct
    have tail : defects s (r.name :: seen) rs = List.replicate rs.length none := by
      refine ih wf.2 distinct.2 fun q hq same => ?_
      rcases List.mem_cons.mp same with same | old
      · exact distinct.1 (List.mem_map.mpr ⟨q, hq, same⟩)
      · exact fresh.2 q hq old
    unfold defects
    rw [if_neg (by simp [fresh.1]), tail, bodyDefect?_eq_none_iff.mpr wf.1]
    rfl

/-- Relations without a defect have names that none before them has, and none of their own. -/
theorem nodup_sound_defects (s : Schema) (seen : List String) (rs : List Relation) :
    ((Schema.sound rs (defects s seen rs)).map (·.name)).Nodup ∧
      ∀ r ∈ Schema.sound rs (defects s seen rs), r.name ∉ seen := by
  induction rs generalizing seen with
  | nil => exact ⟨List.nodup_nil, by simp [Schema.sound]⟩
  | cons r rs ih =>
    obtain ⟨distinct, fresh⟩ := ih (r.name :: seen)
    have later : ∀ q ∈ Schema.sound rs (defects s (r.name :: seen) rs), q.name ∉ seen :=
      fun q hq old => fresh q hq (List.mem_cons_of_mem _ old)
    unfold defects
    split
    · exact ⟨distinct, later⟩
    · next new =>
      cases h : r.bodyDefect? s with
      | some d => exact ⟨distinct, later⟩
      | none =>
        refine ⟨List.nodup_cons.mpr ⟨fun repeated => ?_, distinct⟩,
          List.forall_mem_cons.mpr ⟨by simpa using new, later⟩⟩
        obtain ⟨q, hq, same⟩ := List.mem_map.mp repeated
        exact fresh q hq (by simp [same])

/-- A relation is compiled only if both of its tables are created. -/
theorem mem_created_of_compile {r : Relation} {o : Options} {created : List String}
    (h : (r.compile o created).isOk = true) :
    r.parentTable ∈ created ∧ r.childTable ∈ created := by
  unfold compile at h
  split at h
  · cases h
  · next present =>
    rw [List.find?_eq_none] at present
    exact ⟨by simpa using present r.parentTable (by simp),
      by simpa using present r.childTable (by simp)⟩

end Relation

namespace Schema

/-- The schema of the tables and relations that get a statement, by position. -/
def projection (s : Schema) (o : Options) : Schema :=
  { s with tables := kept s.tables (s.tableOutcomes o)
           relations := kept s.relations (s.relationOutcomes o) }

variable (s : Schema) (o : Options)

theorem tables_projection : (s.projection o).tables = s.createdTables o := by
  rw [createdTables_eq_filter]
  exact filter_isOk_zip_judged _ _ _

theorem relations_projection :
    (s.projection o).relations = (s.soundRelations .script).filter fun r =>
      (r.compile o ((s.createdTables o).map (·.name))).isOk :=
  filter_isOk_zip_judged _ _ _

theorem nodup_createdTables : ((s.createdTables o).map (·.name)).Nodup := by
  rw [createdTables_eq_filter]
  exact (Table.nodup_sound_defects .script [] s.tables).sublist (List.filter_sublist.map _)

/-- A created table stands for its name in either schema. -/
theorem table?_projection {t : Table} (h : t ∈ s.createdTables o) :
    (s.projection o).table? t.name = s.table? t.name := by
  have first {u : Table} (hu : u ∈ s.createdTables o) : s.table? u.name = some u :=
    (of_mem_soundTables (of_mem_createdTables hu).1).2.2
  cases found : (s.projection o).table? t.name with
  | none =>
    have absent := List.find?_eq_none.mp found t (by rwa [tables_projection])
    simp at absent
  | some u =>
    have same : u.name = t.name := by simpa using List.find?_some found
    have hu := List.mem_of_find?_eq_some found
    rw [tables_projection] at hu
    rw [← same, first hu]

theorem tableDefects_projection :
    ((s.projection o).validate .script).tableDefects =
      List.replicate (s.projection o).tables.length none := by
  have sound {t : Table} (h : t ∈ (s.projection o).tables) := by
    rw [tables_projection] at h
    exact of_mem_soundTables (of_mem_createdTables h).1
  refine Table.defects_eq_replicate (fun t ht => (sound ht).1) (fun t ht => (sound ht).2.1) ?_
    (by simp)
  rw [tables_projection]
  exact s.nodup_createdTables o

theorem soundTables_projection :
    (s.projection o).soundTables .script = s.createdTables o := by
  unfold soundTables
  rw [tableDefects_projection, sound_replicate, tables_projection]

theorem wellFormed_projection {r : Relation} (h : r ∈ (s.projection o).relations) :
    r.WellFormed (s.projection o) := by
  rw [relations_projection, List.mem_filter] at h
  obtain ⟨parent, child⟩ := Relation.mem_created_of_compile h.2
  have wf := of_mem_soundRelations h.1
  have moved {table : String} {names : List String}
      (created : table ∈ (s.createdTables o).map (·.name)) (has : s.HasColumns table names) :
      (s.projection o).HasColumns table names := by
    obtain ⟨t, ht, rfl⟩ := List.mem_map.mp created
    unfold HasColumns
    rwa [s.table?_projection o ht]
  exact ⟨wf.name, wf.nonempty, wf.paired, moved parent wf.parent, moved child wf.child⟩

theorem relationDefects_projection :
    ((s.projection o).validate .script).relationDefects =
      List.replicate (s.projection o).relations.length none := by
  refine Relation.defects_eq_replicate (fun r hr => s.wellFormed_projection o hr) ?_ (by simp)
  rw [relations_projection]
  exact (Relation.nodup_sound_defects s [] s.relations).1.sublist (List.filter_sublist.map _)

theorem soundRelations_projection :
    (s.projection o).soundRelations .script = (s.projection o).relations := by
  unfold soundRelations
  rw [relationDefects_projection, sound_replicate]

theorem createdTables_projection :
    (s.projection o).createdTables o = s.createdTables o := by
  rw [createdTables_eq_filter, soundTables_projection, createdTables_eq_filter, List.filter_filter]
  simp

theorem isOk_createStatement {t : Table} (h : t ∈ s.createdTables o) :
    (t.createStatement o).2.isOk = true := by
  obtain ⟨-, st, hst⟩ := of_mem_createdTables h
  rw [hst]
  rfl

theorem entityFaults_projection : (s.projection o).entityFaults .script = [] := by
  rw [entityFaults_eq_append, tableDefects_projection, relationDefects_projection]
  exact List.append_eq_nil_iff.mpr
    ⟨filterMap_zip_replicate
        (fun (t : Table) (d : TableDefect) => Fault.argument t.name d.message) _,
      filterMap_zip_replicate
        (fun (r : Relation) (d : RelationDefect) => Fault.argument r.name d.message) _⟩

theorem tableResults_projection :
    ((s.projection o).tableResults o).map (·.2.2) =
      (s.createdTables o).map fun t => (t.createStatement o).2 := by
  rw [tableResults, soundTables_projection, List.map_map]
  rfl

theorem relationResults_projection :
    (s.projection o).relationResults o =
      (s.projection o).relations.map fun r =>
        r.compile o ((s.createdTables o).map (·.name)) := by
  rw [relationResults, soundRelations_projection, createdTables_projection]

theorem keyResults_projection : (s.projection o).keyResults o = s.keyResults o := by
  rw [keyResults, keyResults, createdTables_projection]

theorem failures_projection : ((s.projection o).compileEntities o).failures = [] := by
  have tables : failed (((s.projection o).tableResults o).map (·.2.2)) = [] := by
    rw [tableResults_projection]
    exact failed_eq_nil fun t ht => s.isOk_createStatement o ht
  have relations : failed ((s.projection o).relationResults o) = [] := by
    rw [relationResults_projection]
    refine failed_eq_nil fun r hr => ?_
    rw [relations_projection] at hr
    exact (List.mem_filter.mp hr).2
  unfold compileEntities
  dsimp only
  rw [entityFaults_projection, tables, failed_keyResults, relations]
  rfl

theorem statements_projection :
    ((s.projection o).compileEntities o).statements = (s.compileEntities o).statements := by
  have tables : succeeded (((s.projection o).tableResults o).map (·.2.2)) =
      succeeded ((s.tableResults o).map (·.2.2)) := by
    rw [tableResults_projection, createdTables_eq_filter, succeeded_map_filter_isOk, tableResults,
      List.map_map]
    rfl
  have relations : succeeded ((s.projection o).relationResults o) =
      succeeded (s.relationResults o) := by
    rw [relationResults_projection, relations_projection, succeeded_map_filter_isOk]
    rfl
  unfold compileEntities
  dsimp only
  rw [tables, keyResults_projection, relations]

/-- What is skipped has no influence on what is kept: the entities with a statement, by position,
compile on their own to the same statements, and none of them is skipped. -/
theorem compileEntities_projection (s : Schema) (o : Options) :
    let c := s.compileEntities o
    let p := (s.projection o).compileEntities o
    c.AccountsFor s (s.tableOutcomes o) (s.relationOutcomes o) ∧
      p.failures = [] ∧ p.statements = c.statements :=
  ⟨s.compileEntities_accountsFor o, s.failures_projection o, s.statements_projection o⟩

end Schema

end Tabular
