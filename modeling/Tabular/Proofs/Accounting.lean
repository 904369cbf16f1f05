import Tabular.Proofs.Statements

/-!
No entity of a schema is lost or reported twice. Every table and every relation, by position, ends
in its statement or in one fault that is charged to it; the primary keys are those of the created
tables that declare one.
-/
namespace Tabular

/-- The outcomes of all tables and all relations of a schema, by position, account for a
compilation: its statements are their results and its failures their faults, each once. -/
structure Compilation.AccountsFor (c : Compilation) (s : Schema)
    (tables relations : List (Except Fault Statement)) : Prop where
  table_outcomes : List.Forall₂ Table.Outcome s.tables tables
  relation_outcomes : List.Forall₂ Relation.Outcome s.relations relations
  creates : c.ofKind .createTable = succeeded tables
  foreignKeys : c.ofKind .foreignKey = succeeded relations
  primaryKeys : (c.ofKind .primaryKey).map (·.entity) =
    ((s.tables.zip tables).filter fun p => p.2.isOk && p.1.hasKey).map (·.1.name)
  kinds : c.statements =
    c.ofKind .createTable ++ c.ofKind .primaryKey ++ c.ofKind .foreignKey
  failures : c.failures.Perm (failed tables ++ failed relations)

namespace Schema

def tableOutcomes (s : Schema) (o : Options) : List (Except Fault Statement) :=
  judged (fun t d => .argument t.name d.message) (fun t => (t.createStatement o).2) s.tables
    (s.validate .script).tableDefects

def relationOutcomes (s : Schema) (o : Options) : List (Except Fault Statement) :=
  judged (fun r d => .argument r.name d.message)
    (fun r => r.compile o ((s.createdTables o).map (·.name))) s.relations
    (s.validate .script).relationDefects

theorem createdTables_eq_filter (s : Schema) (o : Options) :
    s.createdTables o = (s.soundTables .script).filter fun t => (t.createStatement o).2.isOk := by
  unfold createdTables tableResults
  induction s.soundTables .script with
  | nil => rfl
  | cons t ts ih =>
    cases h : t.createStatement o with
    | mk warnings r => cases r <;> simpa [h, Except.isOk, Except.toBool] using ih

theorem of_mem_createdTables {s : Schema} {o : Options} {t : Table} (h : t ∈ s.createdTables o) :
    t ∈ s.soundTables .script ∧ ∃ st, (t.createStatement o).2 = .ok st := by
  rw [createdTables_eq_filter, List.mem_filter] at h
  refine ⟨h.1, ?_⟩
  cases hr : (t.createStatement o).2 with
  | error f => simp [hr, Except.isOk, Except.toBool] at h
  | ok st => exact ⟨st, rfl⟩

theorem keyResult_of_created {s : Schema} {o : Options} {t : Table} (h : t ∈ s.createdTables o) :
    ∃ key, chargedTo t.name (t.primaryKeyStatement o) = .ok key ∧ key.kind = .primaryKey ∧
      key.entity = t.name := by
  obtain ⟨sound, st, hst⟩ := of_mem_createdTables h
  obtain ⟨-, wf, -⟩ := of_mem_soundTables sound
  obtain ⟨key, hk, kind, entity⟩ := Table.primaryKeyStatement_of_created wf hst
  exact ⟨key, chargedTo_eq_ok_iff.mpr hk, kind, entity⟩

theorem succeeded_keyResults_entities (s : Schema) (o : Options) :
    (succeeded (s.keyResults o)).map (·.entity) =
      ((s.createdTables o).filter (·.hasKey)).map (·.name) := by
  have created : ∀ t ∈ (s.createdTables o).filter (·.hasKey), t ∈ s.createdTables o :=
    fun t ht => List.mem_of_mem_filter ht
  unfold keyResults
  generalize (s.createdTables o).filter (·.hasKey) = keyed at created
  induction keyed with
  | nil => rfl
  | cons t ts ih =>
    obtain ⟨key, hkey, -, entity⟩ := keyResult_of_created (created t (by simp))
    simp only [List.map_cons, hkey, succeeded_cons_ok, entity]
    rw [ih fun u hu => created u (by simp [hu])]

/-- No primary key fails. -/
theorem failed_keyResults (s : Schema) (o : Options) : failed (s.keyResults o) = [] := by
  apply List.eq_nil_iff_forall_not_mem.mpr
  intro f hf
  obtain ⟨t, ht, h⟩ := List.mem_map.mp (mem_failed_iff.mp hf)
  obtain ⟨key, hkey, -⟩ := keyResult_of_created (List.mem_of_mem_filter ht)
  rw [hkey] at h
  cases h

/-! ### The kinds of the statements -/

theorem kind_of_mem_tables {s : Schema} {o : Options} {st : Statement}
    (h : st ∈ succeeded ((s.tableResults o).map (·.2.2))) : st.kind = .createTable := by
  rw [mem_succeeded_iff, tableResults, List.map_map] at h
  obtain ⟨t, -, heq⟩ := List.mem_map.mp h
  have outcome := t.createStatement_outcome o
  rw [show (t.createStatement o).2 = .ok st from heq] at outcome
  cases outcome with
  | created kind _ => exact kind

theorem kind_of_mem_keys {s : Schema} {o : Options} {st : Statement}
    (h : st ∈ succeeded (s.keyResults o)) : st.kind = .primaryKey := by
  obtain ⟨t, ht, heq⟩ := List.mem_map.mp (mem_succeeded_iff.mp h)
  obtain ⟨key, hkey, kind, -⟩ := keyResult_of_created (List.mem_of_mem_filter ht)
  obtain rfl : key = st := Except.ok.inj (hkey.symm.trans heq)
  exact kind

theorem kind_of_mem_relations {s : Schema} {o : Options} {st : Statement}
    (h : st ∈ succeeded (s.relationResults o)) : st.kind = .foreignKey := by
  obtain ⟨r, -, heq⟩ := List.mem_map.mp (mem_succeeded_iff.mp h)
  have outcome := r.compile_outcome o ((s.createdTables o).map (·.name))
  rw [heq] at outcome
  cases outcome with
  | created kind _ => exact kind

private theorem filter_kind {k l : CommandKind} {ss : List Statement}
    (h : ∀ st ∈ ss, st.kind = l) : ss.filter (·.kind == k) = if k = l then ss else [] := by
  split
  · next same => exact List.filter_eq_self.mpr fun st hst => by simp [h st hst, same]
  · next other =>
    exact List.filter_eq_nil_iff.mpr fun st hst => by simp [h st hst, Ne.symm other]

theorem ofKind_compileEntities (s : Schema) (o : Options) :
    let c := s.compileEntities o
    c.ofKind .createTable = succeeded ((s.tableResults o).map (·.2.2)) ∧
      c.ofKind .primaryKey = succeeded (s.keyResults o) ∧
      c.ofKind .foreignKey = succeeded (s.relationResults o) := by
  simp only [compileEntities, Compilation.ofKind, List.filter_append,
    filter_kind fun _ => kind_of_mem_tables (s := s) (o := o),
    filter_kind fun _ => kind_of_mem_keys (s := s) (o := o),
    filter_kind fun _ => kind_of_mem_relations (s := s) (o := o)]
  simp

/-! ### The account -/

theorem entityFaults_eq_append (s : Schema) (mode : ValidationMode) :
    s.entityFaults mode =
      (s.tables.zip (s.validate mode).tableDefects).filterMap (fun p =>
        p.2.map fun d => .argument p.1.name d.message) ++
      (s.relations.zip (s.validate mode).relationDefects).filterMap (fun p =>
        p.2.map fun d => .argument p.1.name d.message) := by
  simp only [entityFaults, entityViolations, List.map_append, List.map_filterMap, Option.map_map]
  rfl

theorem failures_perm_outcomes (s : Schema) (o : Options) :
    (s.compileEntities o).failures.Perm
      (failed (s.tableOutcomes o) ++ failed (s.relationOutcomes o)) := by
  have tables : (failed (s.tableOutcomes o)).Perm _ := failed_judged_perm _ _
  have relations : (failed (s.relationOutcomes o)).Perm _ := failed_judged_perm _ _
  refine .trans ?_ (tables.append relations).symm
  simp only [compileEntities, entityFaults_eq_append, failed_keyResults, List.append_nil,
    tableResults, relationResults, soundTables, soundRelations, List.map_map, List.append_assoc]
  exact (List.perm_append_comm_assoc _ _ _).append_left _

theorem compileEntities_accountsFor (s : Schema) (o : Options) :
    (s.compileEntities o).AccountsFor s (s.tableOutcomes o) (s.relationOutcomes o) := by
  obtain ⟨creates, keys, foreignKeys⟩ := ofKind_compileEntities s o
  constructor
  case table_outcomes =>
    refine forall₂_judged (by simp [validate]) ?_ fun t _ => t.createStatement_outcome o
    exact fun t d => .failed (.inl ⟨_, rfl⟩)
  case relation_outcomes =>
    refine forall₂_judged (by simp [validate]) ?_ fun r _ => r.compile_outcome o _
    exact fun r d => .failed ⟨_, rfl⟩
  case creates => rw [creates, tableOutcomes, succeeded_judged, tableResults, List.map_map]; rfl
  case foreignKeys => rw [foreignKeys, relationOutcomes, succeeded_judged]; rfl
  case primaryKeys =>
    rw [keys, succeeded_keyResults_entities, createdTables_eq_filter, soundTables,
      ← filter_isOk_zip_judged fun t d => .argument t.name d.message]
    simp only [List.filter_map, List.filter_filter, List.map_map]
    congr 1
    exact List.filter_congr fun p _ => Bool.and_comm _ _
  case kinds => rw [creates, keys, foreignKeys]; rfl
  case failures => exact s.failures_perm_outcomes o

/-- The faults among outcomes name the elements without a result. -/
theorem map_entity?_failed {α : Type} (name : α → String)
    {R : α → Except Fault Statement → Prop} {xs : List α} {rs : List (Except Fault Statement)}
    (h : List.Forall₂ R xs rs) (hR : ∀ x f, R x (.error f) → f.entity? = some (name x)) :
    (failed rs).map Fault.entity? =
      ((xs.zip rs).filter (!·.2.isOk)).map fun p => some (name p.1) := by
  induction h with
  | nil => rfl
  | @cons x r xs rs hr _ ih =>
    cases r with
    | error f => simpa [Except.isOk, Except.toBool, hR x f hr] using ih
    | ok st => simpa [Except.isOk, Except.toBool] using ih

/-- Every table and every relation, by position, ends in exactly one statement or exactly one fault
that is charged to it by name. -/
theorem compileEntities_accounts (s : Schema) (o : Options) :
    let c := s.compileEntities o
    ∃ tables relations, c.AccountsFor s tables relations ∧
      c.failures.length + (c.ofKind .createTable).length + (c.ofKind .foreignKey).length =
        s.tables.length + s.relations.length ∧
      (c.failures.map Fault.entity?).Perm
        (((s.tables.zip tables).filter (!·.2.isOk)).map (fun p => some p.1.name) ++
          ((s.relations.zip relations).filter (!·.2.isOk)).map fun p => some p.1.name) := by
  have account := s.compileEntities_accountsFor o
  refine ⟨s.tableOutcomes o, s.relationOutcomes o, account, ?_, ?_⟩
  · have tables := length_failed_add_succeeded (s.tableOutcomes o)
    have relations := length_failed_add_succeeded (s.relationOutcomes o)
    have failures := account.failures.length_eq
    rw [account.creates, account.foreignKeys, account.table_outcomes.length_eq,
      account.relation_outcomes.length_eq]
    rw [List.length_append] at failures
    omega
  · have tables := map_entity?_failed Table.name account.table_outcomes fun t f h => by
      cases h with
      | failed charged => exact charged.entity?_eq
    have relations := map_entity?_failed Relation.name account.relation_outcomes
      fun r f h => by
        cases h with
        | failed charged => exact charged.entity?_eq
    rw [← tables, ← relations, ← List.map_append]
    exact account.failures.map _

end Schema

end Tabular
