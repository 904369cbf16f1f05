import Tabular.Proofs.References
import Tabular.Proofs.Reports

/-!
Statements and catalogs from one schema. Where a schema has nothing that only one of the two can
express, a catalog gets a table, a key and a relation for each statement that makes one, and the
entities left out are the same.
-/
namespace Tabular

def Identifier.IsCommon (name : String) : Prop :=
  (Identifier.forServer name).isOk = true ∧ (Identifier.forCatalog name).isOk = true

instance (name : String) : Decidable (Identifier.IsCommon name) :=
  inferInstanceAs (Decidable (_ ∧ _))

open Identifier (IsCommon)

/-- What a schema and options are like that statements and catalogs can express alike. -/
structure Schema.Common (s : Schema) (o : Options) : Prop where
  nonempty : ∀ t ∈ s.soundTables .catalog, t.columns ≠ []
  types : ∀ t ∈ s.soundTables .catalog, ∀ c ∈ t.columns, c.type ≠ some .charBlob
  owner : isBlankText o.owner = false → IsCommon o.owner
  tableNames : ∀ t ∈ s.soundTables .catalog, IsCommon (o.tablePrefix ++ t.name)
  columnNames : ∀ t ∈ s.soundTables .catalog, ∀ c ∈ t.columns, IsCommon c.name
  relationNames : ∀ r ∈ s.soundRelations .catalog, IsCommon r.name

/-! ### Verdicts -/

section

variable {α δ : Type}

/-- What is sound depends on where there are defects, not on which. -/
theorem sound_congr {xs : List α} {ds es : List (Option δ)}
    (h : ds.map Option.isNone = es.map Option.isNone) :
    Schema.sound xs ds = Schema.sound xs es := by
  induction xs generalizing ds es with
  | nil => rfl
  | cons x xs ih =>
    cases ds with
    | nil =>
      obtain rfl := List.map_eq_nil_iff.mp h.symm
      rfl
    | cons d ds =>
      cases es with
      | nil => cases h
      | cons e es =>
        obtain ⟨same, rest⟩ := List.cons.inj h
        cases d <;> cases e
        · exact congrArg (x :: ·) (ih rest)
        · cases same
        · cases same
        · exact ih rest

/-- The entities that faults are charged to depend on where there are defects, not on which. -/
theorem map_entity?_defects (name : α → String) (message : δ → String) (xs : List α)
    (ds : List (Option δ)) :
    ((xs.zip ds).filterMap fun p => p.2.map fun d =>
        Fault.argument (name p.1) (message d)).map Fault.entity? =
      (((xs.zip (ds.map Option.isNone)).filter (!·.2)).map fun p => name p.1).map some := by
  induction xs generalizing ds with
  | nil => rfl
  | cons x xs ih =>
    cases ds with
    | nil => rfl
    | cons d ds =>
      cases d with
      | none => simpa using ih ds
      | some d => simpa [Fault.entity?] using ih ds

end

namespace Table

theorem bodyDefect?_isNone {t : Table} (nonempty : t.bodyDefect? .catalog = none → t.columns ≠ []) :
    (t.bodyDefect? .script).isNone = (t.bodyDefect? .catalog).isNone := by
  rw [Bool.eq_iff_iff, Option.isNone_iff_eq_none, Option.isNone_iff_eq_none]
  constructor
  · intro h
    have wf := bodyDefect?_eq_none_iff.mp h
    exact bodyDefect?_eq_none_iff.mpr ⟨nofun, wf.columnNames, wf.distinct, wf.resolved,
      wf.key⟩
  · intro h
    have wf := bodyDefect?_eq_none_iff.mp h
    exact bodyDefect?_eq_none_iff.mpr ⟨fun _ => nonempty h, wf.columnNames, wf.distinct,
      wf.resolved, wf.key⟩

/-- Both ways of validating find defects in the same tables. -/
theorem defects_isNone {seen : List String} {ts : List Table}
    (nonempty : ∀ t, (t, none) ∈ ts.zip (defects .catalog seen ts) → t.columns ≠ []) :
    (defects .script seen ts).map Option.isNone = (defects .catalog seen ts).map Option.isNone := by
  induction ts generalizing seen with
  | nil => rfl
  | cons t ts ih =>
    unfold defects at nonempty ⊢
    split at nonempty
    · next invalid =>
      rw [if_pos invalid, if_pos invalid, List.map_cons, List.map_cons,
        ih fun u hu => nonempty u (List.mem_cons_of_mem _ hu)]
    · next valid =>
      rw [if_neg valid, if_neg valid]
      split at nonempty
      · next repeated =>
        rw [if_pos repeated, if_pos repeated, List.map_cons, List.map_cons,
          ih fun u hu => nonempty u (List.mem_cons_of_mem _ hu)]
      · next fresh =>
        rw [if_neg fresh, if_neg fresh, List.map_cons, List.map_cons,
          ih fun u hu => nonempty u (List.mem_cons_of_mem _ hu),
          bodyDefect?_isNone fun sound => nonempty t (by simp [sound])]

end Table

namespace Schema

variable {s : Schema} {o : Options}

theorem Common.defects (common : s.Common o) :
    (s.validate .script).tableDefects.map Option.isNone =
      (s.validate .catalog).tableDefects.map Option.isNone :=
  Table.defects_isNone fun t ht => common.nonempty t (mem_sound_iff.mpr ht)

theorem Common.soundTables (common : s.Common o) : s.soundTables .script = s.soundTables .catalog :=
  sound_congr common.defects

def defective (s : Schema) (mode : ValidationMode) : List String :=
  (((s.tables.zip ((s.validate mode).tableDefects.map Option.isNone)).filter (!·.2)).map
    fun p => p.1.name) ++
  (((s.relations.zip ((s.validate mode).relationDefects.map Option.isNone)).filter (!·.2)).map
    fun p => p.1.name)

theorem map_entity?_entityFaults (s : Schema) (mode : ValidationMode) :
    (s.entityFaults mode).map Fault.entity? = (s.defective mode).map some := by
  rw [entityFaults_eq_append, List.map_append, defective, List.map_append,
    map_entity?_defects Table.name TableDefect.message,
    map_entity?_defects Relation.name RelationDefect.message]

theorem Common.defective (common : s.Common o) : s.defective .script = s.defective .catalog := by
  unfold Schema.defective
  rw [common.defects]
  rfl

end Schema

/-! ### Tables -/

theorem isOk_iff {ε α : Type} {r : Except ε α} : r.isOk = true ↔ ∃ a, r = .ok a := by
  cases r with
  | error e => simp [Except.isOk, Except.toBool]
  | ok a => simp [Except.isOk, Except.toBool]

namespace Schema.Common

variable {s : Schema} {o : Options} {t : Table} (common : s.Common o)

include common

theorem exists_qualified (ht : t ∈ s.soundTables .catalog) :
    ∃ name, o.qualified t.name = .ok name := by
  obtain ⟨name, hname⟩ := isOk_iff.mp (common.tableNames t ht).1
  unfold Options.qualified QualifiedName.ofOwner
  rw [hname]
  cases blank : isBlankText o.owner with
  | true => exact ⟨_, rfl⟩
  | false =>
    obtain ⟨owner, howner⟩ := isOk_iff.mp (common.owner blank).1
    rw [howner]
    exact ⟨_, rfl⟩

theorem exists_columnDefinition (ht : t ∈ s.soundTables .catalog) {c : Column}
    (hc : c ∈ t.columns) : ∃ d, t.columnDefinition c = .ok d := by
  obtain ⟨-, wf, -⟩ := of_mem_soundTables ht
  obtain ⟨name, hname⟩ := isOk_iff.mp (common.columnNames t ht c hc).1
  obtain ⟨type, htype⟩ := Option.isSome_iff_exists.mp (wf.resolved c hc)
  have known : type ≠ .charBlob := fun same => common.types t ht c hc (same ▸ htype)
  obtain ⟨sql, hsql⟩ : ∃ sql, c.sqlType t = .ok sql := by
    unfold Column.sqlType Column.resolvedType SqlType.of?
    rw [htype]
    cases type with
    | charBlob => exact absurd rfl known
    | _ => exact ⟨_, rfl⟩
  exact ⟨⟨name, sql⟩, Table.columnDefinition_eq_ok_iff.mpr ⟨hname, hsql⟩⟩

theorem createStatement_isOk (ht : t ∈ s.soundTables .catalog) :
    (t.createStatement o).2.isOk = true := by
  obtain ⟨name, hname⟩ := common.exists_qualified ht
  obtain ⟨definitions, hdefinitions⟩ :=
    exists_mapM_eq_ok fun c hc => common.exists_columnDefinition ht hc
  exact isOk_iff.mpr ⟨_, Table.createStatement_eq_ok_iff.mpr ⟨_, _, hname, hdefinitions, rfl⟩⟩

theorem storedName_isOk (ht : t ∈ s.soundTables .catalog) : (t.storedName o).isOk = true := by
  obtain ⟨name, hname⟩ := isOk_iff.mp (common.tableNames t ht).2
  unfold Table.storedName catalogName
  rw [hname]
  rfl

theorem createdTables : s.createdTables o = s.soundTables .catalog := by
  rw [createdTables_eq_filter, common.soundTables]
  exact List.filter_eq_self.mpr fun t ht => common.createStatement_isOk ht

theorem placedTables : s.placedTables o = s.soundTables .catalog :=
  List.filter_eq_self.mpr fun _ ht => common.storedName_isOk ht

/-! ### Relations -/

/-- The columns of a relation are columns of its tables, which have safe names. -/
theorem exists_serverNames {table : String} {names : List String}
    (made : table ∈ (s.createdTables o).map (·.name)) (checked : s.HasColumns table names) :
    ∃ columns, serverNames names = .ok columns := by
  rw [common.createdTables] at made
  obtain ⟨t, ht, rfl⟩ := List.mem_map.mp made
  obtain ⟨-, -, first⟩ := of_mem_soundTables ht
  obtain ⟨u, hu, declared⟩ := checked
  obtain rfl : t = u := Option.some.inj (first.symm.trans hu)
  refine exists_mapM_eq_ok fun name hname => ?_
  obtain ⟨c, hc, rfl⟩ := declared name hname
  exact isOk_iff.mp (common.columnNames t ht c hc).1

theorem exists_qualified_of_made {table : String}
    (made : table ∈ (s.createdTables o).map (·.name)) : ∃ name, o.qualified table = .ok name := by
  rw [common.createdTables] at made
  obtain ⟨t, ht, rfl⟩ := List.mem_map.mp made
  exact common.exists_qualified ht

/-- A relation gets its statement as soon as both of its tables have theirs. -/
theorem compile_isOk {r : Relation} (hr : r ∈ s.soundRelations .catalog) :
    (r.compile o ((s.createdTables o).map (·.name))).isOk =
      (((s.createdTables o).map (·.name)).contains r.parentTable &&
        ((s.createdTables o).map (·.name)).contains r.childTable) := by
  have wf := of_mem_soundRelations hr
  rw [Bool.eq_iff_iff, isOk_iff, Bool.and_eq_true, List.contains_iff_mem, List.contains_iff_mem]
  constructor
  · rintro ⟨st, h⟩
    obtain ⟨parent, child, -⟩ := Relation.compile_eq_ok_iff.mp h
    exact ⟨parent, child⟩
  · rintro ⟨parent, child⟩
    obtain ⟨childName, hchild⟩ := common.exists_qualified_of_made child
    obtain ⟨parentName, hparent⟩ := common.exists_qualified_of_made parent
    obtain ⟨constraint, hconstraint⟩ := isOk_iff.mp (common.relationNames r hr).1
    obtain ⟨childColumns, hchildColumns⟩ := common.exists_serverNames child wf.child
    obtain ⟨parentColumns, hparentColumns⟩ := common.exists_serverNames parent wf.parent
    exact ⟨_, Relation.compile_eq_ok_iff.mpr ⟨parent, child,
      Relation.foreignKeyStatement_eq_ok_iff.mpr ⟨_, _, _, _, _, hchild, hparent, hconstraint,
        hchildColumns, hparentColumns, rfl⟩⟩⟩

theorem createdRelations : s.createdRelations o = s.placedRelations o := by
  unfold Schema.createdRelations Schema.placedRelations
  rw [common.placedTables, ← common.createdTables]
  exact List.filter_congr fun r hr => common.compile_isOk hr

end Schema.Common

/-! ### What is left out -/

namespace Relation

variable {o : Options} (created : List String) (rs : List Relation)

theorem map_entity?_compile : (failed (rs.map fun r => r.compile o created)).map Fault.entity? =
    ((rs.filter fun r => !(r.compile o created).isOk).map (·.name)).map some := by
  induction rs with
  | nil => rfl
  | cons r rs ih =>
    have outcome := r.compile_outcome o created
    cases h : r.compile o created with
    | ok st => simpa [h, Except.isOk, Except.toBool] using ih
    | error f =>
      rw [h] at outcome
      cases outcome with
      | failed charged => simpa [h, Except.isOk, Except.toBool, charged.entity?_eq] using ih

theorem map_entity?_omission : (rs.filterMap (·.omission? created)).map Fault.entity? =
    ((rs.filter fun r => !(created.contains r.parentTable && created.contains r.childTable)).map
      (·.name)).map some := by
  induction rs with
  | nil => rfl
  | cons r rs ih =>
    cases h : created.contains r.parentTable && created.contains r.childTable with
    | true =>
      have none_ : r.omission? created = none := by rw [omission?, if_pos h]
      simpa only [List.filterMap_cons, none_, List.filter_cons, h, Bool.not_true,
        Bool.false_eq_true, if_false] using ih
    | false =>
      have some_ : r.omission? created =
          some (.argument r.name "skipped because a related table was not created") := by
        rw [omission?, h, if_neg Bool.false_ne_true]
      simp only [List.filterMap_cons, some_, List.filter_cons, h, Bool.not_false, if_true,
        List.map_cons, ih]
      rfl

end Relation

namespace Schema

/-- The entities left out, by name: those with a defect, and the relations without their tables. -/
def leftOut (s : Schema) (o : Options) : List String :=
  let placed := (s.placedTables o).map (·.name)
  s.defective .catalog ++ ((s.soundRelations .catalog).filter fun r =>
    !(placed.contains r.parentTable && placed.contains r.childTable)).map (·.name)

namespace Common

variable {s : Schema} {o : Options} (common : s.Common o)

include common

theorem map_entity?_compiled :
    (s.compileEntities o).failures.map Fault.entity? = (s.leftOut o).map some := by
  have tables : failed ((s.tableResults o).map (·.2.2)) = [] := by
    have results : (s.tableResults o).map (·.2.2) =
        (s.soundTables .catalog).map fun t => (t.createStatement o).2 := by
      rw [tableResults, List.map_map, common.soundTables]
      rfl
    rw [results]
    exact failed_eq_nil fun t ht => common.createStatement_isOk ht
  have relations : (failed (s.relationResults o)).map Fault.entity? = _ :=
    Relation.map_entity?_compile ((s.createdTables o).map Table.name) (s.soundRelations .catalog)
  have unmade := List.filter_congr fun r (hr : r ∈ s.soundRelations .catalog) =>
    congrArg Bool.not (common.compile_isOk hr)
  rw [unmade] at relations
  simp only [compileEntities, tables, failed_keyResults, List.append_nil, List.map_append,
    relations, map_entity?_entityFaults, common.defective, leftOut, common.placedTables,
    common.createdTables]

theorem map_entity?_report (step : DatabaseStep) :
    (s.fillReport o step).failures.map Fault.entity? = (s.leftOut o).map some := by
  have tables : (s.soundTables .catalog).filterMap (·.omission? o) = [] := by
    refine List.filterMap_eq_nil_iff.mpr fun t ht => ?_
    rw [← Option.isNone_iff_eq_none, Table.omission?_isNone]
    exact common.storedName_isOk ht
  simp only [fillReport, Report.failures_skipAll, tables, List.nil_append, List.append_nil,
    List.map_append, Relation.map_entity?_omission, map_entity?_entityFaults, leftOut]

end Common

end Schema

/-- A catalog that is created reports a table, a key and a relation for each statement that makes
one, and leaves out the same entities in the same order. -/
theorem CatalogDirectory.create_agrees {d : CatalogDirectory} {s : Schema} {o : Options}
    {store store' : Store} {report : Report} (common : s.Common o)
    (h : store.attempt (d.create s o) = (.ok report, store')) :
    let c := s.compileEntities o
    report.tablesCreated = (c.ofKind .createTable).length ∧
      report.primaryKeysCreated = (c.ofKind .primaryKey).length ∧
      report.relationsCreated = (c.ofKind .foreignKey).length ∧
      ∃ names : List String, report.failures.map Fault.entity? = names.map some ∧
        c.failures.map Fault.entity? = names.map some := by
  obtain ⟨creates, keys, foreignKeys⟩ := Schema.ofKind_compileEntities s o
  have created : s.placedTables o = s.createdTables o :=
    common.placedTables.trans common.createdTables.symm
  obtain rfl := create_report h
  refine ⟨?_, ?_, ?_, s.leftOut o, common.map_entity?_report _, common.map_entity?_compiled⟩
  · rw [creates, ← (s.forall₂_createdTables o).length_eq, ← created, Schema.fillReport,
      Report.skipAll_eq]
  · rw [keys, ← (s.forall₂_keyed o).length_eq, ← created, Schema.fillReport, Report.skipAll_eq]
  · rw [foreignKeys, ← (s.forall₂_createdRelations o).length_eq, common.createdRelations,
      Schema.fillReport, Report.skipAll_eq]

namespace CatalogDirectory

/-- Items and their parts, with a repeated table, a table whose key has no column, and a relation to
that one. -/
def itemSchema : Schema :=
  let id : Column := ⟨"Id", some .int32, none, -1, true⟩
  let up : Column := ⟨"Up", some .int32, none, -1, true⟩
  ⟨"Store", [⟨"Item", [id], some ["Id"]⟩, ⟨"Part No", [id, up], some ["Id"]⟩,
    ⟨"Item", [up], none⟩, ⟨"Lost", [up], some ["Id"]⟩],
    [⟨"Parts", "Item", ["Id"], "Part No", ["Up"]⟩, ⟨"Losses", "Item", ["Id"], "Lost", ["Up"]⟩]⟩

theorem create_agrees_items :
    itemSchema.Common {} ∧ ∃ report store',
      (⟨[], [], .epoch⟩ : Store).attempt ((⟨"."⟩ : CatalogDirectory).create itemSchema {}) =
        (.ok report, store') ∧
      let c := itemSchema.compileEntities {}
      report.tablesCreated = (c.ofKind .createTable).length ∧
        report.primaryKeysCreated = (c.ofKind .primaryKey).length ∧
        report.relationsCreated = (c.ofKind .foreignKey).length ∧
        ∃ names : List String, report.failures.map Fault.entity? = names.map some ∧
          c.failures.map Fault.entity? = names.map some := by
  have common : itemSchema.Common {} := by
    constructor <;> decide +kernel
  have ok : ((⟨[], [], .epoch⟩ : Store).attempt
      ((⟨"."⟩ : CatalogDirectory).create itemSchema {})).1.isOk = true := by
    decide +kernel
  rcases h : (⟨[], [], .epoch⟩ : Store).attempt
    ((⟨"."⟩ : CatalogDirectory).create itemSchema {}) with ⟨_ | report, store'⟩
  · rw [h] at ok
    cases ok
  · exact ⟨common, report, store', rfl, create_agrees common h⟩

end CatalogDirectory

end Tabular
