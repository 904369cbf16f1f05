import Tabular.Proofs.Naming
import Tabular.Proofs.Outcomes
import Tabular.Proofs.Soundness

/-!
What the statement of a table, a key or a relation is made of, and what may stand in its way. Every
fault on the way is charged to the table or the relation, and a created table with a key always
gets its key.
-/
namespace Tabular

namespace Fault

def entity? : Fault → Option String
  | argument entity _ => some entity
  | unsupportedType table .. => some table
  | _ => none

theorem IsArgument.entity?_eq {f : Fault} {name : String} (h : f.IsArgument name) :
    f.entity? = some name := by
  obtain ⟨message, rfl⟩ := h
  rfl

end Fault

theorem isArgument_of_chargedTo {α : Type} {entity : String} {r : Except Fault α} {f : Fault}
    (hr : ∀ g, r = .error g → ∃ name, g.IsArgument name) (h : chargedTo entity r = .error f) :
    f.IsArgument entity := by
  cases r with
  | ok a => cases h
  | error g =>
    obtain rfl : g.forEntity entity = f := Except.error.inj h
    obtain ⟨name, harg⟩ := hr g rfl
    exact Fault.forEntity_isArgument harg entity

theorem chargedTo_eq_ok_iff {α : Type} {entity : String} {r : Except Fault α} {a : α} :
    chargedTo entity r = .ok a ↔ r = .ok a := by
  cases r <;> simp [chargedTo, Except.mapError]

/-! ### Names of statements -/

namespace QualifiedName

theorem ofOwner_isArgument {owner : String} {table : Identifier} {f : Fault}
    (h : ofOwner owner table = .error f) : ∃ name, f.IsArgument name := by
  unfold ofOwner at h
  split at h
  · cases h
  · rcases bind_eq_error_iff.mp h with ho | ⟨id, -, h⟩
    · exact Identifier.forServer_isArgument ho
    · cases h

end QualifiedName

theorem Options.qualified_isArgument {o : Options} {table : String} {f : Fault}
    (h : o.qualified table = .error f) : ∃ name, f.IsArgument name := by
  rcases bind_eq_error_iff.mp h with hn | ⟨name, -, ho⟩
  · exact Identifier.forServer_isArgument hn
  · exact QualifiedName.ofOwner_isArgument ho

theorem serverNames_isArgument {names : List String} {f : Fault}
    (h : serverNames names = .error f) : ∃ name, f.IsArgument name := by
  obtain ⟨name, -, hn⟩ := exists_of_mapM_eq_error h
  exact Identifier.forServer_isArgument hn

/-! ### Tables -/

namespace Table

def Charged (t : Table) (f : Fault) : Prop :=
  f.IsArgument t.name ∨
    ∃ column typeName engineName, f = .unsupportedType t.name column typeName engineName

inductive Outcome (t : Table) : Except Fault Statement → Prop where
  | created {st : Statement} (kind : st.kind = .createTable) (entity : st.entity = t.name) :
      Outcome t (.ok st)
  | failed {f : Fault} (charged : t.Charged f) : Outcome t (.error f)

theorem Charged.entity?_eq {t : Table} {f : Fault} (h : t.Charged f) :
    f.entity? = some t.name := by
  rcases h with h | ⟨_, _, _, rfl⟩
  · exact h.entity?_eq
  · rfl

theorem sqlType_charged {t : Table} {c : Column} {f : Fault}
    (h : c.sqlType t = .error f) : t.Charged f := by
  rcases bind_eq_error_iff.mp h with hr | ⟨type, -, h⟩
  · unfold Column.resolvedType at hr
    split at hr
    · cases hr
    · exact .inl ⟨_, (Except.error.inj hr).symm⟩
  · split at h
    · cases h
    · exact .inr ⟨_, _, _, (Except.error.inj h).symm⟩

def columnDefinition (t : Table) (c : Column) : Except Fault ColumnDefinition := do
  return ⟨← chargedTo t.name (Identifier.forServer c.name), ← c.sqlType t⟩

theorem columnDefinition_eq_ok_iff {t : Table} {c : Column} {d : ColumnDefinition} :
    t.columnDefinition c = .ok d ↔
      Identifier.forServer c.name = .ok d.name ∧ c.sqlType t = .ok d.type := by
  unfold columnDefinition
  rw [bind_eq_ok_iff]
  simp only [chargedTo_eq_ok_iff, bind_eq_ok_iff]
  constructor
  · rintro ⟨name, hn, type, ht, h⟩
    obtain rfl : ⟨name, type⟩ = d := Except.ok.inj h
    exact ⟨hn, ht⟩
  · rintro ⟨hn, ht⟩
    exact ⟨_, hn, _, ht, rfl⟩

theorem columnDefinition_charged {t : Table} {c : Column} {f : Fault}
    (h : t.columnDefinition c = .error f) : t.Charged f := by
  rcases bind_eq_error_iff.mp h with hn | ⟨name, -, h⟩
  · exact .inl (isArgument_of_chargedTo (fun _ => Identifier.forServer_isArgument) hn)
  · rcases bind_eq_error_iff.mp h with ht | ⟨type, -, h⟩
    · exact sqlType_charged ht
    · cases h

/-- The warnings apart, the columns are defined one by one. -/
theorem snd_columnDefinitions (t : Table) (cs : List Column) :
    (t.columnDefinitions cs).2 = cs.mapM t.columnDefinition := by
  induction cs with
  | nil => rfl
  | cons c cs ih =>
    unfold columnDefinitions
    rw [List.mapM_cons, ← ih]
    unfold columnDefinition
    cases chargedTo t.name (Identifier.forServer c.name) with
    | error f => rfl
    | ok name =>
      cases c.sqlType t with
      | error f => rfl
      | ok type => cases h : t.columnDefinitions cs with | mk warnings rest => cases rest <;> rfl

theorem snd_createStatement (t : Table) (o : Options) :
    (t.createStatement o).2 = do
      let name ← chargedTo t.name (o.qualified t.name)
      let columns ← t.columns.mapM t.columnDefinition
      return ⟨t.name, .createTable name columns⟩ := by
  rw [← snd_columnDefinitions]
  unfold createStatement
  cases chargedTo t.name (o.qualified t.name) with
  | error f => rfl
  | ok name =>
    cases h : t.columnDefinitions t.columns with | mk warnings columns => cases columns <;> rfl

theorem createStatement_eq_ok_iff {t : Table} {o : Options} {st : Statement} :
    (t.createStatement o).2 = .ok st ↔
      ∃ name columns, o.qualified t.name = .ok name ∧
        t.columns.mapM t.columnDefinition = .ok columns ∧
        st = ⟨t.name, .createTable name columns⟩ := by
  rw [snd_createStatement, bind_eq_ok_iff]
  simp only [chargedTo_eq_ok_iff, bind_eq_ok_iff]
  constructor
  · rintro ⟨name, hn, columns, hc, h⟩
    exact ⟨name, columns, hn, hc, (Except.ok.inj h).symm⟩
  · rintro ⟨name, columns, hn, hc, rfl⟩
    exact ⟨name, hn, columns, hc, rfl⟩

theorem createStatement_outcome (t : Table) (o : Options) :
    t.Outcome (t.createStatement o).2 := by
  cases h : (t.createStatement o).2 with
  | ok st =>
    obtain ⟨name, columns, -, -, rfl⟩ := createStatement_eq_ok_iff.mp h
    exact .created rfl rfl
  | error f =>
    refine .failed ?_
    rw [snd_createStatement] at h
    rcases bind_eq_error_iff.mp h with hn | ⟨name, -, h⟩
    · exact .inl (isArgument_of_chargedTo (fun _ => Options.qualified_isArgument) hn)
    · rcases bind_eq_error_iff.mp h with hc | ⟨columns, -, h⟩
      · obtain ⟨c, -, hc⟩ := exists_of_mapM_eq_error hc
        exact columnDefinition_charged hc
      · cases h

/-- The names of a created table's columns are all safe. -/
theorem forServer_of_created {t : Table} {o : Options} {st : Statement}
    (h : (t.createStatement o).2 = .ok st) {name : String} (hc : ∃ c ∈ t.columns, c.name = name) :
    ∃ id, Identifier.forServer name = .ok id := by
  obtain ⟨_, columns, -, hcs, -⟩ := createStatement_eq_ok_iff.mp h
  obtain ⟨c, hm, rfl⟩ := hc
  obtain ⟨d, -, hd⟩ := exists_of_mem_of_mapM_eq_ok hcs hm
  exact ⟨d.name, (columnDefinition_eq_ok_iff.mp hd).1⟩

theorem keyColumns_subset {t : Table} {mode : ValidationMode} (wf : t.WellFormed mode) :
    ∀ name ∈ t.keyColumns, ∃ c ∈ t.columns, c.name = name := by
  intro name hm
  unfold keyColumns at hm
  cases hk : t.primaryKey with
  | none => simp [hk] at hm
  | some names => exact (wf.key names hk).2 name (by simpa [hk] using hm)

/-- The name of a key is the name of its table behind a prefix, and no less safe. -/
theorem forServer_keyName {x : String} {id : Identifier} (h : Identifier.forServer x = .ok id) :
    ∃ key, Identifier.forServer ("PK_" ++ x) = .ok key := by
  obtain ⟨-, hn⟩ := Identifier.forServer_isOk_iff.mp ⟨id, h⟩
  have text : "PK_" ++ x = String.ofList ('P' :: 'K' :: '_' :: x.toList) := by
    apply String.toList_injective
    simp
  rw [text]
  exact Identifier.forServer_cons (by decide) (by decide) (by simpa using hn)

/-- Once a table is created its key is, too. -/
theorem primaryKeyStatement_of_created {t : Table} {mode : ValidationMode} {o : Options}
    {st : Statement} (wf : t.WellFormed mode) (h : (t.createStatement o).2 = .ok st) :
    ∃ key, t.primaryKeyStatement o = .ok key ∧ key.kind = .primaryKey ∧ key.entity = t.name := by
  obtain ⟨name, _, hq, -, -⟩ := createStatement_eq_ok_iff.mp h
  obtain ⟨table, ht, -⟩ := bind_eq_ok_iff.mp hq
  obtain ⟨constraint, hk⟩ := forServer_keyName ht
  obtain ⟨ids, hids⟩ := exists_mapM_eq_ok fun n hn =>
    forServer_of_created h (keyColumns_subset wf n hn)
  refine ⟨⟨t.name, .primaryKey name constraint ids⟩, ?_, rfl, rfl⟩
  unfold primaryKeyStatement serverNames
  rw [String.append_assoc, hq, hk, hids]
  rfl

end Table

/-! ### Relations -/

namespace Relation

inductive Outcome (r : Relation) : Except Fault Statement → Prop where
  | created {st : Statement} (kind : st.kind = .foreignKey) (entity : st.entity = r.name) :
      Outcome r (.ok st)
  | failed {f : Fault} (charged : f.IsArgument r.name) : Outcome r (.error f)

theorem foreignKeyStatement_eq_ok_iff {r : Relation} {o : Options} {st : Statement} :
    r.foreignKeyStatement o = .ok st ↔
      ∃ child parent constraint childColumns parentColumns,
        o.qualified r.childTable = .ok child ∧ o.qualified r.parentTable = .ok parent ∧
        Identifier.forServer r.name = .ok constraint ∧
        serverNames r.childColumns = .ok childColumns ∧
        serverNames r.parentColumns = .ok parentColumns ∧
        st = ⟨r.name, .foreignKey child constraint childColumns parent parentColumns⟩ := by
  unfold foreignKeyStatement
  simp only [bind_eq_ok_iff]
  constructor
  · rintro ⟨child, hc, parent, hp, constraint, hn, childColumns, hcc, parentColumns, hpc, h⟩
    exact ⟨child, parent, constraint, childColumns, parentColumns, hc, hp, hn, hcc, hpc,
      (Except.ok.inj h).symm⟩
  · rintro ⟨child, parent, constraint, childColumns, parentColumns, hc, hp, hn, hcc, hpc, rfl⟩
    exact ⟨child, hc, parent, hp, constraint, hn, childColumns, hcc, parentColumns, hpc, rfl⟩

theorem foreignKeyStatement_isArgument {r : Relation} {o : Options} {f : Fault}
    (h : r.foreignKeyStatement o = .error f) : ∃ name, f.IsArgument name := by
  unfold foreignKeyStatement at h
  rcases bind_eq_error_iff.mp h with h | ⟨_, -, h⟩
  · exact Options.qualified_isArgument h
  rcases bind_eq_error_iff.mp h with h | ⟨_, -, h⟩
  · exact Options.qualified_isArgument h
  rcases bind_eq_error_iff.mp h with h | ⟨_, -, h⟩
  · exact Identifier.forServer_isArgument h
  rcases bind_eq_error_iff.mp h with h | ⟨_, -, h⟩
  · exact serverNames_isArgument h
  rcases bind_eq_error_iff.mp h with h | ⟨_, -, h⟩
  · exact serverNames_isArgument h
  · cases h

theorem compile_outcome (r : Relation) (o : Options) (created : List String) :
    r.Outcome (r.compile o created) := by
  unfold compile
  split
  · exact .failed ⟨_, rfl⟩
  · cases h : chargedTo r.name (r.foreignKeyStatement o) with
    | error f =>
      exact .failed (isArgument_of_chargedTo (fun _ => foreignKeyStatement_isArgument) h)
    | ok st =>
      obtain ⟨_, _, _, _, _, -, -, -, -, -, rfl⟩ :=
        foreignKeyStatement_eq_ok_iff.mp (chargedTo_eq_ok_iff.mp h)
      exact .created rfl rfl

end Relation

end Tabular
