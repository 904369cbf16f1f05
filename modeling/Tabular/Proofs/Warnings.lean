import Mathlib.Data.List.Flatten
import Mathlib.Data.List.TakeWhile
import Tabular.Proofs.References

/-!
Warnings about types that lose values. A table warns about its columns one by one while they are
defined, up to the first that cannot be defined. So a created table warns about each of its lossy
columns, in order; and a table that is left out on the way has warned of columns that no statement
makes, if it reached any.
-/
namespace Tabular

/-- Leaving elements out of a list changes nothing of what all together give exactly if those
elements give nothing. -/
theorem flatMap_eq_flatMap_filter_iff {α β : Type} {f : α → List β} {p : α → Bool} {xs : List α} :
    xs.flatMap f = (xs.filter p).flatMap f ↔ ∀ x ∈ xs, p x = false → f x = [] := by
  induction xs with
  | nil => simp
  | cons x xs ih =>
    rw [List.forall_mem_cons, List.flatMap_cons]
    cases kept : p x with
    | true =>
      rw [List.filter_cons_of_pos kept, List.flatMap_cons, List.append_right_inj, ih]
      simp
    | false =>
      rw [List.filter_cons_of_neg (by simp [kept])]
      constructor
      · intro same
        -- what is left cannot be longer than what was there
        have shorter := ((List.filter_sublist (p := p) (l := xs)).flatMap f).length_le
        have lengths := congrArg List.length same
        rw [List.length_append] at lengths
        have nothing : f x = [] := List.eq_nil_of_length_eq_zero (by omega)
        rw [nothing, List.nil_append] at same
        exact ⟨fun _ => nothing, ih.mp same⟩
      · rintro ⟨nothing, rest⟩
        rw [nothing rfl, List.nil_append]
        exact ih.mpr rest

namespace Table

variable {t : Table} {o : Options}

def lossWarning? (t : Table) (c : Column) : Option String :=
  ((Engine.sql.mapColumn t c).toOption.bind (·.warning)).map fun loss =>
    s!"{t.name}.{c.name}: {loss}"

/-- The columns that are defined before the table is left out: all of them if it is created, and
none if it gets no name. -/
def reachedColumns (t : Table) (o : Options) : List Column :=
  if (o.qualified t.name).isOk then t.columns.takeWhile fun c => (t.columnDefinition c).isOk
  else []

theorem lossWarning?_of_sqlType {c : Column} {type : SqlType} (h : c.sqlType t = .ok type) :
    t.lossWarning? c = c.sqlLoss?.map fun loss => s!"{t.name}.{c.name}: {loss}" := by
  unfold lossWarning? Engine.mapColumn
  rw [h]
  rfl

theorem fst_columnDefinitions (t : Table) (cs : List Column) :
    (t.columnDefinitions cs).1 =
      (cs.takeWhile fun c => (t.columnDefinition c).isOk).filterMap t.lossWarning? := by
  induction cs with
  | nil => rfl
  | cons c cs ih =>
    rw [List.takeWhile_cons]
    unfold columnDefinitions columnDefinition
    cases chargedTo t.name (Identifier.forServer c.name) with
    | error f => rfl
    | ok name =>
      cases typed : c.sqlType t with
      | error f => rfl
      | ok type =>
        have warning := lossWarning?_of_sqlType typed
        cases defined : t.columnDefinitions cs with
        | mk warnings rest =>
          rw [defined] at ih
          subst ih
          show (c.sqlLoss?.map _).toList ++ _ = List.filterMap t.lossWarning? (c :: _)
          rw [List.filterMap_cons, warning]
          cases c.sqlLoss? <;> rfl

theorem fst_createStatement (t : Table) (o : Options) :
    (t.createStatement o).1 = (t.reachedColumns o).filterMap t.lossWarning? := by
  unfold createStatement reachedColumns
  cases o.qualified t.name with
  | error f => rfl
  | ok name => exact t.fst_columnDefinitions t.columns

theorem reachedColumns_of_created {st : Statement} (h : (t.createStatement o).2 = .ok st) :
    t.reachedColumns o = t.columns := by
  obtain ⟨name, definitions, named, defined, -⟩ := createStatement_eq_ok_iff.mp h
  have all : ∀ c ∈ t.columns, (t.columnDefinition c).isOk = true := by
    intro c hc
    obtain ⟨definition, -, h⟩ := exists_of_mem_of_mapM_eq_ok defined hc
    rw [h]
    rfl
  unfold reachedColumns
  rw [named]
  exact List.takeWhile_eq_self_iff.mpr all

end Table

namespace Schema

theorem warnings_compileEntities (s : Schema) (o : Options) :
    (s.compileEntities o).warnings =
      (s.soundTables .script).flatMap fun t => (t.reachedColumns o).filterMap t.lossWarning? := by
  simp only [compileEntities, tableResults, List.flatMap_map, Table.fst_createStatement]

/-- The warnings are those of the sound tables about the columns that they reached; a created table
reached all of its columns. They are the warnings about the columns of the created tables, one for
each that is lossy, exactly if no table that is left out reached a lossy column. -/
theorem compileEntities_warns_iff (s : Schema) (o : Options) :
    let c := s.compileEntities o
    let created := s.createdTables o
    List.Forall₂ (fun t st => (t.createStatement o).2 = .ok st) created (c.ofKind .createTable) ∧
      (∀ t ∈ created, t.reachedColumns o = t.columns) ∧
      c.warnings = ((s.soundTables .script).flatMap fun t =>
        (t.reachedColumns o).filterMap t.lossWarning?) ∧
      (c.warnings = (created.flatMap fun t => t.columns.filterMap t.lossWarning?) ↔
        ∀ t ∈ s.soundTables .script, t ∉ created →
          ∀ column ∈ t.reachedColumns o, t.lossWarning? column = none) := by
  intro c created
  have reached : ∀ t ∈ created, t.reachedColumns o = t.columns := by
    intro t ht
    obtain ⟨-, st, h⟩ := of_mem_createdTables ht
    exact Table.reachedColumns_of_created h
  have all : c.warnings = _ := s.warnings_compileEntities o
  have statements : List.Forall₂ (fun t st => (t.createStatement o).2 = .ok st) created
      (c.ofKind .createTable) := by
    rw [(s.ofKind_compileEntities o).1]
    exact s.forall₂_createdTables o
  refine ⟨statements, reached, all, ?_⟩
  have made : (created.flatMap fun t => t.columns.filterMap t.lossWarning?) =
      created.flatMap fun t => (t.reachedColumns o).filterMap t.lossWarning? :=
    List.flatMap_congr fun t ht => by rw [reached t ht]
  have sound : created = (s.soundTables .script).filter fun t => (t.createStatement o).2.isOk :=
    s.createdTables_eq_filter o
  rw [all, made, sound, flatMap_eq_flatMap_filter_iff]
  refine forall₂_congr fun t ht => ?_
  rw [List.filterMap_eq_nil_iff, List.mem_filter, not_and, Bool.not_eq_true]
  exact ⟨fun nothing out => nothing (out ht), fun nothing out => nothing fun _ => out⟩

/-- A warning about a column of a table that no statement makes. -/
theorem compileEntities_warns_unmade :
    let s : Schema := ⟨"s", [⟨"t", [⟨"a", some .decimal, none, -1, true⟩,
      ⟨"b", some .charBlob, none, -1, true⟩], none⟩], []⟩
    let c := s.compileEntities {}
    c.statements.length = 0 ∧
      c.warnings = ["t.a: Decimal narrowed to real; precision beyond 7 digits is lost"] ∧
      c.warnings ≠ ((s.createdTables {}).flatMap fun t => t.columns.filterMap t.lossWarning?) := by
  decide +kernel

end Schema

end Tabular
