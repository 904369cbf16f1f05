import Tabular.Proofs.Accounting

/-!
The order of compiled statements. Tables come before primary keys and primary keys before foreign
keys, each in declared order, and what a key refers to is made by a statement in front of it: the
first declaration of a table, with a definition for each column of the key.
-/
namespace Tabular

/-- A column declared by a table, under the name and with the type that a statement gives it. -/
structure Table.Defines (t : Table) (definitions : List ColumnDefinition) (name : String)
    (d : ColumnDefinition) : Prop where
  defined : d ∈ definitions
  declared : ∃ c ∈ t.columns, c.name = name ∧ c.sqlType t = .ok d.type
  safe : Identifier.forServer name = .ok d.name

namespace Schema

/-- The first declaration of a name is created among some statements, under a qualified name and
with a definition for each of its columns. -/
structure Creates (s : Schema) (statements : List Statement) (t : Table) (table : QualifiedName)
    (definitions : List ColumnDefinition) : Prop where
  first : s.table? t.name = some t
  created : ⟨t.name, .createTable table definitions⟩ ∈ statements
  columns : List.Forall₂ (fun c d => t.Defines definitions c.name d) t.columns definitions

/-- What a statement refers to is created by the statements in front of it. -/
inductive Grounded (s : Schema) (front : List Statement) : Statement → Prop where
  | createDatabase {entity : String} {database : Identifier} {overwrite : Bool} :
      Grounded s front ⟨entity, .createDatabase database overwrite⟩
  | createTable {t : Table} {table : QualifiedName} {definitions : List ColumnDefinition}
      (first : s.table? t.name = some t)
      (columns : List.Forall₂ (fun c d => t.Defines definitions c.name d) t.columns definitions) :
      Grounded s front ⟨t.name, .createTable table definitions⟩
  | primaryKey {t : Table} {table : QualifiedName} {definitions : List ColumnDefinition}
      {constraint : Identifier} {columns : List Identifier}
      (creates : s.Creates front t table definitions) (nonempty : columns ≠ [])
      (declared : List.Forall₂ (fun name column => ∃ d, t.Defines definitions name d ∧
        d.name = column ∧ d.type.nullable = false) t.keyColumns columns) :
      Grounded s front ⟨t.name, .primaryKey table constraint columns⟩
  | foreignKey {r : Relation} {child parent : Table} {childName parentName : QualifiedName}
      {childDefinitions parentDefinitions : List ColumnDefinition} {constraint : Identifier}
      {childColumns parentColumns : List Identifier} (related : r ∈ s.relations)
      (ofChild : child.name = r.childTable) (ofParent : parent.name = r.parentTable)
      (createsChild : s.Creates front child childName childDefinitions)
      (createsParent : s.Creates front parent parentName parentDefinitions)
      (nonempty : childColumns ≠ []) (paired : childColumns.length = parentColumns.length)
      (declaredChild : List.Forall₂ (fun name column =>
        ∃ d, child.Defines childDefinitions name d ∧ d.name = column) r.childColumns childColumns)
      (declaredParent : List.Forall₂ (fun name column =>
        ∃ d, parent.Defines parentDefinitions name d ∧ d.name = column)
          r.parentColumns parentColumns) :
      Grounded s front
        ⟨r.name, .foreignKey childName constraint childColumns parentName parentColumns⟩

/-- The passes over a schema: at most one database, and the statements of some tables, of the keys
among them and of some relations, each in declared order. -/
structure InPasses (s : Schema) (o : Options) (database creates keys foreignKeys : List Statement)
    (tables : List Table) (relations : List Relation) : Prop where
  oneDatabase : database.length ≤ 1
  database : ∀ st ∈ database, st.kind = .createDatabase
  tables_sublist : tables.Sublist s.tables
  relations_sublist : relations.Sublist s.relations
  creates : List.Forall₂ (fun t st => st.kind = .createTable ∧ (t.createStatement o).2 = .ok st)
    tables creates
  keys : List.Forall₂ (fun t st => st.kind = .primaryKey ∧ t.primaryKeyStatement o = .ok st)
    (tables.filter (·.hasKey)) keys
  foreignKeys : List.Forall₂
    (fun r st => st.kind = .foreignKey ∧ r.foreignKeyStatement o = .ok st) relations foreignKeys

theorem Creates.mono {s : Schema} {front front' : List Statement} {t : Table}
    {table : QualifiedName} {definitions : List ColumnDefinition}
    (h : s.Creates front t table definitions) (sub : ∀ st ∈ front, st ∈ front') :
    s.Creates front' t table definitions :=
  ⟨h.first, sub _ h.created, h.columns⟩

theorem Grounded.mono {s : Schema} {front front' : List Statement} {st : Statement}
    (h : s.Grounded front st) (sub : ∀ st ∈ front, st ∈ front') : s.Grounded front' st := by
  cases h with
  | createDatabase => exact .createDatabase
  | createTable first columns => exact .createTable first columns
  | primaryKey creates nonempty declared =>
    exact .primaryKey (creates.mono sub) nonempty declared
  | foreignKey related ofChild ofParent child parent nonempty paired declaredChild declaredParent =>
    exact .foreignKey related ofChild ofParent (child.mono sub) (parent.mono sub) nonempty paired
      declaredChild declaredParent

end Schema

/-! ### Definitions of columns -/

theorem forall₂_and_mem {α β : Type} {R : α → β → Prop} {xs : List α} {ys : List β}
    (h : List.Forall₂ R xs ys) : List.Forall₂ (fun x y => R x y ∧ x ∈ xs ∧ y ∈ ys) xs ys := by
  obtain ⟨length, all⟩ := List.forall₂_iff_zip.mp h
  exact List.forall₂_iff_zip.mpr ⟨length, fun hxy => ⟨all hxy, List.of_mem_zip hxy⟩⟩

theorem nullable_of_sqlType {t : Table} {c : Column} {type : SqlType}
    (h : c.sqlType t = .ok type) : type.nullable = c.nullableIn t := by
  obtain ⟨source, -, h⟩ := bind_eq_ok_iff.mp h
  split at h
  · next found hf =>
    obtain rfl := Except.ok.inj h
    obtain ⟨base, -, rfl⟩ := Option.map_eq_some_iff.mp hf
    rfl
  · cases h

namespace Table

theorem forall₂_defines {t : Table} {definitions : List ColumnDefinition}
    (h : t.columns.mapM t.columnDefinition = .ok definitions) :
    List.Forall₂ (fun c d => t.Defines definitions c.name d) t.columns definitions :=
  (forall₂_and_mem (mapM_eq_ok_iff.mp h)).imp fun c _ ⟨hd, hc, mem⟩ =>
    have ⟨safe, typed⟩ := columnDefinition_eq_ok_iff.mp hd
    ⟨mem, ⟨c, hc, rfl, typed⟩, safe⟩

/-- A column of the key never takes null. -/
theorem Defines.nullable_eq_false {t : Table} {definitions : List ColumnDefinition} {name : String}
    {d : ColumnDefinition} (h : t.Defines definitions name d) (key : name ∈ t.keyColumns) :
    d.type.nullable = false := by
  obtain ⟨c, -, rfl, typed⟩ := h.declared
  rw [nullable_of_sqlType typed, Column.nullableIn, Table.isKeyColumn]
  simp [key]

end Table

/-- Names of declared columns stand in a statement as the names of their definitions. -/
theorem Schema.Creates.forall₂_defines {s : Schema} {statements : List Statement} {t : Table}
    {table : QualifiedName} {definitions : List ColumnDefinition} {names : List String}
    {columns : List Identifier} (h : s.Creates statements t table definitions)
    (safe : serverNames names = .ok columns)
    (declared : ∀ name ∈ names, ∃ c ∈ t.columns, c.name = name) :
    List.Forall₂ (fun name column => ∃ d, t.Defines definitions name d ∧ d.name = column)
      names columns := by
  refine (forall₂_and_mem (mapM_eq_ok_iff.mp safe)).imp fun name column ⟨hc, hn, _⟩ => ?_
  obtain ⟨c, mem, rfl⟩ := declared name hn
  obtain ⟨d, -, hd⟩ := exists_of_forall₂_left h.columns mem
  exact ⟨d, hd, Except.ok.inj (hd.safe.symm.trans hc)⟩

/-! ### The passes -/

theorem sound_sublist {α δ : Type} (xs : List α) (defects : List (Option δ)) :
    (Schema.sound xs defects).Sublist xs := by
  induction xs generalizing defects with
  | nil => exact .slnil
  | cons x xs ih =>
    match defects with
    | [] => exact List.nil_sublist _
    | some d :: defects => simpa using (ih defects).cons x
    | none :: defects => simpa using (ih defects).cons_cons x

/-- The results of the elements that have one, element by element. -/
theorem forall₂_succeeded {α β ε : Type} (f : α → Except ε β) (xs : List α) :
    List.Forall₂ (fun x y => f x = .ok y) (xs.filter fun x => (f x).isOk)
      (succeeded (xs.map f)) := by
  induction xs with
  | nil => exact .nil
  | cons x xs ih =>
    cases h : f x with
    | error e => simpa [h, Except.isOk, Except.toBool] using ih
    | ok y => simpa [h, Except.isOk, Except.toBool] using ih

namespace Schema

def createdRelations (s : Schema) (o : Options) : List Relation :=
  (s.soundRelations .script).filter fun r =>
    (r.compile o ((s.createdTables o).map (·.name))).isOk

theorem createdTables_sublist (s : Schema) (o : Options) :
    (s.createdTables o).Sublist s.tables := by
  rw [createdTables_eq_filter]
  exact List.filter_sublist.trans (sound_sublist _ _)

theorem createdRelations_sublist (s : Schema) (o : Options) :
    (s.createdRelations o).Sublist s.relations :=
  List.filter_sublist.trans (sound_sublist _ _)

theorem forall₂_createdTables (s : Schema) (o : Options) :
    List.Forall₂ (fun t st => (t.createStatement o).2 = .ok st) (s.createdTables o)
      (succeeded ((s.tableResults o).map (·.2.2))) := by
  rw [createdTables_eq_filter, tableResults, List.map_map]
  exact forall₂_succeeded (fun t : Table => (t.createStatement o).2) _

theorem forall₂_keyed (s : Schema) (o : Options) :
    List.Forall₂ (fun t st => t.primaryKeyStatement o = .ok st)
      ((s.createdTables o).filter (·.hasKey)) (succeeded (s.keyResults o)) := by
  have every : ((s.createdTables o).filter (·.hasKey)).filter
      (fun t => (chargedTo t.name (t.primaryKeyStatement o)).isOk) =
        (s.createdTables o).filter (·.hasKey) := by
    refine List.filter_eq_self.mpr fun t ht => ?_
    obtain ⟨key, hkey, -⟩ := keyResult_of_created (List.mem_of_mem_filter ht)
    rw [hkey]
    rfl
  have results := forall₂_succeeded (fun t => chargedTo t.name (t.primaryKeyStatement o))
    ((s.createdTables o).filter (·.hasKey))
  rw [every] at results
  exact results.imp fun _ _ h => chargedTo_eq_ok_iff.mp h

end Schema

theorem Table.primaryKeyStatement_eq_ok_iff {t : Table} {o : Options} {st : Statement} :
    t.primaryKeyStatement o = .ok st ↔
      ∃ table constraint columns, o.qualified t.name = .ok table ∧
        Identifier.forServer ("PK_" ++ o.tablePrefix ++ t.name) = .ok constraint ∧
        serverNames t.keyColumns = .ok columns ∧
        st = ⟨t.name, .primaryKey table constraint columns⟩ := by
  unfold primaryKeyStatement
  simp only [bind_eq_ok_iff]
  constructor
  · rintro ⟨table, ht, constraint, hc, columns, hcs, h⟩
    exact ⟨table, constraint, columns, ht, hc, hcs, (Except.ok.inj h).symm⟩
  · rintro ⟨table, constraint, columns, ht, hc, hcs, rfl⟩
    exact ⟨table, ht, constraint, hc, columns, hcs, rfl⟩

theorem Relation.compile_eq_ok_iff {r : Relation} {o : Options} {created : List String}
    {st : Statement} :
    r.compile o created = .ok st ↔
      r.parentTable ∈ created ∧ r.childTable ∈ created ∧ r.foreignKeyStatement o = .ok st := by
  unfold compile
  split
  · next missing hm =>
    have absent := List.find?_some hm
    have side := List.mem_of_find?_eq_some hm
    refine ⟨fun h => (by cases h), fun ⟨parent, child, _⟩ => ?_⟩
    rcases List.mem_cons.mp side with rfl | side
    · simp [parent] at absent
    · obtain rfl := List.mem_singleton.mp side
      simp [child] at absent
  · next hm =>
    have both : r.parentTable ∈ created ∧ r.childTable ∈ created := by
      simpa [List.find?_eq_none] using hm
    rw [chargedTo_eq_ok_iff]
    exact ⟨fun h => ⟨both.1, both.2, h⟩, fun h => h.2.2⟩

namespace Schema

theorem forall₂_createdRelations (s : Schema) (o : Options) :
    List.Forall₂ (fun r st => r.compile o ((s.createdTables o).map (·.name)) = .ok st)
      (s.createdRelations o) (succeeded (s.relationResults o)) :=
  forall₂_succeeded _ _

/-- The statement in front of all others, if the database is to be made. -/
theorem exists_compile_statements (s : Schema) (o : Options) :
    ∃ database, (s.compile o).statements = database ++ (s.compileEntities o).statements ∧
      database.length ≤ 1 ∧ ∀ st ∈ database, st.kind = .createDatabase := by
  unfold compile
  split
  · exact ⟨[], rfl, by simp, by simp⟩
  split
  · next st h =>
    refine ⟨[st], rfl, by simp, fun st' hst' => ?_⟩
    obtain rfl := List.mem_singleton.mp hst'
    unfold createDatabaseStatement at h
    split at h
    · cases h
    · obtain ⟨_, -, h⟩ := bind_eq_ok_iff.mp h
      cases h
      rfl
  · exact ⟨[], rfl, by simp, by simp⟩

theorem inPasses {database : List Statement} (s : Schema) (o : Options)
    (one : database.length ≤ 1) (kind : ∀ st ∈ database, st.kind = .createDatabase) :
    s.InPasses o database (succeeded ((s.tableResults o).map (·.2.2))) (succeeded (s.keyResults o))
      (succeeded (s.relationResults o)) (s.createdTables o) (s.createdRelations o) := by
  refine ⟨one, kind, s.createdTables_sublist o, s.createdRelations_sublist o, ?creates, ?keys,
    ?foreignKeys⟩
  case creates =>
    refine (s.forall₂_createdTables o).imp fun t st h => ⟨?_, h⟩
    obtain ⟨_, _, -, -, rfl⟩ := Table.createStatement_eq_ok_iff.mp h
    rfl
  case keys =>
    refine (s.forall₂_keyed o).imp fun t st h => ⟨?_, h⟩
    obtain ⟨_, _, _, -, -, -, rfl⟩ := Table.primaryKeyStatement_eq_ok_iff.mp h
    rfl
  case foreignKeys =>
    refine (s.forall₂_createdRelations o).imp fun r st h => ?_
    obtain ⟨-, -, h⟩ := Relation.compile_eq_ok_iff.mp h
    refine ⟨?_, h⟩
    obtain ⟨_, _, _, _, _, -, -, -, -, -, rfl⟩ := Relation.foreignKeyStatement_eq_ok_iff.mp h
    rfl

/-! ### What keys refer to -/

/-- A created table is the first of its name, and all its columns are defined. -/
theorem exists_creates {s : Schema} {o : Options} {t : Table} (ht : t ∈ s.createdTables o) :
    ∃ table definitions, o.qualified t.name = .ok table ∧
      s.Creates (succeeded ((s.tableResults o).map (·.2.2))) t table definitions := by
  obtain ⟨sound, -⟩ := of_mem_createdTables ht
  obtain ⟨-, -, first⟩ := of_mem_soundTables sound
  obtain ⟨st, hst, created⟩ := exists_of_forall₂_left (s.forall₂_createdTables o) ht
  obtain ⟨table, definitions, named, columns, rfl⟩ := Table.createStatement_eq_ok_iff.mp created
  exact ⟨table, definitions, named, first, hst, Table.forall₂_defines columns⟩

theorem grounded_createDatabase {s : Schema} {st : Statement} (h : st.kind = .createDatabase) :
    s.Grounded [] st := by
  obtain ⟨entity, command⟩ := st
  cases command with
  | createDatabase => exact .createDatabase
  | useDatabase | createTable | primaryKey | foreignKey => cases h

theorem grounded_createTable {s : Schema} {o : Options} {st : Statement}
    (h : st ∈ succeeded ((s.tableResults o).map (·.2.2))) (front : List Statement) :
    s.Grounded front st := by
  obtain ⟨t, ht, created⟩ := exists_of_forall₂_right (s.forall₂_createdTables o) h
  obtain ⟨-, -, first⟩ := of_mem_soundTables (of_mem_createdTables ht).1
  obtain ⟨table, definitions, -, columns, rfl⟩ := Table.createStatement_eq_ok_iff.mp created
  exact .createTable first (Table.forall₂_defines columns)

theorem grounded_primaryKey {s : Schema} {o : Options} {st : Statement}
    (h : st ∈ succeeded (s.keyResults o)) :
    s.Grounded (succeeded ((s.tableResults o).map (·.2.2))) st := by
  obtain ⟨t, ht, key⟩ := exists_of_forall₂_right (s.forall₂_keyed o) h
  obtain ⟨created, keyed⟩ := List.mem_filter.mp ht
  obtain ⟨-, wf, -⟩ := of_mem_soundTables (of_mem_createdTables created).1
  obtain ⟨table, constraint, columns, named, -, names, rfl⟩ :=
    Table.primaryKeyStatement_eq_ok_iff.mp key
  obtain ⟨table', definitions, named', creates⟩ := exists_creates created
  obtain rfl : table' = table := Except.ok.inj (named'.symm.trans named)
  have declared := creates.forall₂_defines names (Table.keyColumns_subset wf)
  refine .primaryKey creates ?_ ?_
  · rintro rfl
    have none : t.keyColumns = [] := List.forall₂_nil_right_iff.mp (mapM_eq_ok_iff.mp names)
    simp [Table.hasKey, none] at keyed
  · refine (forall₂_and_mem declared).imp fun name column ⟨⟨d, hd, same⟩, hn, _⟩ => ?_
    exact ⟨d, hd, same, hd.nullable_eq_false hn⟩

/-- The table that a relation was checked against is the one that was created. -/
theorem exists_creates_of_hasColumns {s : Schema} {o : Options} {name : String}
    {names : List String} {table : QualifiedName} {columns : List Identifier}
    (made : name ∈ (s.createdTables o).map (·.name)) (checked : s.HasColumns name names)
    (named : o.qualified name = .ok table) (safe : serverNames names = .ok columns) :
    ∃ t definitions, t.name = name ∧
      s.Creates (succeeded ((s.tableResults o).map (·.2.2))) t table definitions ∧
      List.Forall₂ (fun name column => ∃ d, t.Defines definitions name d ∧ d.name = column)
        names columns := by
  obtain ⟨t, ht, rfl⟩ := List.mem_map.mp made
  obtain ⟨table', definitions, named', creates⟩ := exists_creates ht
  obtain rfl : table' = table := Except.ok.inj (named'.symm.trans named)
  obtain ⟨u, first, declared⟩ := checked
  obtain rfl : t = u := Option.some.inj (creates.first.symm.trans first)
  exact ⟨t, definitions, rfl, creates, creates.forall₂_defines safe declared⟩

theorem grounded_foreignKey {s : Schema} {o : Options} {st : Statement}
    (h : st ∈ succeeded (s.relationResults o)) :
    s.Grounded (succeeded ((s.tableResults o).map (·.2.2))) st := by
  obtain ⟨r, hr, compiled⟩ := exists_of_forall₂_right (s.forall₂_createdRelations o) h
  obtain ⟨parentMade, childMade, compiled⟩ := Relation.compile_eq_ok_iff.mp compiled
  have wf := of_mem_soundRelations (List.mem_of_mem_filter hr)
  obtain ⟨child, parent, constraint, childColumns, parentColumns, childNamed, parentNamed, -,
    childNames, parentNames, rfl⟩ := Relation.foreignKeyStatement_eq_ok_iff.mp compiled
  obtain ⟨_, _, ofChild, createsChild, declaredChild⟩ :=
    exists_creates_of_hasColumns childMade wf.child childNamed childNames
  obtain ⟨_, _, ofParent, createsParent, declaredParent⟩ :=
    exists_creates_of_hasColumns parentMade wf.parent parentNamed parentNames
  have children := declaredChild.length_eq
  have parents := declaredParent.length_eq
  have paired := wf.paired
  refine .foreignKey (List.mem_of_mem_filter hr |> (sound_sublist _ _).subset) ofChild ofParent
    createsChild createsParent ?_ (by omega) declaredChild declaredParent
  rintro rfl
  exact wf.nonempty (List.length_eq_zero_iff.mp (by simpa [← paired] using children))

/-! ### Every statement in its place -/

def GroundedAfter (s : Schema) (front ss : List Statement) : Prop :=
  ∀ before st after, ss = before ++ st :: after → s.Grounded (front ++ before) st

theorem groundedAfter_of_forall {s : Schema} {front ss : List Statement}
    (h : ∀ st ∈ ss, s.Grounded front st) : s.GroundedAfter front ss := by
  rintro before st after rfl
  exact (h st (by simp)).mono fun _ hst => List.mem_append_left _ hst

theorem GroundedAfter.append {s : Schema} {front ss tt : List Statement}
    (hs : s.GroundedAfter front ss) (ht : s.GroundedAfter (front ++ ss) tt) :
    s.GroundedAfter front (ss ++ tt) := by
  intro before st after split
  rcases List.append_eq_append_iff.mp split with ⟨rest, rfl, hrest⟩ | ⟨rest, rfl, hrest⟩
  · rw [← List.append_assoc]
    exact ht rest st after hrest
  · cases rest with
    | nil =>
      have grounded := ht [] st after hrest.symm
      simpa using grounded
    | cons first rest =>
      obtain ⟨rfl, rfl⟩ := List.cons.inj hrest
      exact hs before st rest rfl

/-- The statements of a schema stand in four passes, each in declared order, and each statement
refers to nothing but what the first declarations of tables define and statements in front of it
have created. -/
theorem compile_grounded (s : Schema) (o : Options) :
    ∃ database creates keys foreignKeys tables relations,
      (s.compile o).statements = database ++ (creates ++ keys ++ foreignKeys) ∧
      s.InPasses o database creates keys foreignKeys tables relations ∧
      ∀ front st back, (s.compile o).statements = front ++ st :: back → s.Grounded front st := by
  obtain ⟨database, statements, one, kind⟩ := s.exists_compile_statements o
  refine ⟨database, _, _, _, _, _, statements, s.inPasses o one kind, ?_⟩
  rw [statements]
  have tables : ∀ st ∈ succeeded ((s.tableResults o).map (·.2.2)), s.Grounded database st :=
    fun st h => grounded_createTable h database
  have keys : ∀ st ∈ succeeded (s.keyResults o),
      s.Grounded (database ++ succeeded ((s.tableResults o).map (·.2.2))) st :=
    fun st h => (grounded_primaryKey h).mono fun _ => List.mem_append_right _
  have foreignKeys : ∀ st ∈ succeeded (s.relationResults o), s.Grounded
      (database ++ (succeeded ((s.tableResults o).map (·.2.2)) ++ succeeded (s.keyResults o))) st :=
    fun st h => (grounded_foreignKey h).mono fun _ hst =>
      List.mem_append_right _ (List.mem_append_left _ hst)
  have entities : s.GroundedAfter database (s.compileEntities o).statements :=
    ((groundedAfter_of_forall tables).append (groundedAfter_of_forall keys)).append
      (groundedAfter_of_forall foreignKeys)
  have all : s.GroundedAfter [] (database ++ (s.compileEntities o).statements) :=
    (groundedAfter_of_forall fun st h => grounded_createDatabase (kind st h)).append entities
  exact fun front st back split => by simpa using all front st back split

/-- Orders with a key, their lines behind a relation, and a table that is left out. -/
theorem compile_grounded_orders :
    let id : Column := ⟨"Id", some .int32, none, -1, false⟩
    let s : Schema := ⟨"shop",
      [⟨"Order", [id], some ["Id"]⟩, ⟨"Line", [⟨"Order", some .int32, none, -1, true⟩], none⟩,
        ⟨"Note", [⟨"text", some .charBlob, none, -1, true⟩], none⟩],
      [⟨"Lines", "Order", ["Id"], "Line", ["Order"]⟩]⟩
    let ss := (s.compile { tablePrefix := "my " }).statements
    ss.map (·.kind) = [.createDatabase, .createTable, .createTable, .primaryKey, .foreignKey] ∧
      ∀ i (h : i < ss.length), s.Grounded (ss.take i) ss[i] := by
  intro id s ss
  obtain ⟨_, _, _, _, _, _, -, -, grounded⟩ := compile_grounded s { tablePrefix := "my " }
  refine ⟨by decide +kernel, fun i h => grounded _ _ (ss.drop (i + 1)) ?_⟩
  rw [List.getElem_cons_drop, List.take_append_drop]

end Schema

end Tabular
