import Tabular.Proofs.Templates
import Tabular.Proofs.Accounting

/-!
No name becomes SQL. Every statement that is compiled lexes to its end, its tokens apart from the
contents of names and texts are given by the shape of the statement, and the contents are the
declared names after they are made safe.
-/
namespace Tabular

open SqlText
open SqlText.Piece (code name text)

namespace Identifier

def IsBracketed (id : Identifier) : Prop := id.quoted = String.ofList (bracket id.bare.toList)

theorem isBracketed_of_forServer {name : String} {id : Identifier} (h : forServer name = .ok id) :
    id.IsBracketed := by
  rw [forServer_eq] at h
  cases hv : validate (String.ofList (serverText name)) with
  | error f => rw [hv] at h; cases h
  | ok _ =>
    rw [hv] at h
    obtain rfl := Except.ok.inj h
    simp [IsBracketed]

theorem toList_quoted {id : Identifier} (h : id.IsBracketed) :
    id.quoted.toList = Piece.render (.name id.bare) := by
  rw [h, String.toList_ofList]
  rfl

end Identifier

namespace SqlText

theorem render_joined (sep : String) {ids : List Identifier} (h : ∀ id ∈ ids, id.IsBracketed) :
    (joined sep (ids.map (·.bare))).flatMap Piece.render =
      (String.intercalate sep (ids.map (·.quoted))).toList := by
  rw [joined, flatMap_intercalate, String.toList_intercalate, List.map_map, List.map_map,
    List.map_map]
  congr 1
  · simp [Piece.render]
  · refine List.map_congr_left fun id hid => ?_
    simp [Identifier.toList_quoted (h id hid)]

end SqlText

namespace QualifiedName

def identifiers (q : QualifiedName) : List Identifier := q.owner.toList ++ [q.table]

def names (q : QualifiedName) : List String := q.identifiers.map (·.bare)

theorem toText_eq_intercalate (q : QualifiedName) :
    q.toText = String.intercalate "." (q.identifiers.map (·.quoted)) := by
  unfold toText identifiers
  cases q.owner with
  | none => simp
  | some o => simp [String.intercalate_cons_cons]

theorem toList_toText {q : QualifiedName} (h : ∀ id ∈ q.identifiers, id.IsBracketed) :
    q.toText.toList = (joined "." q.names).flatMap Piece.render := by
  rw [toText_eq_intercalate, names, render_joined "." h]

theorem toText_eq_qualifiedText {q : QualifiedName} (h : ∀ id ∈ q.identifiers, id.IsBracketed) :
    q.toText = qualifiedText q.names := by
  rw [qualifiedText, ← toList_toText h, String.ofList_toList]

end QualifiedName

namespace Command

/-- The names of a command in the order in which its text names them. -/
def identifiers : Command → List Identifier
  | createDatabase database overwrite => List.replicate (if overwrite then 3 else 1) database
  | useDatabase database => [database]
  | createTable table columns =>
    table.identifiers ++ table.identifiers ++ columns.map (·.name)
  | primaryKey table constraint columns => table.identifiers ++ constraint :: columns
  | foreignKey child constraint childColumns parent parentColumns =>
    child.identifiers ++ constraint :: childColumns ++ parent.identifiers ++ parentColumns

def pieces : Command → List Piece
  | createDatabase database overwrite => createDatabasePieces overwrite database.bare
  | useDatabase database => useDatabasePieces database.bare
  | createTable table columns =>
    createTablePieces table.names (columns.map fun c => (c.name.bare, c.type))
  | primaryKey table constraint columns =>
    primaryKeyPieces table.names constraint.bare (columns.map (·.bare))
  | foreignKey child constraint childColumns parent parentColumns =>
    foreignKeyPieces child.names constraint.bare (childColumns.map (·.bare)) parent.names
      (parentColumns.map (·.bare))

theorem render_createDatabase {database : Identifier} (h : database.IsBracketed)
    (overwrite : Bool) :
    (SqlText.createDatabase database overwrite).toList =
      (createDatabasePieces overwrite database.bare).flatMap Piece.render := by
  cases overwrite <;>
    simp [SqlText.createDatabase, createDatabasePieces, Piece.render, Identifier.escapeLiteral,
      Identifier.toList_quoted h]

def dropKeysText : String :=
  "DECLARE @drop_fk nvarchar(max) = N'';\n" ++
  "SELECT @drop_fk += N'ALTER TABLE ' + QUOTENAME(OBJECT_SCHEMA_NAME(fk.parent_object_id))" ++
  " + N'.' + QUOTENAME(OBJECT_NAME(fk.parent_object_id)) + N' DROP CONSTRAINT '" ++
  " + QUOTENAME(fk.name) + N';'\n" ++
  "FROM sys.foreign_keys fk WHERE fk.referenced_object_id = OBJECT_ID(N'"

theorem toList_dropKeysText :
    dropKeysText.toList = dropKeysPieces.flatMap Piece.render ++ ['N', '\''] := by
  unfold dropKeysText dropKeysPieces
  simp only [String.toList_append, List.flatMap_cons, List.flatMap_nil, Piece.render]
  repeat rw [String.toList_ofList]
  decide +kernel

theorem createTable_eq (table : String) (definitions : List String) :
    SqlText.createTable table definitions =
      let literal := Identifier.escapeLiteral table
      dropKeysText ++ literal ++ "', N'U');\n" ++ "EXEC sp_executesql @drop_fk;\n" ++
      "IF OBJECT_ID(N'" ++ literal ++ "', N'U') IS NOT NULL DROP TABLE " ++ table ++ ";\n" ++
      "CREATE TABLE " ++ table ++ " (\n    " ++ String.intercalate ",\n    " definitions ++
      "\n);" :=
  rfl

theorem render_createTable {table : QualifiedName} {columns : List ColumnDefinition}
    (ht : ∀ id ∈ table.identifiers, id.IsBracketed)
    (hc : ∀ c ∈ columns, c.name.IsBracketed) :
    (SqlText.createTable table.toText (columns.map ColumnDefinition.toText)).toList =
      (createTablePieces table.names (columns.map fun c => (c.name.bare, c.type))).flatMap
        Piece.render := by
  have definitions :
      (definitionList (columns.map fun c => (c.name.bare, c.type))).flatMap Piece.render =
        (String.intercalate ",\n    " (columns.map ColumnDefinition.toText)).toList := by
    rw [definitionList, flatMap_intercalate, String.toList_intercalate, List.map_map, List.map_map,
      List.map_map]
    congr 1
    refine List.map_congr_left fun c hm => ?_
    simp [Piece.render, ColumnDefinition.toText, Identifier.toList_quoted (hc c hm)]
  have literal := table.toText_eq_qualifiedText ht
  rw [createTable_eq]
  unfold createTablePieces
  simp only [String.toList_append, toList_dropKeysText, List.flatMap_append, definitions,
    ← QualifiedName.toList_toText ht, ← literal, List.flatMap_cons, List.flatMap_nil,
    Piece.render, Identifier.escapeLiteral]
  repeat rw [String.toList_ofList]
  simp [Identifier.doubleQuotes]

theorem render_primaryKey {table : QualifiedName} {constraint : Identifier}
    {columns : List Identifier} (ht : ∀ id ∈ table.identifiers, id.IsBracketed)
    (hn : constraint.IsBracketed) (hc : ∀ id ∈ columns, id.IsBracketed) :
    (SqlText.primaryKey table.toText constraint columns).toList =
      (primaryKeyPieces table.names constraint.bare (columns.map (·.bare))).flatMap
        Piece.render := by
  unfold SqlText.primaryKey primaryKeyPieces columnList
  simp only [List.flatMap_append, ← QualifiedName.toList_toText ht, render_joined ", " hc]
  simp [Piece.render, Identifier.toList_quoted hn]

theorem render_foreignKey {child parent : QualifiedName} {constraint : Identifier}
    {childColumns parentColumns : List Identifier}
    (hchild : ∀ id ∈ child.identifiers, id.IsBracketed)
    (hparent : ∀ id ∈ parent.identifiers, id.IsBracketed) (hn : constraint.IsBracketed)
    (hcs : ∀ id ∈ childColumns, id.IsBracketed) (hps : ∀ id ∈ parentColumns, id.IsBracketed) :
    (SqlText.foreignKey child.toText constraint childColumns parent.toText parentColumns).toList =
      (foreignKeyPieces child.names constraint.bare (childColumns.map (·.bare)) parent.names
        (parentColumns.map (·.bare))).flatMap Piece.render := by
  unfold SqlText.foreignKey foreignKeyPieces columnList
  simp only [List.flatMap_append, ← QualifiedName.toList_toText hchild,
    ← QualifiedName.toList_toText hparent, render_joined ", " hcs, render_joined ", " hps]
  simp [Piece.render, Identifier.toList_quoted hn]

/-- The text of a command is its pieces one after the other. -/
theorem toList_toText {c : Command} (h : ∀ id ∈ c.identifiers, id.IsBracketed) :
    c.toText.toList = c.pieces.flatMap Piece.render := by
  cases c with
  | createDatabase database overwrite =>
    exact render_createDatabase (h database (by cases overwrite <;> simp [identifiers])) overwrite
  | useDatabase database =>
    simp [toText, SqlText.useDatabase, pieces, useDatabasePieces, Piece.render,
      Identifier.toList_quoted (h database (by simp [identifiers]))]
  | createTable table columns =>
    refine render_createTable (fun id hid => h id (by simp [identifiers, hid])) fun c hc => ?_
    refine h c.name ?_
    simp only [identifiers, List.mem_append, List.mem_map]
    exact .inr ⟨c, hc, rfl⟩
  | primaryKey table constraint columns =>
    exact render_primaryKey (fun id hid => h id (by simp [identifiers, hid]))
      (h _ (by simp [identifiers])) fun id hid => h id (by simp [identifiers, hid])
  | foreignKey child constraint childColumns parent parentColumns =>
    exact render_foreignKey (fun id hid => h id (by simp [identifiers, hid]))
      (fun id hid => h id (by simp [identifiers, hid])) (h _ (by simp [identifiers]))
      (fun id hid => h id (by simp [identifiers, hid]))
      fun id hid => h id (by simp [identifiers, hid])

def frame : List Piece :=
  createDatabasePieces true "" ++ createDatabasePieces false "" ++ useDatabasePieces "" ++
  createTablePieces [] [] ++ primaryKeyPieces [] "" [] ++ foreignKeyPieces [] "" [] [] [] ++
  [code ".", code ", ", code ",\n    "]

/-- What is true of names, of texts, of types and of the frame is true of every piece. -/
theorem all_pieces {p : Piece → Bool} (hname : ∀ n, p (name n) = true)
    (htext : ∀ t, p (text t) = true)
    (htype : ∀ type : SqlType, p (code (" " ++ type.toText)) = true)
    (hframe : frame.all p = true) (c : Command) : c.pieces.all p = true := by
  have holds {q : Piece} (hq : q ∈ frame) : p q = true := List.all_eq_true.mp hframe q hq
  have dot (ns : List String) : (joined "." ns).all p = true :=
    all_joined hname (holds (by simp [frame])) ns
  have comma (ns : List String) : (joined ", " ns).all p = true :=
    all_joined hname (holds (by simp [frame])) ns
  have definitions (columns : List (String × SqlType)) : (definitionList columns).all p = true :=
    all_definitionList hname (holds (by simp [frame])) htype columns
  simp only [frame, createDatabasePieces, useDatabasePieces, createTablePieces, primaryKeyPieces,
    foreignKeyPieces, List.all_append, List.all_cons, List.all_nil, Bool.and_eq_true, hname, htext,
    dot, comma, definitions, if_true, if_false, Bool.false_eq_true] at hframe
  cases c with
  | createDatabase database overwrite =>
    cases overwrite <;> simp [pieces, createDatabasePieces, hname, htext, hframe]
  | useDatabase database => simp [pieces, useDatabasePieces, hname, hframe]
  | createTable table columns =>
    simp only [pieces, createTablePieces, List.all_append, List.all_cons, List.all_nil, htext, dot,
      definitions, hframe, Bool.and_self]
  | primaryKey table constraint columns =>
    simp only [pieces, primaryKeyPieces, List.all_append, List.all_cons, List.all_nil, hname, dot,
      comma, hframe, Bool.and_self]
  | foreignKey child constraint childColumns parent parentColumns =>
    simp only [pieces, foreignKeyPieces, List.all_append, List.all_cons, List.all_nil, hname, dot,
      comma, hframe, Bool.and_self]

theorem all_isSafe_frame : frame.all Piece.isSafe = true := by
  simp only [frame, createDatabasePieces, useDatabasePieces, createTablePieces, dropKeysPieces,
    primaryKeyPieces, foreignKeyPieces, List.all_append, List.all_cons, List.all_nil, Piece.isSafe]
  -- It is the lists of their characters that are computed with, as the texts are slow to open.
  repeat rw [String.toList_ofList]
  decide +kernel

theorem all_isSafe_pieces (c : Command) : c.pieces.all Piece.isSafe = true :=
  all_pieces Piece.isSafe_name Piece.isSafe_text isSafe_type all_isSafe_frame c

theorem lex_toText {c : Command} (h : ∀ id ∈ c.identifiers, id.IsBracketed) :
    lex c.toText.toList = some (c.pieces.flatMap Piece.tokens) := by
  rw [toList_toText h]
  exact Piece.lex_render c.all_isSafe_pieces

end Command

/-! ### Shapes -/

/-- A statement apart from its names: the kind, and what else may show in its code. -/
inductive Shape where
  | createDatabase (overwrite : Bool)
  | useDatabase
  | createTable (owned : Bool) (types : List SqlType)
  | primaryKey (owned : Bool) (columns : Nat)
  | foreignKey (owned : Bool) (childColumns parentColumns : Nat)
  deriving DecidableEq, Repr

namespace Shape

def kind : Shape → CommandKind
  | createDatabase .. => .createDatabase
  | useDatabase => .useDatabase
  | createTable .. => .createTable
  | primaryKey .. => .primaryKey
  | foreignKey .. => .foreignKey

def tableDepth (owned : Bool) : Nat := if owned then 2 else 1

def pieces : Shape → List Piece
  | createDatabase overwrite => createDatabasePieces overwrite ""
  | useDatabase => useDatabasePieces ""
  | createTable owned types =>
    createTablePieces (List.replicate (tableDepth owned) "") (types.map ("", ·))
  | primaryKey owned columns =>
    primaryKeyPieces (List.replicate (tableDepth owned) "") "" (List.replicate columns "")
  | foreignKey owned childColumns parentColumns =>
    let table := List.replicate (tableDepth owned) ""
    foreignKeyPieces table "" (List.replicate childColumns "") table
      (List.replicate parentColumns "")

/-- The tokens of every statement of a shape, with nothing in names and texts. -/
def skeleton (sh : Shape) : List Token := (sh.pieces.flatMap Piece.tokens).map Token.blank

def texts : Shape → List String → List String
  | createDatabase _, ns => ns.take 1
  | createTable owned _, ns =>
    let table := qualifiedText (ns.take (tableDepth owned))
    ["", "ALTER TABLE ", ".", " DROP CONSTRAINT ", ";", table, "U", table, "U"]
  | _, _ => []

end Shape

namespace QualifiedName

def isOwned (q : QualifiedName) : Bool := q.owner.isSome

theorem length_names (q : QualifiedName) : q.names.length = Shape.tableDepth q.isOwned := by
  unfold names identifiers isOwned Shape.tableDepth
  cases q.owner <;> rfl

end QualifiedName

namespace Command

def shape : Command → Shape
  | createDatabase _ overwrite => .createDatabase overwrite
  | useDatabase _ => .useDatabase
  | createTable table columns => .createTable table.isOwned (columns.map (·.type))
  | primaryKey table _ columns => .primaryKey table.isOwned columns.length
  | foreignKey child _ childColumns _ parentColumns =>
    .foreignKey child.isOwned childColumns.length parentColumns.length

/-- Both tables of a foreign key have owners, or none has. -/
def IsUniform : Command → Prop
  | foreignKey child _ _ parent _ => parent.isOwned = child.isOwned
  | _ => True

theorem kind_shape (c : Command) : c.shape.kind = c.kind := by cases c <;> rfl

theorem map_blank_pieces {c : Command} (h : c.IsUniform) :
    (c.pieces.flatMap Piece.tokens).map Token.blank = c.shape.skeleton := by
  unfold Shape.skeleton
  rw [Piece.map_blank_flatMap_tokens, Piece.map_blank_flatMap_tokens]
  congr 1
  cases c with
  | createDatabase database overwrite => cases overwrite <;> rfl
  | useDatabase database => rfl
  | createTable table columns =>
    simp only [pieces, shape, Shape.pieces, createTablePieces, List.map_append, map_blank_joined,
      map_blank_definitionList, table.length_names, List.length_replicate, List.map_map]
    rfl
  | primaryKey table constraint columns =>
    simp only [pieces, shape, Shape.pieces, primaryKeyPieces, List.map_append, map_blank_joined,
      table.length_names, List.length_replicate, List.length_map]
    rfl
  | foreignKey child constraint childColumns parent parentColumns =>
    have same : parent.isOwned = child.isOwned := h
    simp only [pieces, shape, Shape.pieces, foreignKeyPieces, List.map_append, map_blank_joined,
      child.length_names, parent.length_names, same, List.length_replicate, List.length_map]
    rfl

theorem filterMap_name?_pieces (c : Command) :
    c.pieces.filterMap Piece.name? = c.identifiers.map (·.bare) := by
  cases c with
  | createDatabase database overwrite => cases overwrite <;> rfl
  | useDatabase database => rfl
  | createTable table columns =>
    simp only [pieces, identifiers, createTablePieces, List.filterMap_append,
      filterMap_name?_joined, filterMap_name?_definitionList, List.map_append, List.map_map]
    simp [dropKeysPieces, List.filterMap_cons, Piece.name?, QualifiedName.names]
  | primaryKey table constraint columns =>
    simp only [pieces, identifiers, primaryKeyPieces, List.filterMap_append,
      filterMap_name?_joined, List.map_append, List.map_cons]
    simp [List.filterMap_cons, Piece.name?, QualifiedName.names]
  | foreignKey child constraint childColumns parent parentColumns =>
    simp only [pieces, identifiers, foreignKeyPieces, List.filterMap_append,
      filterMap_name?_joined, List.map_append, List.map_cons]
    simp [List.filterMap_cons, Piece.name?, QualifiedName.names]

theorem filterMap_text?_pieces (c : Command) :
    c.pieces.filterMap Piece.text? = c.shape.texts (c.identifiers.map (·.bare)) := by
  cases c with
  | createDatabase database overwrite => cases overwrite <;> rfl
  | useDatabase database => rfl
  | createTable table columns =>
    have front : (identifiers (createTable table columns)).map (·.bare) =
        table.names ++ (table.names ++ columns.map fun c => c.name.bare) := by
      simp [identifiers, QualifiedName.names]
    have own : (table.names ++ (table.names ++ columns.map fun c => c.name.bare)).take
        (Shape.tableDepth table.isOwned) = table.names := by
      rw [← table.length_names, List.take_left]
    simp only [pieces, shape, Shape.texts, front, own, createTablePieces, List.filterMap_append,
      filterMap_text?_joined, filterMap_text?_definitionList]
    rfl
  | primaryKey table constraint columns =>
    simp only [pieces, primaryKeyPieces, List.filterMap_append, filterMap_text?_joined]
    rfl
  | foreignKey child constraint childColumns parent parentColumns =>
    simp only [pieces, foreignKeyPieces, List.filterMap_append, filterMap_text?_joined]
    rfl

end Command

/-! ### Declared names -/

def ServerName (declared bare : String) : Prop :=
  ∃ id, Identifier.forServer declared = .ok id ∧ id.bare = bare

namespace Options

def hasOwner (o : Options) : Bool := !isBlankText o.owner

def tableNames (o : Options) (table : String) : List String :=
  if isBlankText o.owner then [o.tablePrefix ++ table] else [o.owner, o.tablePrefix ++ table]

theorem qualified_declared {o : Options} {table : String} {q : QualifiedName}
    (h : o.qualified table = .ok q) :
    serverNames (o.tableNames table) = .ok q.identifiers ∧ q.isOwned = o.hasOwner := by
  obtain ⟨name, hn, h⟩ := bind_eq_ok_iff.mp h
  unfold QualifiedName.ofOwner at h
  unfold serverNames tableNames hasOwner
  split at h
  · next blank =>
    obtain rfl : ⟨none, name⟩ = q := Except.ok.inj h
    rw [if_pos blank, blank]
    exact ⟨mapM_eq_ok_iff.mpr (.cons hn .nil), rfl⟩
  · next blank =>
    obtain ⟨owner, ho, h⟩ := bind_eq_ok_iff.mp h
    obtain rfl : ⟨some owner, name⟩ = q := Except.ok.inj h
    rw [if_neg blank, Bool.eq_false_iff.mpr blank]
    exact ⟨mapM_eq_ok_iff.mpr (.cons ho (.cons hn .nil)), rfl⟩

end Options

theorem serverNames_append {ns ms : List String} {ids ks : List Identifier}
    (hn : serverNames ns = .ok ids) (hm : serverNames ms = .ok ks) :
    serverNames (ns ++ ms) = .ok (ids ++ ks) :=
  mapM_eq_ok_iff.mpr (List.rel_append (mapM_eq_ok_iff.mp hn) (mapM_eq_ok_iff.mp hm))

theorem serverNames_cons {n : String} {ns : List String} {id : Identifier} {ids : List Identifier}
    (hn : Identifier.forServer n = .ok id) (hns : serverNames ns = .ok ids) :
    serverNames (n :: ns) = .ok (id :: ids) :=
  mapM_eq_ok_iff.mpr (.cons hn (mapM_eq_ok_iff.mp hns))

namespace Schema

/-- The shape of a statement of a schema, and the declared names in the order in which the
statement names them, a name twice if it is named twice. -/
inductive Declares (s : Schema) (o : Options) : String → Shape → List String → Prop where
  | createDatabase (fresh : o.useExisting = false) :
      Declares s o s.name (.createDatabase o.overwrite)
        (List.replicate (if o.overwrite then 3 else 1) s.name)
  | useDatabase : Declares s o s.name .useDatabase [s.name]
  | createTable {t : Table} {types : List SqlType} (mem : t ∈ s.tables)
      (types_eq : List.Forall₂ (fun c type => c.sqlType t = .ok type) t.columns types) :
      Declares s o t.name (.createTable o.hasOwner types)
        (o.tableNames t.name ++ o.tableNames t.name ++ t.columns.map (·.name))
  | primaryKey {t : Table} (mem : t ∈ s.tables) :
      Declares s o t.name (.primaryKey o.hasOwner t.keyColumns.length)
        (o.tableNames t.name ++ ("PK_" ++ o.tablePrefix ++ t.name) :: t.keyColumns)
  | foreignKey {r : Relation} (mem : r ∈ s.relations) :
      Declares s o r.name
        (.foreignKey o.hasOwner r.childColumns.length r.parentColumns.length)
        (o.tableNames r.childTable ++ r.name :: r.childColumns ++ o.tableNames r.parentTable ++
          r.parentColumns)

def Spells (s : Schema) (o : Options) (st : Statement) : Prop :=
  st.command.IsUniform ∧ ∃ declared, s.Declares o st.entity st.command.shape declared ∧
    serverNames declared = .ok st.command.identifiers

variable {s : Schema} {o : Options} {st : Statement}

theorem spells_createTable {t : Table} (mem : t ∈ s.tables)
    (h : (t.createStatement o).2 = .ok st) : s.Spells o st := by
  obtain ⟨name, columns, hq, hcs, rfl⟩ := Table.createStatement_eq_ok_iff.mp h
  obtain ⟨names, owned⟩ := Options.qualified_declared hq
  have defined : List.Forall₂ (fun c d => Identifier.forServer c.name = .ok d.name ∧
      c.sqlType t = .ok d.type) t.columns columns :=
    (mapM_eq_ok_iff.mp hcs).imp fun c d => Table.columnDefinition_eq_ok_iff.mp
  have columnNames : serverNames (t.columns.map (·.name)) = .ok (columns.map (·.name)) :=
    mapM_eq_ok_iff.mpr (List.forall₂_map_left_iff.mpr (List.forall₂_map_right_iff.mpr
      (defined.imp fun _ _ h => h.1)))
  have types : List.Forall₂ (fun c type => c.sqlType t = .ok type) t.columns
      (columns.map (·.type)) :=
    List.forall₂_map_right_iff.mpr (defined.imp fun _ _ h => h.2)
  refine ⟨trivial, _, ?_, serverNames_append (serverNames_append names names) columnNames⟩
  simpa only [Command.shape, owned] using Declares.createTable mem types

theorem spells_primaryKey {t : Table} (mem : t ∈ s.tables)
    (h : t.primaryKeyStatement o = .ok st) : s.Spells o st := by
  obtain ⟨name, hq, h⟩ := bind_eq_ok_iff.mp h
  obtain ⟨constraint, hn, h⟩ := bind_eq_ok_iff.mp h
  obtain ⟨columns, hcs, h⟩ := bind_eq_ok_iff.mp h
  obtain rfl : ⟨t.name, .primaryKey name constraint columns⟩ = st := Except.ok.inj h
  obtain ⟨names, owned⟩ := Options.qualified_declared hq
  refine ⟨trivial, _, ?_, serverNames_append names (serverNames_cons hn hcs)⟩
  have length : t.keyColumns.length = columns.length := (mapM_eq_ok_iff.mp hcs).length_eq
  simpa only [Command.shape, owned, ← length] using Declares.primaryKey mem

theorem spells_foreignKey {r : Relation} (mem : r ∈ s.relations)
    (h : r.foreignKeyStatement o = .ok st) : s.Spells o st := by
  obtain ⟨child, parent, constraint, childColumns, parentColumns, hc, hp, hn, hcc, hpc, rfl⟩ :=
    Relation.foreignKeyStatement_eq_ok_iff.mp h
  obtain ⟨childNames, childOwned⟩ := Options.qualified_declared hc
  obtain ⟨parentNames, parentOwned⟩ := Options.qualified_declared hp
  refine ⟨parentOwned.trans childOwned.symm, _, ?_, serverNames_append (serverNames_append
    (serverNames_append childNames (serverNames_cons hn hcc)) parentNames) hpc⟩
  have childLength : r.childColumns.length = childColumns.length :=
    (mapM_eq_ok_iff.mp hcc).length_eq
  have parentLength : r.parentColumns.length = parentColumns.length :=
    (mapM_eq_ok_iff.mp hpc).length_eq
  simpa only [Command.shape, childOwned, ← childLength, ← parentLength] using
    Declares.foreignKey mem

theorem spells_compileEntities (h : st ∈ (s.compileEntities o).statements) : s.Spells o st := by
  unfold compileEntities at h
  rcases List.mem_append.mp h with h | h
  · rcases List.mem_append.mp h with h | h
    · rw [mem_succeeded_iff, tableResults, List.map_map] at h
      obtain ⟨t, sound, h⟩ := List.mem_map.mp h
      exact spells_createTable (List.mem_of_find?_eq_some (of_mem_soundTables sound).2.2) h
    · obtain ⟨t, created, h⟩ := List.mem_map.mp (mem_succeeded_iff.mp h)
      obtain ⟨sound, -⟩ := of_mem_createdTables (List.mem_of_mem_filter created)
      exact spells_primaryKey (List.mem_of_find?_eq_some (of_mem_soundTables sound).2.2)
        (chargedTo_eq_ok_iff.mp h)
  · obtain ⟨r, sound, h⟩ := List.mem_map.mp (mem_succeeded_iff.mp h)
    unfold Relation.compile at h
    split at h
    · cases h
    · have mem := mem_sound_iff.mp sound
      exact spells_foreignKey (List.of_mem_zip mem).1 (chargedTo_eq_ok_iff.mp h)

theorem spells_createDatabase (fresh : o.useExisting = false)
    (h : createDatabaseStatement o s.name = .ok st) : s.Spells o st := by
  unfold createDatabaseStatement at h
  dsimp only at h
  split at h
  · cases h
  obtain ⟨name, hn, h⟩ := bind_eq_ok_iff.mp h
  obtain rfl : ⟨s.name, .createDatabase name o.overwrite⟩ = st := Except.ok.inj h
  refine ⟨trivial, _, .createDatabase fresh, ?_⟩
  simp only [Command.identifiers]
  cases o.overwrite with
  | false => exact serverNames_cons hn rfl
  | true => exact serverNames_cons hn (serverNames_cons hn (serverNames_cons hn rfl))

theorem spells_compile (h : st ∈ (s.compile o).statements) : s.Spells o st := by
  unfold compile at h
  dsimp only at h
  split at h
  · exact spells_compileEntities h
  · next fresh =>
    split at h
    · next first hfirst =>
      rcases List.mem_cons.mp h with rfl | h
      · exact spells_createDatabase (Bool.eq_false_iff.mpr fresh) hfirst
      · exact spells_compileEntities h
    · exact spells_compileEntities h

theorem mem_insertUse {use : Statement} {ss : List Statement} (h : st ∈ insertUse use ss) :
    st = use ∨ st ∈ ss := by
  induction ss with
  | nil => exact .inl (by simpa [insertUse] using h)
  | cons first ss ih =>
    unfold insertUse at h
    split at h
    · rcases List.mem_cons.mp h with h | h
      · exact .inr (by simp [h])
      · exact (ih h).imp_right fun h => List.mem_cons_of_mem _ h
    · exact List.mem_cons.mp h

theorem spells_compileScript (h : st ∈ (s.compileScript o).statements) : s.Spells o st := by
  unfold compileScript at h
  dsimp only at h
  split at h
  · next database hd =>
    rcases mem_insertUse h with rfl | h
    · exact ⟨trivial, _, .useDatabase, serverNames_cons hd rfl⟩
    · exact spells_compile h
  · exact spells_compile h

/-- A statement lexes to its end. Its tokens are those of a shape once names and texts are taken
out, its names are the declared names made safe, in order, and its texts are made of these. -/
theorem lex_statements
    (h : st ∈ (s.compile o).statements ∨ st ∈ (s.compileScript o).statements) :
    ∃ shape declared ts, s.Declares o st.entity shape declared ∧ shape.kind = st.kind ∧
      lex st.sql.toList = some ts ∧ ts.map Token.blank = shape.skeleton ∧
      List.Forall₂ ServerName declared (names ts) ∧ texts ts = shape.texts (names ts) := by
  obtain ⟨uniform, declared, declares, hids⟩ := h.elim spells_compile spells_compileScript
  have safe : List.Forall₂ (fun n id => Identifier.forServer n = .ok id) declared
      st.command.identifiers := mapM_eq_ok_iff.mp hids
  have bracketed : ∀ id ∈ st.command.identifiers, id.IsBracketed := by
    intro id hid
    obtain ⟨n, -, hn⟩ := exists_of_mem_results hids hid
    exact Identifier.isBracketed_of_forServer hn
  refine ⟨st.command.shape, declared, _, declares, st.command.kind_shape,
    Command.lex_toText bracketed, Command.map_blank_pieces uniform, ?_, ?_⟩
  · rw [Piece.names_flatMap_tokens, Command.filterMap_name?_pieces]
    exact List.forall₂_map_right_iff.mpr (safe.imp fun n id hn => ⟨id, hn, rfl⟩)
  · rw [Piece.names_flatMap_tokens, Piece.texts_flatMap_tokens, Command.filterMap_name?_pieces,
      Command.filterMap_text?_pieces]

theorem lex_statements_hostile :
    let s : Schema :=
      ⟨"shop", [⟨"a]'--", [⟨"k[]", some .int32, none, -1, true⟩], some ["k[]"]⟩], []⟩
    let st : Statement := ⟨"a]'--", .createTable
      ⟨some ⟨"[dbo]", "dbo"⟩, ⟨"[a]]'--]", "a]'--"⟩⟩ [⟨⟨"[k[]]]", "k[]"⟩, .int, false⟩]⟩
    st ∈ (s.compile {}).statements ∧
      ∃ shape declared ts, s.Declares {} st.entity shape declared ∧ shape.kind = st.kind ∧
        lex st.sql.toList = some ts ∧ ts.map Token.blank = shape.skeleton ∧
        List.Forall₂ ServerName declared (names ts) ∧ texts ts = shape.texts (names ts) :=
  ⟨by decide +kernel, lex_statements (.inl (by decide +kernel))⟩

end Schema

end Tabular
