import Tabular.Proofs.Outcomes
import Tabular.Proofs.Rendering
import Mathlib.Data.List.Nodup

/-!
Reading back what a schema is rendered as. Columns, tables, keys and relations are each read as
they were, and with them the schema, unless one of its names holds the one character that XML takes
in names and Unicode takes for white space.
-/
namespace Tabular.Dataset

open Markup

theorem mapM_map_eq_ok {α β γ ε : Type} {f : β → Except ε γ} {g : α → β} {h : α → γ} {xs : List α}
    (step : ∀ x ∈ xs, f (g x) = .ok (h x)) : (xs.map g).mapM f = .ok (xs.map h) := by
  rw [mapM_eq_ok_iff, List.forall₂_map_left_iff, List.forall₂_map_right_iff]
  exact List.forall₂_same.mpr step

theorem required_of_attribute? {e : Element} {name value : String} (what : String)
    (found : e.attribute? name = some value) (solid : isBlankText value = false) :
    required e name what = .ok value := by
  unfold required
  rw [found]
  simp [solid]

@[simp] theorem isSchemaElement_schemaElement (name other : String) (attributes : List Attribute)
    (children : List Element) :
    isSchemaElement (schemaElement name attributes children) other = (name == other) := by
  simp [isSchemaElement, Element.isNamed, schemaElement]

@[simp] theorem children_schemaElement (name : String) (attributes : List Attribute)
    (children : List Element) : (schemaElement name attributes children).children = children :=
  rfl

/-! ### Columns -/

section Columns

variable (c : Column) (d : Declarations)

theorem annotatedType?_dataType (type : ColumnType) :
    annotatedType? ("System." ++ type.name) = some type := by
  cases type <;> decide

theorem attribute?_renderColumn :
    (renderColumn c).attribute? "name" = some c.name ∧ (renderColumn c).attribute? "ref" = none ∧
      (renderColumn c).attribute? "nillable" = none ∧
      (renderColumn c).attribute? "type" = (if c.maxLength = -1 then some "xs:string" else none) ∧
      (renderColumn c).attribute? "minOccurs" = (if c.nullable then some "0" else none) := by
  by_cases bounded : c.maxLength = -1
  · cases nullable : c.nullable <;>
      simp [renderColumn, schemaElement, Element.attribute?, plain, noted, bounded, nullable]
  · cases nullable : c.nullable <;>
      simp [renderColumn, schemaElement, Element.attribute?, plain, noted, bounded, nullable]

theorem annotation?_renderColumn :
    annotation? (renderColumn c) "DataType" = some (dataType c) ∧
      annotation? (renderColumn c) "AllowDBNull" = none := by
  by_cases bounded : c.maxLength = -1
  · cases nullable : c.nullable <;>
      simp [renderColumn, schemaElement, annotation?, Element.attributeIn?, plain, noted, bounded,
        nullable]
  · cases nullable : c.nullable <;>
      simp [renderColumn, schemaElement, annotation?, Element.attributeIn?, plain, noted, bounded,
        nullable]

theorem children_renderColumn :
    (renderColumn c).children = if c.maxLength = -1 then [] else [renderBound c.maxLength] := by
  by_cases bounded : c.maxLength = -1 <;> simp [renderColumn, bounded]

theorem localName_string : localName "xs:string" = "string" := by decide

theorem isBuiltinName_string (attributes : List Attribute) (name : String)
    (children : List Element) :
    isBuiltinName (schemaElement name attributes children) "xs:string" = true := by
  have namePrefix : namePrefix? "xs:string" = some "xs" := by decide
  simp [isBuiltinName, namePrefix, Element.namespace?, schemaElement, documentScope]

theorem lengthFacet?_renderBound (n : Int32) :
    lengthFacet? (schemaElement "restriction" [plain "base" "xs:string"]
      [schemaElement "maxLength" [plain "value" (toString n.toInt)] []]) = .ok (some n) := by
  have value : (schemaElement "maxLength" [plain "value" (toString n.toInt)] []).attribute?
      "value" = some (toString n.toInt) := by
    simp [schemaElement, Element.attribute?, plain]
  have given := required_of_attribute? "length facet" value
    (isBlankText_toString_int n.toInt)
  simp only [lengthFacet?, children_schemaElement, List.find?_cons,
    isSchemaElement_schemaElement, beq_self_eq_true, Bool.true_or]
  rw [given]
  dsimp only [bind, Except.bind]
  rw [length?_toString]
  rfl

theorem restrictionType_renderBound (levels : Nat) (n : Int32) :
    restrictionType d (levels + 1) (renderBound n) = .ok ⟨"xs:string", some "string", n⟩ := by
  have base : (schemaElement "restriction" [plain "base" "xs:string"]
      [schemaElement "maxLength" [plain "value" (toString n.toInt)] []]).attribute? "base" =
        some "xs:string" := by
    simp [schemaElement, Element.attribute?, plain]
  unfold restrictionType
  simp only [renderBound, children_schemaElement, List.find?_cons, isSchemaElement_schemaElement,
    beq_self_eq_true, base, isBuiltinName_string, if_true, lengthFacet?_renderBound,
    localName_string]
  rfl

theorem simpleTypeOf_renderColumn :
    ∃ declared, simpleTypeOf d (renderColumn c) = .ok ⟨declared, some "string", c.maxLength⟩ := by
  have named := (attribute?_renderColumn c).2.2.2.1
  refine ⟨"xs:string", ?_⟩
  by_cases bounded : c.maxLength = -1
  · have builtin : isBuiltinName (renderColumn c) "xs:string" = true := isBuiltinName_string _ _ _
    simp [simpleTypeOf, children_renderColumn, bounded, named, namedType, builtin,
      localName_string]
  · have inner : isSchemaElement (renderBound c.maxLength) "simpleType" = true := by
      simp [renderBound]
    simp only [simpleTypeOf, children_renderColumn, bounded, if_false, List.find?_cons, inner]
    exact restrictionType_renderBound d 16 c.maxLength

theorem isNullable_renderColumn : isNullable (renderColumn c) false = c.nullable := by
  obtain ⟨-, -, nillable, -, minOccurs⟩ := attribute?_renderColumn c
  have zero : (trimmed "0" == "0") = true := by decide
  unfold isNullable
  rw [(annotation?_renderColumn c).2]
  cases nullable : c.nullable <;> simp [minOccurs, nillable, nullable, zero]

/-- A column is read as it was rendered. -/
theorem readColumn_renderColumn (table : String) (named : IsLegible c.name)
    (expressible : IsExpressible c) :
    readColumn d table false (renderColumn c) = .ok c := by
  obtain ⟨declared, simple⟩ := simpleTypeOf_renderColumn c d
  have name := required_of_attribute? s!"column of table {table}"
    (attribute?_renderColumn c).1 named.isBlankText_eq
  have annotated := (annotation?_renderColumn c).1
  unfold readColumn
  rw [name, simple]
  unfold IsExpressible at expressible
  cases typed : c.type with
  | some type =>
    rw [typed] at expressible
    have type_eq : columnType (renderColumn c) ⟨declared, some "string", c.maxLength⟩ =
        .inl type := by
      simp [columnType, annotated, dataType, typed, annotatedType?_dataType]
    simp only [bind, Except.bind, type_eq, isNullable_renderColumn, ← expressible, ← typed]
    rfl
  | none =>
    rw [typed] at expressible
    obtain ⟨source, given, unknown⟩ := expressible
    have type_eq : columnType (renderColumn c) ⟨declared, some "string", c.maxLength⟩ =
        .inr source := by
      simp [columnType, annotated, dataType, typed, given, unknown]
    simp only [bind, Except.bind, type_eq, isNullable_renderColumn, ← given, ← typed]
    rfl

end Columns

/-! ### Tables -/

theorem particlesOf_element (attributes : List Attribute) (children : List Element) :
    particlesOf (schemaElement "element" attributes children) =
      [schemaElement "element" attributes children] := by
  have element := isSchemaElement_schemaElement "element" "element" attributes children
  unfold schemaElement at element ⊢
  unfold particlesOf
  simp [element]

theorem particlesAmong_elements {α : Type} {f : α → Element} (xs : List α)
    (h : ∀ x, particlesOf (f x) = [f x]) : particlesAmong (xs.map f) = xs.map f := by
  induction xs with
  | nil => rfl
  | cons x xs ih => rw [List.map_cons, particlesAmong, h, ih, List.singleton_append]

theorem particles_group {group : String} (h : group = "sequence" ∨ group = "choice")
    {α : Type} {f : α → Element} (xs : List α) (elements : ∀ x, particlesOf (f x) = [f x]) :
    particles (schemaElement "complexType" [] [schemaElement group [] (xs.map f)]) = xs.map f := by
  have opened : particlesOf (schemaElement group [] (xs.map f)) = particlesAmong (xs.map f) := by
    have kind (other : String) := isSchemaElement_schemaElement group other [] (xs.map f)
    unfold schemaElement at kind ⊢
    unfold particlesOf
    rcases h with rfl | rfl <;> simp [isGroup, kind]
  rw [particles, children_schemaElement, particlesAmong, opened,
    particlesAmong_elements xs elements, particlesAmong, List.append_nil]

def tableContent (t : Table) : Element :=
  schemaElement "complexType" [] [schemaElement "sequence" [] (t.columns.map renderColumn)]

theorem attribute?_renderTable (t : Table) :
    (renderTable t).attribute? "name" = some t.name ∧ (renderTable t).attribute? "ref" = none := by
  simp [renderTable, schemaElement, Element.attribute?, plain]

section Tables

variable {d : Declarations} (t : Table)

theorem resolve_of_attribute? {e : Element} (h : e.attribute? "ref" = none) :
    d.resolve e = .ok e := by
  rw [Declarations.resolve, h]

theorem complexTypeOf?_renderTable : d.complexTypeOf? (renderTable t) = some (tableContent t) := by
  simp [Declarations.complexTypeOf?, renderTable, tableContent]

theorem complexTypeOf?_renderColumn (none : d.complexTypes = []) (c : Column) :
    d.complexTypeOf? (renderColumn c) = .none := by
  have typed := (attribute?_renderColumn c).2.2.2.1
  by_cases bounded : c.maxLength = -1
  · simp [Declarations.complexTypeOf?, children_renderColumn, bounded, typed, none, lookUp]
  · simp [Declarations.complexTypeOf?, children_renderColumn, bounded, typed, renderBound]

/-- A table is read as it was rendered, its key apart. -/
theorem readTables_renderTable (none : d.complexTypes = []) (named : IsLegible t.name)
    (columns : ∀ c ∈ t.columns, IsLegible c.name ∧ IsExpressible c) :
    readTables d (renderTable t) = .ok [{ t with primaryKey := .none }] := by
  have name := required_of_attribute? "table element" (attribute?_renderTable t).1
    named.isBlankText_eq
  have content : particles (tableContent t) = t.columns.map renderColumn :=
    particles_group (.inl rfl) t.columns fun c => particlesOf_element _ _
  have attributes : attributesOf (tableContent t) = [] := by
    simp [attributesOf, tableContent]
  have read : readTable d depthLimit (renderTable t) (tableContent t) =
      .ok [{ t with primaryKey := .none }] := by
    unfold depthLimit readTable
    rw [name, content, attributes]
    simp only [bind, Except.bind]
    rw [mapM_map_eq_ok (h := Contribution.column)]
    · simp [Contribution.column?, Contribution.nested, Function.comp_def, List.flatMap_map, pure,
        Except.pure]
    · intro c hc
      have column := readColumn_renderColumn c d t.name (columns c hc).1 (columns c hc).2
      simp only [resolve_of_attribute? (attribute?_renderColumn c).2.1,
        complexTypeOf?_renderColumn none c, column]
      rfl
  unfold readTables
  rw [resolve_of_attribute? (attribute?_renderTable t).2]
  simp only [bind, Except.bind, complexTypeOf?_renderTable, read]

end Tables

/-! ### Keys and relations -/

def isConstraint (e : Element) : Bool :=
  isSchemaElement e "key" || isSchemaElement e "unique" || isSchemaElement e "keyref" ||
    e.isNamed annotationUri "Relationship"

@[simp] theorem descendants_schemaElement (name : String) (attributes : List Attribute)
    (children : List Element) :
    (schemaElement name attributes children).descendants =
      schemaElement name attributes children :: Element.descendantsOf children := by
  unfold schemaElement
  rw [Element.descendants]

theorem descendantsOf_eq_flatMap (es : List Element) :
    Element.descendantsOf es = es.flatMap Element.descendants := by
  induction es with
  | nil => rfl
  | cons e es ih => rw [Element.descendantsOf, ih, List.flatMap_cons]

@[simp] theorem isConstraint_schemaElement (name : String) (attributes : List Attribute)
    (children : List Element) :
    isConstraint (schemaElement name attributes children) =
      (name == "key" || name == "unique" || name == "keyref") := by
  have other : (schemaElement name attributes children).isNamed annotationUri "Relationship" =
      false := by
    simp [Element.isNamed, schemaElement, schemaUri, annotationUri]
  simp [isConstraint, other]

def constraintsIn (e : Element) : List Element := e.descendants.filter isConstraint

theorem constraintsIn_schemaElement (name : String) (attributes : List Attribute)
    (children : List Element) :
    constraintsIn (schemaElement name attributes children) =
      (if name == "key" || name == "unique" || name == "keyref" then
        [schemaElement name attributes children] else []) ++ children.flatMap constraintsIn := by
  rw [constraintsIn, descendants_schemaElement, List.filter_cons, isConstraint_schemaElement,
    descendantsOf_eq_flatMap, List.filter_flatMap]
  split <;> rfl

theorem constraintsIn_renderColumn (c : Column) : constraintsIn (renderColumn c) = [] := by
  by_cases bounded : c.maxLength = -1
  · simp [renderColumn, constraintsIn_schemaElement, bounded]
  · simp [renderColumn, constraintsIn_schemaElement, bounded, renderBound]

theorem constraintsIn_renderTable (t : Table) : constraintsIn (renderTable t) = [] := by
  simp [renderTable, constraintsIn_schemaElement, List.flatMap_map, constraintsIn_renderColumn]

theorem flatMap_constraintsIn_renderPaths (table : String) (columns : List String) :
    (renderPaths table columns).flatMap constraintsIn = [] := by
  simp [renderPaths, constraintsIn_schemaElement, List.flatMap_map]

section Constraints

variable (keyName : String → String) (byReference : Relation → Bool)

def relationElement (r : Relation) : Element :=
  if byReference r then renderReference keyName r else renderRelationship r

theorem constraintsIn_renderKey (k : String × List String) :
    constraintsIn (renderKey keyName k) = [renderKey keyName k] := by
  rw [renderKey, constraintsIn_schemaElement, flatMap_constraintsIn_renderPaths]
  rfl

theorem constraintsIn_renderRelation (r : Relation) :
    constraintsIn (renderRelation keyName byReference r) =
      [relationElement keyName byReference r] := by
  unfold renderRelation relationElement
  cases byReference r with
  | true =>
    simp only [if_true, renderReference, constraintsIn_schemaElement,
      flatMap_constraintsIn_renderPaths]
    rfl
  | false =>
    have own : constraintsIn (renderRelationship r) = [renderRelationship r] := by
      unfold constraintsIn renderRelationship
      rw [Element.descendants, Element.descendantsOf]
      simp [isConstraint, Element.isNamed, isSchemaElement, schemaUri, annotationUri]
    simp [constraintsIn_schemaElement, own]

/-- The constraints of a document are those of the keys and the relations, in order. -/
theorem constraintsIn_render (s : Schema) :
    constraintsIn (render keyName byReference s) =
      (declaredKeys s).map (renderKey keyName) ++
        s.relations.map (relationElement keyName byReference) := by
  have own {α : Type} {f g : α → Element} (xs : List α) (h : ∀ x, constraintsIn (f x) = [g x]) :
      (xs.map f).flatMap constraintsIn = xs.map g := by
    rw [List.flatMap_map, List.flatMap_congr fun x _ => h x, ← List.map_eq_flatMap]
  have tables : (s.tables.map renderTable).flatMap constraintsIn = [] := by
    simp [List.flatMap_map, constraintsIn_renderTable]
  have keys := own (declaredKeys s) (constraintsIn_renderKey keyName)
  have relations := own s.relations (constraintsIn_renderRelation keyName byReference)
  simp [render, renderDataset, constraintsIn_schemaElement, tables, keys, relations]

end Constraints

/-- Only constraints are read as keys. -/
theorem readKeys_eq (root : Element) :
    readKeys root =
      ((constraintsIn root).filterMap fun e => (isPrimaryKey? e).map (e, ·)).mapM
        fun p => readKey p.1 p.2 := by
  have quiet : ∀ e, isConstraint e = false → isPrimaryKey? e = none := by
    intro e h
    simp only [isConstraint, Bool.or_eq_false_iff] at h
    simp [isPrimaryKey?, h.1.1.1, h.1.1.2]
  have same : (root.descendants.filterMap fun e => (isPrimaryKey? e).map (e, ·)) =
      (constraintsIn root).filterMap fun e => (isPrimaryKey? e).map (e, ·) := by
    rw [constraintsIn, List.filterMap_filter]
    apply List.filterMap_congr
    intro e _
    cases h : isConstraint e with
    | true => rfl
    | false => simp [quiet e h]
  rw [readKeys, same]

/-- Only constraints are read as relations. -/
theorem readRelations_eq {keys : List KeyConstraint} {root : Element}
    {found : List (Option Relation)}
    (h : (constraintsIn root).mapM (readRelation? keys) = .ok found) :
    readRelations keys root = .ok (firstOfName [] (found.filterMap id)) := by
  have quiet : ∀ e, isConstraint e = false → readRelation? keys e = .ok none := by
    intro e h
    simp only [isConstraint, Bool.or_eq_false_iff] at h
    simp [readRelation?, h.1.2, h.2]
  have whole (es : List Element) {found : List (Option Relation)}
      (h : (es.filter isConstraint).mapM (readRelation? keys) = .ok found) :
      ∃ all, es.mapM (readRelation? keys) = .ok all ∧ all.filterMap id = found.filterMap id := by
    induction es generalizing found with
    | nil => exact ⟨found, h, rfl⟩
    | cons e es ih =>
      cases constraint : isConstraint e with
      | false =>
        rw [List.filter_cons_of_neg (by simp [constraint])] at h
        obtain ⟨all, read, same⟩ := ih h
        have skipped : (e :: es).mapM (readRelation? keys) = .ok (none :: all) :=
          mapM_eq_ok_iff.mpr (.cons (quiet e constraint) (mapM_eq_ok_iff.mp read))
        exact ⟨none :: all, skipped, by simpa using same⟩
      | true =>
        rw [List.filter_cons_of_pos constraint, mapM_eq_ok_iff] at h
        obtain ⟨first, rest, hfirst, hrest, rfl⟩ := List.forall₂_cons_left_iff.mp h
        obtain ⟨all, read, same⟩ := ih (mapM_eq_ok_iff.mpr hrest)
        exact ⟨first :: all, mapM_eq_ok_iff.mpr (.cons hfirst (mapM_eq_ok_iff.mp read)),
          by rw [List.filterMap_cons, List.filterMap_cons, same]⟩
  obtain ⟨all, read, same⟩ := whole root.descendants h
  rw [readRelations, read]
  show Except.ok (firstOfName [] (all.filterMap id)) = _
  rw [same]

/-- The names of the columns that a key or a relation lists are kept, and its table's name. -/
theorem constraintTarget_renderPaths {kind name table : String} {attributes : List Attribute}
    {columns : List String} (named : IsLegible table) (fields : ∀ n ∈ columns, IsLegible n) :
    constraintTarget (schemaElement kind attributes (renderPaths table columns)) name =
      .ok (table, columns) := by
  have path (kind value : String) :
      (schemaElement kind [plain "xpath" value] []).attribute? "xpath" = some value := by
    simp [schemaElement, Element.attribute?, plain]
  have kept : columns.map fieldColumn = columns :=
    (List.map_congr_left fun n hn => (fields n hn).fieldColumn_eq).trans (List.map_id' columns)
  let field (n : String) := schemaElement "field" [plain "xpath" n] []
  have others : (columns.map field).filter (isSchemaElement · "field") = columns.map field := by
    rw [List.filter_eq_self]
    intro e he
    obtain ⟨n, -, rfl⟩ := List.mem_map.mp he
    simp [field]
  simp [constraintTarget, renderPaths, path, field, others, named.selectorTable_eq,
    List.filterMap_map, kept]

section Constraints

variable (keyName : String → String) (byReference : Relation → Bool)

def keyConstraint (k : String × List String) : KeyConstraint := ⟨keyName k.1, k.1, k.2, true⟩

theorem isTrue_true : isTrue "true" = true := by decide

theorem isPrimaryKey?_renderKey (k : String × List String) :
    isPrimaryKey? (renderKey keyName k) = some true := by
  simp [isPrimaryKey?, renderKey, annotation?, Element.attributeIn?, schemaElement, noted, plain,
    isSchemaElement, Element.isNamed, isTrue_true]

theorem isPrimaryKey?_relationElement (r : Relation) :
    isPrimaryKey? (relationElement keyName byReference r) = none := by
  unfold relationElement
  cases byReference r with
  | true => simp [isPrimaryKey?, renderReference]
  | false =>
    simp [isPrimaryKey?, renderRelationship, isSchemaElement, Element.isNamed]

theorem readRelation?_renderKey (keys : List KeyConstraint) (k : String × List String) :
    readRelation? keys (renderKey keyName k) = .ok none := by
  have other : (renderKey keyName k).isNamed annotationUri "Relationship" = false := by
    simp [renderKey, schemaElement, Element.isNamed, schemaUri, annotationUri]
  have unique : isSchemaElement (renderKey keyName k) "keyref" = false := by
    simp [renderKey]
  simp [readRelation?, unique, other]

theorem readKey_renderKey {k : String × List String} (constraint : IsLegible (keyName k.1))
    (table : IsLegible k.1) (columns : ∀ n ∈ k.2, IsLegible n) :
    readKey (renderKey keyName k) true = .ok (keyConstraint keyName k) := by
  have named : (renderKey keyName k).attribute? "name" = some (keyName k.1) := by
    simp [renderKey, schemaElement, Element.attribute?, plain]
  have target : constraintTarget (renderKey keyName k) (keyName k.1) = .ok (k.1, k.2) :=
    constraintTarget_renderPaths table columns
  unfold readKey
  rw [required_of_attribute? _ named constraint.isBlankText_eq]
  simp only [bind, Except.bind, target]
  rfl

theorem readRelation?_renderReference {keys : List KeyConstraint} {r : Relation} {k : KeyConstraint}
    (found : keys.find? (·.name == keyName r.parentTable) = some k)
    (table : k.table = r.parentTable) (columns : k.columns = r.parentColumns)
    (constraint : IsLegible (keyName r.parentTable)) (named : IsLegible r.name)
    (child : IsLegible r.childTable) (childColumns : ∀ n ∈ r.childColumns, IsLegible n) :
    readRelation? keys (renderReference keyName r) = .ok (some r) := by
  have name : (renderReference keyName r).attribute? "name" = some r.name := by
    simp [renderReference, schemaElement, Element.attribute?, plain]
  have refer : (renderReference keyName r).attribute? "refer" = some (keyName r.parentTable) := by
    simp [renderReference, schemaElement, Element.attribute?, plain]
  have target : constraintTarget (renderReference keyName r) r.name =
      .ok (r.childTable, r.childColumns) :=
    constraintTarget_renderPaths child childColumns
  have reference : isSchemaElement (renderReference keyName r) "keyref" = true := by
    simp [renderReference]
  have read : readKeyReference keys (renderReference keyName r) = .ok r := by
    unfold readKeyReference
    rw [required_of_attribute? _ name named.isBlankText_eq,
      required_of_attribute? _ refer constraint.isBlankText_eq]
    simp only [bind, Except.bind, constraint.localName_eq, found, target, table, columns]
    rfl
  rw [readRelation?, if_pos reference, read]
  rfl

theorem readRelation?_renderRelationship (keys : List KeyConstraint) {r : Relation}
    (named : IsLegible r.name) (parentColumns : ∀ n ∈ r.parentColumns, IsLegible n)
    (childColumns : ∀ n ∈ r.childColumns, IsLegible n) :
    readRelation? keys (renderRelationship r) = .ok (some r) := by
  have name : (renderRelationship r).attribute? "name" = some r.name := by
    simp [renderRelationship, Element.attribute?, plain]
  have other : isSchemaElement (renderRelationship r) "keyref" = false := by
    simp [renderRelationship, isSchemaElement, Element.isNamed]
  have annotated : (renderRelationship r).isNamed annotationUri "Relationship" = true := by
    simp [renderRelationship, Element.isNamed]
  have parts : annotation? (renderRelationship r) "parent" = some r.parentTable ∧
      annotation? (renderRelationship r) "child" = some r.childTable ∧
      annotation? (renderRelationship r) "parentkey" =
        some (String.intercalate " " r.parentColumns) ∧
      annotation? (renderRelationship r) "childkey" =
        some (String.intercalate " " r.childColumns) := by
    simp [renderRelationship, annotation?, Element.attributeIn?, plain, noted]
  obtain ⟨parent, child, parentKey, childKey⟩ := parts
  have read : readRelationship (renderRelationship r) = .ok r := by
    unfold readRelationship
    rw [required_of_attribute? _ name named.isBlankText_eq]
    simp only [bind, Except.bind, parent, child, parentKey, childKey,
      keyList_intercalate parentColumns, keyList_intercalate childColumns]
    rfl
  rw [readRelation?, other, annotated, read]
  rfl

def unkeyed (t : Table) : Table := { t with primaryKey := none }

theorem setKey?_append {k : KeyConstraint} {before : List Table} (after : List Table) {t : Table}
    (apart : ∀ u ∈ before, u.name ≠ k.table) (here : t.name = k.table)
    (key : t.primaryKey = some k.columns) :
    setKey? k (before ++ unkeyed t :: after) = some (before ++ t :: after) := by
  induction before with
  | nil =>
    have same : { unkeyed t with primaryKey := some k.columns } = t := by
      rw [← key]
      rfl
    have found : ((unkeyed t).name == k.table) = true := beq_iff_eq.mpr here
    have bare : (unkeyed t).primaryKey.isNone = true := rfl
    rw [List.nil_append, setKey?, if_pos found, if_pos bare, same]
    rfl
  | cons u us ih =>
    rw [List.forall_mem_cons] at apart
    simp [setKey?, apart.1, ih apart.2]

/-- Each declared key is given back to its table. -/
theorem applyKeys_declared (before : List Table) {ts : List Table}
    (apart : ((before ++ ts).map (·.name)).Nodup) :
    applyKeys (before ++ ts.map unkeyed)
      ((ts.filterMap fun t => t.primaryKey.map (t.name, ·)).map (keyConstraint keyName)) =
        .ok (before ++ ts) := by
  induction ts generalizing before with
  | nil => simp [applyKeys]
  | cons t ts ih =>
    have step : before ++ t :: ts = (before ++ [t]) ++ ts := by simp
    have rest := ih (before ++ [t]) (step ▸ apart)
    cases key : t.primaryKey with
    | none =>
      have same : unkeyed t = t := by
        rw [unkeyed, ← key]
      simpa [key, same] using rest
    | some columns =>
      have others : ∀ u ∈ before, u.name ≠ t.name := by
        intro u hu same
        rw [List.map_append, List.nodup_append] at apart
        exact apart.2.2 u.name (List.mem_map_of_mem hu) t.name (by simp) same
      have set := setKey?_append (k := keyConstraint keyName (t.name, columns)) (ts.map unkeyed)
        others rfl key
      simp only [List.map_cons, List.filterMap_cons, key, Option.map_some, applyKeys, set]
      simpa using rest

theorem firstOfName_of_nodup {seen : List String} {rs : List Relation}
    (fresh : ∀ r ∈ rs, r.name ∉ seen) (apart : (rs.map (·.name)).Nodup) :
    firstOfName seen rs = rs := by
  induction rs generalizing seen with
  | nil => rfl
  | cons r rs ih =>
    rw [List.forall_mem_cons] at fresh
    rw [List.map_cons, List.nodup_cons] at apart
    have later : ∀ q ∈ rs, q.name ∉ r.name :: seen := by
      intro q hq
      rw [List.mem_cons, not_or]
      exact ⟨fun same => apart.1 (List.mem_map.mpr ⟨q, hq, same⟩), fresh.2 q hq⟩
    simp [firstOfName, fresh.1, ih later apart.2]

end Constraints

/-! ### Schemas -/

section Schemas

variable {keyName : String → String} {byReference : Relation → Bool} {s : Schema}

theorem mem_declaredKeys {k : String × List String} :
    k ∈ declaredKeys s ↔ ∃ t ∈ s.tables, t.name = k.1 ∧ t.primaryKey = some k.2 := by
  rw [declaredKeys, List.mem_filterMap]
  constructor
  · rintro ⟨t, ht, hk⟩
    obtain ⟨columns, key, rfl⟩ := Option.map_eq_some_iff.mp hk
    exact ⟨t, ht, rfl, key⟩
  · rintro ⟨t, ht, name, key⟩
    exact ⟨t, ht, by rw [key, name]; rfl⟩

theorem readDataset_render (d : Declarations) (named : IsLegible s.name) :
    readDataset d (render keyName byReference s) = .ok (s.name, s.tables.map renderTable) := by
  have name : (renderDataset keyName byReference s).attribute? "name" = some s.name := by
    simp [renderDataset, schemaElement, Element.attribute?, plain]
  have dataset : annotation? (renderDataset keyName byReference s) "IsDataSet" = some "true" := by
    simp [renderDataset, schemaElement, annotation?, Element.attributeIn?, plain, noted]
  have element : isSchemaElement (renderDataset keyName byReference s) "element" = true := by
    simp [renderDataset]
  let choice := schemaElement "choice" [] (s.tables.map renderTable)
  have content : d.complexTypeOf? (renderDataset keyName byReference s) =
      some (schemaElement "complexType" [] [choice]) := by
    simp [Declarations.complexTypeOf?, renderDataset, choice]
  have tables := particles_group (.inr rfl) s.tables fun t => particlesOf_element
    [plain "name" t.name] [tableContent t]
  have found : datasetElement? d [renderDataset keyName byReference s] =
      some (renderDataset keyName byReference s) := by
    simp [datasetElement?, dataset, isTrue_true]
  unfold readDataset
  simp only [render, children_schemaElement, List.filter_cons, element, if_true, List.filter_nil,
    List.isEmpty_cons, Bool.false_eq_true, if_false, found,
    required_of_attribute? _ name named.isBlankText_eq, bind, Except.bind, content]
  rw [Option.map_some, Option.getD_some]
  exact congrArg (fun ts => Except.ok (s.name, ts)) tables

variable (h : IsRenderable keyName byReference s)
  (solid : ∀ n ∈ namesOf s, oghamSpace ∉ n.toList)
include h solid

theorem legible_of_mem {n : String} (hn : n ∈ namesOf s) : IsLegible n :=
  isLegible_of_isNcName (h.names n hn) (solid n hn)

theorem legible_table {t : Table} (ht : t ∈ s.tables) : ∀ n ∈ tableNames t, IsLegible n := by
  intro n hn
  have mem : n ∈ s.tables.flatMap tableNames := List.mem_flatMap.mpr ⟨t, ht, hn⟩
  exact legible_of_mem h solid (by simp [namesOf, mem])

theorem legible_relation {r : Relation} (hr : r ∈ s.relations) :
    ∀ n ∈ relationNames r, IsLegible n := by
  intro n hn
  have mem : n ∈ s.relations.flatMap relationNames := List.mem_flatMap.mpr ⟨r, hr, hn⟩
  exact legible_of_mem h solid (by simp [namesOf, mem])

theorem legible_declaredKey {k : String × List String} (hk : k ∈ declaredKeys s) :
    IsLegible (keyName k.1) ∧ IsLegible k.1 ∧ ∀ n ∈ k.2, IsLegible n := by
  obtain ⟨t, ht, name, key⟩ := mem_declaredKeys.mp hk
  have legible := legible_table h solid ht
  refine ⟨name ▸ h.keyNames t ht, name ▸ legible t.name (by simp [tableNames]), fun n hn => ?_⟩
  exact legible n (by simp [tableNames, Table.keyColumns, key, hn])

/-- The document's keys are the declared ones, in order. -/
theorem readKeys_render :
    readKeys (render keyName byReference s) =
      .ok ((declaredKeys s).map (keyConstraint keyName)) := by
  have keys : ((declaredKeys s).map (renderKey keyName)).filterMap
      (fun e => (isPrimaryKey? e).map (e, ·)) =
        (declaredKeys s).map fun k => (renderKey keyName k, true) := by
    rw [List.filterMap_map, ← List.filterMap_eq_map]
    exact List.filterMap_congr fun k _ => by simp [isPrimaryKey?_renderKey]
  have relations : (s.relations.map (relationElement keyName byReference)).filterMap
      (fun e => (isPrimaryKey? e).map (e, ·)) = [] := by
    rw [List.filterMap_eq_nil_iff]
    intro e he
    obtain ⟨r, -, rfl⟩ := List.mem_map.mp he
    rw [isPrimaryKey?_relationElement, Option.map_none]
  rw [readKeys_eq, constraintsIn_render, List.filterMap_append, keys, relations, List.append_nil]
  apply mapM_map_eq_ok
  intro k hk
  obtain ⟨constraint, table, columns⟩ := legible_declaredKey h solid hk
  exact readKey_renderKey keyName constraint table columns

omit solid in
/-- A constraint's name leads to the key of its table. -/
theorem find?_keyConstraint {t : Table} {columns : List String} (ht : t ∈ s.tables)
    (key : t.primaryKey = some columns) :
    ((declaredKeys s).map (keyConstraint keyName)).find? (·.name == keyName t.name) =
      some (keyConstraint keyName (t.name, columns)) := by
  have member : keyConstraint keyName (t.name, columns) ∈
      (declaredKeys s).map (keyConstraint keyName) :=
    List.mem_map_of_mem (mem_declaredKeys.mpr ⟨t, ht, rfl, key⟩)
  cases found : ((declaredKeys s).map (keyConstraint keyName)).find? (·.name == keyName t.name) with
  | none =>
    have absent := List.find?_eq_none.mp found _ member
    exact absurd (beq_self_eq_true (keyName t.name)) absent
  | some k =>
    obtain ⟨⟨table, others⟩, hk, rfl⟩ := List.mem_map.mp (List.mem_of_find?_eq_some found)
    obtain ⟨u, hu, name, key'⟩ := mem_declaredKeys.mp hk
    have sameKeyName : keyName table = keyName t.name := by
      simpa [keyConstraint] using List.find?_some found
    have sameName : u.name = t.name := h.keysApart u hu t ht (name ▸ sameKeyName)
    obtain rfl : u = t := List.inj_on_of_nodup_map h.tablesApart hu ht sameName
    obtain rfl : u.name = table := name
    obtain rfl : columns = others := Option.some.inj (key.symm.trans key')
    rfl

theorem readRelation?_relationElement {r : Relation} (hr : r ∈ s.relations) :
    readRelation? ((declaredKeys s).map (keyConstraint keyName))
      (relationElement keyName byReference r) = .ok (some r) := by
  have legible := legible_relation h solid hr
  have named : IsLegible r.name := legible r.name (by simp [relationNames])
  have child : IsLegible r.childTable := legible r.childTable (by simp [relationNames])
  have parentColumns : ∀ n ∈ r.parentColumns, IsLegible n :=
    fun n hn => legible n (by simp [relationNames, hn])
  have childColumns : ∀ n ∈ r.childColumns, IsLegible n :=
    fun n hn => legible n (by simp [relationNames, hn])
  unfold relationElement
  cases reference : byReference r with
  | false => exact readRelation?_renderRelationship _ named parentColumns childColumns
  | true =>
    obtain ⟨t, ht, name, key⟩ := h.references r hr reference
    have found := find?_keyConstraint h ht key
    have constraint := h.keyNames t ht
    rw [name] at found constraint
    exact readRelation?_renderReference keyName found rfl rfl constraint named child childColumns

theorem readRelations_render :
    readRelations ((declaredKeys s).map (keyConstraint keyName)) (render keyName byReference s) =
      .ok s.relations := by
  let keys := (declaredKeys s).map (keyConstraint keyName)
  have read : (constraintsIn (render keyName byReference s)).mapM (readRelation? keys) =
      .ok ((declaredKeys s).map (fun _ => none) ++ s.relations.map some) := by
    rw [constraintsIn_render, mapM_eq_ok_iff]
    apply List.rel_append
    · rw [← mapM_eq_ok_iff]
      exact mapM_map_eq_ok fun k _ => readRelation?_renderKey keyName keys k
    · rw [← mapM_eq_ok_iff]
      exact mapM_map_eq_ok fun r hr => readRelation?_relationElement h solid hr
  have first : firstOfName [] s.relations = s.relations :=
    firstOfName_of_nodup (by simp) h.relationsApart
  rw [readRelations_eq read, List.filterMap_append, List.filterMap_map, List.filterMap_map]
  simpa [Function.comp_def] using first

/-- A document that a schema is rendered as is read as the schema, if no name in it holds the one
character of names that counts as white space. -/
theorem readSchema_render : readSchema (render keyName byReference s) = .ok s := by
  have root : isSchemaElement (render keyName byReference s) "schema" = true := by simp [render]
  have named : IsLegible s.name := legible_of_mem h solid (by simp [namesOf])
  have complexTypes : (Declarations.of (render keyName byReference s)).complexTypes = [] := by
    simp [Declarations.of, declared, render, renderDataset]
  have tables : (s.tables.map renderTable).mapM
      (readTables (Declarations.of (render keyName byReference s))) =
        .ok (s.tables.map fun t => [unkeyed t]) := by
    apply mapM_map_eq_ok
    intro t ht
    have legible := legible_table h solid ht
    apply readTables_renderTable t complexTypes (legible t.name (by simp [tableNames]))
    intro c hc
    have mem : c.name ∈ t.columns.map (·.name) := List.mem_map_of_mem hc
    exact ⟨legible c.name (by simp [tableNames, mem]), h.columns t ht c hc⟩
  have flat : (s.tables.map fun t => [unkeyed t]).flatten = s.tables.map unkeyed := by
    rw [← List.flatMap_def, ← List.map_eq_flatMap]
  have primary : ((declaredKeys s).map (keyConstraint keyName)).filter (·.isPrimary) =
      (declaredKeys s).map (keyConstraint keyName) := by
    rw [List.filter_eq_self]
    intro k hk
    obtain ⟨_, -, rfl⟩ := List.mem_map.mp hk
    rfl
  have keyed : applyKeys (s.tables.map unkeyed) ((declaredKeys s).map (keyConstraint keyName)) =
      .ok s.tables :=
    applyKeys_declared keyName [] h.tablesApart
  unfold readSchema
  simp only [root, readDataset_render _ named, tables, flat, readKeys_render h solid, primary,
    keyed, readRelations_render h solid, bind, Except.bind]
  rfl

end Schemas

/-- A reference and a relationship, a bound, and a type that has no counterpart. -/
theorem readSchema_render_shop :
    let s : Schema := ⟨"shop",
      [⟨"item", [⟨"id", some .guid, none, -1, false⟩, ⟨"note", some .string, none, 80, true⟩],
          some ["id"]⟩,
        ⟨"line", [⟨"item", some .guid, none, -1, true⟩, ⟨"rate", none, some "xs:float", 4, true⟩],
          none⟩],
      [⟨"lines", "item", ["id"], "line", ["item"]⟩, ⟨"rates", "item", ["id"], "line", ["rate"]⟩]⟩
    let keyName (t : String) := t ++ "_key"
    let byReference (r : Relation) := r.name == "lines"
    IsRenderable keyName byReference s ∧ (∀ n ∈ namesOf s, oghamSpace ∉ n.toList) ∧
      readSchema (render keyName byReference s) = .ok s := by
  intro s keyName byReference
  have renderable : IsRenderable keyName byReference s := by
    refine ⟨by decide +kernel, ?_, by decide +kernel, by decide +kernel, by decide +kernel, ?_,
      by decide +kernel⟩
    · have named : ∀ t ∈ s.tables, isNcName (keyName t.name) = true ∧
          oghamSpace ∉ (keyName t.name).toList := by decide +kernel
      exact fun t ht => isLegible_of_isNcName (named t ht).1 (named t ht).2
    · have unknown : annotatedType? "xs:float" = none := by decide +kernel
      simp [s, IsExpressible, unknown]
  have solid : ∀ n ∈ namesOf s, oghamSpace ∉ n.toList := by decide +kernel
  exact ⟨renderable, solid, readSchema_render renderable solid⟩

/-- A key column whose name ends in the character that counts as white space. -/
theorem readSchema_render_ogham :
    let s : Schema :=
      ⟨"s", [⟨"t", [⟨"c\u1680", some .int32, none, -1, false⟩], some ["c\u1680"]⟩], []⟩
    let keyName (t : String) := t ++ "_key"
    IsRenderable keyName (fun _ => false) s ∧
      readSchema (render keyName (fun _ => false) s) ≠ .ok s := by
  intro s keyName
  constructor
  · refine ⟨by decide +kernel, ?_, by decide +kernel, by decide +kernel, by decide +kernel, ?_,
      by decide +kernel⟩
    · have named : ∀ t ∈ s.tables, isNcName (keyName t.name) = true ∧
          oghamSpace ∉ (keyName t.name).toList := by decide +kernel
      exact fun t ht => isLegible_of_isNcName (named t ht).1 (named t ht).2
    · simp [s, IsExpressible]
  · intro same
    have found := congrArg Except.toOption same
    revert found
    decide +kernel

end Tabular.Dataset
