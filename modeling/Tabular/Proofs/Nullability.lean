import Tabular.Proofs.TableTrees

/-!
Which columns take null. A declaration's own annotation decides, then whether it takes nil, and
last whether it may be left out. Whether it may be left out is read off the declaration itself and
not off the particle that refers to it, so that a declaration that is moved away and referred to no
longer takes null where only its occurrence said so.
-/
namespace Tabular.Dataset

open Markup

def isOptional (e : Element) : Bool := (e.attribute? "minOccurs").any (trimmed · == "0")

def isNillable (e : Element) : Bool := (e.attribute? "nillable").any isTrue

/-- Does a declaration take null, if an occurrence of it says whether it may be left out? -/
def takesNull (declaration occurrence : Element) : Bool :=
  match annotation? declaration "AllowDBNull" with
  | some value => isTrue value
  | none => isOptional occurrence || isNillable declaration

def IsUndecided (declaration : Element) : Prop :=
  annotation? declaration "AllowDBNull" = none ∧ isNillable declaration = false

theorem isNullable_eq (e : Element) : isNullable e false = takesNull e e := by
  unfold isNullable takesNull
  rfl

theorem takesNull_eq_iff {declaration e o : Element} :
    takesNull declaration e = takesNull declaration o ↔
      (IsUndecided declaration → isOptional e = isOptional o) := by
  unfold takesNull IsUndecided
  cases annotation? declaration "AllowDBNull" with
  | some value => simp
  | none => cases isNillable declaration <;> simp

section Columns

variable {d d' : Declarations} {e : Element} {p : Particle} {c : Column} {table : String}

theorem nullable_of_readColumn (h : readColumn d table false e = .ok c) :
    c.nullable = takesNull e e := by
  obtain ⟨name, -, h⟩ := bind_eq_ok_iff.mp h
  obtain ⟨simple, -, h⟩ := bind_eq_ok_iff.mp h
  obtain rfl := Except.ok.inj h
  exact isNullable_eq e

/-- A declaration that stands in a table is moved to the top of a document with the same types, and
a particle is left in its place that refers to it and says what it said of how often it occurs. -/
structure Moves (d d' : Declarations) (e : Element) (p : Particle) : Prop where
  complexTypes : d'.complexTypes = d.complexTypes
  simpleTypes : d'.simpleTypes = d.simpleTypes
  refers : d'.resolve p.element = .ok p.declaration
  occurrence : p.element.attribute? "minOccurs" = e.attribute? "minOccurs"
  attributes : ∀ name, name ≠ "minOccurs" → p.declaration.attribute? name = e.attribute? name
  annotations : ∀ name, annotation? p.declaration name = annotation? e name
  namespaces : ∀ key, p.declaration.namespace? key = e.namespace? key
  children : p.declaration.children = e.children

/-- Simple types are followed through the simple types of a document alone. -/
theorem restrictionType_congr (same : d'.simpleTypes = d.simpleTypes) (levels : Nat)
    (simple : Element) : restrictionType d' levels simple = restrictionType d levels simple := by
  induction levels generalizing simple with
  | zero => rfl
  | succ levels ih =>
    unfold restrictionType
    simp only [same, ih]

namespace Moves

variable (m : Moves d d' e p)
include m

theorem complexTypeOf?_eq : d'.complexTypeOf? p.declaration = d.complexTypeOf? e := by
  unfold Declarations.complexTypeOf?
  rw [m.children, m.attributes "type" (by decide), m.complexTypes]

theorem simpleTypeOf_eq : simpleTypeOf d' p.declaration = simpleTypeOf d e := by
  unfold simpleTypeOf namedType isBuiltinName
  simp only [m.children, m.attributes "type" (by decide), m.namespaces, m.simpleTypes,
    restrictionType_congr m.simpleTypes]

theorem columnType_eq (simple : SimpleType) :
    columnType p.declaration simple = columnType e simple := by
  unfold columnType
  rw [m.annotations]

/-- All of a column is as it was, but perhaps for whether it takes null. -/
theorem readColumn_eq (table : String) : readColumn d' table false p.declaration =
    (readColumn d table false e).map fun c =>
      { c with nullable := takesNull p.declaration p.declaration } := by
  have named (what : String) : required p.declaration "name" what = required e "name" what := by
    unfold required
    rw [m.attributes "name" (by decide)]
  unfold readColumn
  rw [named, m.simpleTypeOf_eq, isNullable_eq]
  cases required e "name" s!"column of table {table}" with
  | error f => rfl
  | ok name =>
    cases simpleTypeOf d e with
    | error f => rfl
    | ok simple =>
      simp only [bind, Except.bind, m.columnType_eq]
      rfl

theorem takesNull_eq (occurrence : Element) :
    takesNull p.declaration occurrence = takesNull e occurrence := by
  unfold takesNull isNillable
  rw [m.annotations, m.attributes "nillable" (by decide)]

theorem isOptional_eq : isOptional p.element = isOptional e := by
  unfold isOptional
  rw [m.occurrence]

/-- The column stays the same exactly if what moved is decided, or may be left out like before. -/
theorem readColumn_eq_ok_iff (read : readColumn d table false e = .ok c) :
    readColumn d' table false p.declaration = .ok c ↔
      (IsUndecided e → isOptional p.declaration = isOptional p.element) := by
  rw [m.readColumn_eq, read, m.isOptional_eq, ← takesNull_eq_iff, ← m.takesNull_eq,
    ← nullable_of_readColumn read]
  constructor
  · intro same
    exact congrArg Column.nullable (Except.ok.inj same)
  · intro same
    show Except.ok { c with nullable := _ } = Except.ok c
    rw [same]

end Moves

end Columns

/-- A simple particle gives a column that takes null as its declaration says. That is what the
particle says, if it is the declaration, and in all other cases exactly if the declaration is
decided or may be left out like the particle. So a column stays the same when its declaration is
moved behind a reference, exactly if the declaration is decided or may be left out like before. -/
theorem readSchema_nullable {root : Element} {s : Schema} (h : readSchema root = .ok s) :
    let d := Declarations.of root
    (∃ forest : List TableTree, IsDatasetForest root s.name forest ∧
      List.Forall₂ (TableNode.Makes d) (forest.flatMap TableTree.preorder) s.tables ∧
      ∀ (i : Nat) (n : TableNode), (forest.flatMap TableTree.preorder)[i]? = some n →
        ∃ t, s.tables[i]? = some t ∧
          ∀ (j : Nat) (p : Particle), (n.simple d)[j]? = some p → ∃ c, t.columns[j]? = some c ∧
            c.nullable = takesNull p.declaration p.declaration ∧
            (p.element.attribute? "ref" = none → c.nullable = takesNull p.declaration p.element) ∧
            (c.nullable = takesNull p.declaration p.element ↔
              (IsUndecided p.declaration → isOptional p.declaration = isOptional p.element))) ∧
    ∀ d' e p, Moves d d' e p →
      d'.complexTypeOf? p.declaration = d.complexTypeOf? e ∧
      ∀ table, readColumn d' table false p.declaration =
          ((readColumn d table false e).map fun c =>
            { c with nullable := takesNull p.declaration p.declaration }) ∧
        ∀ c, readColumn d table false e = .ok c →
          (readColumn d' table false p.declaration = .ok c ↔
            (IsUndecided e → isOptional p.declaration = isOptional p.element)) := by
  intro d
  constructor
  · obtain ⟨forest, isForest, makes⟩ := exists_datasetForest h
    refine ⟨forest, isForest, makes, fun i n hn => ?_⟩
    obtain ⟨t, ht, made⟩ := forall₂_getElem? makes hn
    refine ⟨t, ht, fun j p hp => ?_⟩
    obtain ⟨c, hc, read⟩ := made.exists_column hp
    have nullable := nullable_of_readColumn read
    refine ⟨c, hc, nullable, fun own => ?_, ?_⟩
    · have isRead := isForest.isRead (List.mem_of_getElem? hn)
      have content := List.mem_of_mem_filter (List.mem_of_getElem? hp)
      rw [nullable, isRead.declaration_eq content own]
    · rw [nullable]
      exact takesNull_eq_iff
  · intro d' e p m
    exact ⟨m.complexTypeOf?_eq, fun table => ⟨m.readColumn_eq table, fun c read =>
      m.readColumn_eq_ok_iff read⟩⟩

def diaryNote (occurrence : List Attribute) : Element :=
  schemaElement "element" ([plain "name" "note", plain "type" "xs:string"] ++ occurrence) []

def diaryReference : Particle where
  element := schemaElement "element" [plain "ref" "note", plain "minOccurs" "0"] []
  declaration := diaryNote []

def diary (particle : Element) : Element :=
  let table (name : String) (attributes : List Attribute) (content : Element) : Element :=
    schemaElement "element" (plain "name" name :: attributes)
      [schemaElement "complexType" [] [schemaElement "sequence" [] [content]]]
  schemaElement "schema" []
    [table "diary" [noted "IsDataSet" "true"] (table "entry" [] particle), diaryNote []]

def diarySchema (nullable : Bool) : Schema :=
  ⟨"diary", [⟨"entry", [⟨"note", some .string, none, -1, nullable⟩], none⟩], []⟩

theorem moves_diaryNote (here there : Element) :
    Moves (Declarations.of (diary here)) (Declarations.of (diary there))
      (diaryNote [plain "minOccurs" "0"]) diaryReference where
  complexTypes := rfl
  simpleTypes := rfl
  refers := rfl
  occurrence := rfl
  attributes name other := by
    have last : ("minOccurs" == name) = false := beq_eq_false_iff_ne.mpr other.symm
    simp [diaryReference, diaryNote, schemaElement, plain, Element.attribute?, List.find?_cons,
      last]
  annotations name := by
    simp [diaryReference, diaryNote, schemaElement, plain, annotation?, Element.attributeIn?]
  namespaces _ := rfl
  children := rfl

theorem readSchema_nullable_diary :
    let root := diary diaryReference.element
    let d := Declarations.of root
    let s := diarySchema false
    let note := diaryNote [plain "minOccurs" "0"]
    readSchema root = .ok s ∧
    (∃ forest : List TableTree, IsDatasetForest root s.name forest ∧
      List.Forall₂ (TableNode.Makes d) (forest.flatMap TableTree.preorder) s.tables ∧
      ∀ (i : Nat) (n : TableNode), (forest.flatMap TableTree.preorder)[i]? = some n →
        ∃ t, s.tables[i]? = some t ∧
          ∀ (j : Nat) (p : Particle), (n.simple d)[j]? = some p → ∃ c, t.columns[j]? = some c ∧
            c.nullable = takesNull p.declaration p.declaration ∧
            (p.element.attribute? "ref" = none → c.nullable = takesNull p.declaration p.element) ∧
            (c.nullable = takesNull p.declaration p.element ↔
              (IsUndecided p.declaration → isOptional p.declaration = isOptional p.element))) ∧
    (readColumn d "entry" false diaryReference.declaration =
        .ok ⟨"note", some .string, none, -1, true⟩ ↔
      (IsUndecided note →
        isOptional diaryReference.declaration = isOptional diaryReference.element)) := by
  intro root d s note
  have read : readSchema root = .ok s := eq_ok_of_toOption (by decide +kernel)
  obtain ⟨law, moved⟩ := readSchema_nullable read
  refine ⟨read, law, ?_⟩
  exact ((moved _ _ _ (moves_diaryNote _ diaryReference.element)).2 "entry").2 _
    (eq_ok_of_toOption (by decide +kernel))

/-- The same note takes null in place, and does not behind a reference that may be left out. -/
theorem readSchema_forgets_occurrence :
    takesNull diaryReference.declaration diaryReference.element = true ∧
    readSchema (diary (diaryNote [plain "minOccurs" "0"])) = .ok (diarySchema true) ∧
    readSchema (diary diaryReference.element) = .ok (diarySchema false) :=
  ⟨by decide +kernel, eq_ok_of_toOption (by decide +kernel), eq_ok_of_toOption (by decide +kernel)⟩

end Tabular.Dataset
