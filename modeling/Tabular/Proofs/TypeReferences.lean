import Tabular.Proofs.TableTrees

/-!
References to the types of XML Schema itself. An element that names a complex type of the document
by its local name is a table, whatever the name's prefix stands for; only where there is no complex
type of that name does an element with a built-in type give a column, which simple types of the same
name do not touch. So one more simple type leaves the trees of tables and the columns of built-in
types as they were, and so does one more complex type of a name that no element gives as its type.
-/
namespace Tabular.Dataset

open Markup

/-! ### Elements of a document -/

inductive IsIn (root : Element) : Element → Prop where
  | root : IsIn root root
  | child {parent e : Element} (above : IsIn root parent) (mem : e ∈ parent.children) : IsIn root e

/-- The particles and the declarations of elements in a document. -/
structure IsElementIn (root e : Element) : Prop where
  isIn : IsIn root e
  element : isSchemaElement e "element" = true

section Inside

variable {root e c : Element}

theorem isElementIn_of_contributes {es ps : List Element} (h : Contributes es ps)
    (inside : ∀ e ∈ es, IsIn root e) : ∀ p ∈ ps, IsElementIn root p := by
  induction h with
  | nil => exact fun p hp => absurd hp List.not_mem_nil
  | element element _ ih =>
    obtain ⟨head, tail⟩ := List.forall_mem_cons.mp inside
    exact List.forall_mem_cons.mpr ⟨⟨head, element⟩, ih tail⟩
  | group _ _ _ ihInside ihRest =>
    obtain ⟨head, tail⟩ := List.forall_mem_cons.mp inside
    intro p hp
    rcases List.mem_append.mp hp with hp | hp
    · exact ihInside (fun e he => head.child he) p hp
    · exact ihRest tail p hp
  | other _ _ _ ih => exact ih (List.forall_mem_cons.mp inside).2

theorem isElementIn_of_mem_particles (hc : IsIn root c) {p : Element} (hp : p ∈ particles c) :
    IsElementIn root p :=
  isElementIn_of_contributes (contributes_iff.mpr rfl) (fun _ he => hc.child he) p hp

/-- What is declared stands at the top. -/
theorem of_lookUp_declared {kind name : String} (h : lookUp (declared root kind) name = some e) :
    e ∈ root.children ∧ isSchemaElement e kind = true := by
  obtain ⟨⟨n, declaration⟩, found, rfl⟩ := Option.map_eq_some_iff.mp h
  obtain ⟨x, hx, same⟩ :=
    List.mem_filterMap.mp (List.mem_reverse.mp (List.mem_of_find?_eq_some found))
  split at same
  · next isKind =>
    obtain ⟨_, -, same⟩ := Option.map_eq_some_iff.mp same
    obtain rfl := (Prod.mk.inj same).2
    exact ⟨hx, isKind⟩
  · cases same

theorem IsElementIn.resolve (he : IsElementIn root e) {target : Element}
    (h : (Declarations.of root).resolve e = .ok target) : IsElementIn root target := by
  unfold Declarations.resolve at h
  split at h
  · exact Except.ok.inj h ▸ he
  · split at h
    · next found =>
      obtain ⟨mem, element⟩ := of_lookUp_declared found
      exact Except.ok.inj h ▸ ⟨.child .root mem, element⟩
    · cases h

theorem IsElementIn.complexType (he : IsElementIn root e)
    (h : (Declarations.of root).complexTypeOf? e = some c) : IsIn root c := by
  unfold Declarations.complexTypeOf? at h
  split at h
  · next found =>
    exact Option.some.inj h ▸ he.isIn.child (List.mem_of_find?_eq_some found)
  · obtain ⟨_, -, found⟩ := Option.bind_eq_some_iff.mp h
    exact .child .root (of_lookUp_declared found).1

theorem isElementIn_of_mem_top :
    ∀ e ∈ root.children.filter (isSchemaElement · "element"), IsElementIn root e := by
  intro e he
  obtain ⟨mem, element⟩ := List.mem_filter.mp he
  exact ⟨.child .root mem, element⟩

theorem mem_of_datasetElement? {d : Declarations} {top : List Element}
    (h : datasetElement? d top = some e) : e ∈ top := by
  rcases Option.or_eq_some_iff.mp h with found | ⟨-, found⟩
  · exact List.mem_of_find?_eq_some found
  · exact List.mem_of_find?_eq_some found

theorem isElementIn_of_readDataset {name : String} {es : List Element}
    (h : readDataset (Declarations.of root) root = .ok (name, es)) :
    ∀ e ∈ es, IsElementIn root e := by
  unfold readDataset at h
  dsimp only at h
  split at h
  · cases h
  · split at h
    · next e found =>
      obtain ⟨_, -, h⟩ := bind_eq_ok_iff.mp h
      obtain rfl := (Prod.mk.inj (Except.ok.inj h)).2
      have he := isElementIn_of_mem_top e (mem_of_datasetElement? found)
      cases typed : (Declarations.of root).complexTypeOf? e with
      | none => exact fun p hp => absurd hp List.not_mem_nil
      | some c => exact fun p hp => isElementIn_of_mem_particles (he.complexType typed) hp
    · obtain rfl := (Prod.mk.inj (Except.ok.inj h)).2
      exact isElementIn_of_mem_top

/-- A table of a document has declarations of the document for its content. -/
theorem TableNode.IsRead.isElementIn {n : TableNode} (h : n.IsRead (Declarations.of root))
    (hn : IsElementIn root n.element) {p : Particle} (hp : p ∈ n.content) :
    IsElementIn root p.declaration := by
  have inside := isElementIn_of_contributes h.contributes
    fun e he => (hn.complexType h.typed).child he
  exact (inside _ (List.mem_map_of_mem hp)).resolve (h.denotes p hp)

theorem TableNode.IsRead.isElementIn_of_roots {n : TableNode}
    (h : n.IsRead (Declarations.of root)) (hn : IsElementIn root n.element)
    {inner : List TableTree}
    (roots : inner.map (·.table.element) = n.inner (Declarations.of root)) :
    ∀ t ∈ inner, IsElementIn root t.table.element := by
  intro t ht
  have isInner : t.table.element ∈ n.inner (Declarations.of root) :=
    roots ▸ List.mem_map_of_mem ht
  obtain ⟨p, hp, same⟩ := List.mem_map.mp (List.mem_of_mem_filter isInner)
  exact same ▸ h.isElementIn hn hp

/-- The tables of a tree are in the document if the one at its root is. -/
theorem TableTree.Unfolds.isElementIn {t : TableTree} (h : t.Unfolds (Declarations.of root))
    (ht : IsElementIn root t.table.element) {n : TableNode} (hn : n ∈ t.preorder) :
    IsElementIn root n.element := by
  induction h with
  | node table roots below ih =>
    rw [preorder, preorderAmong_eq_flatMap] at hn
    rcases List.mem_cons.mp hn with rfl | hn
    · exact ht
    · obtain ⟨u, hu, hn⟩ := List.mem_flatMap.mp hn
      exact ih u hu (table.isElementIn_of_roots ht roots u hu) hn

theorem isElementIn_of_mem_declarations {name : String} {elements : List Particle}
    (dataset : IsDataset root name (elements.map (·.element)))
    (denotes : ∀ p ∈ elements, (Declarations.of root).resolve p.element = .ok p.declaration) :
    ∀ e ∈ elements.map (·.declaration), IsElementIn root e := by
  intro e he
  obtain ⟨p, hp, rfl⟩ := List.mem_map.mp he
  exact (isElementIn_of_readDataset (isDataset_iff.mp dataset) _ (List.mem_map_of_mem hp)).resolve
    (denotes p hp)

theorem IsForest.mem_of_mem {d : Declarations} {es : List Element} {forest : List TableTree}
    (h : IsForest d es forest) {t : TableTree} (ht : t ∈ forest) : t.table.element ∈ es :=
  List.mem_of_mem_filter (h.roots ▸ List.mem_map_of_mem ht)

theorem IsDatasetForest.isElementIn {name : String} {forest : List TableTree}
    (h : IsDatasetForest root name forest) {n : TableNode}
    (hn : n ∈ forest.flatMap TableTree.preorder) : IsElementIn root n.element := by
  obtain ⟨elements, dataset, denotes, isForest⟩ := h
  obtain ⟨t, ht, hn⟩ := List.mem_flatMap.mp hn
  have inside := isElementIn_of_mem_declarations dataset denotes
  exact (isForest.unfolds t ht).isElementIn (inside _ (isForest.mem_of_mem ht)) hn

end Inside

/-! ### One more type -/

def NamesType (e : Element) (type : String) : Prop :=
  e.children.find? (isSchemaElement · "complexType") = none ∧ e.attribute? "type" = some type

/-- A document gets one more declaration at its top: of a simple type, or of a complex type whose
name no element of the document gives as its type. -/
structure AddsType (root root' : Element) (added : Element) : Prop where
  place : ∃ before after, root.children = before ++ after ∧
    root' = { root with children := before ++ added :: after }
  isType : isSchemaElement added "simpleType" = true ∨ isSchemaElement added "complexType" = true
  unnamed : isSchemaElement added "complexType" = true → ∀ e, IsElementIn root e →
    ∀ type, NamesType e type → added.attribute? "name" ≠ some (localName type)

namespace AddsType

variable {root root' added e : Element} (a : AddsType root root' added)
include a

/-- One more type is found under its own name only. -/
theorem lookUp_eq {kind name : String}
    (other : isSchemaElement added kind = true → added.attribute? "name" ≠ some name) :
    lookUp (declared root' kind) name = lookUp (declared root kind) name := by
  obtain ⟨before, after, children, rfl⟩ := a.place
  unfold lookUp declared
  rw [children, List.filterMap_append, List.filterMap_append, List.filterMap_cons]
  split
  · rfl
  · next entry same =>
    have skipped : (entry.1 == name) = false := by
      rw [← Bool.not_eq_true]
      intro named
      split at same
      · next isKind =>
        obtain ⟨n, hasName, rfl⟩ := Option.map_eq_some_iff.mp same
        exact other isKind (hasName.trans (congrArg some (beq_iff_eq.mp named)))
      · cases same
    rw [List.reverse_append, List.reverse_append, List.reverse_cons, List.append_assoc]
    simp only [List.find?_append, List.singleton_append, List.find?_cons, skipped]

theorem not_element : isSchemaElement added "element" = false := by
  rcases a.isType with h | h
  · exact isSchemaElement_eq_false h (by decide)
  · exact isSchemaElement_eq_false h (by decide)

theorem resolve_eq : (Declarations.of root').resolve e = (Declarations.of root).resolve e := by
  have elements (name : String) : lookUp (Declarations.of root').elements name =
      lookUp (Declarations.of root).elements name :=
    a.lookUp_eq fun element => absurd (a.not_element ▸ element) Bool.false_ne_true
  unfold Declarations.resolve
  simp only [elements]

theorem complexTypeOf?_eq (he : IsElementIn root e) :
    (Declarations.of root').complexTypeOf? e = (Declarations.of root).complexTypeOf? e := by
  unfold Declarations.complexTypeOf?
  split
  · rfl
  · next none =>
    cases type : e.attribute? "type" with
    | none => rfl
    | some type' => exact a.lookUp_eq fun complex => a.unnamed complex e he type' ⟨none, type⟩

/-! The same elements are tables, so the trees stay. -/

theorem inner_eq {n : TableNode} (h : n.IsRead (Declarations.of root))
    (hn : IsElementIn root n.element) :
    n.inner (Declarations.of root') = n.inner (Declarations.of root) := by
  refine List.filter_congr fun e he => ?_
  obtain ⟨p, hp, rfl⟩ := List.mem_map.mp he
  rw [a.complexTypeOf?_eq (h.isElementIn hn hp)]

theorem simple_eq {n : TableNode} (h : n.IsRead (Declarations.of root))
    (hn : IsElementIn root n.element) :
    n.simple (Declarations.of root') = n.simple (Declarations.of root) :=
  List.filter_congr fun p hp => by rw [a.complexTypeOf?_eq (h.isElementIn hn hp)]

theorem unfolds {t : TableTree} (h : t.Unfolds (Declarations.of root))
    (ht : IsElementIn root t.table.element) : t.Unfolds (Declarations.of root') := by
  induction h with
  | @node n inner table roots below ih =>
    have isRead : n.IsRead (Declarations.of root') :=
      ⟨(a.complexTypeOf?_eq ht).trans table.typed, table.contributes,
        fun p hp => a.resolve_eq.trans (table.denotes p hp)⟩
    exact .node isRead (roots.trans (a.inner_eq table ht).symm) fun u hu =>
      ih u hu (table.isElementIn_of_roots ht roots u hu)

theorem top_eq : root'.children.filter (isSchemaElement · "element") =
    root.children.filter (isSchemaElement · "element") := by
  obtain ⟨before, after, children, rfl⟩ := a.place
  rw [children, List.filter_append, List.filter_append, List.filter_cons, a.not_element]
  rfl

theorem holdsTables_eq (he : IsElementIn root e) :
    holdsTables (Declarations.of root') e = holdsTables (Declarations.of root) e := by
  unfold holdsTables
  rw [a.complexTypeOf?_eq he]
  cases typed : (Declarations.of root).complexTypeOf? e with
  | none => rfl
  | some c =>
    rw [Bool.eq_iff_iff, List.any_eq_true, List.any_eq_true]
    refine exists_congr fun p => and_congr_right fun hp => ?_
    rw [a.resolve_eq]
    cases resolved : (Declarations.of root).resolve p with
    | error f => rfl
    | ok target =>
      have inside := (isElementIn_of_mem_particles (he.complexType typed) hp).resolve resolved
      show Option.isSome _ = true ↔ Option.isSome _ = true
      rw [a.complexTypeOf?_eq inside]

theorem readDataset_eq : readDataset (Declarations.of root') root' =
    readDataset (Declarations.of root) root := by
  have top : ∀ e ∈ root.children.filter (isSchemaElement · "element"), IsElementIn root e :=
    isElementIn_of_mem_top
  have dataset : datasetElement? (Declarations.of root')
        (root.children.filter (isSchemaElement · "element")) =
      datasetElement? (Declarations.of root)
        (root.children.filter (isSchemaElement · "element")) :=
    congrArg _ (List.find?_congr fun e he => a.holdsTables_eq (top e he))
  have id : root'.attribute? "id" = root.attribute? "id" := by
    obtain ⟨_, _, _, rfl⟩ := a.place
    rfl
  unfold readDataset
  dsimp only
  rw [a.top_eq, dataset, id]
  cases found : datasetElement? (Declarations.of root)
      (root.children.filter (isSchemaElement · "element")) with
  | none => rfl
  | some e =>
    dsimp only
    rw [a.complexTypeOf?_eq (top e (mem_of_datasetElement? found))]

theorem isDatasetForest {name : String} {forest : List TableTree}
    (h : IsDatasetForest root name forest) : IsDatasetForest root' name forest := by
  obtain ⟨elements, dataset, denotes, isForest⟩ := h
  have inside := isElementIn_of_mem_declarations dataset denotes
  refine ⟨elements, isDataset_iff.mpr (a.readDataset_eq.trans (isDataset_iff.mp dataset)),
    fun p hp => a.resolve_eq.trans (denotes p hp), ?_, fun t ht => ?_⟩
  · rw [isForest.roots]
    exact List.filter_congr fun e he => by rw [a.complexTypeOf?_eq (inside e he)]
  · exact a.unfolds (isForest.unfolds t ht) (inside _ (isForest.mem_of_mem ht))

/-- The data set keeps its name. -/
theorem name_eq {name name' : String} {forest forest' : List TableTree}
    (h : IsDatasetForest root name forest) (h' : IsDatasetForest root' name' forest') :
    name' = name := by
  obtain ⟨_, dataset, -⟩ := a.isDatasetForest h
  obtain ⟨_, dataset', -⟩ := h'
  exact (dataset'.unique dataset).1

end AddsType

/-! ### Columns of built-in types -/

structure RefersToBuiltin (e : Element) (type : String) : Prop where
  names : NamesType e type
  builtin : isBuiltinName e type = true

/-- Has an element a built-in type, and no simple type inside it, which would go before? -/
structure HasBuiltin (e : Element) (type : String) : Prop extends RefersToBuiltin e type where
  simple : e.children.find? (isSchemaElement · "simpleType") = none

/-- The column type of an element with a built-in type: the one it is annotated with, or else the
counterpart of its type. -/
def builtinColumnType? (e : Element) (type : String) : Option ColumnType :=
  match annotation? e "DataType" with
  | some annotated => annotatedType? annotated
  | none => builtinType? (localName type)

/-- The column of an element with a built-in type. A type without a counterpart is kept by name. -/
def builtinColumn (e : Element) (type name : String) : Column where
  name
  type := builtinColumnType? e type
  sourceType := if (builtinColumnType? e type).isSome then none
    else some ((annotation? e "DataType").getD type)
  maxLength := -1
  nullable := isNullable e false

section Builtin

variable {d : Declarations} {e : Element} {type : String}

theorem RefersToBuiltin.isNone_complexTypeOf?_iff (h : RefersToBuiltin e type) :
    (d.complexTypeOf? e).isNone = true ↔ lookUp d.complexTypes (localName type) = none := by
  obtain ⟨⟨inner, named⟩, -⟩ := h
  unfold Declarations.complexTypeOf?
  rw [inner, named, Option.isNone_iff_eq_none]
  rfl

theorem columnType_builtin : columnType e ⟨type, some (localName type), -1⟩ =
    (builtinColumnType? e type).elim (.inr ((annotation? e "DataType").getD type)) .inl := by
  unfold columnType builtinColumnType?
  cases annotation? e "DataType" with
  | none =>
    simp only [Option.bind_some, Option.getD_none]
    cases builtinType? (localName type) <;> rfl
  | some annotated =>
    simp only [Option.getD_some]
    cases annotatedType? annotated <;> rfl

/-- The column is read without a look at the declarations of the document. -/
theorem HasBuiltin.readColumn_eq (h : HasBuiltin e type) (table : String) :
    readColumn d table false e =
      (required e "name" s!"column of table {table}").map (builtinColumn e type) := by
  have simple : simpleTypeOf d e = .ok ⟨type, some (localName type), -1⟩ := by
    unfold simpleTypeOf namedType
    rw [h.simple, h.names.2]
    exact if_pos h.builtin
  unfold readColumn
  rw [simple]
  cases required e "name" s!"column of table {table}" with
  | error f => rfl
  | ok name =>
    simp only [bind, Except.bind, columnType_builtin, builtinColumn, Except.map]
    cases builtinColumnType? e type <;> rfl

theorem attribute?_of_required {name what value : String} (h : required e name what = .ok value) :
    e.attribute? name = some value := by
  unfold required at h
  split at h
  · next found =>
    split at h
    · cases h
    · exact Except.ok.inj h ▸ found
  · cases h

theorem HasBuiltin.of_readColumn (h : HasBuiltin e type) {table : String} {c : Column}
    (read : readColumn d table false e = .ok c) :
    e.attribute? "name" = some c.name ∧ c = builtinColumn e type c.name := by
  rw [h.readColumn_eq] at read
  cases named : required e "name" s!"column of table {table}" with
  | error f =>
    rw [named] at read
    cases read
  | ok name =>
    rw [named] at read
    obtain rfl : builtinColumn e type name = c := Except.ok.inj read
    exact ⟨attribute?_of_required named, rfl⟩

end Builtin

def HasBuiltinColumns (d : Declarations) (nodes : List TableNode) (ts : List Table) : Prop :=
  ∀ (i : Nat) (n : TableNode), nodes[i]? = some n → ∃ t, ts[i]? = some t ∧
    ∀ (j : Nat) (p : Particle), (n.simple d)[j]? = some p →
      ∀ type, HasBuiltin p.declaration type → ∃ name,
        p.declaration.attribute? "name" = some name ∧
          t.columns[j]? = some (builtinColumn p.declaration type name)

theorem hasBuiltinColumns_of_makes {d : Declarations} {nodes : List TableNode} {ts : List Table}
    (makes : List.Forall₂ (TableNode.Makes d) nodes ts) : HasBuiltinColumns d nodes ts := by
  intro i n hn
  obtain ⟨t, ht, made⟩ := forall₂_getElem? makes hn
  refine ⟨t, ht, fun j p hp type builtin => ?_⟩
  obtain ⟨c, hc, read⟩ := made.exists_column hp
  obtain ⟨named, same⟩ := builtin.of_readColumn read
  exact ⟨c.name, named, same ▸ hc⟩

/-- The tables of nodes have the names of their elements. -/
theorem map_name_eq {d d' : Declarations} {nodes : List TableNode} {ts us : List Table}
    (h : List.Forall₂ (TableNode.Makes d) nodes ts)
    (h' : List.Forall₂ (TableNode.Makes d') nodes us) : us.map (·.name) = ts.map (·.name) := by
  induction h generalizing us with
  | nil =>
    cases h'
    rfl
  | cons makes _ ih =>
    cases h' with
    | cons makes' rest' =>
      rw [List.map_cons, List.map_cons, ih rest',
        Except.ok.inj (makes'.name.symm.trans makes.name)]

/-- Two readings of the same nodes agree in the tables, in which particles are columns, and in the
columns of built-in types. -/
structure KeepsBuiltins (d d' : Declarations) (nodes : List TableNode) (s s' : Schema) : Prop where
  name : s'.name = s.name
  tables : s'.tables.map (·.name) = s.tables.map (·.name)
  simple : ∀ n ∈ nodes, n.simple d' = n.simple d
  columns : ∀ (i : Nat) (n : TableNode), nodes[i]? = some n →
    ∃ t t', s.tables[i]? = some t ∧ s'.tables[i]? = some t' ∧
      ∀ (j : Nat) (p : Particle), (n.simple d)[j]? = some p →
        ∀ type, HasBuiltin p.declaration type → t'.columns[j]? = t.columns[j]?

theorem AddsType.keepsBuiltins {root root' added : Element} (a : AddsType root root' added)
    {s s' : Schema} {forest : List TableTree} (isForest : IsDatasetForest root s.name forest)
    (makes : List.Forall₂ (TableNode.Makes (Declarations.of root))
      (forest.flatMap TableTree.preorder) s.tables)
    (isForest' : IsDatasetForest root' s'.name forest)
    (makes' : List.Forall₂ (TableNode.Makes (Declarations.of root'))
      (forest.flatMap TableTree.preorder) s'.tables) :
    KeepsBuiltins (Declarations.of root) (Declarations.of root')
      (forest.flatMap TableTree.preorder) s s' := by
  have simple : ∀ n ∈ forest.flatMap TableTree.preorder,
      n.simple (Declarations.of root') = n.simple (Declarations.of root) := fun n hn =>
    a.simple_eq (isForest.isRead hn) (isForest.isElementIn hn)
  refine ⟨a.name_eq isForest isForest', map_name_eq makes makes', simple, fun i n hn => ?_⟩
  obtain ⟨t, ht, columns⟩ := hasBuiltinColumns_of_makes makes i n hn
  obtain ⟨t', ht', columns'⟩ := hasBuiltinColumns_of_makes makes' i n hn
  refine ⟨t, t', ht, ht', fun j p hp type builtin => ?_⟩
  obtain ⟨name, named, hc⟩ := columns j p hp type builtin
  obtain ⟨name', named', hc'⟩ := columns' j p (simple n (List.mem_of_getElem? hn) ▸ hp) type builtin
  obtain rfl := Option.some.inj (named.symm.trans named')
  rw [hc, hc']

/-- A particle of a built-in type is a column exactly if no complex type of the document has the
local name of its type, and then it is the column of that type, whatever simple types there are.
One more simple type, or one more complex type that no element names, changes neither the trees of
the tables nor any such column. -/
theorem readSchema_builtin {root : Element} {s : Schema} (h : readSchema root = .ok s) :
    let d := Declarations.of root
    ∃ forest : List TableTree, let nodes := forest.flatMap TableTree.preorder
      IsDatasetForest root s.name forest ∧ List.Forall₂ (TableNode.Makes d) nodes s.tables ∧
      (∀ n ∈ nodes, ∀ p ∈ n.content, ∀ type, RefersToBuiltin p.declaration type →
        (p ∈ n.simple d ↔ lookUp d.complexTypes (localName type) = none)) ∧
      HasBuiltinColumns d nodes s.tables ∧
      ∀ root' added s', AddsType root root' added → readSchema root' = .ok s' →
        IsDatasetForest root' s'.name forest ∧
          KeepsBuiltins d (Declarations.of root') nodes s s' := by
  intro d
  obtain ⟨forest, isForest, makes⟩ := exists_datasetForest h
  refine ⟨forest, isForest, makes, ?_, hasBuiltinColumns_of_makes makes, ?_⟩
  · intro n hn p hp type builtin
    rw [← builtin.isNone_complexTypeOf?_iff]
    exact List.mem_filter.trans (and_iff_right hp)
  · intro root' added s' a read
    obtain ⟨forest', isForest', makes'⟩ := exists_datasetForest read
    obtain rfl := isForest'.unique (a.name_eq isForest isForest' ▸ a.isDatasetForest isForest)
    exact ⟨isForest', a.keepsBuiltins isForest makes isForest' makes'⟩

def eventTime : Element := schemaElement "element" [plain "name" "when", plain "type" "xs:date"] []

def eventLog (types : List Element) : Element :=
  let table (name : String) (attributes : List Attribute) (content : Element) : Element :=
    schemaElement "element" (plain "name" name :: attributes)
      [schemaElement "complexType" [] [schemaElement "sequence" [] [content]]]
  schemaElement "schema" []
    (types ++ [table "log" [noted "IsDataSet" "true"] (table "event" [] eventTime)])

def simpleDate : Element :=
  schemaElement "simpleType" [plain "name" "date"]
    [schemaElement "restriction" [plain "base" "xs:string"]
      [schemaElement "maxLength" [plain "value" "8"] []]]

def complexDate : Element :=
  schemaElement "complexType" [plain "name" "date"]
    [schemaElement "sequence" []
      [schemaElement "element" [plain "name" "year", plain "type" "xs:int"] []]]

theorem addsType_simpleDate : AddsType (eventLog []) (eventLog [simpleDate]) simpleDate where
  place := ⟨[], _, rfl, rfl⟩
  isType := .inl (by decide)
  unnamed complex := absurd complex (by decide)

theorem readSchema_builtin_eventLog :
    let root := eventLog []
    let root' := eventLog [simpleDate]
    let s : Schema := ⟨"log", [⟨"event", [⟨"when", some .dateTime, none, -1, false⟩], none⟩], []⟩
    readSchema root = .ok s ∧ readSchema root' = .ok s ∧ AddsType root root' simpleDate ∧
    ∃ forest : List TableTree, let nodes := forest.flatMap TableTree.preorder
      IsDatasetForest root s.name forest ∧ HasBuiltinColumns (Declarations.of root) nodes s.tables ∧
      IsDatasetForest root' s.name forest ∧
        KeepsBuiltins (Declarations.of root) (Declarations.of root') nodes s s := by
  intro root root' s
  have read : readSchema root = .ok s := eq_ok_of_toOption (by decide +kernel)
  have read' : readSchema root' = .ok s := eq_ok_of_toOption (by decide +kernel)
  obtain ⟨forest, isForest, -, -, columns, added⟩ := readSchema_builtin read
  exact ⟨read, read', addsType_simpleDate, forest, isForest, columns,
    added root' simpleDate s addsType_simpleDate read'⟩

/-- A complex type of the name takes the column away and makes a table of it. -/
theorem readSchema_captures_date :
    HasBuiltin eventTime "xs:date" ∧
    readSchema (eventLog []) = .ok ⟨"log",
      [⟨"event", [⟨"when", some .dateTime, none, -1, false⟩], none⟩], []⟩ ∧
    readSchema (eventLog [complexDate]) = .ok ⟨"log",
      [⟨"event", [], none⟩, ⟨"when", [⟨"year", some .int32, none, -1, false⟩], none⟩], []⟩ :=
  ⟨⟨⟨⟨rfl, rfl⟩, by decide +kernel⟩, rfl⟩, eq_ok_of_toOption (by decide +kernel),
    eq_ok_of_toOption (by decide +kernel)⟩

end Tabular.Dataset
