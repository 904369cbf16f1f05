import Tabular.Proofs.Contents
import Tabular.Proofs.Rendering

/-!
The tables of a data-set document as trees. A table is an element with a complex type; inside it
are the tables of its particles, groups opened and references followed. Reading lists the trees of
the data set in pre-order, and every table has the rest of its own particles for columns, and its
attributes behind them.
-/
namespace Tabular.Dataset

open Markup

/-! ### Trees -/

/-- A particle of a table's content, and the declaration that it denotes: what it refers to, or
itself. -/
structure Particle where
  element : Element
  declaration : Element

/-- An element that is a table, with its complex type and the particles of that type in document
order. -/
structure TableNode where
  element : Element
  complexType : Element
  content : List Particle

namespace TableNode

structure IsRead (d : Declarations) (n : TableNode) : Prop where
  typed : d.complexTypeOf? n.element = some n.complexType
  contributes : Contributes n.complexType.children (n.content.map (·.element))
  denotes : ∀ p ∈ n.content, d.resolve p.element = .ok p.declaration

def inner (d : Declarations) (n : TableNode) : List Element :=
  (n.content.map (·.declaration)).filter fun e => (d.complexTypeOf? e).isSome

def simple (d : Declarations) (n : TableNode) : List Particle :=
  n.content.filter fun p => (d.complexTypeOf? p.declaration).isNone

/-- What columns are read from, and whether as attributes: the simple particles, and behind them
the attributes. -/
def sources (d : Declarations) (n : TableNode) : List (Element × Bool) :=
  (n.simple d).map (fun p => (p.declaration, false)) ++
    (attributesOf n.complexType).map fun a => (a, true)

/-- Has a table the name of the element, and for columns one for each source, in order? -/
structure Makes (d : Declarations) (n : TableNode) (t : Table) : Prop where
  name : required n.element "name" "table element" = .ok t.name
  columns : List.Forall₂ (fun source column => readColumn d t.name source.2 source.1 = .ok column)
    (n.sources d) t.columns

end TableNode

inductive TableTree where
  | node (table : TableNode) (inner : List TableTree)

namespace TableTree

def table : TableTree → TableNode
  | node n _ => n

mutual

def preorder : TableTree → List TableNode
  | node n inner => n :: preorderAmong inner

def preorderAmong : List TableTree → List TableNode
  | [] => []
  | t :: ts => t.preorder ++ preorderAmong ts

end

/-- Has every table of a tree its content, and below it a tree for each table in the content, in
order? -/
inductive Unfolds (d : Declarations) : TableTree → Prop where
  | node {n : TableNode} {inner : List TableTree} (table : n.IsRead d)
      (roots : inner.map (·.table.element) = n.inner d) (below : ∀ t ∈ inner, Unfolds d t) :
      Unfolds d (node n inner)

theorem preorderAmong_eq_flatMap (ts : List TableTree) :
    preorderAmong ts = ts.flatMap preorder := by
  induction ts with
  | nil => rfl
  | cons t ts ih => rw [preorderAmong, ih, List.flatMap_cons]

end TableTree

/-- One tree for each table among some declarations, in order. -/
structure IsForest (d : Declarations) (es : List Element) (forest : List TableTree) : Prop where
  roots : forest.map (·.table.element) = es.filter fun e => (d.complexTypeOf? e).isSome
  unfolds : ∀ t ∈ forest, t.Unfolds d

def IsDatasetForest (root : Element) (name : String) (forest : List TableTree) : Prop :=
  let d := Declarations.of root
  ∃ elements : List Particle, IsDataset root name (elements.map (·.element)) ∧
    (∀ p ∈ elements, d.resolve p.element = .ok p.declaration) ∧
    IsForest d (elements.map (·.declaration)) forest

/-! ### A tree is determined by its root -/

/-- Lists that agree in something that tells their elements apart are the same. -/
theorem eq_of_map_eq {α β : Type} {f : α → β} {xs ys : List α} (same : xs.map f = ys.map f)
    (apart : ∀ x ∈ xs, ∀ y ∈ ys, f x = f y → x = y) : xs = ys := by
  induction xs generalizing ys with
  | nil => exact (List.map_eq_nil_iff.mp same.symm).symm
  | cons x xs ih =>
    cases ys with
    | nil => cases same
    | cons y ys =>
      obtain ⟨head, tail⟩ := List.cons.inj same
      rw [apart x (by simp) y (by simp) head,
        ih tail fun a ha b hb => apart a (by simp [ha]) b (by simp [hb])]

variable {d : Declarations}

theorem particles_eq_of_denotes {ps qs : List Particle}
    (same : ps.map (·.element) = qs.map (·.element))
    (hp : ∀ p ∈ ps, d.resolve p.element = .ok p.declaration)
    (hq : ∀ q ∈ qs, d.resolve q.element = .ok q.declaration) : ps = qs := by
  apply eq_of_map_eq same
  intro p mp q mq element
  have declaration : p.declaration = q.declaration :=
    Except.ok.inj ((hp p mp).symm.trans (element ▸ hq q mq))
  cases p
  cases q
  simp_all

theorem TableNode.IsRead.unique {n m : TableNode} (hn : n.IsRead d) (hm : m.IsRead d)
    (element : n.element = m.element) : n = m := by
  have complexType : n.complexType = m.complexType :=
    Option.some.inj (hn.typed.symm.trans (element ▸ hm.typed))
  have content : n.content = m.content := by
    refine particles_eq_of_denotes ?_ hn.denotes hm.denotes
    rw [contributes_iff.mp hn.contributes, contributes_iff.mp hm.contributes, complexType]
  cases n
  cases m
  simp_all

theorem TableTree.Unfolds.unique {t u : TableTree} (ht : t.Unfolds d) (hu : u.Unfolds d)
    (same : t.table.element = u.table.element) : t = u := by
  induction ht generalizing u with
  | node table roots below ih =>
    cases hu with
    | node table' roots' below' =>
      obtain rfl := table.unique table' same
      rw [eq_of_map_eq (roots.trans roots'.symm) fun t ht u hu => ih t ht (below' u hu)]

theorem IsForest.unique {es : List Element} {forest forest' : List TableTree}
    (h : IsForest d es forest) (h' : IsForest d es forest') : forest = forest' :=
  eq_of_map_eq (h.roots.trans h'.roots.symm) fun t ht u hu =>
    (h.unfolds t ht).unique (h'.unfolds u hu)

theorem IsDatasetForest.unique {root : Element} {name : String} {forest forest' : List TableTree}
    (h : IsDatasetForest root name forest) (h' : IsDatasetForest root name forest') :
    forest = forest' := by
  obtain ⟨elements, dataset, denotes, isForest⟩ := h
  obtain ⟨elements', dataset', denotes', isForest'⟩ := h'
  obtain rfl := particles_eq_of_denotes (dataset.unique dataset').2 denotes denotes'
  exact isForest.unique isForest'

/-! ### The tables of a tree -/

theorem TableTree.Unfolds.isRead {t : TableTree} (h : t.Unfolds d) {n : TableNode}
    (hn : n ∈ t.preorder) : n.IsRead d := by
  induction h with
  | node table roots below ih =>
    rw [preorder, preorderAmong_eq_flatMap] at hn
    rcases List.mem_cons.mp hn with rfl | hn
    · exact table
    · obtain ⟨u, hu, hn⟩ := List.mem_flatMap.mp hn
      exact ih u hu hn

theorem IsDatasetForest.isRead {root : Element} {name : String} {forest : List TableTree}
    (h : IsDatasetForest root name forest) {n : TableNode}
    (hn : n ∈ forest.flatMap TableTree.preorder) : n.IsRead (Declarations.of root) := by
  obtain ⟨_, -, -, isForest⟩ := h
  obtain ⟨t, ht, hn⟩ := List.mem_flatMap.mp hn
  exact (isForest.unfolds t ht).isRead hn

/-- A particle that refers to nothing denotes itself. -/
theorem TableNode.IsRead.declaration_eq {n : TableNode} (h : n.IsRead d) {p : Particle}
    (hp : p ∈ n.content) (own : p.element.attribute? "ref" = none) :
    p.declaration = p.element := by
  have denotes := h.denotes p hp
  unfold Declarations.resolve at denotes
  rw [own] at denotes
  exact (Except.ok.inj denotes).symm

/-! ### Columns of particles -/

/-- The columns in front of a table are read from its simple particles. -/
theorem TableNode.Makes.exists_column {n : TableNode} {t : Table} (h : n.Makes d t) {j : Nat}
    {p : Particle} (hp : (n.simple d)[j]? = some p) :
    ∃ c, t.columns[j]? = some c ∧ readColumn d t.name false p.declaration = .ok c := by
  have front : ((n.simple d).map fun p => (p.declaration, false))[j]? =
      some (p.declaration, false) := by
    rw [List.getElem?_map, hp]
    rfl
  have source : (n.sources d)[j]? = some (p.declaration, false) := by
    rw [sources, List.getElem?_append_left (List.getElem?_eq_some_iff.mp front).1, front]
  exact forall₂_getElem? h.columns source

/-! ### Reading one table -/

section Reading

def contributionOf (d : Declarations) (levels : Nat) (table : String) (particle : Element) :
    Except Fault Contribution := do
  let declaration ← d.resolve particle
  match d.complexTypeOf? declaration with
  | some inner => return .tables (← readTable d levels declaration inner)
  | none => return .column (← readColumn d table false declaration)

theorem readTable_eq_ok_iff {levels : Nat} {e c : Element} {ts : List Table} :
    readTable d levels e c = .ok ts ↔ ∃ l name contributions attributes, levels = l + 1 ∧
      required e "name" "table element" = .ok name ∧
      List.Forall₂ (fun p r => contributionOf d l name p = .ok r) (particles c) contributions ∧
      List.Forall₂ (fun a r => readColumn d name true a = .ok r) (attributesOf c) attributes ∧
      ts = { name, columns := contributions.filterMap Contribution.column? ++ attributes } ::
        contributions.flatMap Contribution.nested := by
  simp only [← mapM_eq_ok_iff]
  cases levels with
  | zero =>
    unfold readTable
    rw [bind_eq_ok_iff]
    constructor
    · rintro ⟨name, -, h⟩
      cases h
    · rintro ⟨l, _, _, _, h, -⟩
      cases h
  | succ levels =>
    unfold readTable
    simp only [bind_eq_ok_iff]
    constructor
    · rintro ⟨name, named, contributions, read, attributes, readAttributes, h⟩
      exact ⟨levels, name, contributions, attributes, rfl, named, read, readAttributes,
        (Except.ok.inj h).symm⟩
    · rintro ⟨l, name, contributions, attributes, h, named, read, readAttributes, rfl⟩
      obtain rfl := Nat.succ.inj h
      exact ⟨name, named, contributions, read, attributes, readAttributes, rfl⟩

/-- The tables of a declaration: those of its tree if it is a table, and none otherwise. -/
def Grows (d : Declarations) (e : Element) (ts : List Table) : Prop :=
  match d.complexTypeOf? e with
  | some _ => ∃ tree : TableTree, tree.table.element = e ∧ tree.Unfolds d ∧
      List.Forall₂ (TableNode.Makes d) tree.preorder ts
  | none => ts = []

/-- Declarations grow into a forest. -/
theorem exists_forest {es : List Element} {lists : List (List Table)}
    (h : List.Forall₂ (Grows d) es lists) :
    ∃ forest, IsForest d es forest ∧
      List.Forall₂ (TableNode.Makes d) (forest.flatMap TableTree.preorder) lists.flatten := by
  induction h with
  | nil => exact ⟨[], ⟨rfl, fun t ht => absurd ht List.not_mem_nil⟩, .nil⟩
  | @cons e ts es lists grows _ ih =>
    obtain ⟨forest, isForest, makes⟩ := ih
    unfold Grows at grows
    cases typed : d.complexTypeOf? e with
    | none =>
      rw [typed] at grows
      subst grows
      refine ⟨forest, ⟨?_, isForest.unfolds⟩, makes⟩
      rw [isForest.roots, List.filter_cons_of_neg (by simp [typed])]
    | some c =>
      rw [typed] at grows
      obtain ⟨tree, root, unfolds, below⟩ := grows
      refine ⟨tree :: forest, ⟨?_, ?_⟩, List.rel_append below makes⟩
      · rw [List.map_cons, isForest.roots, root, List.filter_cons_of_pos (by simp [typed])]
      · exact List.forall_mem_cons.mpr ⟨unfolds, isForest.unfolds⟩

/-- The contributions of particles, taken apart: the particles with what they denote, the tables
that grow from them and the columns of those that are none. -/
theorem exists_content {levels : Nat} {name : String}
    (grow : ∀ e c ts, d.complexTypeOf? e = some c → readTable d levels e c = .ok ts → Grows d e ts)
    {ps : List Element} {contributions : List Contribution}
    (h : List.Forall₂ (fun p r => contributionOf d levels name p = .ok r) ps contributions) :
    ∃ content : List Particle, content.map (·.element) = ps ∧
      (∀ p ∈ content, d.resolve p.element = .ok p.declaration) ∧
      List.Forall₂ (Grows d) (content.map (·.declaration))
        (contributions.map Contribution.nested) ∧
      List.Forall₂ (fun p column => readColumn d name false p.declaration = .ok column)
        (content.filter fun p => (d.complexTypeOf? p.declaration).isNone)
        (contributions.filterMap Contribution.column?) := by
  induction h with
  | nil => exact ⟨[], rfl, fun p hp => absurd hp List.not_mem_nil, .nil, .nil⟩
  | @cons p r ps contributions read _ ih =>
    obtain ⟨content, elements, denotes, grows, columns⟩ := ih
    obtain ⟨declaration, resolved, read⟩ := bind_eq_ok_iff.mp read
    refine ⟨⟨p, declaration⟩ :: content, by rw [List.map_cons, elements],
      List.forall_mem_cons.mpr ⟨resolved, denotes⟩, ?_⟩
    cases typed : d.complexTypeOf? declaration with
    | some inner =>
      rw [typed] at read
      obtain ⟨ts, table, h⟩ := bind_eq_ok_iff.mp read
      obtain rfl : Contribution.tables ts = r := Except.ok.inj h
      refine ⟨.cons (grow _ _ _ typed table) grows, ?_⟩
      rwa [List.filter_cons_of_neg (by simp [typed])]
    | none =>
      rw [typed] at read
      obtain ⟨column, simple, h⟩ := bind_eq_ok_iff.mp read
      obtain rfl : Contribution.column column = r := Except.ok.inj h
      refine ⟨.cons ?_ grows, ?_⟩
      · unfold Grows
        rw [typed]
        rfl
      · rw [List.filter_cons_of_pos (by simp [typed])]
        exact .cons simple columns

/-- A table that is read grows into the tree below it. -/
theorem grows_of_readTable {levels : Nat} {e c : Element} {ts : List Table}
    (typed : d.complexTypeOf? e = some c) (read : readTable d levels e c = .ok ts) :
    Grows d e ts := by
  induction levels generalizing e c ts with
  | zero =>
    obtain ⟨_, _, _, _, h, -⟩ := readTable_eq_ok_iff.mp read
    cases h
  | succ levels ih =>
    obtain ⟨l, name, contributions, attributes, h, named, contributed, attributed, rfl⟩ :=
      readTable_eq_ok_iff.mp read
    obtain rfl := Nat.succ.inj h
    obtain ⟨content, elements, denotes, grows, columns⟩ :=
      exists_content (fun _ _ _ => ih) contributed
    obtain ⟨forest, isForest, makes⟩ := exists_forest grows
    let n : TableNode := ⟨e, c, content⟩
    have isRead : n.IsRead d := ⟨typed, contributes_iff.mpr elements, denotes⟩
    unfold Grows
    rw [typed]
    refine ⟨.node n forest, rfl, .node isRead isForest.roots isForest.unfolds, ?_⟩
    rw [TableTree.preorder, TableTree.preorderAmong_eq_flatMap]
    refine .cons ⟨named, ?_⟩ ?_
    · refine List.rel_append ?_ ?_
      · exact List.forall₂_map_left_iff.mpr columns
      · exact List.forall₂_map_left_iff.mpr attributed
    · rwa [← List.flatMap_def] at makes

end Reading

/-! ### Reading a document -/

theorem map_setKey? {k : KeyConstraint} {ts us : List Table} (h : setKey? k ts = some us) :
    us.map (fun t => { t with primaryKey := none }) =
      ts.map fun t => { t with primaryKey := none } := by
  induction ts generalizing us with
  | nil => cases h
  | cons t ts ih =>
    unfold setKey? at h
    split at h
    · obtain rfl := Option.some.inj h
      rw [List.map_cons, List.map_cons]
      split <;> rfl
    · obtain ⟨vs, found, rfl⟩ := Option.map_eq_some_iff.mp h
      rw [List.map_cons, List.map_cons, ih found]

/-- Keys change nothing but the keys of tables. -/
theorem map_applyKeys {ks : List KeyConstraint} {ts us : List Table}
    (h : applyKeys ts ks = .ok us) :
    us.map (fun t => { t with primaryKey := none }) =
      ts.map fun t => { t with primaryKey := none } := by
  induction ks generalizing ts with
  | nil => rw [Except.ok.inj h]
  | cons k ks ih =>
    unfold applyKeys at h
    split at h
    · next vs found => exact (ih h).trans (map_setKey? found)
    · cases h

theorem TableNode.makes_iff {n : TableNode} {t : Table} :
    n.Makes d t ↔ n.Makes d { t with primaryKey := none } :=
  ⟨fun h => ⟨h.name, h.columns⟩, fun h => ⟨h.name, h.columns⟩⟩

theorem forall₂_makes_of_applyKeys {ks : List KeyConstraint} {nodes : List TableNode}
    {ts us : List Table} (makes : List.Forall₂ (TableNode.Makes d) nodes ts)
    (h : applyKeys ts ks = .ok us) : List.Forall₂ (TableNode.Makes d) nodes us := by
  have bare (vs : List Table) : List.Forall₂ (TableNode.Makes d) nodes vs ↔
      List.Forall₂ (TableNode.Makes d) nodes (vs.map fun t => { t with primaryKey := none }) := by
    rw [List.forall₂_map_right_iff]
    exact iff_of_eq (congrArg (List.Forall₂ · nodes vs) (by
      funext n t
      exact propext TableNode.makes_iff))
  rw [bare, map_applyKeys h, ← bare]
  exact makes

/-- The elements of a data set grow into its tables. -/
theorem exists_elements {es : List Element} {lists : List (List Table)}
    (h : es.mapM (readTables d) = .ok lists) :
    ∃ elements : List Particle, elements.map (·.element) = es ∧
      (∀ p ∈ elements, d.resolve p.element = .ok p.declaration) ∧
      List.Forall₂ (Grows d) (elements.map (·.declaration)) lists := by
  rw [mapM_eq_ok_iff] at h
  induction h with
  | nil => exact ⟨[], rfl, fun p hp => absurd hp List.not_mem_nil, .nil⟩
  | @cons e ts es lists read _ ih =>
    obtain ⟨elements, same, denotes, grows⟩ := ih
    obtain ⟨declaration, resolved, read⟩ := bind_eq_ok_iff.mp read
    refine ⟨⟨e, declaration⟩ :: elements, by rw [List.map_cons, same],
      List.forall_mem_cons.mpr ⟨resolved, denotes⟩, .cons ?_ grows⟩
    cases typed : d.complexTypeOf? declaration with
    | some c =>
      rw [typed] at read
      exact grows_of_readTable typed read
    | none =>
      rw [typed] at read
      unfold Grows
      rw [typed]
      exact (Except.ok.inj read).symm

theorem of_readSchema_eq_ok {root : Element} {s : Schema} (h : readSchema root = .ok s) :
    let d := Declarations.of root
    ∃ elements lists keys, readDataset d root = .ok (s.name, elements) ∧
      elements.mapM (readTables d) = .ok lists ∧ applyKeys lists.flatten keys = .ok s.tables := by
  unfold readSchema at h
  split at h
  · cases h
  · obtain ⟨⟨name, elements⟩, dataset, h⟩ := bind_eq_ok_iff.mp h
    obtain ⟨lists, read, h⟩ := bind_eq_ok_iff.mp h
    obtain ⟨keys, -, h⟩ := bind_eq_ok_iff.mp h
    obtain ⟨tables, applied, h⟩ := bind_eq_ok_iff.mp h
    obtain ⟨relations, -, h⟩ := bind_eq_ok_iff.mp h
    obtain rfl := Except.ok.inj h
    exact ⟨elements, lists, _, dataset, read, applied⟩

/-- The trees of a document, with its tables in pre-order. -/
theorem exists_datasetForest {root : Element} {s : Schema} (h : readSchema root = .ok s) :
    ∃ forest, IsDatasetForest root s.name forest ∧
      List.Forall₂ (TableNode.Makes (Declarations.of root))
        (forest.flatMap TableTree.preorder) s.tables := by
  obtain ⟨es, lists, keys, dataset, read, applied⟩ := of_readSchema_eq_ok h
  obtain ⟨elements, rfl, denotes, grows⟩ := exists_elements read
  obtain ⟨forest, isForest, makes⟩ := exists_forest grows
  exact ⟨forest, ⟨elements, isDataset_iff.mpr dataset, denotes, isForest⟩,
    forall₂_makes_of_applyKeys makes applied⟩

/-- The tables of a document are those of the trees of its data set in pre-order, each with its own
columns; and these are the only trees. -/
theorem readSchema_lists_trees {root : Element} {s : Schema} (h : readSchema root = .ok s) :
    ∃! forest, IsDatasetForest root s.name forest ∧
      List.Forall₂ (TableNode.Makes (Declarations.of root))
        (forest.flatMap TableTree.preorder) s.tables := by
  obtain ⟨forest, isForest, makes⟩ := exists_datasetForest h
  exact ⟨forest, ⟨isForest, makes⟩, fun other isOther => isOther.1.unique isForest⟩

/-- A shop whose orders stand behind a reference, with lines of a named type deep inside groups. -/
def shop : Element :=
  let element := schemaElement "element"
  let group (name : String) := schemaElement name []
  let field (name use : String) : Element :=
    schemaElement "attribute" [plain "name" name, plain "type" "xs:string", plain "use" use] []
  schemaElement "schema" []
    [schemaElement "complexType" [plain "name" "Line"]
        [group "all" [element [plain "name" "count", plain "type" "xs:int"] []],
          field "old" "prohibited", field "item" "required"],
      element [plain "name" "shop", noted "IsDataSet" "true"]
        [group "complexType" [group "choice" [element [plain "ref" "order"] []]]],
      element [plain "name" "order"]
        [group "complexType" [group "sequence"
          [element [plain "name" "number", plain "type" "xs:long"] [],
            group "choice"
              [group "sequence" [element [plain "name" "line", plain "type" "Line"] []]],
            element [plain "name" "note", plain "type" "xs:string"] []]]]]

theorem readSchema_lists_trees_shop :
    let s : Schema := ⟨"shop",
      [⟨"order",
          [⟨"number", some .int64, none, -1, false⟩, ⟨"note", some .string, none, -1, false⟩],
          none⟩,
        ⟨"line", [⟨"count", some .int32, none, -1, false⟩, ⟨"item", some .string, none, -1, false⟩],
          none⟩], []⟩
    readSchema shop = .ok s ∧ ∃! forest, IsDatasetForest shop s.name forest ∧
      List.Forall₂ (TableNode.Makes (Declarations.of shop))
        (forest.flatMap TableTree.preorder) s.tables := by
  intro s
  have read : readSchema shop = .ok s := eq_ok_of_toOption (by decide +kernel)
  exact ⟨read, readSchema_lists_trees read⟩

end Tabular.Dataset
