import Tabular.Proofs.FormatFaults
import Tabular.Proofs.TableTrees
import Mathlib.Data.List.Chain
import Mathlib.Logic.Relation

/-!
How deep tables nest. The particles of a table may refer to any declaration of the document, even to
the table that they stand in, so nothing in a document itself bounds the paths from table to table.
Reading follows no path beyond its seventeenth table: a document with a longer one, and so every
document with a table inside itself, is refused, and the limit refuses no other.
-/
namespace Tabular

/-! ### Paths -/

section Paths

variable {α : Type} {r : α → α → Prop} {x y : α}

/-- Where there is a way into a cycle, there are paths of every length. -/
theorem exists_isChain_of_cycle (cycle : Relation.TransGen r x x)
    (way : Relation.ReflTransGen r y x) (n : Nat) :
    ∃ path, path.length = n ∧ (y :: path).IsChain r := by
  have ahead : Relation.TransGen r y x := Relation.TransGen.trans_right way cycle
  clear way
  induction n generalizing y with
  | zero => exact ⟨[], rfl, .singleton y⟩
  | succ n ih =>
    obtain ⟨z, step, rest⟩ := Relation.TransGen.head'_iff.mp ahead
    -- The way goes on from every element on it, at the end of the way around the cycle.
    obtain ⟨path, length, chain⟩ := ih (Relation.TransGen.trans_right rest cycle)
    exact ⟨z :: path, by rw [List.length_cons, length], .cons_cons step chain⟩

end Paths

theorem mapM_congr {α β : Type} {f g : α → Except Fault β} {xs : List α}
    (h : ∀ x ∈ xs, f x = g x) : xs.mapM f = xs.mapM g := by
  induction xs with
  | nil => rfl
  | cons x xs ih =>
    obtain ⟨head, tail⟩ := List.forall_mem_cons.mp h
    rw [List.mapM_cons, List.mapM_cons, head, ih tail]

namespace Dataset

open Markup

/-- The elements that stand for the tables of a data set: the content of the element of the data
set, or all elements at the top if there is no such element. -/
def tableElements (root : Element) : List Element :=
  let d := Declarations.of root
  let top := root.children.filter (isSchemaElement · "element")
  match datasetElement? d top with
  | some e => ((d.complexTypeOf? e).map particles).getD []
  | none => top

def IsDatasetTable (root e : Element) : Prop :=
  let d := Declarations.of root
  ∃ p ∈ tableElements root, d.resolve p = .ok e ∧ (d.complexTypeOf? e).isSome = true

/-- A path of tables in a document, from a table of the data set, each holding the next. -/
structure IsTablePath (root e : Element) (rest : List Element) : Prop where
  starts : IsDatasetTable root e
  holds : (e :: rest).IsChain (Holds (Declarations.of root))

section Depth

variable {d : Declarations} {e c inner : Element} {levels : Nat} {ts : List Table}

/-- A table that is read reads the tables that it holds, with one level less. -/
theorem readTable_holds (typed : d.complexTypeOf? e = some c)
    (read : readTable d levels e c = .ok ts) :
    ∃ l, levels = l + 1 ∧ ∀ inner, Holds d e inner →
      ∃ c' us, d.complexTypeOf? inner = some c' ∧ readTable d l inner c' = .ok us := by
  obtain ⟨l, name, contributions, _, rfl, -, contributed, -⟩ := readTable_eq_ok_iff.mp read
  refine ⟨l, rfl, fun inner holds => ?_⟩
  obtain ⟨p, hp, resolved, isTable⟩ := (holds_iff typed).mp holds
  obtain ⟨c', typed'⟩ := Option.isSome_iff_exists.mp isTable
  obtain ⟨contribution, -, contributes⟩ := exists_of_forall₂_left contributed hp
  obtain ⟨declaration, resolved', contributes⟩ := bind_eq_ok_iff.mp contributes
  obtain rfl := Except.ok.inj (resolved.symm.trans resolved')
  rw [typed'] at contributes
  obtain ⟨us, read', -⟩ := bind_eq_ok_iff.mp contributes
  exact ⟨c', us, typed', read'⟩

/-- From a table that is read no path is longer than the levels it was read with. -/
theorem length_le_of_readTable {rest : List Element} (typed : d.complexTypeOf? e = some c)
    (read : readTable d levels e c = .ok ts) (chain : (e :: rest).IsChain (Holds d)) :
    (e :: rest).length ≤ levels := by
  induction rest generalizing e c levels ts with
  | nil =>
    obtain ⟨l, rfl, -⟩ := readTable_holds typed read
    simp
  | cons inner rest ih =>
    obtain ⟨l, rfl, below⟩ := readTable_holds typed read
    obtain ⟨holds, chain⟩ := List.isChain_cons_cons.mp chain
    obtain ⟨c', us, typed', read'⟩ := below inner holds
    exact Nat.succ_le_succ (ih typed' read' chain)

/-- Where no path is longer than the levels, further levels change nothing. -/
theorem readTable_add (typed : d.complexTypeOf? e = some c)
    (short : ∀ rest, (e :: rest).IsChain (Holds d) → (e :: rest).length ≤ levels) (more : Nat) :
    readTable d (levels + more) e c = readTable d levels e c := by
  induction levels generalizing e c with
  | zero => exact absurd (short [] (.singleton e)) (by simp)
  | succ levels ih =>
    have each (name : String) : ∀ p ∈ particles c,
        contributionOf d (levels + more) name p = contributionOf d levels name p := by
      intro p hp
      unfold contributionOf
      cases resolved : d.resolve p with
      | error f => rfl
      | ok declaration =>
        simp only [bind, Except.bind]
        cases typed' : d.complexTypeOf? declaration with
        | none => rfl
        | some c' =>
          have holds : Holds d e declaration :=
            (holds_iff typed).mpr ⟨p, hp, resolved, by rw [typed']; rfl⟩
          have deeper := ih typed' fun rest chain =>
            Nat.le_of_succ_le_succ (short (declaration :: rest) (.cons_cons holds chain))
          simp only [deeper]
    have whole (l : Nat) : readTable d (l + 1) e c = (do
        let name ← required e "name" "table element"
        let contributions ← (particles c).mapM (contributionOf d l name)
        let attributes ← (attributesOf c).mapM (readColumn d name true)
        let columns := contributions.filterMap Contribution.column? ++ attributes
        return { name, columns } :: contributions.flatMap Contribution.nested) := by
      unfold readTable
      rfl
    rw [Nat.succ_add, whole, whole]
    simp only [mapM_congr (each _)]

end Depth

/-! ### Documents -/

section Documents

variable {root : Element}

theorem eq_tableElements {name : String} {es : List Element}
    (h : readDataset (Declarations.of root) root = .ok (name, es)) : es = tableElements root := by
  unfold readDataset at h
  unfold tableElements
  dsimp only at h ⊢
  split at h
  · cases h
  · cases found : datasetElement? (Declarations.of root)
        (root.children.filter (isSchemaElement · "element")) with
    | some e =>
      simp only [found] at h
      obtain ⟨_, -, h⟩ := bind_eq_ok_iff.mp h
      exact (Prod.mk.inj (Except.ok.inj h)).2.symm
    | none =>
      simp only [found] at h
      exact (Prod.mk.inj (Except.ok.inj h)).2.symm

/-- The tables of a document that is read are read with all the levels there are. -/
theorem exists_readTable {s : Schema} (h : readSchema root = .ok s) {e : Element}
    (he : IsDatasetTable root e) :
    ∃ c ts, (Declarations.of root).complexTypeOf? e = some c ∧
      readTable (Declarations.of root) depthLimit e c = .ok ts := by
  obtain ⟨elements, lists, _, dataset, read, -⟩ := of_readSchema_eq_ok h
  obtain ⟨p, hp, resolved, isTable⟩ := he
  obtain ⟨c, typed⟩ := Option.isSome_iff_exists.mp isTable
  rw [← eq_tableElements dataset] at hp
  obtain ⟨ts, -, tables⟩ := exists_of_mem_of_mapM_eq_ok read hp
  obtain ⟨declaration, resolved', tables⟩ := bind_eq_ok_iff.mp tables
  obtain rfl := Except.ok.inj (resolved.symm.trans resolved')
  rw [typed] at tables
  exact ⟨c, ts, typed, tables⟩

/-- In a document that is read no path of tables is longer than the limit. -/
theorem IsTablePath.length_le {s : Schema} (h : readSchema root = .ok s) {e : Element}
    {rest : List Element} (path : IsTablePath root e rest) : (e :: rest).length ≤ 17 := by
  obtain ⟨c, ts, typed, read⟩ := exists_readTable h path.starts
  exact length_le_of_readTable typed read path.holds

/-- Reading ends with a schema or with a fault of format. It refuses every document with a path of
more than seventeen tables, and so every document in which a path leads into a cycle; a document
that is read has no such path. And the limit refuses nothing else: where no path is longer, every
table is read as it would be with any higher limit. -/
theorem readSchema_refuses_deep (root : Element) :
    let d := Declarations.of root
    ((∃ s, readSchema root = .ok s) ∨ ∃ message, readSchema root = .error (.schemaFormat message)) ∧
    (∀ e rest, IsTablePath root e rest → 17 < (e :: rest).length →
      ∃ message, readSchema root = .error (.schemaFormat message)) ∧
    (∀ e inner, IsDatasetTable root e → Relation.ReflTransGen (Holds d) e inner →
      Relation.TransGen (Holds d) inner inner →
      ∃ message, readSchema root = .error (.schemaFormat message)) ∧
    (∀ s, readSchema root = .ok s → ∀ e rest, IsTablePath root e rest → (e :: rest).length ≤ 17) ∧
    ((∀ e rest, IsTablePath root e rest → (e :: rest).length ≤ 17) →
      ∀ e c more, IsDatasetTable root e → d.complexTypeOf? e = some c →
        readTable d (17 + more) e c = readTable d 17 e c) := by
  intro d
  have refused {e : Element} {rest : List Element} (path : IsTablePath root e rest)
      (deep : 17 < (e :: rest).length) :
      ∃ message, readSchema root = .error (.schemaFormat message) :=
    (failsInFormat_readSchema root).refused fun s read =>
      absurd (path.length_le read) (Nat.not_le.mpr deep)
  refine ⟨(failsInFormat_readSchema root).ends, fun e rest path deep => refused path deep,
    fun e inner starts way cycle => ?_, fun s read e rest path => path.length_le read,
    fun short e c more starts typed => ?_⟩
  · obtain ⟨rest, length, chain⟩ := exists_isChain_of_cycle cycle way 17
    exact refused ⟨starts, chain⟩ (by rw [List.length_cons, length]; decide)
  · exact readTable_add typed (fun rest chain => short e rest ⟨starts, chain⟩) more

end Documents

def nestedTables (content : Element) : Nat → Element
  | 0 => content
  | n + 1 =>
    schemaElement "element" [plain "name" "box"]
      [schemaElement "complexType" [] [schemaElement "sequence" [] [nestedTables content n]]]

/-- A data set of one table, to which its content can refer. -/
def boxes (table : Element) : Element :=
  schemaElement "schema" []
    [schemaElement "element" [plain "name" "boxes", noted "IsDataSet" "true"]
        [schemaElement "complexType" []
          [schemaElement "choice" [] [schemaElement "element" [plain "ref" "box"] []]]],
      table]

def outsideIn (content : Element) : Nat → List Element
  | 0 => []
  | n + 1 => nestedTables content (n + 1) :: outsideIn content n

theorem length_outsideIn (content : Element) (n : Nat) : (outsideIn content n).length = n := by
  induction n with
  | zero => rfl
  | succ n ih => rw [outsideIn, List.length_cons, ih]

theorem holds_nestedTables (d : Declarations) (content : Element) (n : Nat) :
    Holds d (nestedTables content (n + 2)) (nestedTables content (n + 1)) :=
  ⟨_, _, rfl, .group rfl (.element rfl .nil) .nil, _, List.mem_singleton_self _, rfl, rfl⟩

theorem isChain_outsideIn (d : Declarations) (content : Element) (n : Nat) :
    (outsideIn content n).IsChain (Holds d) := by
  induction n with
  | zero => exact .nil
  | succ n ih =>
    cases n with
    | zero => exact .singleton _
    | succ n => exact .cons_cons (holds_nestedTables d content n) ih

theorem isDatasetTable_boxes (content : Element) (n : Nat) :
    IsDatasetTable (boxes (nestedTables content (n + 1))) (nestedTables content (n + 1)) :=
  ⟨_, List.mem_singleton_self _, rfl, rfl⟩

theorem isTablePath_boxes (content : Element) (n : Nat) :
    IsTablePath (boxes (nestedTables content (n + 1))) (nestedTables content (n + 1))
      (outsideIn content n) :=
  ⟨isDatasetTable_boxes content n, isChain_outsideIn _ content (n + 1)⟩

theorem readSchema_refuses_deep_boxes :
    let column := schemaElement "element" [plain "name" "weight", plain "type" "xs:int"] []
    let itself := schemaElement "element" [plain "ref" "box"] []
    let deep := boxes (nestedTables column 18)
    let cyclic := boxes (nestedTables itself 1)
    let full := boxes (nestedTables column 17)
    (IsTablePath deep (nestedTables column 18) (outsideIn column 17) ∧
      ∃ message, readSchema deep = .error (.schemaFormat message)) ∧
    (Holds (Declarations.of cyclic) (nestedTables itself 1) (nestedTables itself 1) ∧
      ∃ message, readSchema cyclic = .error (.schemaFormat message)) ∧
    (readSchema full).isOk = true ∧
      IsTablePath full (nestedTables column 17) (outsideIn column 16) ∧
      ∀ e rest, IsTablePath full e rest → (e :: rest).length ≤ 17 ∧
        ∀ c more, (Declarations.of full).complexTypeOf? e = some c →
          readTable (Declarations.of full) (17 + more) e c =
            readTable (Declarations.of full) 17 e c := by
  intro column itself deep cyclic full
  obtain ⟨-, refused, -⟩ := readSchema_refuses_deep deep
  obtain ⟨-, -, circular, -⟩ := readSchema_refuses_deep cyclic
  obtain ⟨-, -, -, short, same⟩ := readSchema_refuses_deep full
  have within : (readSchema full).isOk = true := by decide +kernel
  have holds : Holds (Declarations.of cyclic) (nestedTables itself 1) (nestedTables itself 1) :=
    ⟨_, _, rfl, .group rfl (.element rfl .nil) .nil, _, List.mem_singleton_self _, rfl, rfl⟩
  have path := isTablePath_boxes column 17
  refine ⟨⟨path, refused _ _ path ?_⟩,
    ⟨holds, circular _ _ (isDatasetTable_boxes itself 0) .refl (.single holds)⟩,
    within, isTablePath_boxes column 16, fun e rest path => ?_⟩
  · rw [List.length_cons, length_outsideIn]
    decide
  · cases read : readSchema full with
    | error f =>
      rw [read] at within
      cases within
    | ok s =>
      have short := short s read
      exact ⟨short e rest path, fun c more typed => same short e c more path.starts typed⟩

end Dataset

end Tabular
