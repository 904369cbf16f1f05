import Tabular.Dataset.Reader
import Tabular.Proofs.Outcomes

/-!
What is in a data-set document, as relations: the particles that a type contributes, the tables
that a table holds, and the name and the elements of the data set.
-/
namespace Tabular.Dataset

open Markup

variable {d : Declarations} {root e c inner : Element} {name : String} {es : List Element}

/-! ### Content -/

/-- The particles that elements contribute: an element itself, a group those inside it, however
deep, and anything else none. -/
inductive Contributes : List Element → List Element → Prop where
  | nil : Contributes [] []
  | element {e : Element} {es ps : List Element} (h : isSchemaElement e "element" = true)
      (rest : Contributes es ps) : Contributes (e :: es) (e :: ps)
  | group {e : Element} {es qs ps : List Element} (h : isGroup e = true)
      (inside : Contributes e.children qs) (rest : Contributes es ps) :
      Contributes (e :: es) (qs ++ ps)
  | other {e : Element} {es ps : List Element} (element : isSchemaElement e "element" = false)
      (group : isGroup e = false) (rest : Contributes es ps) : Contributes (e :: es) ps

/-- An element has one name. -/
theorem isSchemaElement_eq_false {e : Element} {name other : String}
    (h : isSchemaElement e name = true) (ne : other ≠ name) : isSchemaElement e other = false := by
  simp only [isSchemaElement, Element.isNamed, Bool.and_eq_true, beq_iff_eq] at h
  simp [isSchemaElement, Element.isNamed, h.2, ne.symm]

theorem not_isGroup_of_element {e : Element} (h : isSchemaElement e "element" = true) :
    isGroup e = false := by
  have other (name : String) (ne : name ≠ "element") := isSchemaElement_eq_false h ne
  rw [isGroup, other _ (by decide), other _ (by decide), other _ (by decide)]
  rfl

theorem particlesOf_eq (e : Element) :
    particlesOf e = if isSchemaElement e "element" then [e]
      else if isGroup e then particlesAmong e.children else [] := by
  cases e
  rw [particlesOf]

mutual

theorem contributes_particlesOf (e : Element) {es ps : List Element} (rest : Contributes es ps) :
    Contributes (e :: es) (particlesOf e ++ ps) := by
  cases e with
  | mk uri name attributes scope children =>
    rw [particlesOf_eq]
    split
    · next element => exact .element element rest
    · next element =>
      split
      · next group => exact .group group (contributes_particlesAmong children) rest
      · next group =>
        exact .other (Bool.not_eq_true _ ▸ element) (Bool.not_eq_true _ ▸ group) rest

theorem contributes_particlesAmong (es : List Element) : Contributes es (particlesAmong es) := by
  cases es with
  | nil => exact .nil
  | cons e es =>
    rw [particlesAmong]
    exact contributes_particlesOf e (contributes_particlesAmong es)

end

theorem contributes_iff {es ps : List Element} : Contributes es ps ↔ ps = particlesAmong es := by
  constructor
  · intro h
    induction h with
    | nil => rfl
    | element element _ ih => rw [particlesAmong, particlesOf_eq, if_pos element, ih]; rfl
    | group group _ _ inside rest =>
      have element : ¬ isSchemaElement _ "element" = true := fun element => by
        rw [not_isGroup_of_element element] at group
        cases group
      rw [particlesAmong, particlesOf_eq, if_neg element, if_pos group, inside, rest]
    | other element group _ ih =>
      rw [particlesAmong, particlesOf_eq, element, group, ih]
      rfl
  · rintro rfl
    exact contributes_particlesAmong es

/-! ### Tables inside tables -/

/-- Does a table hold another: is a particle of its content, groups opened, a table, or does it
refer to one? -/
def Holds (d : Declarations) (e inner : Element) : Prop :=
  ∃ c content, d.complexTypeOf? e = some c ∧ Contributes c.children content ∧
    ∃ p ∈ content, d.resolve p = .ok inner ∧ (d.complexTypeOf? inner).isSome = true

theorem holds_iff (typed : d.complexTypeOf? e = some c) :
    Holds d e inner ↔ ∃ p ∈ particles c, d.resolve p = .ok inner ∧
      (d.complexTypeOf? inner).isSome = true := by
  constructor
  · rintro ⟨c', content, typed', contributes, p, hp, h⟩
    obtain rfl := Option.some.inj (typed.symm.trans typed')
    obtain rfl := contributes_iff.mp contributes
    exact ⟨p, hp, h⟩
  · rintro ⟨p, hp, h⟩
    exact ⟨c, _, typed, contributes_iff.mpr rfl, p, hp, h⟩

theorem required_eq_ok_iff {e : Element} {name what value : String} :
    required e name what = .ok value ↔
      e.attribute? name = some value ∧ isBlankText value = false := by
  unfold required
  cases e.attribute? name with
  | none => simp
  | some found =>
    dsimp only
    split
    · rename_i blank
      refine ⟨nofun, ?_⟩
      rintro ⟨⟨⟩, solid⟩
      exact Bool.noConfusion (blank.symm.trans solid)
    · rename_i solid
      constructor
      · rintro ⟨⟩
        exact ⟨rfl, Bool.eq_false_iff.mpr solid⟩
      · rintro ⟨⟨⟩, -⟩
        rfl

/-! ### The data set -/

def IsFirst (P : Element → Prop) (es : List Element) (e : Element) : Prop :=
  ∃ front back, es = front ++ e :: back ∧ P e ∧ ∀ x ∈ front, ¬ P x

def IsMarked (e : Element) : Prop :=
  ∃ value, annotation? e "IsDataSet" = some value ∧ isTrue value = true

/-- Which of some elements is the data set: the first that is marked, or the first that holds a
table if none is marked. -/
inductive IsDatasetAmong (d : Declarations) (top : List Element) (e : Element) : Prop where
  | marked (first : IsFirst IsMarked top e)
  | holding (unmarked : ∀ x ∈ top, ¬ IsMarked x)
      (first : IsFirst (fun x => ∃ inner, Holds d x inner) top e)

def topElements (root : Element) : List Element :=
  root.children.filter (isSchemaElement · "element")

inductive IsDataset (root : Element) : String → List Element → Prop where
  /-- An element with a complex type, which has these elements for its content. -/
  | typed {e c : Element} {name : String} {es : List Element}
      (among : IsDatasetAmong (Declarations.of root) (topElements root) e)
      (named : e.attribute? "name" = some name) (solid : isBlankText name = false)
      (typed : (Declarations.of root).complexTypeOf? e = some c)
      (contributes : Contributes c.children es) : IsDataset root name es
  /-- An element that has no content. -/
  | bare {e : Element} {name : String}
      (among : IsDatasetAmong (Declarations.of root) (topElements root) e)
      (named : e.attribute? "name" = some name) (solid : isBlankText name = false)
      (bare : (Declarations.of root).complexTypeOf? e = none) : IsDataset root name []
  /-- All elements at the top, with the identifier of the document for a name. -/
  | identified {name : String}
      (absent : ∀ e, ¬ IsDatasetAmong (Declarations.of root) (topElements root) e)
      (nonempty : topElements root ≠ []) (id : root.attribute? "id" = some name)
      (solid : isBlankText name = false) : IsDataset root name (topElements root)
  /-- All elements at the top of a document that has no identifier. -/
  | unnamed (absent : ∀ e, ¬ IsDatasetAmong (Declarations.of root) (topElements root) e)
      (nonempty : topElements root ≠ [])
      (id : ∀ name, root.attribute? "id" = some name → isBlankText name = true) :
      IsDataset root "NewDataSet" (topElements root)

theorem isFirst_iff {P : Element → Prop} {p : Element → Bool} (h : ∀ x, P x ↔ p x = true) :
    IsFirst P es e ↔ es.find? p = some e := by
  rw [List.find?_eq_some_iff_append]
  constructor
  · rintro ⟨front, back, whole, he, before⟩
    exact ⟨(h e).mp he, front, back, whole, fun x hx => by simpa [h] using before x hx⟩
  · rintro ⟨he, front, back, whole, before⟩
    exact ⟨front, back, whole, (h e).mpr he, fun x hx => by simpa [h] using before x hx⟩

theorem isMarked_iff : IsMarked e ↔ (annotation? e "IsDataSet").any isTrue = true := by
  rw [Option.any_eq_true]
  rfl

theorem exists_holds_iff : (∃ inner, Holds d e inner) ↔ holdsTables d e = true := by
  unfold holdsTables
  cases typed : d.complexTypeOf? e with
  | none =>
    refine ⟨?_, nofun⟩
    rintro ⟨inner, c, content, typed', -⟩
    cases typed.symm.trans typed'
  | some c =>
    simp only [holds_iff typed, List.any_eq_true]
    constructor
    · rintro ⟨inner, p, hp, resolved, isTable⟩
      exact ⟨p, hp, by rw [resolved]; exact isTable⟩
    · rintro ⟨p, hp, isTable⟩
      cases resolved : d.resolve p with
      | ok inner =>
        rw [resolved] at isTable
        exact ⟨inner, p, hp, resolved, isTable⟩
      | error f =>
        rw [resolved] at isTable
        cases isTable

theorem isDatasetAmong_iff {top : List Element} :
    IsDatasetAmong d top e ↔ datasetElement? d top = some e := by
  unfold datasetElement?
  rw [Option.or_eq_some_iff, List.find?_eq_none, ← isFirst_iff fun _ => isMarked_iff,
    ← isFirst_iff fun _ => exists_holds_iff]
  simp only [← isMarked_iff]
  constructor
  · rintro (first | ⟨unmarked, first⟩)
    · exact .inl first
    · exact .inr ⟨unmarked, first⟩
  · rintro (first | ⟨unmarked, first⟩)
    · exact .marked first
    · exact .holding unmarked first

theorem readDataset_eq_ok_iff : readDataset d root = .ok (name, es) ↔
    topElements root ≠ [] ∧
      match datasetElement? d (topElements root) with
      | some e => required e "name" "dataset element" = .ok name ∧
          ((d.complexTypeOf? e).map particles).getD [] = es
      | none =>
        ((root.attribute? "id").filter fun id => !isBlankText id).getD defaultName = name ∧
          topElements root = es := by
  unfold readDataset
  dsimp only
  rw [← topElements]
  split
  · next empty =>
    refine ⟨nofun, fun h => absurd (List.isEmpty_iff.mp empty) h.1⟩
  · next nonempty =>
    rw [List.isEmpty_iff] at nonempty
    cases datasetElement? d (topElements root) with
    | some e => simp [bind_eq_ok_iff, nonempty, pure, Except.pure]
    | none => simp [nonempty]

theorem topElements_ne_nil (h : datasetElement? d (topElements root) = some e) :
    topElements root ≠ [] := by
  intro empty
  rw [empty] at h
  cases h

/-- Reading finds the data set if there is one to be found. -/
theorem isDataset_iff :
    IsDataset root name es ↔ readDataset (Declarations.of root) root = .ok (name, es) := by
  rw [readDataset_eq_ok_iff]
  constructor
  · intro h
    cases h with
    | typed among named solid typed contributes =>
      rw [isDatasetAmong_iff] at among
      refine ⟨topElements_ne_nil among, ?_⟩
      rw [among]
      refine ⟨required_eq_ok_iff.mpr ⟨named, solid⟩, ?_⟩
      rw [typed, contributes_iff.mp contributes]
      rfl
    | bare among named solid bare =>
      rw [isDatasetAmong_iff] at among
      refine ⟨topElements_ne_nil among, ?_⟩
      rw [among]
      refine ⟨required_eq_ok_iff.mpr ⟨named, solid⟩, ?_⟩
      rw [bare]
      rfl
    | identified absent nonempty id solid =>
      simp only [isDatasetAmong_iff, ← Option.eq_none_iff_forall_ne_some] at absent
      refine ⟨nonempty, ?_⟩
      rw [absent]
      simp [id, Option.filter, solid]
    | unnamed absent nonempty id =>
      simp only [isDatasetAmong_iff, ← Option.eq_none_iff_forall_ne_some] at absent
      refine ⟨nonempty, ?_⟩
      rw [absent]
      refine ⟨?_, rfl⟩
      cases given : root.attribute? "id" with
      | none => rfl
      | some name => simp [Option.filter, id name given, defaultName]
  · rintro ⟨nonempty, h⟩
    cases found : datasetElement? (Declarations.of root) (topElements root) with
    | some e =>
      rw [found] at h
      obtain ⟨named, rfl⟩ := h
      obtain ⟨named, solid⟩ := required_eq_ok_iff.mp named
      cases typed : (Declarations.of root).complexTypeOf? e with
      | some c =>
        exact .typed (isDatasetAmong_iff.mpr found) named solid typed (contributes_iff.mpr rfl)
      | none => exact .bare (isDatasetAmong_iff.mpr found) named solid typed
    | none =>
      rw [found] at h
      obtain ⟨rfl, rfl⟩ := h
      have absent : ∀ e, ¬ IsDatasetAmong (Declarations.of root) (topElements root) e := by
        intro e among
        rw [isDatasetAmong_iff.mp among] at found
        cases found
      cases given : (root.attribute? "id").filter fun id => !isBlankText id with
      | some name =>
        obtain ⟨id, solid⟩ := Option.filter_eq_some_iff.mp given
        exact .identified absent nonempty id (by simpa using solid)
      | none =>
        refine .unnamed absent nonempty fun name id => ?_
        simpa [id] using given

/-- A document has one data set at most. -/
theorem IsDataset.unique {other : String} {fs : List Element} (h : IsDataset root name es)
    (h' : IsDataset root other fs) : name = other ∧ es = fs :=
  Prod.mk.inj (Except.ok.inj ((isDataset_iff.mp h).symm.trans (isDataset_iff.mp h')))

end Tabular.Dataset
