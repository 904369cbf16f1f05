import Mathlib
import Tabular.Dataset.Reader

/-!
Schemas as data-set documents: the element of the data set with an element for each table, and
behind these the keys and the relations. Names in the paths of selectors and fields and in the
lists of relationships are read back as they are, as long as no character of them counts as blank.
-/
namespace Tabular.Dataset

open Markup

/-! ### Names -/

def isNcName (n : String) : Bool :=
  n.toList.head?.any isNameStart && n.toList.all fun c => isNameChar c && c != ':'

/-- The one character of names that is white space of Unicode. -/
def oghamSpace : Char := '\u1680'

/-- A name that paths and lists keep. -/
structure IsLegible (n : String) : Prop where
  nonempty : n.toList ≠ []
  solid : ∀ c ∈ n.toList, Text.isBlank c = false
  marks : ':' ∉ n.toList ∧ '/' ∉ n.toList ∧ '@' ∉ n.toList

theorem isBlank_of_isNameChar {c : Char} (h : isNameChar c = true) (ho : c ≠ oghamSpace) :
    Text.isBlank c = false := by
  have other : c.toNat ≠ 0x1680 := fun same => ho (Char.toNat_inj.mp same)
  by_cases small : c.toNat ≤ 0x80
  · simp only [isNameChar, small, if_true, Bool.or_eq_true, beq_iff_eq] at h
    rcases h with (((h | rfl) | rfl) | rfl) | rfl
    · simp only [Char.isAlphanum, Char.isAlpha, Char.isUpper, Char.isLower, Char.isDigit,
        Bool.or_eq_true, Bool.and_eq_true, decide_eq_true_eq, ge_iff_le, UInt32.le_iff_toNat_le]
        at h
      have code : c.val.toNat = c.toNat := rfl
      simp only [Text.isBlank]
      grind
    all_goals decide
  · simp only [isNameChar, isNameStart, small, if_false, within] at h
    simp only [Text.isBlank]
    grind

theorem isLegible_of_isNcName {n : String} (h : isNcName n = true) (ho : oghamSpace ∉ n.toList) :
    IsLegible n := by
  rw [isNcName, Bool.and_eq_true, List.all_eq_true] at h
  obtain ⟨start, chars⟩ := h
  have char (c : Char) (hc : c ∈ n.toList) : isNameChar c = true ∧ c ≠ ':' := by
    simpa using chars c hc
  refine ⟨?_, fun c hc => ?_, fun hc => ?_, fun hc => ?_, fun hc => ?_⟩
  · intro none
    simp [none] at start
  · exact isBlank_of_isNameChar (char c hc).1 fun same => ho (same ▸ hc)
  · exact (char _ hc).2 rfl
  · exact absurd (char _ hc).1 (by decide)
  · exact absurd (char _ hc).1 (by decide)

theorem afterLast_of_not_mem {separator : Char} {cs : List Char} (h : separator ∉ cs) :
    afterLast separator cs = cs := by
  have all : ∀ c ∈ cs.reverse, (c != separator) = true := by
    intro c hc
    have mem : c ∈ cs := by simpa using hc
    exact bne_iff_ne.mpr fun same => h (same ▸ mem)
  have whole : cs.reverse.takeWhile (· != separator) = cs.reverse :=
    List.takeWhile_eq_self_iff.mpr all
  rw [afterLast, whole, List.reverse_reverse]

theorem trim_of_solid {cs : List Char} (h : ∀ c ∈ cs, Text.isBlank c = false) :
    Text.trim cs = cs := by
  have start : Text.trimStart cs = cs :=
    Text.trimStart_eq_self fun c hc => h c (List.mem_of_mem_head? hc)
  have back : Text.trimStart cs.reverse = cs.reverse := by
    apply Text.trimStart_eq_self
    intro c hc
    have mem : c ∈ cs.reverse := List.mem_of_mem_head? hc
    exact h c (by simpa using mem)
  rw [Text.trim, start, Text.trimEnd_eq_reverse, back, List.reverse_reverse]

theorem isBlankText_of_solid {t : String} (nonempty : t.toList ≠ [])
    (solid : ∀ c ∈ t.toList, Text.isBlank c = false) : isBlankText t = false := by
  obtain ⟨c, hc⟩ := List.exists_mem_of_ne_nil _ nonempty
  rw [isBlankText, Text.allBlank, List.all_eq_false]
  exact ⟨c, hc, by simp [solid c hc]⟩

namespace IsLegible

variable {n : String} (h : IsLegible n)
include h

theorem localName_eq : localName n = n := by
  rw [localName, afterLast_of_not_mem h.marks.1, String.ofList_toList]

theorem isBlankText_eq : isBlankText n = false := isBlankText_of_solid h.nonempty h.solid

theorem fieldColumn_eq : fieldColumn n = n := by
  have start : n.toList.dropWhile (· == '@') = n.toList := by
    obtain ⟨c, cs, hn⟩ := List.exists_cons_of_ne_nil h.nonempty
    have other : c ≠ '@' := fun same => h.marks.2.2 (by simp [hn, same])
    simp [hn, other]
  rw [fieldColumn, trim_of_solid h.solid, start, String.ofList_toList, h.localName_eq]

theorem selectorTable_eq : selectorTable (".//" ++ n) = n := by
  have path : (".//" ++ n).toList = '.' :: '/' :: '/' :: n.toList := by simp
  have solid : ∀ c ∈ (".//" ++ n).toList, Text.isBlank c = false := by
    rw [path]
    simp only [List.mem_cons, forall_eq_or_imp]
    exact ⟨by decide, by decide, by decide, h.solid⟩
  have start : n.toList.dropWhile (· == '/') = n.toList := by
    obtain ⟨c, cs, hn⟩ := List.exists_cons_of_ne_nil h.nonempty
    have other : c ≠ '/' := fun same => h.marks.2.1 (by simp [hn, same])
    simp [hn, other]
  have rest : ((Text.trim (".//" ++ n).toList).dropWhile (· == '.')).dropWhile (· == '/') =
      n.toList := by
    rw [trim_of_solid solid, path]
    simpa using start
  rw [selectorTable, rest, afterLast_of_not_mem h.marks.2.1, String.ofList_toList, h.localName_eq]

end IsLegible

theorem wordsFrom_solid (word : List Char) {cs : List Char} (h : ∀ c ∈ cs, Text.isBlank c = false)
    (rest : List Char) :
    wordsFrom word (cs ++ rest) = wordsFrom (cs.reverse ++ word) rest := by
  induction cs generalizing word with
  | nil => rfl
  | cons c cs ih =>
    rw [List.forall_mem_cons] at h
    simp [wordsFrom, h.1, ih _ h.2]

/-- Names with a blank between any two are read back as a list. -/
theorem keyList_intercalate {ns : List String} (h : ∀ n ∈ ns, IsLegible n) :
    keyList (String.intercalate " " ns) = ns := by
  have words : wordsFrom [] ([' '].intercalate (ns.map String.toList)) = ns.map String.toList := by
    induction ns with
    | nil => rfl
    | cons n ns ih =>
      rw [List.forall_mem_cons] at h
      have solid := h.1.solid
      have nonempty := h.1.nonempty
      cases ns with
      | nil =>
        have whole := wordsFrom_solid [] solid []
        simpa [wordsFrom, nonempty] using whole
      | cons m ms =>
        have rest := ih h.2
        rw [List.map_cons, List.map_cons, List.intercalate_cons_cons, ← List.map_cons,
          List.append_assoc, wordsFrom_solid [] solid, List.singleton_append, wordsFrom]
        have blank : Text.isBlank ' ' = true := by decide
        simpa [blank, nonempty] using rest
  have text : (String.intercalate " " ns).toList = [' '].intercalate (ns.map String.toList) := by
    rw [String.toList_intercalate]
    rfl
  rw [keyList, text, words, List.map_map]
  simp [Function.comp_def]

/-! ### Lengths -/

theorem isDigit_of_mem_toDigits {n : Nat} {c : Char} (h : c ∈ Nat.toDigits 10 n) :
    c.isDigit = true :=
  Nat.isDigit_of_mem_toDigits (by decide) (by decide) h

theorem decimal?_toDigits (n : Nat) : decimal? (Nat.toDigits 10 n) = some n := by
  have digits : (Nat.toDigits 10 n).all Char.isDigit = true := by
    rw [List.all_eq_true]
    exact fun c => isDigit_of_mem_toDigits
  have nonempty : (Nat.toDigits 10 n).isEmpty = false :=
    List.isEmpty_eq_false_iff.mpr Nat.toDigits_ne_nil
  have value : Nat.ofDigitChars 10 (Nat.toDigits 10 n) 0 = n :=
    Nat.ofDigitChars_toDigits (by decide) (by decide)
  unfold decimal?
  rw [nonempty, digits]
  simpa [Nat.ofDigitChars] using value

theorem isBlank_of_isDigit {c : Char} (h : c.isDigit = true) : Text.isBlank c = false := by
  simp only [Char.isDigit, Bool.and_eq_true, decide_eq_true_eq, ge_iff_le,
    UInt32.le_iff_toNat_le] at h
  have code : c.val.toNat = c.toNat := rfl
  simp only [Text.isBlank]
  grind

theorem toList_toString_int (n : Int) :
    (toString n).toList =
      if 0 ≤ n then Nat.toDigits 10 n.toNat else '-' :: Nat.toDigits 10 (-n).toNat := by
  rw [Int.toString_eq_repr, Int.repr_eq_if]
  split <;> simp

theorem solid_toString_int (n : Int) : ∀ c ∈ (toString n).toList, Text.isBlank c = false := by
  intro c hc
  rw [toList_toString_int] at hc
  split at hc
  · exact isBlank_of_isDigit (isDigit_of_mem_toDigits hc)
  · rcases List.mem_cons.mp hc with rfl | hc
    · decide
    · exact isBlank_of_isDigit (isDigit_of_mem_toDigits hc)

theorem isBlankText_toString_int (n : Int) : isBlankText (toString n) = false := by
  have nonempty : (toString n).toList ≠ [] := by
    rw [toList_toString_int]
    split
    · exact Nat.toDigits_ne_nil
    · exact List.cons_ne_nil _ _
  exact isBlankText_of_solid nonempty (solid_toString_int n)

/-- The text of a length is read as the length, a negative one included. -/
theorem length?_toString (n : Int32) : length? (toString n.toInt) = some n := by
  have bounded (v : Int) (hv : v = n.toInt) :
      (if -0x80000000 ≤ v && v < 0x80000000 then some (Int32.ofInt v) else none) = some n := by
    have low := n.le_toInt
    have high := n.toInt_lt
    have inRange : (-0x80000000 ≤ v && v < 0x80000000) = true := by
      rw [Bool.and_eq_true, decide_eq_true_eq, decide_eq_true_eq]
      omega
    rw [if_pos inRange, hv, Int32.ofInt_toInt]
  unfold length?
  rw [trim_of_solid (solid_toString_int n.toInt), toList_toString_int]
  by_cases positive : 0 ≤ n.toInt
  · have value := decimal?_toDigits n.toInt.toNat
    have digits : ∀ c ∈ Nat.toDigits 10 n.toInt.toNat, c.isDigit = true :=
      fun c => isDigit_of_mem_toDigits
    rw [if_pos positive]
    obtain ⟨d, ds, hd⟩ :=
      List.exists_cons_of_ne_nil (Nat.toDigits_ne_nil (n := n.toInt.toNat) (b := 10))
    rw [hd] at value digits ⊢
    have first : d.isDigit = true := digits d List.mem_cons_self
    split
    · next same =>
      obtain rfl : d = '-' := (List.cons.inj same).1
      cases first
    · next same =>
      obtain rfl : d = '+' := (List.cons.inj same).1
      cases first
    · have same : Int.ofNat n.toInt.toNat = n.toInt := Int.toNat_of_nonneg positive
      rw [value, Option.map_some, same]
      exact bounded n.toInt rfl
  · rw [if_neg positive]
    simp only [decimal?_toDigits, Option.map_some, Option.bind_eq_bind, Option.bind_some,
      Option.pure_def]
    exact bounded _ (by omega)

/-! ### Documents -/

def documentScope : Scope := [(some "xs", schemaUri), (some "msdata", annotationUri)]

def schemaElement (name : String) (attributes : List Attribute) (children : List Element) :
    Element :=
  ⟨some schemaUri, name, attributes, documentScope, children⟩

def plain (name value : String) : Attribute := ⟨none, name, value⟩

def noted (name value : String) : Attribute := ⟨some annotationUri, name, value⟩

def dataType (c : Column) : String :=
  match c.type with
  | some type => "System." ++ type.name
  | none => c.sourceType.getD ""

def renderBound (maxLength : Int32) : Element :=
  schemaElement "simpleType" []
    [schemaElement "restriction" [plain "base" "xs:string"]
      [schemaElement "maxLength" [plain "value" (toString maxLength.toInt)] []]]

/-- An element of text, with a bound if there is one, that may be left out if the column takes
null. -/
def renderColumn (c : Column) : Element :=
  let bounded := c.maxLength != -1
  schemaElement "element"
    ([plain "name" c.name, noted "DataType" (dataType c)] ++
      (if bounded then [] else [plain "type" "xs:string"]) ++
      (if c.nullable then [plain "minOccurs" "0"] else []))
    (if bounded then [renderBound c.maxLength] else [])

def renderTable (t : Table) : Element :=
  schemaElement "element" [plain "name" t.name]
    [schemaElement "complexType" [] [schemaElement "sequence" [] (t.columns.map renderColumn)]]

def renderPaths (table : String) (columns : List String) : List Element :=
  schemaElement "selector" [plain "xpath" (".//" ++ table)] [] ::
    columns.map fun column => schemaElement "field" [plain "xpath" column] []

def declaredKeys (s : Schema) : List (String × List String) :=
  s.tables.filterMap fun t => t.primaryKey.map (t.name, ·)

/-- The constraint of a declared key. Constraints have names of their own. -/
def renderKey (keyName : String → String) (k : String × List String) : Element :=
  schemaElement "unique" [plain "name" (keyName k.1), noted "PrimaryKey" "true"]
    (renderPaths k.1 k.2)

/-- A relation to a parent's key, by the name of its constraint. -/
def renderReference (keyName : String → String) (r : Relation) : Element :=
  schemaElement "keyref" [plain "name" r.name, plain "refer" (keyName r.parentTable)]
    (renderPaths r.childTable r.childColumns)

/-- A relation with all of its tables and columns written out. -/
def renderRelationship (r : Relation) : Element :=
  ⟨some annotationUri, "Relationship",
    [plain "name" r.name, noted "parent" r.parentTable, noted "child" r.childTable,
      noted "parentkey" (String.intercalate " " r.parentColumns),
      noted "childkey" (String.intercalate " " r.childColumns)], documentScope, []⟩

def renderRelation (keyName : String → String) (byReference : Relation → Bool) (r : Relation) :
    Element :=
  if byReference r then renderReference keyName r
  else schemaElement "annotation" [] [schemaElement "appinfo" [] [renderRelationship r]]

def renderDataset (keyName : String → String) (byReference : Relation → Bool) (s : Schema) :
    Element :=
  schemaElement "element" [plain "name" s.name, noted "IsDataSet" "true"]
    (schemaElement "complexType" [] [schemaElement "choice" [] (s.tables.map renderTable)] ::
      ((declaredKeys s).map (renderKey keyName) ++
        s.relations.map (renderRelation keyName byReference)))

def render (keyName : String → String) (byReference : Relation → Bool) (s : Schema) : Element :=
  schemaElement "schema" [] [renderDataset keyName byReference s]

/-- A column that a document can say: of a type, or of a text that names none. -/
def IsExpressible (c : Column) : Prop :=
  match c.type with
  | some _ => c.sourceType = none
  | none => ∃ source, c.sourceType = some source ∧ annotatedType? source = none

def tableNames (t : Table) : List String := t.name :: t.columns.map (·.name) ++ t.keyColumns

def relationNames (r : Relation) : List String :=
  [r.name, r.parentTable, r.childTable] ++ r.parentColumns ++ r.childColumns

def namesOf (s : Schema) : List String :=
  s.name :: s.tables.flatMap tableNames ++ s.relations.flatMap relationNames

/-- A schema that documents can say. Only a relation to the key of its parent is a reference. -/
structure IsRenderable (keyName : String → String) (byReference : Relation → Bool) (s : Schema) :
    Prop where
  names : ∀ n ∈ namesOf s, isNcName n = true
  keyNames : ∀ t ∈ s.tables, IsLegible (keyName t.name)
  keysApart : ∀ t ∈ s.tables, ∀ u ∈ s.tables, keyName t.name = keyName u.name → t.name = u.name
  tablesApart : (s.tables.map (·.name)).Nodup
  relationsApart : (s.relations.map (·.name)).Nodup
  columns : ∀ t ∈ s.tables, ∀ c ∈ t.columns, IsExpressible c
  references : ∀ r ∈ s.relations, byReference r = true →
    ∃ t ∈ s.tables, t.name = r.parentTable ∧ t.primaryKey = some r.parentColumns

end Tabular.Dataset
