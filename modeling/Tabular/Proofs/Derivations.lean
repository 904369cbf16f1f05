import Tabular.Proofs.FormatFaults
import Tabular.Proofs.Nesting

/-!
What the type of a column is derived from. A column has a simple type inside it or names one, and a
simple type restricts another in the same two ways, up to a type of XML Schema or to something that
is no type. The bound of a column is the one stated nearest to it; a chain that enters more types
than there are levels is refused, and so is one that never ends.
-/
namespace Tabular.Dataset

open Markup

/-- What a column or a restriction leads to: a simple type of the document, or the end of the chain,
which is a type of XML Schema or none. -/
inductive Base where
  | type (simple : Element)
  | root (builtin : Option String)

def restrictionIn? (simple : Element) : Option Element :=
  simple.children.find? (isSchemaElement · "restriction")

def simpleTypeIn? (e : Element) : Option Element :=
  e.children.find? (isSchemaElement · "simpleType")

def namedBase (d : Declarations) (context : Element) (name : String) : Base :=
  if isBuiltinName context name then .root (some (localName name))
  else
    match lookUp d.simpleTypes (localName name) with
    | some simple => .type simple
    | none => .root none

/-- What a column leads to: the type inside it, or the one it names, or text. -/
def columnBase (d : Declarations) (column : Element) : Base :=
  match simpleTypeIn? column with
  | some inner => .type inner
  | none =>
    match column.attribute? "type" with
    | some name => namedBase d column name
    | none => .root (some "string")

/-- What a simple type leads to: the type that its restriction names, or the one inside that. -/
def baseOf (d : Declarations) (simple : Element) : Base :=
  match restrictionIn? simple with
  | none => .root none
  | some restriction =>
    match restriction.attribute? "base" with
    | some name => namedBase d restriction name
    | none =>
      match simpleTypeIn? restriction with
      | some inner => .type inner
      | none => .root none

/-- The depth at which a column enters its first type: a name is a step more than a type inside. -/
def entryDepth (column : Element) : Nat :=
  if (simpleTypeIn? column).isSome then 0 else 1

def Restricts (d : Declarations) (simple next : Element) : Prop :=
  baseOf d simple = .type next

/-- The chain of simple types from somewhere to its end, and what it ends in. -/
inductive Derivation (d : Declarations) : Base → List Element → Option String → Prop
  | root (builtin : Option String) : Derivation d (.root builtin) [] builtin
  | type {simple : Element} {chain : List Element} {builtin : Option String} :
      Derivation d (baseOf d simple) chain builtin →
        Derivation d (.type simple) (simple :: chain) builtin

/-- The element that bounds the length of a simple type: the first of its restriction. -/
def lengthFacetIn? (simple : Element) : Option Element :=
  (restrictionIn? simple).bind fun restriction => restriction.children.find? fun e =>
    isSchemaElement e "maxLength" || isSchemaElement e "length"

def facetValue? (facet : Element) : Option Int32 :=
  (facet.attribute? "value").bind length?

def statedBound? (simple : Element) : Option Int32 :=
  (lengthFacetIn? simple).bind facetValue?

def HasValidBound (simple : Element) : Prop :=
  ∀ facet, lengthFacetIn? simple = some facet → (facetValue? facet).isSome = true

/-- The bound nearest to the start of a chain; no bound if negative. -/
def nearestBound (chain : List Element) : Int32 :=
  (chain.findSome? statedBound?).getD (-1)

section Chains

variable {d : Declarations}

theorem Derivation.unique {base : Base} {chain chain' : List Element}
    {builtin builtin' : Option String} (h : Derivation d base chain builtin)
    (h' : Derivation d base chain' builtin') :
    chain = chain' ∧ builtin = builtin' := by
  induction h generalizing chain' with
  | root builtin =>
    cases h'
    exact ⟨rfl, rfl⟩
  | type _ ih =>
    obtain _ | h' := h'
    obtain ⟨rfl, rfl⟩ := ih h'
    exact ⟨rfl, rfl⟩

/-- Where no chain from a type is longer than the levels, the chain from it comes to an end. -/
theorem exists_derivation {levels : Nat} {simple : Element}
    (short : ∀ rest, (simple :: rest).IsChain (Restricts d) → (simple :: rest).length ≤ levels) :
    ∃ chain builtin, Derivation d (.type simple) chain builtin ∧ chain.length ≤ levels := by
  induction levels generalizing simple with
  | zero => exact absurd (short [] (.singleton simple)) (by simp)
  | succ levels ih =>
    cases base : baseOf d simple with
    | root builtin =>
      exact ⟨[simple], builtin, .type (base ▸ .root builtin), Nat.succ_le_succ levels.zero_le⟩
    | type next =>
      obtain ⟨chain, builtin, derivation, length⟩ := @ih next fun rest chain =>
        Nat.le_of_succ_le_succ (short (next :: rest) (.cons_cons base chain))
      exact ⟨simple :: chain, builtin, .type (base ▸ derivation), Nat.succ_le_succ length⟩

end Chains

/-! ### Bounds -/

section Bounds

variable {simple restriction : Element}

theorem length?_of_isBlankText {value : String} (blank : isBlankText value = true) :
    length? value = none := by
  have trimmed : Text.trim value.toList = [] := by
    obtain ⟨front, back, -, -, whole⟩ := Text.exists_blank_trim value.toList
    have start : Text.trimStart value.toList = [] := List.dropWhile_eq_nil_iff.mpr fun c hc =>
      List.all_eq_true.mp blank c hc
    rw [Text.trim, start]
    rfl
  unfold length?
  rw [trimmed]
  rfl

theorem lengthFacetIn?_eq (inside : restrictionIn? simple = some restriction) :
    lengthFacetIn? simple = restriction.children.find? fun e =>
      isSchemaElement e "maxLength" || isSchemaElement e "length" := by
  rw [lengthFacetIn?, inside]
  rfl

theorem lengthFacet?_eq_ok_iff (inside : restrictionIn? simple = some restriction)
    {bound : Option Int32} :
    lengthFacet? restriction = .ok bound ↔ HasValidBound simple ∧ bound = statedBound? simple := by
  unfold lengthFacet? HasValidBound statedBound?
  rw [← lengthFacetIn?_eq inside]
  cases lengthFacetIn? simple with
  | none =>
    constructor
    · intro h
      exact ⟨nofun, (Except.ok.inj h).symm⟩
    · rintro ⟨-, rfl⟩
      rfl
  | some facet =>
    rw [Option.bind_some, facetValue?]
    constructor
    · intro h
      obtain ⟨value, read, h⟩ := bind_eq_ok_iff.mp h
      obtain ⟨found, -⟩ := required_eq_ok_iff.mp read
      cases number : length? value with
      | none =>
        rw [number] at h
        cases h
      | some n =>
        rw [number] at h
        rw [found, Option.bind_some, number]
        refine ⟨fun facet' same => ?_, (Except.ok.inj h).symm⟩
        rw [← Option.some.inj same, facetValue?, found, Option.bind_some, number]
        rfl
    · rintro ⟨valid, rfl⟩
      obtain ⟨n, value⟩ := Option.isSome_iff_exists.mp (valid facet rfl)
      obtain ⟨text, found, number⟩ := Option.bind_eq_some_iff.mp value
      have solid : isBlankText text = false := by
        cases blank : isBlankText text with
        | false => rfl
        | true => simp [length?_of_isBlankText blank] at number
      rw [found, Option.bind_some, number]
      exact bind_eq_ok_iff.mpr ⟨text, required_eq_ok_iff.mpr ⟨found, solid⟩, by rw [number]; rfl⟩

theorem nearestBound_cons (simple : Element) (chain : List Element) :
    nearestBound (simple :: chain) = (statedBound? simple).getD (nearestBound chain) := by
  rw [nearestBound, List.findSome?_cons]
  cases statedBound? simple <;> rfl

end Bounds

/-! ### The end of a chain and the bound nearest to its start -/

def SimpleType.meaning (type : SimpleType) : Option String × Int32 :=
  (type.builtin, type.maxLength)

def bounded (simple : Element) (base : Option String × Int32) :
    Except Fault (Option String × Int32) :=
  match restrictionIn? simple with
  | none => .ok base
  | some restriction => do
    let bound ← lengthFacet? restriction
    return (base.1, bound.getD base.2)

/-- A chain followed through at most so many types. -/
def follow (d : Declarations) : Nat → Base → Except Fault (Option String × Int32)
  | _, .root builtin => .ok (builtin, -1)
  | 0, .type _ => .error (.schemaFormat "simple type derivation is too deep")
  | levels + 1, .type simple => follow d levels (baseOf d simple) >>= bounded simple

section Following

variable {d : Declarations} {levels : Nat} {base : Base} {simple : Element}

@[simp] theorem follow_root (builtin : Option String) :
    follow d levels (.root builtin) = .ok (builtin, -1) := by
  cases levels <;> rfl

theorem bounded_eq_ok_iff {t u : Option String × Int32} :
    bounded simple t = .ok u ↔
      HasValidBound simple ∧ u = (t.1, (statedBound? simple).getD t.2) := by
  unfold bounded
  cases inside : restrictionIn? simple with
  | none =>
    have noFacet : lengthFacetIn? simple = none := by rw [lengthFacetIn?, inside]; rfl
    constructor
    · intro h
      rw [HasValidBound, statedBound?, noFacet]
      exact ⟨nofun, (Except.ok.inj h).symm⟩
    · rintro ⟨-, rfl⟩
      rw [statedBound?, noFacet]
      rfl
  | some restriction =>
    dsimp only
    rw [bind_eq_ok_iff]
    constructor
    · rintro ⟨bound, read, h⟩
      obtain ⟨valid, rfl⟩ := (lengthFacet?_eq_ok_iff inside).mp read
      exact ⟨valid, (Except.ok.inj h).symm⟩
    · rintro ⟨valid, rfl⟩
      exact ⟨_, (lengthFacet?_eq_ok_iff inside).mpr ⟨valid, rfl⟩, rfl⟩

theorem follow_root_eq_ok_iff {builtin : Option String} {u : Option String × Int32} :
    follow d levels (.root builtin) = .ok u ↔
      ∃ chain builtin', Derivation d (.root builtin) chain builtin' ∧ chain.length ≤ levels ∧
        (∀ simple ∈ chain, HasValidBound simple) ∧ u = (builtin', nearestBound chain) := by
  rw [follow_root]
  constructor
  · rintro ⟨⟩
    exact ⟨[], builtin, .root builtin, levels.zero_le, nofun, rfl⟩
  · rintro ⟨_, _, ⟨⟩, -, -, rfl⟩
    rfl

/-- Following a chain gives what it ends in and its nearest bound, and does so exactly where the
chain has an end, no more types than levels, and no bound that is no number. -/
theorem follow_eq_ok_iff {u : Option String × Int32} :
    follow d levels base = .ok u ↔
      ∃ chain builtin, Derivation d base chain builtin ∧ chain.length ≤ levels ∧
        (∀ simple ∈ chain, HasValidBound simple) ∧ u = (builtin, nearestBound chain) := by
  induction levels generalizing base u with
  | zero =>
    cases base with
    | root builtin => exact follow_root_eq_ok_iff
    | type simple =>
      refine ⟨nofun, ?_⟩
      rintro ⟨_, _, ⟨⟩, short, -⟩
      exact absurd short (Nat.not_succ_le_zero _)
  | succ levels ih =>
    cases base with
    | root builtin => exact follow_root_eq_ok_iff
    | type simple =>
      rw [follow, bind_eq_ok_iff]
      constructor
      · rintro ⟨t, followed, own⟩
        obtain ⟨chain, builtin, derivation, short, valid, rfl⟩ := ih.mp followed
        obtain ⟨ownValid, rfl⟩ := bounded_eq_ok_iff.mp own
        exact ⟨simple :: chain, builtin, .type derivation, Nat.succ_le_succ short,
          List.forall_mem_cons.mpr ⟨ownValid, valid⟩, by rw [nearestBound_cons]⟩
      · rintro ⟨_, builtin, _ | derivation, short, valid, rfl⟩
        obtain ⟨ownValid, valid⟩ := List.forall_mem_cons.mp valid
        exact ⟨_, ih.mpr ⟨_, builtin, derivation, Nat.le_of_succ_le_succ short, valid, rfl⟩,
          bounded_eq_ok_iff.mpr ⟨ownValid, by rw [nearestBound_cons]⟩⟩

/-- A chain with at least as many steps as there are levels is refused, whatever it ends in. -/
theorem follow_of_isChain {rest : List Element} (chain : (simple :: rest).IsChain (Restricts d))
    (deep : levels ≤ rest.length) :
    follow d levels (.type simple) =
      .error (.schemaFormat "simple type derivation is too deep") := by
  induction rest generalizing simple levels with
  | nil =>
    obtain rfl := Nat.le_zero.mp deep
    rfl
  | cons next rest ih =>
    cases levels with
    | zero => rfl
    | succ levels =>
      obtain ⟨restricts, chain⟩ := List.isChain_cons_cons.mp chain
      rw [follow, show baseOf d simple = .type next from restricts,
        ih chain (Nat.le_of_succ_le_succ deep)]
      rfl

/-! The names that types are written with, which only messages show, do not change their meaning. -/

theorem meaning_bind_boundedType {restriction : Element}
    (inside : restrictionIn? simple = some restriction) (r : Except Fault SimpleType) :
    (r >>= boundedType restriction).map SimpleType.meaning =
      r.map SimpleType.meaning >>= bounded simple := by
  cases r with
  | error f => rfl
  | ok type =>
    show (boundedType restriction type).map _ = bounded simple type.meaning
    rw [bounded, boundedType, inside]
    dsimp only
    cases lengthFacet? restriction <;> rfl

def typeOfName (d : Declarations) (r : Element → Except Fault SimpleType) (context : Element)
    (name : String) : Except Fault SimpleType :=
  if isBuiltinName context name then .ok ⟨name, some (localName name), -1⟩
  else
    match lookUp d.simpleTypes (localName name) with
    | some next => (r next).map fun type => { type with declared := name }
    | none => .ok ⟨name, none, -1⟩

theorem namedType_eq (context : Element) (name : String) :
    namedType d context name = typeOfName d (restrictionType d (depthLimit - 1)) context name := by
  unfold namedType typeOfName
  cases isBuiltinName context name with
  | true => rfl
  | false =>
    cases lookUp d.simpleTypes (localName name) with
    | none => rfl
    | some next =>
      dsimp only
      cases restrictionType d (depthLimit - 1) next <;> rfl

theorem meaning_typeOfName {r : Element → Except Fault SimpleType}
    (types : ∀ next, (r next).map SimpleType.meaning = follow d levels (.type next))
    (context : Element) (name : String) :
    (typeOfName d r context name).map SimpleType.meaning =
      follow d levels (namedBase d context name) := by
  unfold typeOfName namedBase
  cases isBuiltinName context name with
  | true => exact (follow_root _).symm
  | false =>
    cases lookUp d.simpleTypes (localName name) with
    | none => exact (follow_root _).symm
    | some next =>
      refine Eq.trans ?_ (types next)
      dsimp only
      cases r next <;> rfl

theorem meaning_restrictionType (simple : Element) :
    (restrictionType d levels simple).map SimpleType.meaning = follow d levels (.type simple) := by
  induction levels generalizing simple with
  | zero => rfl
  | succ levels ih =>
    rw [restrictionType_succ, follow, baseOf, ← restrictionIn?]
    cases inside : restrictionIn? simple with
    | none =>
      rw [follow_root]
      show _ = bounded simple (none, -1)
      rw [bounded, inside]
      rfl
    | some restriction =>
      rw [meaning_bind_boundedType inside]
      refine congrArg (· >>= bounded simple) ?_
      dsimp only
      unfold restrictedType
      cases restriction.attribute? "base" with
      | some name => exact meaning_typeOfName ih restriction name
      | none =>
        dsimp only
        rw [← simpleTypeIn?]
        cases simpleTypeIn? restriction with
        | some inner => exact ih inner
        | none => exact (follow_root _).symm

theorem meaning_simpleTypeOf (column : Element) :
    (simpleTypeOf d column).map SimpleType.meaning =
      follow d (depthLimit - entryDepth column) (columnBase d column) := by
  unfold simpleTypeOf columnBase entryDepth
  rw [← simpleTypeIn?]
  cases simpleTypeIn? column with
  | some inner => exact meaning_restrictionType inner
  | none =>
    cases column.attribute? "type" with
    | some name =>
      dsimp only
      rw [namedType_eq]
      exact meaning_typeOfName meaning_restrictionType column name
    | none => exact (follow_root _).symm

/-- Apart from the name, a type is what its meaning is. -/
theorem exists_of_meaning_eq_ok {r : Except Fault SimpleType} {builtin : Option String}
    {bound : Int32} (h : r.map SimpleType.meaning = .ok (builtin, bound)) :
    ∃ declared, r = .ok ⟨declared, builtin, bound⟩ := by
  cases r with
  | error f => cases h
  | ok type =>
    obtain ⟨declared, builtin', bound'⟩ := type
    obtain ⟨rfl, rfl⟩ := Prod.mk.inj (Except.ok.inj h)
    exact ⟨declared, rfl⟩

theorem eq_error_of_meaning_eq_error {r : Except Fault SimpleType} {f : Fault}
    (h : r.map SimpleType.meaning = .error f) : r = .error f := by
  cases r with
  | error f' => exact congrArg Except.error (Except.error.inj h)
  | ok type => cases h

end Following

/-- The type of a column. A column whose chain enters a type at a depth beyond sixteen, and so every
column whose chain leads into a cycle, is refused. Every other chain comes to an end, and then the
type is what the chain ends in, with the bound stated nearest to the column, unless a bound on the
chain is no number that fits, which is refused. -/
theorem simpleTypeOf_follows_chain (d : Declarations) (column : Element) :
    let tooDeep : Except Fault SimpleType :=
      .error (.schemaFormat "simple type derivation is too deep")
    (∀ first rest, columnBase d column = .type first → (first :: rest).IsChain (Restricts d) →
      16 < entryDepth column + rest.length → simpleTypeOf d column = tooDeep) ∧
    (∀ first simple, columnBase d column = .type first →
      Relation.ReflTransGen (Restricts d) first simple →
      Relation.TransGen (Restricts d) simple simple → simpleTypeOf d column = tooDeep) ∧
    ((∀ first rest, columnBase d column = .type first → (first :: rest).IsChain (Restricts d) →
        entryDepth column + rest.length ≤ 16) →
      ∃ chain builtin, Derivation d (columnBase d column) chain builtin ∧
        ((∀ simple ∈ chain, HasValidBound simple) → ∃ declared,
          simpleTypeOf d column = .ok ⟨declared, builtin, nearestBound chain⟩) ∧
        (∀ simple ∈ chain, ¬ HasValidBound simple → ∃ message,
          simpleTypeOf d column = .error (.schemaFormat message))) := by
  have meaning := meaning_simpleTypeOf (d := d) column
  have deep {first : Element} {rest : List Element} (starts : columnBase d column = .type first)
      (chain : (first :: rest).IsChain (Restricts d)) (far : 16 < entryDepth column + rest.length) :
      simpleTypeOf d column = .error (.schemaFormat "simple type derivation is too deep") := by
    refine eq_error_of_meaning_eq_error ?_
    rw [meaning, starts]
    exact follow_of_isChain chain (Nat.sub_le_of_le_add (by rw [depthLimit]; omega))
  refine ⟨fun first rest starts chain far => deep starts chain far,
    fun first simple starts way cycle => ?_, fun short => ?_⟩
  · obtain ⟨rest, length, chain⟩ := exists_isChain_of_cycle cycle way 17
    exact deep starts chain (by omega)
  · obtain ⟨chain, builtin, derivation, within⟩ : ∃ chain builtin,
        Derivation d (columnBase d column) chain builtin ∧
          chain.length ≤ depthLimit - entryDepth column := by
      cases starts : columnBase d column with
      | root builtin => exact ⟨[], builtin, .root builtin, Nat.zero_le _⟩
      | type first =>
        refine exists_derivation fun rest chain => ?_
        have := short first rest starts chain
        rw [List.length_cons, depthLimit]
        omega
    refine ⟨chain, builtin, derivation, fun valid => ?_, fun simple hs invalid => ?_⟩
    · exact exists_of_meaning_eq_ok
        (meaning.trans (follow_eq_ok_iff.mpr ⟨chain, builtin, derivation, within, valid, rfl⟩))
    · refine (failsInFormat_simpleTypeOf d column).refused fun type read => invalid ?_
      rw [read] at meaning
      obtain ⟨chain', builtin', derivation', -, valid, -⟩ := follow_eq_ok_iff.mp meaning.symm
      obtain ⟨rfl, -⟩ := derivation.unique derivation'
      exact valid simple hs

def nestedTypes : Nat → Element
  | 0 => schemaElement "simpleType" [] []
  | n + 1 => schemaElement "simpleType" [] [schemaElement "restriction" [] [nestedTypes n]]

theorem restricts_nestedTypes (d : Declarations) (n : Nat) :
    Restricts d (nestedTypes (n + 1)) (nestedTypes n) := by
  cases n <;> rfl

theorem exists_isChain_nestedTypes (d : Declarations) (n : Nat) :
    ∃ rest, rest.length = n ∧ (nestedTypes n :: rest).IsChain (Restricts d) := by
  induction n with
  | zero => exact ⟨[], rfl, .singleton _⟩
  | succ n ih =>
    obtain ⟨rest, length, chain⟩ := ih
    exact ⟨nestedTypes n :: rest, by rw [List.length_cons, length],
      .cons_cons (restricts_nestedTypes d n) chain⟩

def restricting (base : String) (facets : List Element) : Element :=
  schemaElement "simpleType" [] [schemaElement "restriction" [plain "base" base] facets]

theorem simpleTypeOf_follows_chain_codes :
    let facet (value : String) := schemaElement "maxLength" [plain "value" value] []
    let word := restricting "xs:string" [facet "8"]
    let code := restricting "word" []
    let ring := restricting "ring" []
    let odd := restricting "word" [facet "many"]
    let d : Declarations := ⟨[], [], [("word", word), ("code", code), ("ring", ring), ("odd", odd)]⟩
    let of (type : String) := schemaElement "element" [plain "type" type] []
    let deep := schemaElement "element" [] [nestedTypes 17]
    let tooDeep : Except Fault SimpleType :=
      .error (.schemaFormat "simple type derivation is too deep")
    ((∃ rest, (nestedTypes 17 :: rest).IsChain (Restricts d) ∧ 16 < rest.length) ∧
        simpleTypeOf d deep = tooDeep) ∧
      (Restricts d ring ring ∧ simpleTypeOf d (of "ring") = tooDeep) ∧
      (Derivation d (columnBase d (of "code")) [code, word] (some "string") ∧
        ∃ declared, simpleTypeOf d (of "code") = .ok ⟨declared, some "string", 8⟩) ∧
      ∃ message, simpleTypeOf d (of "odd") = .error (.schemaFormat message) := by
  intro facet word code ring odd d of deep tooDeep
  have around : Restricts d ring ring := rfl
  -- A chain from a type to the word goes no further.
  have short {simple : Element} (base : baseOf d simple = .type word) (rest : List Element)
      (chain : (simple :: rest).IsChain (Restricts d)) : rest.length ≤ 1 := by
    match rest, chain with
    | [], _ => exact Nat.zero_le 1
    | [_], _ => exact Nat.le_refl 1
    | _ :: next :: _, .cons_cons first (.cons_cons second _) =>
      obtain rfl := Base.type.inj (base.symm.trans first)
      cases second
  have derivation {simple : Element} (base : baseOf d simple = .type word) :
      Derivation d (.type simple) [simple, word] (some "string") :=
    .type (base ▸ .type (.root (some "string")))
  refine ⟨?_, ⟨around, ?_⟩, ⟨derivation rfl, ?_⟩, ?_⟩
  · obtain ⟨rest, length, chain⟩ := exists_isChain_nestedTypes d 17
    have far : 16 < entryDepth deep + rest.length := by
      rw [length]
      decide
    exact ⟨⟨rest, chain, by rw [length]; decide⟩,
      (simpleTypeOf_follows_chain d deep).1 _ rest rfl chain far⟩
  · exact (simpleTypeOf_follows_chain d (of "ring")).2.1 ring ring rfl .refl (.single around)
  · obtain ⟨chain, builtin, derivation', ok, -⟩ :=
      (simpleTypeOf_follows_chain d (of "code")).2.2 fun first rest starts chain => by
        obtain rfl := Base.type.inj starts
        exact Nat.le_trans (Nat.add_le_add_left (short rfl rest chain) 1) (by decide)
    obtain ⟨rfl, rfl⟩ := (derivation rfl).unique derivation'
    refine ok fun simple hs facet' stated => ?_
    simp only [List.mem_cons, List.not_mem_nil, or_false] at hs
    rcases hs with rfl | rfl
    · cases stated
    · obtain rfl := Option.some.inj stated
      rfl
  · obtain ⟨chain, builtin, derivation', -, refused⟩ :=
      (simpleTypeOf_follows_chain d (of "odd")).2.2 fun first rest starts chain => by
        obtain rfl := Base.type.inj starts
        exact Nat.le_trans (Nat.add_le_add_left (short rfl rest chain) 1) (by decide)
    obtain ⟨rfl, rfl⟩ := (derivation rfl).unique derivation'
    refine refused odd (by simp) fun valid => ?_
    cases valid _ rfl

end Tabular.Dataset
