import Tabular.Dataset.Reader
import Tabular.Proofs.Outcomes

/-!
What documents are refused for. Whatever is wrong with a data-set document, with a name, a
reference, a type, a table, a key or a relation, the fault is one of format.
-/
namespace Tabular

def FailsInFormat {α : Type} (r : Except Fault α) : Prop :=
  ∀ f, r = .error f → ∃ message, f = .schemaFormat message

namespace FailsInFormat

variable {α β : Type}

theorem ok (a : α) : FailsInFormat (.ok a) := by
  intro f h
  cases h

theorem refusal (message : String) :
    FailsInFormat (.error (.schemaFormat message) : Except Fault α) := by
  intro f h
  exact ⟨message, (Except.error.inj h).symm⟩

theorem bind {r : Except Fault α} {k : α → Except Fault β} (hr : FailsInFormat r)
    (hk : ∀ a, FailsInFormat (k a)) : FailsInFormat (r >>= k) := by
  intro f h
  rcases bind_eq_error_iff.mp h with h | ⟨a, -, h⟩
  · exact hr f h
  · exact hk a f h

theorem map {r : Except Fault α} (hr : FailsInFormat r) (g : α → β) : FailsInFormat (r.map g) := by
  cases r with
  | error f => exact fun _ h => hr _ (congrArg Except.error (Except.error.inj h))
  | ok a => exact ok (g a)

theorem mapM {g : α → Except Fault β} (hg : ∀ a, FailsInFormat (g a)) (xs : List α) :
    FailsInFormat (xs.mapM g) := by
  intro f h
  obtain ⟨x, -, hx⟩ := exists_of_mapM_eq_error h
  exact hg x f hx

/-- The two ways to end. -/
theorem ends {r : Except Fault α} (hr : FailsInFormat r) :
    (∃ a, r = .ok a) ∨ ∃ message, r = .error (.schemaFormat message) := by
  cases r with
  | ok a => exact .inl ⟨a, rfl⟩
  | error f =>
    obtain ⟨message, rfl⟩ := hr f rfl
    exact .inr ⟨message, rfl⟩

/-- What has no result is refused. -/
theorem refused {r : Except Fault α} (hr : FailsInFormat r) (none_ : ∀ a, r ≠ .ok a) :
    ∃ message, r = .error (.schemaFormat message) := by
  rcases hr.ends with ⟨a, h⟩ | h
  · exact absurd h (none_ a)
  · exact h

end FailsInFormat

namespace Dataset

open Markup

variable (d : Declarations)

theorem failsInFormat_required (e : Element) (name what : String) :
    FailsInFormat (required e name what) := by
  unfold required
  split
  · split
    · exact .refusal _
    · exact .ok _
  · exact .refusal _

theorem failsInFormat_resolve (e : Element) : FailsInFormat (d.resolve e) := by
  unfold Declarations.resolve
  split
  · exact .ok _
  · split
    · exact .ok _
    · exact .refusal _

/-! ### Types -/

def restrictedType (levels : Nat) (restriction : Element) : Except Fault SimpleType :=
  match restriction.attribute? "base" with
  | some name =>
    if isBuiltinName restriction name then .ok ⟨name, some (localName name), -1⟩
    else
      match lookUp d.simpleTypes (localName name) with
      | some next => (restrictionType d levels next).map fun type => { type with declared := name }
      | none => .ok ⟨name, none, -1⟩
  | none =>
    match restriction.children.find? (isSchemaElement · "simpleType") with
    | some inner => restrictionType d levels inner
    | none => .ok ⟨"xs:restriction", none, -1⟩

/-- A type with the bound of a restriction, or with its own where the restriction states none. -/
def boundedType (restriction : Element) (base : SimpleType) : Except Fault SimpleType :=
  (lengthFacet? restriction).map fun bound => { base with maxLength := bound.getD base.maxLength }

theorem restrictionType_succ (levels : Nat) (simple : Element) :
    restrictionType d (levels + 1) simple =
      match simple.children.find? (isSchemaElement · "restriction") with
      | none => .ok ⟨"xs:simpleType", none, -1⟩
      | some restriction => restrictedType d levels restriction >>= boundedType restriction := by
  rw [restrictionType]
  cases simple.children.find? (isSchemaElement · "restriction") with
  | none => rfl
  | some restriction =>
    unfold restrictedType boundedType
    dsimp only
    generalize lengthFacet? restriction = bound
    cases restriction.attribute? "base" with
    | none =>
      cases restriction.children.find? (isSchemaElement · "simpleType") with
      | none => rcases bound with _ | _ | _ <;> rfl
      | some inner =>
        dsimp only
        cases restrictionType d levels inner <;> rcases bound with _ | _ | _ <;> rfl
    | some name =>
      dsimp only
      cases isBuiltinName restriction name with
      | true => rcases bound with _ | _ | _ <;> rfl
      | false =>
        cases lookUp d.simpleTypes (localName name) with
        | none => rcases bound with _ | _ | _ <;> rfl
        | some next =>
          dsimp only
          cases restrictionType d levels next <;> rcases bound with _ | _ | _ <;> rfl

theorem failsInFormat_lengthFacet? (restriction : Element) :
    FailsInFormat (lengthFacet? restriction) := by
  unfold lengthFacet?
  split
  · exact .ok _
  · refine .bind (failsInFormat_required _ _ _) fun value => ?_
    split
    · exact .ok _
    · exact .refusal _

theorem failsInFormat_restrictionType (levels : Nat) (simple : Element) :
    FailsInFormat (restrictionType d levels simple) := by
  induction levels generalizing simple with
  | zero => exact .refusal _
  | succ levels ih =>
    rw [restrictionType_succ]
    split
    · exact .ok _
    · refine .bind ?_ fun base => .map (failsInFormat_lengthFacet? _) _
      unfold restrictedType
      split
      · split
        · exact .ok _
        · split
          · exact .map (ih _) _
          · exact .ok _
      · split
        · exact ih _
        · exact .ok _

theorem failsInFormat_namedType (context : Element) (name : String) :
    FailsInFormat (namedType d context name) := by
  unfold namedType
  split
  · exact .ok _
  · split
    · exact .bind (failsInFormat_restrictionType d _ _) fun type => .ok _
    · exact .ok _

theorem failsInFormat_simpleTypeOf (column : Element) : FailsInFormat (simpleTypeOf d column) := by
  unfold simpleTypeOf
  split
  · exact failsInFormat_restrictionType d _ _
  · split
    · exact failsInFormat_namedType d _ _
    · exact .ok _

/-! ### Tables -/

theorem failsInFormat_readColumn (table : String) (isAttribute : Bool) (e : Element) :
    FailsInFormat (readColumn d table isAttribute e) :=
  .bind (failsInFormat_required _ _ _) fun _ =>
    .bind (failsInFormat_simpleTypeOf d e) fun _ => .ok _

theorem failsInFormat_readTable (levels : Nat) (e c : Element) :
    FailsInFormat (readTable d levels e c) := by
  induction levels generalizing e c with
  | zero =>
    unfold readTable
    exact .bind (failsInFormat_required _ _ _) fun name => .refusal _
  | succ levels ih =>
    unfold readTable
    refine .bind (failsInFormat_required _ _ _) fun name =>
      .bind (.mapM (fun particle => ?_) _) fun contributions =>
        .bind (.mapM (failsInFormat_readColumn d name true) _) fun attributes => .ok _
    refine .bind (failsInFormat_resolve d _) fun declaration => ?_
    split
    · exact .bind (ih _ _) fun tables => .ok _
    · exact .bind (failsInFormat_readColumn d _ _ _) fun column => .ok _

theorem failsInFormat_readTables (e : Element) : FailsInFormat (readTables d e) := by
  refine .bind (failsInFormat_resolve d e) fun declaration => ?_
  split
  · exact failsInFormat_readTable d _ _ _
  · exact .ok _

theorem failsInFormat_readDataset (root : Element) : FailsInFormat (readDataset d root) := by
  unfold readDataset
  dsimp only
  split
  · exact .refusal _
  · split
    · exact .bind (failsInFormat_required _ _ _) fun name => .ok _
    · exact .ok _

/-! ### Keys and relations -/

theorem failsInFormat_constraintTarget (e : Element) (name : String) :
    FailsInFormat (constraintTarget e name) := by
  unfold constraintTarget
  dsimp only
  split
  · exact .refusal _
  · exact .ok _

theorem failsInFormat_readKeys (root : Element) : FailsInFormat (readKeys root) :=
  .mapM (fun _ => .bind (failsInFormat_required _ _ _) fun _ =>
    .bind (failsInFormat_constraintTarget _ _) fun _ => .ok _) _

theorem failsInFormat_applyKeys (ks : List KeyConstraint) (ts : List Table) :
    FailsInFormat (applyKeys ts ks) := by
  induction ks generalizing ts with
  | nil => exact .ok _
  | cons k ks ih =>
    unfold applyKeys
    split
    · exact ih _
    · exact .refusal _

theorem failsInFormat_readKeyReference (keys : List KeyConstraint) (e : Element) :
    FailsInFormat (readKeyReference keys e) := by
  refine .bind (failsInFormat_required _ _ _) fun name =>
    .bind (failsInFormat_required _ _ _) fun reference => ?_
  dsimp only
  split
  · exact .refusal _
  · exact .bind (failsInFormat_constraintTarget _ _) fun target => .ok _

theorem failsInFormat_readRelationship (e : Element) : FailsInFormat (readRelationship e) := by
  have part (name key : String) : FailsInFormat (match annotation? e key with
      | some value => .ok value
      | none => .error (.schemaFormat s!"relationship {name} without msdata:{key}")) := by
    split
    · exact .ok _
    · exact .refusal _
  exact .bind (failsInFormat_required _ _ _) fun name => .bind (part name "parent") fun _ =>
    .bind (part name "parentkey") fun _ => .bind (part name "child") fun _ =>
      .bind (part name "childkey") fun _ => .ok _

theorem failsInFormat_readRelations (keys : List KeyConstraint) (root : Element) :
    FailsInFormat (readRelations keys root) := by
  refine .bind (.mapM (fun e => ?_) _) fun found => .ok _
  unfold readRelation?
  split
  · exact .map (failsInFormat_readKeyReference keys e) some
  · split
    · exact .map (failsInFormat_readRelationship e) some
    · exact .ok _

/-- A document is read, or refused for its format. -/
theorem failsInFormat_readSchema (root : Element) : FailsInFormat (readSchema root) := by
  unfold readSchema
  split
  · exact .refusal _
  · exact .bind (failsInFormat_readDataset _ root) fun dataset =>
      .bind (.mapM (failsInFormat_readTables _) _) fun lists =>
        .bind (failsInFormat_readKeys root) fun keys =>
          .bind (failsInFormat_applyKeys _ _) fun tables =>
            .bind (failsInFormat_readRelations keys root) fun relations => .ok _

end Dataset

end Tabular
