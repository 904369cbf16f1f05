import Tabular.Proofs.Naming
import Tabular.Proofs.Soundness

/-!
The validator's verdicts, position by position. What it remembers of the names before a table is
less than all of them, since an invalid name is not remembered, and more than the valid tables',
since the name of a table with another defect is. What it accepts comes out the same: the tables and
relations that are well formed and the first of their name, and there is one violation for each of
the others.
-/
namespace Tabular

theorem isValidName_iff {name : String} :
    isValidName name = true ↔ isBlankText name = false ∧ '\x00' ∉ name.toList := by
  rw [← Identifier.validate_eq_ok_iff, isValidName]
  cases Identifier.validate name with
  | error f => exact ⟨nofun, nofun⟩
  | ok _ => exact ⟨fun _ => rfl, fun _ => rfl⟩

section Names

variable {α : Type} {nameOf : α → String} {earlier : List α} {seen : List String} {name : String}

/-- A name is new after elements exactly if it is not among the names remembered of them. -/
theorem isNew_iff (remembered : name ∈ seen ↔ name ∈ earlier.map nameOf) :
    (∀ u ∈ earlier, nameOf u ≠ name) ↔ name ∉ seen := by
  rw [remembered, List.mem_map, not_exists]
  exact forall_congr' fun _ => not_and.symm

/-- With one more element, its name is remembered too. -/
theorem mem_cons_iff_of_remembered {x : α} (remembered : name ∈ seen ↔ name ∈ earlier.map nameOf) :
    name ∈ nameOf x :: seen ↔ name ∈ (earlier ++ [x]).map nameOf := by
  rw [List.map_append, List.mem_append, ← remembered, List.mem_cons, or_comm, List.map_singleton,
    List.mem_singleton]

end Names

instance (mode : ValidationMode) (t : Table) : Decidable (t.WellFormed mode) :=
  decidable_of_iff (t.bodyDefect? mode = none) Table.bodyDefect?_eq_none_iff

instance (s : Schema) (r : Relation) : Decidable (r.WellFormed s) :=
  decidable_of_iff (r.bodyDefect? s = none) Relation.bodyDefect?_eq_none_iff

structure Table.IsValidAfter (mode : ValidationMode) (earlier : List Table) (t : Table) : Prop where
  name : isValidName t.name = true
  new : ∀ u ∈ earlier, u.name ≠ t.name
  wellFormed : t.WellFormed mode

structure Relation.IsValidAfter (s : Schema) (earlier : List Relation) (r : Relation) : Prop where
  new : ∀ q ∈ earlier, q.name ≠ r.name
  wellFormed : r.WellFormed s

instance (mode : ValidationMode) (earlier : List Table) (t : Table) :
    Decidable (t.IsValidAfter mode earlier) :=
  decidable_of_iff
    (isValidName t.name = true ∧ (∀ u ∈ earlier, u.name ≠ t.name) ∧ t.WellFormed mode)
    ⟨fun ⟨name, new, wellFormed⟩ => ⟨name, new, wellFormed⟩,
      fun valid => ⟨valid.name, valid.new, valid.wellFormed⟩⟩

instance (s : Schema) (earlier : List Relation) (r : Relation) :
    Decidable (r.IsValidAfter s earlier) :=
  decidable_of_iff ((∀ q ∈ earlier, q.name ≠ r.name) ∧ r.WellFormed s)
    ⟨fun ⟨new, wellFormed⟩ => ⟨new, wellFormed⟩, fun valid => ⟨valid.new, valid.wellFormed⟩⟩

namespace Table

variable {mode : ValidationMode} {seen : List String} {earlier ts : List Table} {t : Table}
  {i : Nat}

/-- Are the names remembered after some tables theirs, as far as names are valid? -/
def Remembers (seen : List String) (earlier : List Table) : Prop :=
  ∀ name, isValidName name = true → (name ∈ seen ↔ name ∈ earlier.map (·.name))

theorem Remembers.skip_invalid (h : Remembers seen earlier) (invalid : isValidName t.name = false) :
    Remembers seen (earlier ++ [t]) := by
  intro name valid
  have other : name ≠ t.name := fun same => by simp [← same, valid] at invalid
  simp [h name valid, other]

theorem Remembers.skip_old (h : Remembers seen earlier) (old : t.name ∈ seen) :
    Remembers seen (earlier ++ [t]) := by
  intro name valid
  rw [List.map_append, List.mem_append, ← h name valid]
  exact ⟨.inl, fun known => known.elim id fun new => List.mem_singleton.mp new ▸ old⟩

theorem Remembers.cons (h : Remembers seen earlier) :
    Remembers (t.name :: seen) (earlier ++ [t]) :=
  fun name valid => mem_cons_iff_of_remembered (h name valid)

/-- The verdict on the next table. -/
theorem isValidAfter_iff (remembers : Remembers seen earlier) :
    t.IsValidAfter mode earlier ↔
      isValidName t.name = true ∧ t.name ∉ seen ∧ t.bodyDefect? mode = none := by
  rw [bodyDefect?_eq_none_iff]
  constructor
  · intro valid
    exact ⟨valid.name, (isNew_iff (remembers _ valid.name)).mp valid.new, valid.wellFormed⟩
  · rintro ⟨name, new, wellFormed⟩
    exact ⟨name, (isNew_iff (remembers _ name)).mpr new, wellFormed⟩

theorem getElem?_defects_eq_none_iff (remembers : Remembers seen earlier) :
    (defects mode seen ts)[i]? = some none ↔
      ∃ t, ts[i]? = some t ∧ t.IsValidAfter mode (earlier ++ ts.take i) := by
  induction ts generalizing seen earlier i with
  | nil => simp [defects]
  | cons u ts ih =>
    have verdict := @isValidAfter_iff mode _ _ u remembers
    -- The verdict on the table itself, or on those behind it, its name remembered or not.
    have turn {seen' : List String} {defect : Option TableDefect}
        (own : defect = none ↔ u.IsValidAfter mode earlier)
        (later : Remembers seen' (earlier ++ [u])) :
        (defect :: defects mode seen' ts)[i]? = some none ↔
          ∃ t, (u :: ts)[i]? = some t ∧ t.IsValidAfter mode (earlier ++ (u :: ts).take i) := by
      cases i with
      | zero => simpa using own
      | succ i => simpa using ih later
    unfold defects
    split
    · rename_i invalid
      have invalid : isValidName u.name = false := by simpa using invalid
      exact turn (by simp [verdict, invalid]) (remembers.skip_invalid invalid)
    · rename_i valid
      have valid : isValidName u.name = true := by simpa using valid
      split
      · rename_i old
        have old : u.name ∈ seen := by simpa using old
        exact turn (by simp [verdict, old]) (remembers.skip_old old)
      · rename_i new
        have new : u.name ∉ seen := by simpa using new
        exact turn (by simp [verdict, valid, new]) remembers.cons

/-- What is valid for a script is valid for a catalog, which can hold tables without columns. -/
theorem IsValidAfter.of_script (valid : t.IsValidAfter .script earlier) :
    t.IsValidAfter mode earlier where
  name := valid.name
  new := valid.new
  wellFormed := { valid.wellFormed with nonempty := fun _ => valid.wellFormed.nonempty rfl }

end Table

namespace Relation

variable {s : Schema} {seen : List String} {earlier rs : List Relation} {r : Relation} {i : Nat}

/-- The verdict on the next relation, where the names of all before it are remembered. -/
theorem isValidAfter_iff (remembers : ∀ name, name ∈ seen ↔ name ∈ earlier.map (·.name)) :
    r.IsValidAfter s earlier ↔ r.name ∉ seen ∧ r.bodyDefect? s = none := by
  rw [bodyDefect?_eq_none_iff, ← isNew_iff (remembers _)]
  exact ⟨fun valid => ⟨valid.new, valid.wellFormed⟩, fun ⟨new, wellFormed⟩ => ⟨new, wellFormed⟩⟩

theorem getElem?_defects_eq_none_iff
    (remembers : ∀ name, name ∈ seen ↔ name ∈ earlier.map (·.name)) :
    (defects s seen rs)[i]? = some none ↔
      ∃ r, rs[i]? = some r ∧ r.IsValidAfter s (earlier ++ rs.take i) := by
  induction rs generalizing seen earlier i with
  | nil => simp [defects]
  | cons q rs ih =>
    have verdict := isValidAfter_iff (s := s) (r := q) remembers
    have later (name : String) :
        name ∈ q.name :: seen ↔ name ∈ (earlier ++ [q]).map (·.name) :=
      mem_cons_iff_of_remembered (remembers name)
    unfold defects
    cases i with
    | zero => by_cases old : q.name ∈ seen <;> simp [verdict, old]
    | succ i => simpa using ih later

end Relation

/-- Behind defects that are verdicts by position there is one violation for each element that is not
valid at its place, by its name. -/
theorem entities_of_verdicts {α δ : Type} {P : α → Nat → Prop} [∀ x i, Decidable (P x i)]
    {xs : List α} {ds : List (Option δ)} {k : Nat} (each : ds.length = xs.length)
    (verdict : ∀ i, ds[i]? = some none ↔ ∃ x, xs[i]? = some x ∧ P x (k + i))
    (entity : α → Entity) (message : δ → String) :
    ((xs.zip ds).filterMap fun p =>
        p.2.map fun d => (⟨entity p.1, message d⟩ : Violation)).map (·.entity) =
      ((xs.zipIdx k).filter fun p => ¬ P p.1 p.2).map fun p => entity p.1 := by
  induction xs generalizing ds k with
  | nil => simp
  | cons x xs ih =>
    obtain _ | ⟨d, ds⟩ := ds
    · simp at each
    · have head : d = none ↔ P x k := by simpa using verdict 0
      have tail := @ih ds (k + 1) (by simpa using each) fun i => by
        simpa [Nat.add_assoc, Nat.add_comm 1] using verdict (i + 1)
      cases d with
      | none => simpa [head.mp rfl] using tail
      | some d =>
        have invalid : ¬ P x k := fun valid => nomatch head.mpr valid
        simpa [invalid] using tail

namespace Schema

theorem tableDefects_eq_none_iff (s : Schema) (mode : ValidationMode) (i : Nat) :
    (s.validate mode).tableDefects[i]? = some none ↔
      ∃ t, s.tables[i]? = some t ∧ t.IsValidAfter mode (s.tables.take i) :=
  Table.getElem?_defects_eq_none_iff (show Table.Remembers [] [] from fun _ _ => Iff.rfl)

theorem relationDefects_eq_none_iff (s : Schema) (mode : ValidationMode) (i : Nat) :
    (s.validate mode).relationDefects[i]? = some none ↔
      ∃ r, s.relations[i]? = some r ∧ r.IsValidAfter s (s.relations.take i) :=
  Relation.getElem?_defects_eq_none_iff
    (show ∀ name, name ∈ [] ↔ name ∈ ([] : List Relation).map (·.name) from fun _ => Iff.rfl)

/-- The verdicts of validation, on every table and every relation by its position, and the
violations that come of them: one if the schema's name is blank, then one for each table that is not
valid at its place, then one for each relation that is not, each with its name and all in order.
What is valid for a script is valid for a catalog. -/
theorem validate_judges_by_position (s : Schema) (mode : ValidationMode) :
    (∀ name, isValidName name = true ↔ isBlankText name = false ∧ '\x00' ∉ name.toList) ∧
    (∀ i : Nat, (s.validate mode).tableDefects[i]? = some none ↔
      ∃ t : Table, s.tables[i]? = some t ∧ t.IsValidAfter mode (s.tables.take i)) ∧
    (∀ i : Nat, (s.validate mode).relationDefects[i]? = some none ↔
      ∃ r : Relation, s.relations[i]? = some r ∧ r.IsValidAfter s (s.relations.take i)) ∧
    (s.violations mode).map (·.entity) =
      (if isBlankText s.name then [.schema s.name] else []) ++
      ((s.tables.zipIdx.filter fun p => ¬ p.1.IsValidAfter mode (s.tables.take p.2)).map
        fun p => .table p.1.name) ++
      ((s.relations.zipIdx.filter fun p => ¬ p.1.IsValidAfter s (s.relations.take p.2)).map
        fun p => .relation p.1.name) ∧
    (∀ i : Nat, (s.validate .script).tableDefects[i]? = some none →
      (s.validate .catalog).tableDefects[i]? = some none) ∧
    (s.validate .script).relationDefects = (s.validate .catalog).relationDefects := by
  refine ⟨fun _ => isValidName_iff, s.tableDefects_eq_none_iff mode,
    s.relationDefects_eq_none_iff mode, ?_, fun i valid => ?_, rfl⟩
  · have tables := entities_of_verdicts
      (P := fun t i => Table.IsValidAfter mode (s.tables.take i) t) (k := 0)
      (Table.length_defects mode [] s.tables)
      (fun i => by rw [Nat.zero_add]; exact s.tableDefects_eq_none_iff mode i)
      (.table ·.name) TableDefect.message
    have relations := entities_of_verdicts
      (P := fun r j => Relation.IsValidAfter s (s.relations.take j) r) (k := 0)
      (Relation.length_defects s [] s.relations)
      (fun j => by rw [Nat.zero_add]; exact s.relationDefects_eq_none_iff mode j)
      (.relation ·.name) RelationDefect.message
    have name : s.nameViolations.map (·.entity) =
        if isBlankText s.name then [.schema s.name] else [] := by
      unfold nameViolations
      split <;> rfl
    rw [violations, entityViolations, List.map_append, List.map_append, name, List.append_assoc]
    exact congrArg _ (congr (congrArg _ tables) relations)
  · obtain ⟨t, ht, valid⟩ := (s.tableDefects_eq_none_iff .script i).mp valid
    exact (s.tableDefects_eq_none_iff .catalog i).mpr ⟨t, ht, valid.of_script⟩

/-- A table, the same again, one without columns and one with a name that is no name, and two
relations of one name. -/
theorem validate_judges_by_position_orders :
    let order : Table := ⟨"Order", [⟨"Id", some .int32, none, -1, false⟩], some ["Id"]⟩
    let empty : Table := ⟨"Empty", [], none⟩
    let loop : Relation := ⟨"Loop", "Order", ["Id"], "Order", ["Id"]⟩
    let s : Schema := ⟨" ", [order, order, empty, ⟨"\x00", order.columns, none⟩], [loop, loop]⟩
    (order.IsValidAfter .script [] ∧ (s.validate .script).tableDefects[0]? = some none) ∧
      (¬ order.IsValidAfter .script [order] ∧ (s.validate .script).tableDefects[1]? ≠ some none) ∧
      (empty.IsValidAfter .catalog [order, order] ∧
        (s.validate .catalog).tableDefects[2]? = some none) ∧
      (loop.IsValidAfter s [] ∧ (s.validate .script).relationDefects[0]? = some none) ∧
      (s.violations .script).map (·.entity) = [.schema " ", .table "Order", .table "Empty",
        .table "\x00", .relation "Loop"] := by
  intro order empty loop s
  obtain ⟨-, tables, relations, entities, -⟩ := validate_judges_by_position s .script
  have inCatalog := (validate_judges_by_position s .catalog).2.1
  have first : order.IsValidAfter .script [] := by decide +kernel
  have again : ¬ order.IsValidAfter .script [order] := by decide +kernel
  have bare : empty.IsValidAfter .catalog [order, order] := by decide +kernel
  have related : loop.IsValidAfter s [] := by decide +kernel
  refine ⟨⟨first, (tables 0).mpr ⟨order, rfl, first⟩⟩, ⟨again, fun none_ => ?_⟩,
    ⟨bare, (inCatalog 2).mpr ⟨empty, rfl, bare⟩⟩, ⟨related, (relations 0).mpr ⟨loop, rfl, related⟩⟩,
    entities.trans (by decide +kernel)⟩
  obtain ⟨t, ht, valid⟩ := (tables 1).mp none_
  obtain rfl : order = t := Option.some.inj ht
  exact again valid

end Schema

end Tabular
