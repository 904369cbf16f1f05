import Tabular.Proofs.Aftermath
import Tabular.Proofs.Cascade
import Tabular.Proofs.Requests

/-!
Columns that rows leave out. A column that a row leaves out counts as null when a row is inserted
and when a key is looked up, but not when rows are deleted: a null among the criteria is met by a
null that is stored, and not by one that is left out. So two catalogs that differ in what is left
out stay alike as long as no such null is for a column in which they differ.
-/
namespace Tabular

/-- What is related where both sides succeed comes from there. -/
theorem Agree.of_ok {ε κ α β : Type} {code : ε → κ} {R : α → β → Prop} {x : Except ε α}
    {y : Except ε β} (h : Agree code R x y) : Agree code (fun a b => R a b ∧ x = .ok a) x y := by
  cases h with
  | ok related => exact .ok ⟨related, rfl⟩
  | error same => exact .error same

theorem Json.agrees_null_left {v : Json} (h : v.isNull = false) : Json.null.agrees v = false := by
  cases v with
  | null => cases h
  | _ => simp [agrees, unsignedZeros]

def NullsWithin (S : String → Prop) (criteria : Criteria) : Prop :=
  ∀ p ∈ criteria, p.2.isNull = true → S p.1

/-! ### Rows -/

namespace Row

variable {S : String → Prop} {r q : Row} {criteria : Criteria}

/-- A value that is not null is found in a column whether nulls are left out or not. -/
theorem any_agrees {column : String} {v : Json} (h : v.isNull = false) :
    (r.get? column).any (·.agrees v) = (r.value column).agrees v := by
  unfold value
  cases r.get? column with
  | none => exact (Json.agrees_null_left h).symm
  | some w => rfl

/-- Two rows that differ only in nulls that are left out, and in some columns not even in those. -/
structure Alike (S : String → Prop) (r q : Row) : Prop where
  value : ∀ column, q.value column = r.value column
  same : ∀ column, S column → q.get? column = r.get? column

theorem Alike.refl (S : String → Prop) (r : Row) : r.Alike S r := ⟨fun _ => rfl, fun _ _ => rfl⟩

/-- A null that is stored behind the members of a row is none that counts. -/
theorem alike_append_null {name : String} (differs : ¬ S name) :
    r.Alike S (r ++ [(name, .null)]) where
  value := fun column => by
    unfold Row.value get?
    rw [List.find?_append, List.find?_singleton]
    cases r.find? (·.1 == column) with
    | some m => rfl
    | none => split <;> rfl
  same := fun column within => by
    have other : name ≠ column := by
      rintro rfl
      exact differs within
    unfold get?
    rw [List.find?_append, List.find?_singleton, if_neg (by simpa using other), Option.or_none]

theorem Alike.project (h : r.Alike S q) (columns : List String) :
    q.project columns = r.project columns :=
  List.map_congr_left fun column _ => h.value column

theorem Alike.meets (h : r.Alike S q) (nulls : NullsWithin S criteria) :
    q.meets criteria = r.meets criteria := by
  unfold Row.meets
  rw [Bool.eq_iff_iff, List.all_eq_true, List.all_eq_true]
  refine forall₂_congr fun p hp => ?_
  cases null : p.2.isNull with
  | false => rw [any_agrees null, any_agrees null, h.value]
  | true => rw [h.same p.1 (nulls p hp null)]

end Row

/-! ### Tables -/

namespace StoredTable

/-- Two tables that differ only in nulls that rows leave out, and not in some columns. -/
structure Alike (S : String → String → Prop) (t u : StoredTable) : Prop where
  frame : t.SameFrame u
  rows : List.Forall₂ (Row.Alike (S t.name)) t.rows u.rows

namespace Alike

variable {S : String → String → Prop} {t u : StoredTable}

theorem coerceAll (h : t.Alike S u) (table : String) (values : List (String × Json)) :
    u.coerceAll table values = t.coerceAll table values := by
  have column (name : String) : u.column? name = t.column? name := by
    unfold StoredTable.column?
    rw [h.frame.columns]
  induction values with
  | nil => rfl
  | cons v vs ih =>
    obtain ⟨name, v⟩ := v
    unfold StoredTable.coerceAll
    rw [column, ih]

theorem missingValue? (h : t.Alike S u) (r : Row) : u.missingValue? r = t.missingValue? r := by
  unfold StoredTable.missingValue?
  rw [h.frame.columns]

theorem holds (h : t.Alike S u) (columns : List String) (values : List Json) :
    u.holds columns values = t.holds columns values :=
  forall₂_any h.rows fun r q alike => by rw [alike.project]

theorem repeatsKey (h : t.Alike S u) (r : Row) : u.repeatsKey r = t.repeatsKey r := by
  unfold StoredTable.repeatsKey
  rw [h.frame.primaryKey?]
  cases t.primaryKey? with
  | none => rfl
  | some k => exact h.holds k.columns _

theorem withRows (h : t.Alike S u) {rows rows' : List Row}
    (alike : List.Forall₂ (Row.Alike (S t.name)) rows rows') :
    StoredTable.Alike S { t with rows } { u with rows := rows' } := by
  refine ⟨?_, alike⟩
  rw [h.frame]
  rfl

theorem filter (h : t.Alike S u) {criteria : Criteria} (nulls : NullsWithin (S t.name) criteria)
    (stays : Bool → Bool) :
    List.Forall₂ (Row.Alike (S t.name)) (t.rows.filter fun r => stays (r.meets criteria))
      (u.rows.filter fun r => stays (r.meets criteria)) :=
  List.rel_filter (fun _ _ alike =>
    iff_of_eq (congrArg (fun b => stays b = true) (alike.meets nulls).symm)) h.rows

end Alike

/-- Does a column take no null, and has no row one in it? -/
structure Requires (t : StoredTable) (name : String) : Prop where
  column : ∃ column ∈ t.columns, column.name = name ∧ column.type.nullable = false
  rows : ∀ r ∈ t.rows, (r.value name).isNull = false

instance (t : StoredTable) (name : String) : Decidable (t.Requires name) :=
  decidable_of_iff
    ((∃ column ∈ t.columns, column.name = name ∧ column.type.nullable = false) ∧
      ∀ r ∈ t.rows, (r.value name).isNull = false)
    ⟨fun h => ⟨h.1, h.2⟩, fun h => ⟨h.column, h.rows⟩⟩

/-- A table in whose place one is put with other rows, which have values where all rows had them. -/
structure KeepsRequired (t u : StoredTable) : Prop where
  frame : t.SameFrame u
  requires : ∀ name, t.Requires name → u.Requires name

theorem ShrinksTo.keepsRequired {t u : StoredTable} (h : t.ShrinksTo u) : t.KeepsRequired u where
  frame := h.frame
  requires := fun _ requires =>
    ⟨h.frame.columns ▸ requires.column, fun r hr => requires.rows r (h.rows.subset hr)⟩

/-- A row that is taken has values where they are required. -/
theorem keepsRequired_append {t : StoredTable} {r : Row} (valued : t.missingValue? r = none) :
    t.KeepsRequired { t with rows := t.rows ++ [r] } where
  frame := rfl
  requires := fun name requires => by
    refine ⟨requires.column, fun q hq => ?_⟩
    rcases List.mem_append.mp hq with old | new
    · exact requires.rows q old
    · obtain rfl := List.mem_singleton.mp new
      obtain ⟨column, hcolumn, rfl, required⟩ := requires.column
      exact isNull_of_missingValue? valued column hcolumn required

end StoredTable

namespace Catalog

variable {S : String → String → Prop} {c d : Catalog} {ts us : List StoredTable}

/-- Two catalogs whose tables differ only in nulls that rows leave out, and not in some columns of
each table. -/
def Alike (S : String → String → Prop) (c d : Catalog) : Prop :=
  List.Forall₂ (StoredTable.Alike S) c.tables d.tables

theorem alike_frames (h : List.Forall₂ (StoredTable.Alike S) ts us) :
    List.Forall₂ StoredTable.SameFrame ts us := h.imp fun _ _ alike => alike.frame

/-- A name leads to the same place among tables with the same names. -/
theorem locate_related {R : StoredTable → StoredTable → Prop}
    (h : List.Forall₂ R c.tables d.tables) (names : ∀ t u, R t u → u.name = t.name)
    (name : String) :
    Agree Refusal.code (fun p q => q.1 = p.1 ∧ R p.2 q.2) (c.locate name) (d.locate name) := by
  have found := forall₂_find? (p := (sameName ·.1.name name)) (q := (sameName ·.1.name name))
    (forall₂_zipIdx h 0) fun x y related => by rw [names _ _ related.1]
  unfold Catalog.locate
  generalize c.tables.zipIdx.find? _ = x at found ⊢
  generalize d.tables.zipIdx.find? _ = y at found ⊢
  cases found with
  | none => exact .error rfl
  | some related => exact .ok ⟨related.2, related.1⟩

/-! ### Insertion -/

namespace Alike

theorem locate (h : c.Alike S d) (name : String) :
    Agree Refusal.code (fun p q => q.1 = p.1 ∧ p.2.Alike S q.2) (c.locate name)
      (d.locate name) :=
  locate_related h (fun _ _ alike => alike.frame.name) name

theorem checkReference (h : c.Alike S d) (r : Row) (k : StoredKey) :
    Agree Refusal.code Eq (c.checkReference r k) (d.checkReference r k) := by
  unfold Catalog.checkReference
  dsimp only
  split
  · exact .ok rfl
  · refine (h.locate k.target).bind fun p q located => ?_
    obtain ⟨i, t⟩ := p
    obtain ⟨j, u⟩ := q
    dsimp only
    rw [StoredTable.Alike.holds located.2]
    split
    · exact .error rfl
    · exact .ok rfl

/-- A row is taken in both catalogs or in neither, and it is the same row. -/
theorem insert (h : c.Alike S d) (table : String) (values : List (String × Json)) :
    Agree Refusal.code (Alike S) (c.insert table values) (d.insert table values) := by
  unfold Catalog.insert
  refine (h.locate table).bind fun p q located => ?_
  obtain ⟨i, t⟩ := p
  obtain ⟨j, u⟩ := q
  obtain rfl : j = i := located.1
  have alike : t.Alike S u := located.2
  have coerced : Agree Refusal.code Eq (t.coerceAll table values) (u.coerceAll table values) := by
    rw [alike.coerceAll]
    exact .refl _ _
  refine coerced.bind fun stored _ same => ?_
  obtain rfl := same
  dsimp only
  rw [alike.missingValue?, alike.repeatsKey, alike.frame.foreignKeys]
  split
  · exact .error rfl
  · split
    · exact .error rfl
    · have keys : List.Forall₂ Eq t.foreignKeys t.foreignKeys :=
        List.forall₂_same.mpr fun _ _ => rfl
      refine (Agree.forM keys fun k l same => ?_).bind fun _ _ _ => .ok ?_
      · obtain rfl : k = l := same
        exact h.checkReference (StoredTable.rowOf stored) k
      have more := List.rel_append alike.rows (.cons (.refl _ (StoredTable.rowOf stored)) .nil)
      exact forall₂_set h (alike.withRows more) j

end Alike

/-! ### Deletion -/

/-- Is every null that a deletion passes on for a column in which rows do not differ? -/
def PassesOn (S : String → String → Prop) (tables : List StoredTable) : Prop :=
  ∀ t ∈ tables, ∀ u ∈ tables, ∀ k ∈ u.foreignKeys, k.deleteRule = .cascade →
    k.refersTo t.name = true → ∀ p ∈ k.columns.zip k.relatedColumns,
      S u.name p.1 ∨ t.Requires p.2

instance [∀ table column, Decidable (S table column)] : Decidable (PassesOn S ts) :=
  inferInstanceAs (Decidable (∀ t ∈ ts, ∀ u ∈ ts, ∀ k ∈ u.foreignKeys, k.deleteRule = .cascade →
    k.refersTo t.name = true → ∀ p ∈ k.columns.zip k.relatedColumns,
      S u.name p.1 ∨ t.Requires p.2))

def WorkWithin (S : String → String → Prop) (tables : List StoredTable)
    (pending : List (Nat × Criteria)) : Prop :=
  ∀ work ∈ pending, ∀ u, tables[work.1]? = some u → NullsWithin (S u.name) work.2

section

variable {t : StoredTable} {i : Nat} {criteria : Criteria} {pending : List (Nat × Criteria)}
  {name : String} {r q : Row}

theorem cascades_of_frames (frames : List.Forall₂ StoredTable.SameFrame ts us) (name : String) :
    cascades us name = cascades ts name := by
  have bare (tables : List StoredTable) :
      cascades (tables.map StoredTable.bare) name = cascades tables name := by
    unfold cascades
    rw [List.zipIdx_map, List.flatMap_map]
    rfl
  rw [← bare us, ← StoredTable.forall₂_sameFrame_iff.mp frames, bare ts]

/-- The work that the deletion of a row leads to is the same, whether nulls are left out or not. -/
theorem dependentWork_alike {T : String → Prop} (frames : List.Forall₂ StoredTable.SameFrame ts us)
    (alike : r.Alike T q) : dependentWork us name q = dependentWork ts name r := by
  unfold dependentWork dependents
  rw [cascades_of_frames frames]
  refine List.map_congr_left fun p _ => ?_
  obtain ⟨j, k⟩ := p
  dsimp only
  rw [alike.project]

theorem WorkWithin.tail {work : Nat × Criteria} (within : WorkWithin S ts (work :: pending)) :
    WorkWithin S ts pending :=
  fun _ hwork => within _ (List.mem_cons_of_mem work hwork)

theorem WorkWithin.of_frames (within : WorkWithin S ts pending)
    (frames : List.Forall₂ StoredTable.SameFrame ts us) : WorkWithin S us pending := by
  intro work hwork u hu
  obtain ⟨t, ht, same⟩ := forall₂_getElem? frames.flip hu
  rw [StoredTable.SameFrame.name same]
  exact within work hwork t ht

theorem PassesOn.of_keeps (passes : PassesOn S ts)
    (h : List.Forall₂ StoredTable.KeepsRequired ts us) : PassesOn S us := by
  intro t' ht' u' hu' k hk cascade refers p hp
  obtain ⟨t, ht, keeps⟩ := exists_of_forall₂_right h ht'
  obtain ⟨u, hu, keeps'⟩ := exists_of_forall₂_right h hu'
  rw [keeps'.frame.foreignKeys] at hk
  rw [keeps.frame.name] at refers
  rw [keeps'.frame.name]
  exact (passes t ht u hu k hk cascade refers p hp).imp id (keeps.requires p.2)

theorem PassesOn.shrink (passes : PassesOn S ts)
    (h : List.Forall₂ StoredTable.ShrinksTo ts us) : PassesOn S us :=
  passes.of_keeps (h.imp fun _ _ less => less.keepsRequired)

/-- What depends on a row is looked for with nulls in columns only in which rows do not differ. -/
theorem PassesOn.workWithin (passes : PassesOn S ts) (ht : t ∈ ts) (hr : r ∈ t.rows) :
    WorkWithin S ts (dependentWork ts t.name r) := by
  intro work hwork u hu p hp null
  obtain ⟨⟨j, k⟩, hk, rfl⟩ := List.mem_map.mp hwork
  obtain ⟨u', hu', mem, cascade, refers⟩ := mem_cascades_iff.mp hk
  obtain rfl := Option.some.inj (hu.symm.trans hu')
  obtain ⟨pair, hpair, rfl⟩ := mem_dependents_iff.mp hp
  rcases passes t ht u (List.mem_of_getElem? hu) k mem cascade refers pair hpair with
    same | requires
  · exact same
  · rw [requires.rows r hr] at null
    cases null

/-- When rows of a table go, the work that arises joins what is pending. -/
theorem WorkWithin.step (within : WorkWithin S ts pending) (passes : PassesOn S ts)
    (found : ts[i]? = some t) (frames : List.Forall₂ StoredTable.SameFrame ts us) :
    WorkWithin S us ((meeting t criteria).flatMap (dependentWork us t.name) ++ pending) := by
  refine WorkWithin.of_frames (fun work hwork => ?_) frames
  rcases List.mem_append.mp hwork with new | old
  · obtain ⟨r, hr, hwork⟩ := List.mem_flatMap.mp new
    rw [dependentWork_alike frames (.refl (fun _ => True) r)] at hwork
    exact passes.workWithin (List.mem_of_getElem? found) (List.mem_filter.mp hr).1 work hwork
  · exact within work old

/-- One step of a deletion: rows go that are alike, and tables are left that are. -/
theorem without_alike (h : List.Forall₂ (StoredTable.Alike S) ts us) (ht : ts[i]? = some t)
    (nulls : NullsWithin (S t.name) criteria) :
    ∃ u, us[i]? = some u ∧ u.name = t.name ∧
      List.Forall₂ (Row.Alike (S t.name)) (meeting t criteria) (meeting u criteria) ∧
      List.Forall₂ (StoredTable.Alike S) (without ts i t criteria) (without us i u criteria) := by
  obtain ⟨u, hu, alike⟩ := forall₂_getElem? h ht
  exact ⟨u, hu, alike.frame.name, alike.filter nulls id,
    forall₂_set h (alike.withRows (alike.filter nulls not)) i⟩

theorem flatMap_dependentWork_alike {T : String → Prop} {gone gone' : List Row}
    (frames : List.Forall₂ StoredTable.SameFrame ts us)
    (alike : List.Forall₂ (Row.Alike T) gone gone') :
    gone'.flatMap (dependentWork us name) = gone.flatMap (dependentWork ts name) := by
  induction alike with
  | nil => rfl
  | cons head _ ih =>
    rw [List.flatMap_cons, List.flatMap_cons, ih, dependentWork_alike frames head]

/-- The same number of rows goes from alike tables, and alike tables are left. -/
theorem deleteAll_alike (us : List StoredTable) (h : List.Forall₂ (StoredTable.Alike S) ts us)
    (passes : PassesOn S ts) (within : WorkWithin S ts pending) :
    List.Forall₂ (StoredTable.Alike S) (deleteAll ts pending).1 (deleteAll us pending).1 ∧
      (deleteAll us pending).2 = (deleteAll ts pending).2 := by
  -- Both recursions have the same work pending; its nulls stay within the columns that are alike.
  fun_induction deleteAll ts pending generalizing us with
  | case1 ts =>
    rw [deleteAll]
    exact ⟨h, rfl⟩
  | case2 ts i criteria pending missing ih =>
    have missing' : us[i]? = none := by
      rw [List.getElem?_eq_none_iff] at missing ⊢
      rwa [← h.length_eq]
    rw [deleteAll_missing missing']
    exact ih us h passes within.tail
  | case3 ts i criteria pending t found gone left stays ih =>
    have here : NullsWithin (S t.name) criteria := within _ List.mem_cons_self t found
    have shrinks := without_shrinks criteria found
    obtain ⟨u, hu, -, gone', left'⟩ := without_alike h found here
    have none_ : meeting u criteria = [] := by
      have empty : meeting t criteria = [] := List.isEmpty_iff.mp stays
      rw [empty] at gone'
      exact List.forall₂_nil_left_iff.mp gone'
    rw [deleteAll_found hu, none_]
    dsimp only [List.flatMap_nil, List.nil_append, List.length_nil]
    rw [Nat.zero_add]
    exact ih _ left' (passes.shrink shrinks)
      (within.tail.of_frames (shrinks.imp fun _ _ less => less.frame))
  | case4 ts i criteria pending t found gone left _ final removed rest ih =>
    have here : NullsWithin (S t.name) criteria := within _ List.mem_cons_self t found
    have shrinks := without_shrinks criteria found
    have frames := shrinks.imp fun _ _ less => less.frame
    obtain ⟨u, hu, name, gone', left'⟩ := without_alike h found here
    rw [deleteAll_found hu, name, flatMap_dependentWork_alike (alike_frames left') gone',
      ← gone'.length_eq]
    rw [rest] at ih
    obtain ⟨tables, count⟩ := ih _ left' (passes.shrink shrinks)
      (within.tail.step passes found frames)
    exact ⟨tables, congrArg (gone.length + ·) count⟩

/-- Values are stored as null only if they are given so. -/
theorem nullsWithin_of_coerceAll {T : String → Prop} {table : String} {given : Criteria}
    (coerced : t.coerceAll table given = .ok criteria)
    (nulls : ∀ p ∈ given, p.2.isNull = true →
      ∀ column, t.column? p.1 = some column → T column.name) : NullsWithin T criteria := by
  induction given generalizing criteria with
  | nil =>
    obtain rfl := Except.ok.inj coerced
    intro p hp
    cases hp
  | cons v vs ih =>
    obtain ⟨name, v⟩ := v
    obtain ⟨first, later⟩ := List.forall_mem_cons.mp nulls
    unfold StoredTable.coerceAll at coerced
    split at coerced
    · cases coerced
    · next column found =>
      obtain ⟨w, hw, coerced⟩ := bind_eq_ok_iff.mp coerced
      obtain ⟨ws, hws, coerced⟩ := bind_eq_ok_iff.mp coerced
      obtain rfl := Except.ok.inj coerced
      refine List.forall_mem_cons.mpr ⟨fun null => ?_, ih hws later⟩
      rcases StoredColumn.coerce_eq_ok hw with rfl | ⟨text, rfl⟩
      · exact first null column found
      · cases null

end

def GivenWithin (S : String → String → Prop) (c : Catalog) (table : String) (given : Criteria) :
    Prop :=
  ∀ i t, c.locate table = .ok (i, t) → ∀ p ∈ given, p.2.isNull = true →
    ∀ column, t.column? p.1 = some column → S t.name column.name

theorem GivenWithin.of_frames {table : String} {given : Criteria}
    (within : GivenWithin S c table given)
    (frames : List.Forall₂ StoredTable.SameFrame c.tables d.tables) :
    GivenWithin S d table given := by
  intro i u located p hp null column found
  have agree := locate_related frames (fun _ _ frame => frame.name) table
  rw [located] at agree
  generalize before : c.locate table = x at agree
  cases agree with
  | @ok q _ related =>
    obtain ⟨j, t⟩ := q
    obtain ⟨rfl, frame⟩ : i = j ∧ t.SameFrame u := related
    rw [frame.name]
    refine within i t before p hp null column ?_
    unfold StoredTable.column? at found ⊢
    rwa [← frame.columns]

/-- Rows go from both catalogs or from neither, and as many of them. -/
theorem Alike.deleteRows (h : c.Alike S d) (passes : PassesOn S c.tables) {table : String}
    {given : Criteria} (within : GivenWithin S c table given) :
    Agree Refusal.code (fun p q => q.1 = p.1 ∧ p.2.Alike S q.2) (c.deleteRows table given)
      (d.deleteRows table given) := by
  unfold Catalog.deleteRows
  refine (h.locate table).of_ok.bind fun p q located => ?_
  obtain ⟨i, t⟩ := p
  obtain ⟨j, u⟩ := q
  obtain ⟨⟨rfl, alike⟩, here⟩ : (j = i ∧ t.Alike S u) ∧ c.locate table = .ok (i, t) := located
  have coerced : Agree Refusal.code Eq (t.coerceAll table given) (u.coerceAll table given) := by
    rw [alike.coerceAll]
    exact .refl _ _
  refine coerced.of_ok.bind fun criteria _ same => ?_
  obtain ⟨rfl, stored⟩ := same
  have nulls := nullsWithin_of_coerceAll stored (within j t here)
  have pending : WorkWithin S c.tables [(j, criteria)] := by
    intro work hwork v hv
    obtain rfl := List.mem_singleton.mp hwork
    obtain rfl := Option.some.inj ((of_locate here).1.symm.trans hv)
    exact nulls
  obtain ⟨tables, removed⟩ := deleteAll_alike d.tables h passes pending
  exact .ok ⟨removed, tables⟩

end Catalog

/-! ### Calls -/

inductive RowCall where
  | insert (table : String) (values : List (String × Json))
  | deleteRows (table : String) (criteria : Criteria)

namespace RowCall

def apply (c : Catalog) : RowCall → Except Refusal (Nat × Catalog)
  | insert table values => do return (0, ← c.insert table values)
  | deleteRows table criteria => c.deleteRows table criteria

def settle (c : Catalog) (call : RowCall) : Catalog :=
  match call.apply c with
  | .ok (_, c) => c
  | .error _ => c

def GivenWithin (S : String → String → Prop) (c : Catalog) : RowCall → Prop
  | insert .. => True
  | deleteRows table given => Catalog.GivenWithin S c table given

variable {S : String → String → Prop} {c c' d : Catalog} {call : RowCall} {n : Nat}

theorem GivenWithin.of_frames (within : call.GivenWithin S c)
    (frames : List.Forall₂ StoredTable.SameFrame c.tables d.tables) : call.GivenWithin S d := by
  cases call with
  | insert table values => trivial
  | deleteRows table given => exact Catalog.GivenWithin.of_frames within frames

/-- A call is met in both catalogs or in neither, removes as many rows, and leaves them alike. -/
theorem apply_alike (h : c.Alike S d) (passes : Catalog.PassesOn S c.tables)
    (within : call.GivenWithin S c) :
    Agree Refusal.code (fun p q => q.1 = p.1 ∧ p.2.Alike S q.2) (call.apply c) (call.apply d) := by
  cases call with
  | insert table values =>
    exact (h.insert table values).bind fun _ _ alike => .ok ⟨rfl, alike⟩
  | deleteRows table given => exact h.deleteRows passes within

/-- No call changes more than rows, and rows have values where all rows had them. -/
theorem keepsRequired_apply (applied : call.apply c = .ok (n, c')) :
    List.Forall₂ StoredTable.KeepsRequired c.tables c'.tables := by
  cases call with
  | insert table values =>
    obtain ⟨c'', inserted, same⟩ := bind_eq_ok_iff.mp applied
    obtain ⟨-, rfl⟩ := Prod.mk.inj (Except.ok.inj same)
    obtain ⟨i, t, stored, fits, rfl⟩ := Catalog.insert_eq_ok inserted
    exact forall₂_set_right (fun t => ⟨rfl, fun _ => id⟩) (Catalog.of_locate fits.located).1
      (StoredTable.keepsRequired_append fits.valued)
  | deleteRows table given =>
    obtain ⟨pending, rfl⟩ := Catalog.deleteRows_eq_ok applied
    exact (Catalog.deleteAll_shrinks c.tables pending).imp fun _ _ less => less.keepsRequired

theorem keepsRequired_settle (call : RowCall) (c : Catalog) :
    List.Forall₂ StoredTable.KeepsRequired c.tables (call.settle c).tables := by
  unfold settle
  split
  · next applied => exact keepsRequired_apply applied
  · exact List.forall₂_same.mpr fun t _ => ⟨rfl, fun _ => id⟩

theorem settle_alike (h : c.Alike S d) (passes : Catalog.PassesOn S c.tables)
    (within : call.GivenWithin S c) : (call.settle c).Alike S (call.settle d) := by
  have agree := apply_alike h passes within
  unfold settle
  generalize call.apply c = x at agree ⊢
  generalize call.apply d = y at agree ⊢
  cases agree with
  | ok related => exact related.2
  | error same => exact h

end RowCall

namespace CatalogHandle

variable {s t : Store} {h g : CatalogHandle}

def answer (h : CatalogHandle) : RowCall → FileTask (Except Fault Nat × CatalogHandle)
  | .insert table values => do
    let (outcome, h) ← h.insert table values
    return (outcome.map fun () => 0, h)
  | .deleteRows table criteria => h.deleteRows table criteria

def answerAll (h : CatalogHandle) :
    List RowCall → FileTask (List (Except Fault Nat) × CatalogHandle)
  | [] => return ([], h)
  | call :: calls => do
    let (outcome, h) ← h.answer call
    let (outcomes, h) ← h.answerAll calls
    return (outcome :: outcomes, h)

theorem run_answer_error {call : RowCall} {e : Refusal} (s : Store)
    (refused : call.apply h.catalog = .error e) :
    s.run (h.answer call) = ((.error e.fault, h), s) := by
  cases call with
  | insert table values =>
    rcases bind_eq_error_iff.mp refused with refused | ⟨c, -, impossible⟩
    · unfold answer insert commit
      dsimp only
      rw [refused]
      rfl
    · cases impossible
  | deleteRows table given =>
    have refused : h.catalog.deleteRows table given = .error e := refused
    unfold answer CatalogHandle.deleteRows
    dsimp only
    rw [refused]
    rfl

theorem run_answer_ok {call : RowCall} {n : Nat} {c : Catalog} (s : Store)
    (met : call.apply h.catalog = .ok (n, c)) :
    s.run (h.answer call) =
      let made := s.run (h.commit (.ok c))
      ((made.1.1.map fun () => n, made.1.2), made.2) := by
  cases call with
  | insert table values =>
    obtain ⟨c', inserted, same⟩ := bind_eq_ok_iff.mp met
    obtain ⟨rfl, rfl⟩ := Prod.mk.inj (Except.ok.inj same)
    unfold answer insert
    dsimp only
    rw [inserted, Store.run_bind]
    rcases s.run (h.commit (.ok c')) with ⟨⟨w, g⟩, u⟩
    rfl
  | deleteRows table given => exact run_deleteRows s met

/-- The catalog after a call. -/
theorem snd_run_answer (s : Store) (h : CatalogHandle) (call : RowCall) :
    (s.run (h.answer call)).1.2 = { h with catalog := call.settle h.catalog } := by
  unfold RowCall.settle
  cases applied : call.apply h.catalog with
  | error e => rw [run_answer_error s applied]
  | ok p =>
    rw [run_answer_ok s applied]
    dsimp only
    rw [snd_run_commit]
    rfl

theorem sameDirectories_run_answer (s : Store) (h : CatalogHandle) (call : RowCall) :
    s.SameDirectories (s.run (h.answer call)).2 := by
  cases applied : call.apply h.catalog with
  | error e =>
    rw [run_answer_error s applied]
    exact .refl s
  | ok p =>
    rw [run_answer_ok s applied]
    dsimp only
    exact sameDirectories_run_commit s h _

variable {S : String → String → Prop} {c d : Catalog} {calls : List RowCall}

/-- One call comes out alike, whether nulls are left out or not. -/
theorem agree_answer {call : RowCall} (same : g.path = h.path) (dirs : s.SameDirectories t)
    (alike : h.catalog.Alike S g.catalog) (passes : Catalog.PassesOn S h.catalog.tables)
    (within : call.GivenWithin S h.catalog) :
    Agree Fault.engineCode? Eq (s.run (h.answer call)).1.1 (t.run (g.answer call)).1.1 := by
  have agree := RowCall.apply_alike alike passes within
  generalize before : call.apply h.catalog = x at agree
  generalize after : call.apply g.catalog = y at agree
  cases agree with
  | error same =>
    rw [run_answer_error s before, run_answer_error t after]
    exact .error (congrArg some same)
  | @ok p q related =>
    obtain ⟨n, c⟩ := p
    obtain ⟨m, d⟩ := q
    obtain ⟨rfl, alike'⟩ : m = n ∧ c.Alike S d := related
    rw [run_answer_ok s before, run_answer_ok t after]
    dsimp only
    have committed : Agree Refusal.code (Catalog.Alike S) (.ok c) (.ok d) := .ok alike'
    have written := agree_run_commit same dirs committed
    exact written.map fun _ _ _ => rfl

theorem run_answerAll_cons (s : Store) (h : CatalogHandle) (call : RowCall)
    (calls : List RowCall) :
    s.run (h.answerAll (call :: calls)) =
      let first := s.run (h.answer call)
      let rest := first.2.run (first.1.2.answerAll calls)
      ((first.1.1 :: rest.1.1, rest.1.2), rest.2) := by
  rw [answerAll, Store.run_bind]
  rcases s.run (h.answer call) with ⟨⟨outcome, g⟩, t⟩
  dsimp only
  rw [Store.run_bind]
  rcases t.run (g.answerAll calls) with ⟨⟨outcomes, g'⟩, u⟩
  rfl

/-- Two catalogs whose rows differ in nulls only that are left out, and in some columns not even in
those, met with the same calls. As long as the nulls that deletions are given, and those that they
pass on along keys, are for such columns, every call is met in both or refused with one code in
both, removes as many rows, and the catalogs are alike in the end. -/
theorem answerAll_omitting (path : String) (dirs : s.SameDirectories t) (alike : c.Alike S d)
    (passes : Catalog.PassesOn S c.tables) (within : ∀ call ∈ calls, call.GivenWithin S c) :
    let p := (s.run (answerAll ⟨path, c⟩ calls)).1
    let q := (t.run (answerAll ⟨path, d⟩ calls)).1
    List.Forall₂ (Agree Fault.engineCode? Eq) p.1 q.1 ∧ p.2.catalog.Alike S q.2.catalog := by
  -- What carries the induction: catalogs stay alike, required columns valued, directories in place.
  induction calls generalizing s t c d with
  | nil => exact ⟨.nil, alike⟩
  | cons call calls ih =>
    obtain ⟨here, later⟩ := List.forall_mem_cons.mp within
    have dirs' := ((sameDirectories_run_answer s ⟨path, c⟩ call).symm.trans dirs).trans
      (sameDirectories_run_answer t ⟨path, d⟩ call)
    have keeps := call.keepsRequired_settle c
    have frames := keeps.imp fun _ _ keep => keep.frame
    obtain ⟨outcomes, final⟩ := ih dirs' (RowCall.settle_alike alike passes here)
      (passes.of_keeps keeps) fun call hcall => (later call hcall).of_frames frames
    rw [run_answerAll_cons, run_answerAll_cons]
    dsimp only
    rw [snd_run_answer, snd_run_answer]
    exact ⟨.cons (agree_answer rfl dirs alike passes here) outcomes, final⟩

def annotated (rows : List Row) : Catalog :=
  ⟨"s", .epoch,
    [⟨"p", [⟨"a", ⟨.integer, 4, false⟩⟩], [.primary "p" ["a"]], [[("a", .int 1)]]⟩,
      ⟨"c", [⟨"b", ⟨.integer, 4, true⟩⟩, ⟨"note", ⟨.wChar, 0, true⟩⟩],
        [.foreign "f" ["b"] "p" ["a"]], rows⟩]⟩

/-- Without a note, and with one that is null. -/
theorem annotated_alike {S : String → String → Prop} (differs : ¬ S "c" "note") :
    (annotated [[("b", .int 1)]]).Alike S (annotated [[("b", .int 1), ("note", .null)]]) := by
  have first : List.Forall₂ (Row.Alike (S "p")) [[("a", .int 1)]] [[("a", .int 1)]] :=
    .cons (.refl _ _) .nil
  have second : List.Forall₂ (Row.Alike (S "c")) [[("b", .int 1)]]
      [[("b", .int 1), ("note", .null)]] :=
    .cons (Row.alike_append_null differs) .nil
  exact .cons ⟨rfl, first⟩ (.cons ⟨rfl, second⟩ .nil)

/-- A null is inserted and deleted in a column in which the rows do not differ, then all rows go. -/
theorem answerAll_omitting_note :
    let S (table column : String) : Prop := table = "c" ∧ column = "b"
    let calls : List RowCall :=
      [.insert "c" [("b", .null)], .deleteRows "c" [("b", .null)], .deleteRows "p" [("a", .int 1)]]
    let c := annotated [[("b", .int 1)]]
    let d := annotated [[("b", .int 1), ("note", .null)]]
    let p := (Store.empty.run (answerAll ⟨"s.jet.json", c⟩ calls)).1
    let q := (Store.empty.run (answerAll ⟨"s.jet.json", d⟩ calls)).1
    c.Alike S d ∧ Catalog.PassesOn S c.tables ∧ (∀ call ∈ calls, call.GivenWithin S c) ∧
      List.Forall₂ (Agree Fault.engineCode? Eq) p.1 q.1 ∧ p.2.catalog.Alike S q.2.catalog := by
  intro S calls c d p q
  have alike : c.Alike S d := annotated_alike fun same => absurd same.2 (by decide)
  have passes : Catalog.PassesOn S c.tables := by decide +kernel
  have within : ∀ call ∈ calls, call.GivenWithin S c := by
    have child : c.locate "c" = .ok (1, c.tables[1]) := eq_ok_of_toOption (by decide +kernel)
    have column : c.tables[1].column? "b" = some ⟨"b", ⟨.integer, 4, true⟩⟩ := by decide +kernel
    refine List.forall_mem_cons.mpr ⟨trivial, List.forall_mem_cons.mpr ⟨?_, ?_⟩⟩
    · intro i t located m hm _ found hfound
      obtain ⟨-, rfl⟩ := Prod.mk.inj (Except.ok.inj (child.symm.trans located))
      obtain rfl := List.mem_singleton.mp hm
      obtain rfl := Option.some.inj (column.symm.trans hfound)
      exact ⟨rfl, rfl⟩
    · refine List.forall_mem_singleton.mpr fun i t _ m hm null => ?_
      obtain rfl := List.mem_singleton.mp hm
      cases null
  have dirs : Store.empty.SameDirectories Store.empty := .refl _
  clear_value c d calls
  exact ⟨alike, passes, within, answerAll_omitting "s.jet.json" dirs alike passes within⟩

/-- A null among the criteria is met by a null that is stored, and not by one that is left out. -/
theorem answer_omitted_null :
    let call := RowCall.deleteRows "c" [("note", .null)]
    let c := annotated [[("b", .int 1)]]
    let d := annotated [[("b", .int 1), ("note", .null)]]
    let outcome (c : Catalog) := (Store.empty.run (answer ⟨"s.jet.json", c⟩ call)).1.1.toOption
    c.Alike (fun _ _ => False) d ∧ outcome c = some 0 ∧ outcome d = some 1 := by
  intro call c d outcome
  have none_ : call.apply c = .ok (0, c) := by cbv
  have one : call.apply d = .ok (1, annotated []) := by cbv
  refine ⟨annotated_alike id, ?_, ?_⟩
  · change (Store.empty.run (answer ⟨"s.jet.json", c⟩ call)).1.1.toOption = some 0
    rw [run_answer_ok Store.empty none_]
    decide +kernel
  · change (Store.empty.run (answer ⟨"s.jet.json", d⟩ call)).1.1.toOption = some 1
    rw [run_answer_ok Store.empty one]
    decide +kernel

end CatalogHandle

end Tabular
