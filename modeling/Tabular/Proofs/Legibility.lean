import Tabular.Proofs.Continuity
import Tabular.Proofs.Decimals

/-!
Values that can be read again once they are written: those whose numbers a machine has and which do
not nest too deep. What is read is such a value, so that a document stays legible as long as nothing
else is stored.
-/
namespace Tabular

/-! ### Values -/

namespace Json

mutual

/-- Numbers that a machine has, in lists and objects that nest at most `depth` deep. -/
def FitsIn : Nat → Json → Prop
  | _, number n => n.IsMachine
  | 0, array _ | 0, object _ => False
  | depth + 1, array items => ItemsFitIn depth items
  | depth + 1, object members => MembersFitIn depth members
  | _, _ => True

def ItemsFitIn : Nat → List Json → Prop
  | _, [] => True
  | depth, v :: vs => v.FitsIn depth ∧ ItemsFitIn depth vs

def MembersFitIn : Nat → List (String × Json) → Prop
  | _, [] => True
  | depth, (_, v) :: ms => v.FitsIn depth ∧ MembersFitIn depth ms

end

theorem membersFitIn_iff {depth : Nat} {ms : List (String × Json)} :
    MembersFitIn depth ms ↔ ∀ m ∈ ms, m.2.FitsIn depth := by
  induction ms with
  | nil => simp [MembersFitIn]
  | cons m ms ih => rw [MembersFitIn, ih, List.forall_mem_cons]

theorem foldl_insertMember (front : List (String × Json)) (h : Ordered front)
    (ms : List (String × Json)) :
    Ordered (ms.foldl (fun acc m => insertMember m.1 m.2 acc) front) ∧
      ms.foldl (fun acc m => insertMember m.1 m.2 acc) front ⊆ front ++ ms := by
  induction ms generalizing front with
  | nil => exact ⟨h, by simp⟩
  | cons n ms ih =>
    obtain ⟨ordered, inside⟩ := ih (insertMember n.1 n.2 front) h.insertMember
    refine ⟨ordered, fun m hm => ?_⟩
    rcases List.mem_append.mp (inside hm) with hm | hm
    · rcases mem_insertMember hm with rfl | hm
      · simp
      · exact List.mem_append_left _ hm
    · exact List.mem_append_right _ (List.mem_cons_of_mem n hm)

theorem ordered_sortMembers (ms : List (String × Json)) : Ordered (sortMembers ms) :=
  (foldl_insertMember [] .nil ms).1

/-- Members that are sorted are members. -/
theorem sortMembers_subset (ms : List (String × Json)) : sortMembers ms ⊆ ms :=
  (foldl_insertMember [] .nil ms).2

end Json

/-! ### Trees -/

namespace JsonTree

mutual

def IsMachine : JsonTree → Prop
  | number n => ∀ m ∈ n, m.IsMachine
  | array items => ItemsAreMachine items
  | object members => MembersAreMachine members
  | _ => True

def ItemsAreMachine : List JsonTree → Prop
  | [] => True
  | t :: ts => t.IsMachine ∧ ItemsAreMachine ts

def MembersAreMachine : List (Option String × JsonTree) → Prop
  | [] => True
  | (_, t) :: ts => t.IsMachine ∧ MembersAreMachine ts

end

theorem itemsAreMachine_iff {ts : List JsonTree} : ItemsAreMachine ts ↔ ∀ t ∈ ts, t.IsMachine := by
  induction ts with
  | nil => simp [ItemsAreMachine]
  | cons t ts ih => rw [ItemsAreMachine, ih, List.forall_mem_cons]

def Scans (fuel : Nat) : Prop :=
  (∀ cs t rest, scanValue fuel cs = some (t, rest) → t.IsMachine) ∧
    (∀ cs ts rest, scanItems fuel cs = some (ts, rest) → ItemsAreMachine ts) ∧
    (∀ cs ts rest, scanMembers fuel cs = some (ts, rest) → MembersAreMachine ts)

theorem isMachine_of_scanWord {word cs rest : List Char} {t u : JsonTree} (ht : t.IsMachine)
    (h : scanWord word t cs = some (u, rest)) : u.IsMachine := by
  unfold scanWord at h
  split at h
  · exact (Prod.mk.inj (Option.some.inj h)).1 ▸ ht
  · cases h

theorem scans_value {fuel : Nat} (ih : Scans fuel) {cs rest : List Char} {t : JsonTree}
    (h : scanValue (fuel + 1) cs = some (t, rest)) : t.IsMachine := by
  obtain ⟨-, items, members⟩ := ih
  rw [scanValue] at h
  split at h
  · exact isMachine_of_scanWord (t := .null) trivial h
  · exact isMachine_of_scanWord (t := .bool true) trivial h
  · exact isMachine_of_scanWord (t := .bool false) trivial h
  · obtain ⟨⟨s, after⟩, -, h⟩ := Option.bind_eq_some_iff.mp h
    exact (Prod.mk.inj (Option.some.inj h)).1 ▸ trivial
  · split at h
    · exact (Prod.mk.inj (Option.some.inj h)).1 ▸ trivial
    · obtain ⟨⟨ts, after⟩, hts, h⟩ := Option.bind_eq_some_iff.mp h
      exact (Prod.mk.inj (Option.some.inj h)).1 ▸ items _ _ _ hts
  · split at h
    · exact (Prod.mk.inj (Option.some.inj h)).1 ▸ trivial
    · obtain ⟨⟨ts, after⟩, hts, h⟩ := Option.bind_eq_some_iff.mp h
      exact (Prod.mk.inj (Option.some.inj h)).1 ▸ members _ _ _ hts
  · obtain ⟨⟨n, after⟩, -, h⟩ := Option.bind_eq_some_iff.mp h
    obtain rfl := (Prod.mk.inj (Option.some.inj h)).1
    exact fun m hm => Number.isMachine_of_value? hm

theorem scans_items {fuel : Nat} (ih : Scans fuel) {cs rest : List Char} {ts : List JsonTree}
    (h : scanItems (fuel + 1) cs = some (ts, rest)) : ItemsAreMachine ts := by
  obtain ⟨values, items, -⟩ := ih
  rw [scanItems_succ] at h
  obtain ⟨⟨t, after⟩, ht, h⟩ := Option.bind_eq_some_iff.mp h
  have first := values _ _ _ ht
  unfold itemsAfter at h
  split at h
  · obtain ⟨⟨us, after'⟩, hus, h⟩ := Option.bind_eq_some_iff.mp h
    exact (Prod.mk.inj (Option.some.inj h)).1 ▸ ⟨first, items _ _ _ hus⟩
  · exact (Prod.mk.inj (Option.some.inj h)).1 ▸ ⟨first, trivial⟩
  · cases h

theorem scans_members {fuel : Nat} (ih : Scans fuel) {cs rest : List Char}
    {ts : List (Option String × JsonTree)} (h : scanMembers (fuel + 1) cs = some (ts, rest)) :
    MembersAreMachine ts := by
  obtain ⟨values, -, members⟩ := ih
  rw [scanMembers] at h
  split at h
  · obtain ⟨⟨name, after⟩, -, h⟩ := Option.bind_eq_some_iff.mp h
    dsimp only at h
    split at h
    · obtain ⟨⟨t, after'⟩, ht, h⟩ := Option.bind_eq_some_iff.mp h
      have first := values _ _ _ ht
      dsimp only at h
      split at h
      · obtain ⟨⟨us, after''⟩, hus, h⟩ := Option.bind_eq_some_iff.mp h
        exact (Prod.mk.inj (Option.some.inj h)).1 ▸ ⟨first, members _ _ _ hus⟩
      · exact (Prod.mk.inj (Option.some.inj h)).1 ▸ ⟨first, trivial⟩
      · cases h
    · cases h
  · cases h

theorem scans (fuel : Nat) : Scans fuel := by
  induction fuel with
  | zero =>
    refine ⟨fun cs t rest h => ?_, fun cs ts rest h => ?_, fun cs ts rest h => ?_⟩
    · cases h
    · cases h
    · cases h
  | succ fuel ih =>
    exact ⟨fun _ _ _ => scans_value ih, fun _ _ _ => scans_items ih, fun _ _ _ => scans_members ih⟩

/-- The numbers in a text are such as a machine has. -/
theorem isMachine_of_parse {text : String} {t : JsonTree} (h : parse text = some t) :
    t.IsMachine := by
  obtain ⟨⟨u, rest⟩, hu, h⟩ := Option.bind_eq_some_iff.mp h
  dsimp only at h
  split at h
  · exact Option.some.inj h ▸ (scans _).1 _ _ _ hu
  · cases h

mutual

/-- The value of a tree is as deep as was allowed. -/
theorem fitsIn_of_value? {depth : Nat} {t : JsonTree} {v : Json} (ht : t.IsMachine)
    (h : t.value? depth = some v) : v.FitsIn depth := by
  cases t with
  | null =>
    rw [value?] at h
    exact Option.some.inj h ▸ trivial
  | bool b =>
    rw [value?] at h
    exact Option.some.inj h ▸ trivial
  | string s =>
    rw [value?] at h
    obtain ⟨s, -, rfl⟩ := Option.map_eq_some_iff.mp h
    trivial
  | number n =>
    rw [value?] at h
    obtain ⟨m, hm, rfl⟩ := Option.map_eq_some_iff.mp h
    exact ht m hm
  | array ts =>
    cases depth with
    | zero => cases h
    | succ depth =>
      rw [value?] at h
      obtain ⟨vs, hvs, rfl⟩ := Option.map_eq_some_iff.mp h
      exact itemsFitIn_of_values? ht hvs
  | object ts =>
    cases depth with
    | zero => cases h
    | succ depth =>
      rw [value?] at h
      obtain ⟨ms, hms, rfl⟩ := Option.map_eq_some_iff.mp h
      have fit := Json.membersFitIn_iff.mp (membersFitIn_of_memberValues? ht hms)
      exact Json.membersFitIn_iff.mpr fun m hm => fit m (Json.sortMembers_subset ms hm)
termination_by structural t

theorem itemsFitIn_of_values? {depth : Nat} {ts : List JsonTree} {vs : List Json}
    (hts : ItemsAreMachine ts) (h : values? depth ts = some vs) : Json.ItemsFitIn depth vs := by
  cases ts with
  | nil =>
    rw [values?] at h
    exact Option.some.inj h ▸ trivial
  | cons t ts =>
    rw [values?] at h
    obtain ⟨v, hv, h⟩ := Option.bind_eq_some_iff.mp h
    obtain ⟨ws, hws, h⟩ := Option.bind_eq_some_iff.mp h
    exact Option.some.inj h ▸ ⟨fitsIn_of_value? hts.1 hv, itemsFitIn_of_values? hts.2 hws⟩
termination_by structural ts

theorem membersFitIn_of_memberValues? {depth : Nat} {ts : List (Option String × JsonTree)}
    {ms : List (String × Json)} (hts : MembersAreMachine ts)
    (h : memberValues? depth ts = some ms) : Json.MembersFitIn depth ms := by
  cases ts with
  | nil =>
    rw [memberValues?] at h
    exact Option.some.inj h ▸ trivial
  | cons t ts =>
    obtain ⟨k, t⟩ := t
    rw [memberValues?] at h
    obtain ⟨name, -, h⟩ := Option.bind_eq_some_iff.mp h
    obtain ⟨v, hv, h⟩ := Option.bind_eq_some_iff.mp h
    obtain ⟨ws, hws, h⟩ := Option.bind_eq_some_iff.mp h
    exact Option.some.inj h ▸ ⟨fitsIn_of_value? hts.1 hv, membersFitIn_of_memberValues? hts.2 hws⟩
termination_by structural ts

end

end JsonTree

namespace Json

mutual

/-- A value that fits is read again. -/
theorem exists_value? {depth : Nat} {v : Json} (fits : v.FitsIn depth) :
    ∃ w, v.printed.value? depth = some w := by
  cases v with
  | null => exact ⟨null, by rw [printed, JsonTree.value?]⟩
  | bool b => exact ⟨bool b, by rw [printed, JsonTree.value?]⟩
  | string s => exact ⟨string s, by rw [printed, JsonTree.value?]; rfl⟩
  | number n =>
    rw [FitsIn] at fits
    obtain ⟨m, hm⟩ := Number.exists_reread? fits
    exact ⟨number m, by rw [printed, JsonTree.value?, hm]; rfl⟩
  | array vs =>
    cases depth with
    | zero => exact fits.elim
    | succ depth =>
      obtain ⟨ws, hws⟩ := exists_values? fits
      exact ⟨array ws, by rw [printed, JsonTree.value?, hws]; rfl⟩
  | object ms =>
    cases depth with
    | zero => exact fits.elim
    | succ depth =>
      obtain ⟨ns, hns⟩ := exists_memberValues? fits
      exact ⟨object (sortMembers ns), by rw [printed, JsonTree.value?, hns]; rfl⟩
termination_by structural v

theorem exists_values? {depth : Nat} {vs : List Json} (fits : ItemsFitIn depth vs) :
    ∃ ws, JsonTree.values? depth (printedItems vs) = some ws := by
  cases vs with
  | nil => exact ⟨[], by rw [printedItems, JsonTree.values?]⟩
  | cons v vs =>
    obtain ⟨w, hw⟩ := exists_value? fits.1
    obtain ⟨ws, hws⟩ := exists_values? fits.2
    exact ⟨w :: ws, by rw [printedItems, JsonTree.values?, hw, hws]; rfl⟩
termination_by structural vs

theorem exists_memberValues? {depth : Nat} {ms : List (String × Json)}
    (fits : MembersFitIn depth ms) :
    ∃ ns, JsonTree.memberValues? depth (printedMembers ms) = some ns := by
  cases ms with
  | nil => exact ⟨[], by rw [printedMembers, JsonTree.memberValues?]⟩
  | cons m ms =>
    obtain ⟨k, v⟩ := m
    obtain ⟨w, hw⟩ := exists_value? fits.1
    obtain ⟨ns, hns⟩ := exists_memberValues? fits.2
    exact ⟨(k, w) :: ns, by rw [printedMembers, JsonTree.memberValues?, hw, hns]; rfl⟩
termination_by structural ms

end

end Json

/-! ### Documents -/

namespace JsonTree

variable {α : Type} {Q : α → Prop} {fs : List (String × JsonTree)} {name : String}

theorem isMachine_of_knownMembers? {names : List String} {ms : List (Option String × JsonTree)}
    (hms : MembersAreMachine ms) (h : knownMembers? names ms = some fs) :
    ∀ f ∈ fs, f.2.IsMachine := by
  induction ms generalizing fs with
  | nil =>
    obtain rfl := Option.some.inj h
    simp
  | cons m ms ih =>
    obtain ⟨k, t⟩ := m
    cases k with
    | none => cases h
    | some k =>
      rw [knownMembers?] at h
      obtain ⟨rest, hrest, h⟩ := Option.bind_eq_some_iff.mp h
      have tail := ih hms.2 hrest
      split at h
      · exact Option.some.inj h ▸ tail
      · split at h
        · cases h
        · exact Option.some.inj h ▸ List.forall_mem_cons.mpr ⟨hms.1, tail⟩

theorem isMachine_of_fields? {names : List String} {t : JsonTree} (ht : t.IsMachine)
    (h : Document.fields? names t = some fs) : ∀ f ∈ fs, f.2.IsMachine := by
  change fields? names t = some fs at h
  unfold fields? at h
  split at h
  · exact isMachine_of_knownMembers? ht h
  · next items =>
    split at h
    · obtain rfl := Option.some.inj h
      exact fun f hf => itemsAreMachine_iff.mp ht f.2 (List.of_mem_zip hf).2
    · cases h
  · cases h

theorem of_list {read : JsonTree → Option α}
    (each : ∀ t : JsonTree, t.IsMachine → ∀ a, read t = some a → Q a) {t : JsonTree}
    (ht : t.IsMachine) {as : List α} (h : Document.list read t = some as) : ∀ a ∈ as, Q a := by
  obtain ⟨items, hitems, h⟩ := Option.bind_eq_some_iff.mp h
  have mem : ∀ u ∈ items, u.IsMachine := by
    cases t with
    | array ts => exact Option.some.inj hitems ▸ itemsAreMachine_iff.mp ht
    | _ => cases hitems
  intro a ha
  obtain ⟨u, hu, hread⟩ := exists_of_forall₂_right (mapM_eq_some_iff.mp h) ha
  exact each u (mem u hu) a hread

theorem isMachine_of_field? {t : JsonTree} (hfs : ∀ f ∈ fs, f.2.IsMachine)
    (h : Document.field? fs name = some t) : t.IsMachine := by
  obtain ⟨f, hf, rfl⟩ := Option.map_eq_some_iff.mp h
  exact hfs f (List.mem_of_find?_eq_some hf)

theorem of_required {read : JsonTree → Option α}
    (each : ∀ t : JsonTree, t.IsMachine → ∀ a, read t = some a → Q a)
    (hfs : ∀ f ∈ fs, f.2.IsMachine) {a : α} (h : Document.required fs name read = some a) :
    Q a := by
  obtain ⟨t, ht, h⟩ := Option.bind_eq_some_iff.mp h
  exact each t (isMachine_of_field? hfs ht) a h

theorem of_withDefault {read : JsonTree → Option α}
    (each : ∀ t : JsonTree, t.IsMachine → ∀ a, read t = some a → Q a)
    (hfs : ∀ f ∈ fs, f.2.IsMachine) {a d : α} (absent : Q d)
    (h : Document.withDefault fs name d read = some a) : Q a := by
  unfold Document.withDefault at h
  cases found : Document.field? fs name with
  | none =>
    rw [found] at h
    exact Option.some.inj h ▸ absent
  | some t =>
    rw [found] at h
    exact each t (isMachine_of_field? hfs found) a h

end JsonTree

theorem exists_mapM_eq_some {α β : Type} {f : α → Option β} {xs : List α}
    (h : ∀ x ∈ xs, ∃ y, f x = some y) : ∃ ys, xs.mapM f = some ys := by
  induction xs with
  | nil => exact ⟨[], rfl⟩
  | cons x xs ih =>
    rw [List.forall_mem_cons] at h
    obtain ⟨y, hy⟩ := h.1
    obtain ⟨ys, hys⟩ := ih h.2
    exact ⟨y :: ys, mapM_eq_some_iff.mpr (.cons hy (mapM_eq_some_iff.mp hys))⟩

/-- Can every value of a row be read again, inside the document of a catalog? -/
def Row.Legible (r : Row) : Prop := r.IsOf (Json.FitsIn Catalog.innerDepth)

def StoredTable.Legible (t : StoredTable) : Prop := ∀ r ∈ t.rows, r.Legible

def Catalog.Legible (c : Catalog) : Prop := ∀ t ∈ c.tables, t.Legible

theorem Row.legible_of_read? {t : JsonTree} (ht : t.IsMachine) {r : Row}
    (h : Row.read? t = some r) : r.Legible := by
  cases t with
  | object members =>
    obtain ⟨ms, hms, h⟩ := Option.bind_eq_some_iff.mp h
    obtain rfl := Option.some.inj h
    have fit := Json.membersFitIn_iff.mp (JsonTree.membersFitIn_of_memberValues? ht hms)
    exact ⟨Json.ordered_sortMembers ms, fun m hm => fit m (Json.sortMembers_subset ms hm)⟩
  | _ => cases h

theorem StoredTable.legible_of_read? {t : JsonTree} (ht : t.IsMachine) {u : StoredTable}
    (h : StoredTable.read? t = some u) : u.Legible := by
  obtain ⟨fs, hfs, h⟩ := Option.bind_eq_some_iff.mp h
  have fields := JsonTree.isMachine_of_fields? ht hfs
  obtain ⟨name, -, h⟩ := Option.bind_eq_some_iff.mp h
  obtain ⟨columns, -, h⟩ := Option.bind_eq_some_iff.mp h
  obtain ⟨keys, -, h⟩ := Option.bind_eq_some_iff.mp h
  obtain ⟨rows, hrows, h⟩ := Option.bind_eq_some_iff.mp h
  obtain rfl := Option.some.inj h
  exact JsonTree.of_withDefault (Q := fun rows => ∀ r ∈ rows, Row.Legible r)
    (fun t ht rows => JsonTree.of_list (fun t ht r => Row.legible_of_read? ht) ht)
    fields (by simp) hrows

namespace Catalog

/-- What is read from a document can be read again. -/
theorem legible_of_parse? {text : String} {version : UInt32} {c : Catalog}
    (h : parse? text = some (version, c)) : c.Legible := by
  obtain ⟨t, ht, h⟩ := Option.bind_eq_some_iff.mp h
  have machine := JsonTree.isMachine_of_parse ht
  obtain ⟨fs, hfs, h⟩ := Option.bind_eq_some_iff.mp h
  have fields := JsonTree.isMachine_of_fields? machine hfs
  obtain ⟨_, -, h⟩ := Option.bind_eq_some_iff.mp h
  obtain ⟨_, -, h⟩ := Option.bind_eq_some_iff.mp h
  obtain ⟨_, -, h⟩ := Option.bind_eq_some_iff.mp h
  obtain ⟨tables, htables, h⟩ := Option.bind_eq_some_iff.mp h
  obtain rfl := (Prod.mk.inj (Option.some.inj h)).2
  exact JsonTree.of_required (Q := fun tables => ∀ t ∈ tables, StoredTable.Legible t)
    (fun t ht tables => JsonTree.of_list (fun t ht u => StoredTable.legible_of_read? ht) ht)
    fields htables

variable {c c' : Catalog}

theorem legible_iff : c.Legible ↔ ∀ r, c.HasRow r → r.Legible :=
  ⟨fun h r ⟨t, ht, hr⟩ => h t ht r hr, fun h t ht r hr => h r ⟨t, ht, hr⟩⟩

/-- A legible catalog has a document that is read as the same tables and keys. -/
theorem Legible.exists_reread? (h : c.Legible) :
    ∃ c', c.reread? = some c' ∧ c'.Legible ∧
      List.Forall₂ StoredTable.SameFrame c.tables c'.tables := by
  have rows (t : StoredTable) (ht : t ∈ c.tables) (r : Row) (hr : r ∈ t.rows) :
      ∃ q, r.reread? = some q := by
    obtain ⟨ms, hms⟩ := Json.exists_memberValues? (Json.membersFitIn_iff.mpr (h t ht r hr).values)
    refine ⟨Json.sortMembers ms, ?_⟩
    unfold Row.reread?
    change (JsonTree.memberValues? innerDepth (Json.printedMembers r)).bind
      (fun ms => some (Json.sortMembers ms)) = _
    rw [hms, Option.bind_some]
  have tables (t : StoredTable) (ht : t ∈ c.tables) : ∃ u, t.reread? = some u := by
    obtain ⟨qs, hqs⟩ := exists_mapM_eq_some (rows t ht)
    exact ⟨{ t with rows := qs }, by rw [StoredTable.reread?, hqs]; rfl⟩
  obtain ⟨us, hus⟩ := exists_mapM_eq_some tables
  have read : c.reread? = some { c with tables := us } := by
    rw [reread?, hus]
    rfl
  have parsed : parse? c.toText = some (formatVersion, { c with tables := us }) := by
    rw [parse?_toText, read]
    rfl
  refine ⟨_, read, legible_of_parse? parsed, ?_⟩
  exact (mapM_eq_some_iff.mp hus).imp fun t u h => (StoredTable.comesBackAs_of_reread? h).frame

theorem reread?_eq_none {t : StoredTable} (ht : t ∈ c.tables) (h : t.reread? = none) :
    c.reread? = none := by
  cases read : c.tables.mapM StoredTable.reread? with
  | none => rw [reread?, read]; rfl
  | some us =>
    obtain ⟨u, -, hu⟩ := exists_of_forall₂_left (mapM_eq_some_iff.mp read) ht
    rw [h] at hu
    cases hu

end Catalog

namespace Mutation

variable {c c' : Catalog} {m : Mutation}

def IsLegible : Mutation → Prop
  | insert _ values => ∀ v ∈ values, v.2.FitsIn Catalog.innerDepth
  | _ => True

theorem legible_of_apply (legible : m.IsLegible) (h : m.apply c = .ok c') (hc : c.Legible) :
    c'.Legible := by
  rw [Catalog.legible_iff] at hc ⊢
  intro r hr
  have texts (s : String) : (Json.string s).FitsIn Catalog.innerDepth := trivial
  rcases hasRow_of_apply texts (fun _ _ inserted => by rw [inserted] at legible; exact legible) h hr
    with old | new
  · exact hc r old
  · exact new

end Mutation

end Tabular
