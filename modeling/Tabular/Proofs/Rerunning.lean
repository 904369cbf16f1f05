import Tabular.Proofs.Materialisation
import Tabular.Proofs.Structure

/-!
Tables made anew where they have been made before, names repeated or not. The last table of each
name is left, with its keys, behind the tables of other names; what those lose does not depend on
rows, and is lost at once unless a foreign key was for a table that was missing.
-/
namespace Tabular

namespace StoredTable

variable {t u : StoredTable}

def bare (t : StoredTable) : StoredTable := { t with rows := [] }

theorem sameFrame_iff : t.SameFrame u ↔ t.bare = u.bare := by
  cases t
  cases u
  simp [SameFrame, bare, eq_comm]

theorem forall₂_sameFrame_iff {ts us : List StoredTable} :
    List.Forall₂ StoredTable.SameFrame ts us ↔ ts.map bare = us.map bare := by
  rw [← List.forall₂_eq_eq_eq, List.forall₂_map_left_iff, List.forall₂_map_right_iff]
  exact ⟨.imp fun _ _ => sameFrame_iff.mp, .imp fun _ _ => sameFrame_iff.mpr⟩

def without (t : StoredTable) (gone : StoredKey → Bool) : StoredTable :=
  { t with keys := t.keys.filter (!gone ·) }

@[simp] theorem without_name (t : StoredTable) (gone : StoredKey → Bool) :
    (t.without gone).name = t.name := rfl

theorem SameFrame.without (h : t.SameFrame u) (gone : StoredKey → Bool) :
    (t.without gone).SameFrame (u.without gone) := by
  unfold SameFrame at h ⊢
  rw [h]
  rfl

theorem without_eq_self {gone : StoredKey → Bool} (h : ∀ k ∈ t.keys, gone k = false) :
    t.without gone = t := by
  unfold StoredTable.without
  rw [List.filter_eq_self.mpr fun k hk => by rw [h k hk]; rfl]

end StoredTable

namespace Catalog

/-! ### Tables beside -/

def beside (names : List String) (gone : StoredKey → Bool) (tables : List StoredTable) :
    List StoredTable :=
  (tables.filter fun t => !names.any (sameName t.name)).map (·.without gone)

theorem beside_append (names : List String) (gone : StoredKey → Bool)
    (tables more : List StoredTable) :
    beside names gone (tables ++ more) = beside names gone tables ++ beside names gone more := by
  unfold beside
  rw [List.filter_append, List.map_append]

theorem beside_beside (names more : List String) (gone also : StoredKey → Bool)
    (tables : List StoredTable) :
    beside more also (beside names gone tables) =
      beside (names ++ more) (fun k => gone k || also k) tables := by
  unfold beside StoredTable.without
  simp only [List.filter_map, List.map_map, List.filter_filter, Function.comp_def, List.any_append]
  congr 1
  · funext t
    congr 1
    exact List.filter_congr fun k _ => by rw [Bool.not_or, Bool.and_comm]
  · exact List.filter_congr fun t _ => by rw [Bool.not_or, Bool.and_comm]

theorem of_mem_beside {names : List String} {gone : StoredKey → Bool} {tables : List StoredTable}
    {t : StoredTable} (h : t ∈ beside names gone tables) :
    ∀ name ∈ names, sameName t.name name = false := by
  obtain ⟨u, hu, rfl⟩ := List.mem_map.mp h
  have other := (List.mem_filter.mp hu).2
  rw [Bool.not_eq_true', List.any_eq_false] at other
  exact fun name hname => by simpa using other name hname

theorem beside_eq_nil {names : List String} {gone : StoredKey → Bool} {tables : List StoredTable}
    (h : ∀ t ∈ tables, names.any (sameName t.name) = true) : beside names gone tables = [] := by
  unfold beside
  rw [List.filter_eq_nil_iff.mpr fun t ht => by simp [h t ht]]
  rfl

theorem forall₂_beside {tables others : List StoredTable} (names : List String)
    (gone : StoredKey → Bool) (frames : List.Forall₂ StoredTable.SameFrame tables others) :
    List.Forall₂ StoredTable.SameFrame (beside names gone tables) (beside names gone others) := by
  unfold beside
  rw [List.forall₂_map_left_iff, List.forall₂_map_right_iff]
  exact (forall₂_filter frames fun t _ u same => by rw [same.name]).imp
    fun t u same => same.without gone

/-- Keys that give way with tables of some names: keys to one of the names, all of them if a table
of that name is there. -/
structure Purges (names : List String) (tables : List StoredTable) (gone : StoredKey → Bool) :
    Prop where
  aimed : ∀ k, gone k = true → names.any (k.refersTo ·) = true
  all : ∀ k, ∀ name ∈ names, k.refersTo name = true → isTaken tables name = true → gone k = true

/-- Where there is a table of every name, every key to one of them gives way. -/
theorem Purges.eq_any {names : List String} {tables : List StoredTable} {gone : StoredKey → Bool}
    (purges : Purges names tables gone) (taken : ∀ name ∈ names, isTaken tables name = true) :
    gone = fun k => names.any (k.refersTo ·) := by
  funext k
  rw [Bool.eq_iff_iff]
  refine ⟨purges.aimed k, fun h => ?_⟩
  obtain ⟨name, hname, refers⟩ := List.any_eq_true.mp h
  exact purges.all k name hname refers (taken name hname)

/-! ### Tables made -/

theorem refersTo_of_sameName {k : StoredKey} {a b : String} (same : sameName a b = true)
    (h : k.refersTo a = true) : k.refersTo b = true := by
  unfold StoredKey.refersTo at h ⊢
  rw [Bool.and_eq_true, Option.any_eq_true] at h ⊢
  obtain ⟨foreign, target, ht, hsame⟩ := h
  exact ⟨foreign, target, ht, sameName_trans hsame same⟩

theorem isTaken_of_sameName {tables : List StoredTable} {a b : String} (same : sameName a b = true)
    (h : isTaken tables a = true) : isTaken tables b = true := by
  obtain ⟨t, ht, hsame⟩ := List.any_eq_true.mp h
  exact List.any_eq_true.mpr ⟨t, ht, sameName_trans hsame same⟩

/-- The tables that are left of those made in order: the last one of each name. -/
def lastMade : List (String × List StoredColumn) → List StoredTable
  | [] => []
  | p :: ps =>
    if ps.any (sameName p.1 ·.1) then lastMade ps else emptyTable p.1 p.2 :: lastMade ps

theorem lastMade_cons (p : String × List StoredColumn) (ps : List (String × List StoredColumn)) :
    lastMade (p :: ps) =
      if ps.any (sameName p.1 ·.1) then lastMade ps else emptyTable p.1 p.2 :: lastMade ps := rfl

theorem isTaken_cons (t : StoredTable) (tables : List StoredTable) (name : String) :
    isTaken (t :: tables) name = (sameName t.name name || isTaken tables name) := rfl

theorem mem_lastMade {ps : List (String × List StoredColumn)} {t : StoredTable}
    (h : t ∈ lastMade ps) : ∃ p ∈ ps, emptyTable p.1 p.2 = t := by
  induction ps with
  | nil => cases h
  | cons p ps ih =>
    rw [lastMade_cons] at h
    split at h
    · obtain ⟨q, hq, rfl⟩ := ih h
      exact ⟨q, List.mem_cons_of_mem p hq, rfl⟩
    · rcases List.mem_cons.mp h with rfl | h
      · exact ⟨p, List.mem_cons_self, rfl⟩
      · obtain ⟨q, hq, rfl⟩ := ih h
        exact ⟨q, List.mem_cons_of_mem p hq, rfl⟩

theorem isTaken_lastMade {ps : List (String × List StoredColumn)} {p : String × List StoredColumn}
    (h : p ∈ ps) : isTaken (lastMade ps) p.1 = true := by
  induction ps generalizing p with
  | nil => cases h
  | cons q ps ih =>
    have tail {r : String × List StoredColumn} (hr : r ∈ ps) :
        isTaken (lastMade (q :: ps)) r.1 = true := by
      rw [lastMade_cons]
      split
      · exact ih hr
      · rw [isTaken_cons, ih hr, Bool.or_true]
    rcases List.mem_cons.mp h with rfl | h
    · by_cases later : ps.any (sameName p.1 ·.1) = true
      · obtain ⟨r, hr, same⟩ := List.any_eq_true.mp later
        exact isTaken_of_sameName (sameName_symm same) (tail hr)
      · rw [lastMade_cons, if_neg later, isTaken_cons, emptyTable, sameName_refl, Bool.true_or]
    · exact tail h

theorem pairwise_lastMade (ps : List (String × List StoredColumn)) :
    ((lastMade ps).map (·.name)).Pairwise (sameName · · = false) := by
  induction ps with
  | nil => exact .nil
  | cons p ps ih =>
    rw [lastMade_cons]
    split
    · exact ih
    · next last =>
      refine List.pairwise_cons.mpr ⟨fun name hname => ?_, ih⟩
      obtain ⟨t, ht, rfl⟩ := List.mem_map.mp hname
      obtain ⟨q, hq, rfl⟩ := mem_lastMade ht
      rw [Bool.eq_false_iff]
      exact fun same => last (List.any_eq_true.mpr ⟨q, hq, same⟩)

/-- A table made stays beside those made after it if it is the last one of its name. -/
theorem beside_append_lastMade (p : String × List StoredColumn)
    (ps : List (String × List StoredColumn)) (gone : StoredKey → Bool) :
    beside (ps.map (·.1)) gone [emptyTable p.1 p.2] ++ lastMade ps = lastMade (p :: ps) := by
  rw [lastMade_cons]
  split
  · next later =>
    rw [beside_eq_nil, List.nil_append]
    rw [List.forall_mem_singleton, List.any_map]
    exact later
  · next last =>
    have other : (!(ps.map (·.1)).any (sameName p.1)) = true := by
      rw [List.any_map, Bool.not_eq_true']
      exact Bool.eq_false_iff.mpr last
    have itself : [emptyTable p.1 p.2].filter (fun t => !(ps.map (·.1)).any (sameName t.name)) =
        [emptyTable p.1 p.2] :=
      List.filter_eq_self.mpr fun t ht => by rw [List.mem_singleton.mp ht]; exact other
    rw [beside, itself]
    rfl

def goneWith (tables : List StoredTable) (name : String) (k : StoredKey) : Bool :=
  k.refersTo name && isTaken tables name

theorem keptTables_eq_beside (tables : List StoredTable) (name : String) :
    keptTables [name] tables = beside [name] (goneWith tables name) tables := by
  simp [keptTables, beside, goneWith, StoredTable.without]

theorem Purges.nil (tables : List StoredTable) : Purges [] tables fun _ => false :=
  ⟨by simp, by simp⟩

/-- Keys give way with a table, and then with tables made after it. -/
theorem Purges.cons {name : String} {names : List String} {columns : List StoredColumn}
    {tables : List StoredTable} {gone : StoredKey → Bool}
    (h : Purges names (keptTables [name] tables ++ [emptyTable name columns]) gone) :
    Purges (name :: names) tables fun k => goneWith tables name k || gone k where
  aimed k hk := by
    rw [List.any_cons, Bool.or_eq_true]
    exact (Bool.or_eq_true_iff.mp hk).imp (fun hk => (Bool.and_eq_true_iff.mp hk).1) (h.aimed k)
  all k other hother refers taken := by
    rw [Bool.or_eq_true, goneWith, Bool.and_eq_true]
    by_cases same : sameName name other = true
    · have back := sameName_symm same
      exact .inl ⟨refersTo_of_sameName back refers, isTaken_of_sameName back taken⟩
    · rcases List.mem_cons.mp hother with rfl | hother
      · exact absurd (sameName_refl _) same
      · refine .inr (h.all k other hother refers ?_)
        have made : (emptyTable name columns).name = name := rfl
        rw [isTaken_remade made (Bool.eq_false_iff.mpr same)]
        exact taken

variable {c c' : Catalog} {ps : List (String × List StoredColumn)}

/-- What tables made in order lead to. -/
theorem remakeAll_tables (h : c.remakeAll ps = .ok c') :
    (∀ p ∈ ps, p.2.Pairwise (fun a b => sameName a.name b.name = false)) ∧
      ∃ gone, Purges (ps.map (·.1)) c.tables gone ∧
        c'.tables = beside (ps.map (·.1)) gone c.tables ++ lastMade ps := by
  induction ps generalizing c with
  | nil =>
    obtain rfl : c = c' := Except.ok.inj h
    refine ⟨by simp, fun _ => false, Purges.nil c.tables, ?_⟩
    simp [beside, lastMade, StoredTable.without]
  | cons p ps ih =>
    unfold remakeAll at h
    rw [List.foldlM_cons] at h
    obtain ⟨c₁, hfirst, h⟩ := bind_eq_ok_iff.mp h
    obtain ⟨distinct, first⟩ := remake_eq_ok hfirst
    obtain ⟨rest, gone, purges, last⟩ := ih h
    rw [first] at purges last
    refine ⟨List.forall_mem_cons.mpr ⟨distinct, rest⟩, _, purges.cons, ?_⟩
    rw [last, beside_append, keptTables_eq_beside, beside_beside, List.append_assoc,
      beside_append_lastMade]
    rfl

/-! ### Tables that can be made -/

/-- Whether two tables have the name can be seen from the names. -/
theorem single_iff_pairwise {tables : List StoredTable} {name : String} :
    Single tables name ↔ (tables.map (·.name)).Pairwise fun a b =>
      ¬ (sameName a name = true ∧ sameName b name = true) := by
  rw [List.pairwise_map, List.pairwise_iff_getElem]
  constructor
  · rintro single i j hi hj before ⟨first, second⟩
    have same := single i j _ _ (List.getElem?_eq_getElem hi) (List.getElem?_eq_getElem hj) first
      second
    omega
  · intro apart i j t u ht hu first second
    obtain ⟨hi, rfl⟩ := List.getElem?_eq_some_iff.mp ht
    obtain ⟨hj, rfl⟩ := List.getElem?_eq_some_iff.mp hu
    rcases Nat.lt_trichotomy i j with before | same | after
    · exact absurd ⟨first, second⟩ (apart i j hi hj before)
    · exact same
    · exact absurd ⟨second, first⟩ (apart j i hj hi after)

theorem exists_locate {name : String} (h : isTaken c.tables name = true) :
    ∃ p, c.locate name = .ok p := by
  unfold locate
  split
  · next t i _ => exact ⟨(i, t), rfl⟩
  · next missing =>
    obtain ⟨t, ht, same⟩ := List.any_eq_true.mp h
    obtain ⟨i, hi, rfl⟩ := List.getElem_of_mem ht
    have mem : (c.tables[i], i) ∈ c.tables.zipIdx := by
      rw [List.mem_zipIdx_iff_getElem?]
      exact List.getElem?_eq_getElem hi
    exact absurd same (List.find?_eq_none.mp missing (c.tables[i], i) mem)

theorem exists_remake {name : String} {columns : List StoredColumn} (single : Single c.tables name)
    (distinct : columns.Pairwise fun a b => sameName a.name b.name = false) :
    ∃ c', c.remake name columns = .ok c' := by
  unfold remake
  rw [table?_isSome_eq]
  cases taken : isTaken c.tables name with
  | false =>
    have free : ∀ t ∈ c.tables, sameName t.name name = false := by
      simpa [isTaken] using taken
    exact ⟨_, appendTable_eq_ok_iff.mpr ⟨free, distinct, rfl⟩⟩
  | true =>
    obtain ⟨⟨i, t⟩, hl⟩ := exists_locate taken
    obtain ⟨ht, same⟩ := of_locate hl
    have free : ∀ u ∈ (c.tables.eraseIdx i).map (·.withoutKeysTo name),
        sameName u.name name = false := by
      intro u hu
      obtain ⟨v, hv, rfl⟩ := List.mem_map.mp hu
      obtain ⟨j, away, hj⟩ := List.mem_eraseIdx_iff_getElem?.mp hv
      rw [Bool.eq_false_iff]
      exact fun again => away (single j i v t hj ht again same)
    have dropped := dropTable_eq_ok_iff.mpr ⟨i, t, hl, rfl⟩
    exact ⟨_, bind_eq_ok_iff.mpr
      ⟨_, dropped, appendTable_eq_ok_iff.mpr ⟨free, distinct, rfl⟩⟩⟩

theorem Single.remade {tables : List StoredTable} {name other : String}
    {columns : List StoredColumn} (single : Single tables other) :
    Single (keptTables [name] tables ++ [emptyTable name columns]) other := by
  have kept : Single (keptTables [name] tables) other := by
    refine Single.map (fun _ => rfl) ?_
    rw [single_iff_pairwise] at single ⊢
    exact single.sublist (List.filter_sublist.map _)
  rw [single_iff_pairwise] at kept ⊢
  rw [List.map_append]
  refine List.pairwise_append.mpr ⟨kept, List.pairwise_singleton _ _, fun a ha b hb => ?_⟩
  obtain ⟨t, ht, rfl⟩ := List.mem_map.mp ha
  obtain rfl : b = name := List.mem_singleton.mp hb
  rintro ⟨first, second⟩
  have apart := of_mem_keptTables ht b (List.mem_singleton.mpr rfl)
  rw [sameName_trans first (sameName_symm second)] at apart
  cases apart

theorem exists_remakeAll (single : ∀ p ∈ ps, Single c.tables p.1)
    (distinct : ∀ p ∈ ps, p.2.Pairwise fun a b => sameName a.name b.name = false) :
    ∃ c', c.remakeAll ps = .ok c' := by
  induction ps generalizing c with
  | nil => exact ⟨c, rfl⟩
  | cons p ps ih =>
    rw [List.forall_mem_cons] at single distinct
    obtain ⟨c₁, first⟩ := exists_remake single.1 distinct.1
    obtain ⟨-, tables⟩ := remake_eq_ok first
    obtain ⟨c', rest⟩ := ih (c := c₁) (fun q hq => tables ▸ (single.2 q hq).remade) distinct.2
    unfold remakeAll
    rw [List.foldlM_cons]
    exact ⟨c', bind_eq_ok_iff.mpr ⟨c₁, first, rest⟩⟩

/-! ### Keys that do not look beside -/

def behind (d : Catalog) (front : List StoredTable) (c : Catalog) : Catalog :=
  { d with tables := front ++ c.tables }

variable {d : Catalog} {front : List StoredTable}

theorem locate_behind {name : String} (apart : ∀ t ∈ front, sameName t.name name = false) :
    (behind d front c).locate name =
      (c.locate name).map fun p => (front.length + p.1, p.2) := by
  have none_ : front.zipIdx.find? (sameName ·.1.name name) = none :=
    List.find?_eq_none.mpr fun p hp => by simp [apart p.1 (List.fst_mem_of_mem_zipIdx hp)]
  unfold locate behind
  dsimp only
  rw [List.zipIdx_append, List.find?_append, none_, Option.none_or, Nat.zero_add,
    List.zipIdx_eq_map_add, List.find?_map]
  have unmoved : ((sameName ·.1.name name) ∘ fun p : StoredTable × Nat =>
      (p.1, front.length + p.2)) = (sameName ·.1.name name) := rfl
  rw [unmoved]
  cases c.tables.zipIdx.find? (sameName ·.1.name name) <;> rfl

theorem replace_behind (i : Nat) (t : StoredTable) :
    (behind d front c).replace (front.length + i) t = behind d front (c.replace i t) := by
  unfold replace behind
  rw [List.set_append_right _ _ (Nat.le_add_right _ _), Nat.add_sub_cancel_left]

theorem checkForeignKey_behind {k : StoredKey}
    (apart : ∀ t ∈ front, sameName t.name k.target = false) :
    (behind d front c).checkForeignKey k = c.checkForeignKey k := by
  unfold checkForeignKey
  rw [locate_behind apart]
  cases c.locate k.target <;> rfl

/-- A key is appended as if there were no tables in front, if it is not about one of them. -/
theorem appendKey_behind {name : String} {k : StoredKey}
    (apart : ∀ t ∈ front, sameName t.name name = false)
    (target : k.kind = .foreign → ∀ t ∈ front, sameName t.name k.target = false) :
    (behind d front c).appendKey name k = (c.appendKey name k).map (behind d front) := by
  unfold appendKey
  rw [locate_behind apart]
  cases c.locate name with
  | error e => rfl
  | ok p =>
    obtain ⟨i, t⟩ := p
    simp only [Except.map, bind, Except.bind]
    split
    · rfl
    split
    · rfl
    cases kind : k.kind with
    | primary =>
      dsimp only
      split
      · rfl
      · rw [replace_behind]
        rfl
    | foreign =>
      dsimp only
      rw [checkForeignKey_behind (target kind), replace_behind]
      cases c.checkForeignKey k <;> rfl

theorem appendKeys_behind {keys : List (String × StoredKey)}
    (apart : ∀ p ∈ keys, ∀ t ∈ front, sameName t.name p.1 = false)
    (target : ∀ p ∈ keys, p.2.kind = .foreign → ∀ t ∈ front, sameName t.name p.2.target = false) :
    (behind d front c).appendKeys keys = (c.appendKeys keys).map (behind d front) := by
  unfold appendKeys
  induction keys generalizing c with
  | nil => rfl
  | cons p keys ih =>
    rw [List.forall_mem_cons] at apart target
    rw [List.foldlM_cons, List.foldlM_cons, appendKey_behind apart.1 target.1]
    cases c.appendKey p.1 p.2 with
    | error e => rfl
    | ok c₁ => exact ih apart.2 target.2

theorem appendKeys_append (keys more : List (String × StoredKey)) :
    c.appendKeys (keys ++ more) = c.appendKeys keys >>= (·.appendKeys more) := List.foldlM_append

end Catalog

/-- The table as it is where tables of some names have been made: one of another name has no foreign
key to them. -/
def StoredTable.purged (names : List String) (t : StoredTable) : StoredTable :=
  if names.any (sameName t.name) then t else t.without fun k => names.any (k.refersTo ·)

theorem StoredTable.bare_purged (names : List String) (t : StoredTable) :
    (t.purged names).bare = t.bare.purged names := by
  unfold purged
  rw [apply_ite bare]
  rfl

/-- Does no foreign key of the tables of other names refer to one of these names while there is no
table of it? -/
def Catalog.Anchored (names : List String) (tables : List StoredTable) : Prop :=
  ∀ t ∈ tables, names.any (sameName t.name) = false → ∀ k ∈ t.keys, ∀ name ∈ names,
    k.refersTo name = true → isTaken tables name = true

namespace Schema.Placement

open Catalog

variable {s : Schema} {o : Options} {p q : s.Placement o} {c c' : Catalog}

/-- The schema and the options leave no choice. -/
theorem eq (p q : s.Placement o) : p = q := by
  have tables : p.tables = q.tables :=
    List.right_unique_forall₂' (fun t a b ha hb => Prod.ext
      (Except.ok.inj (ha.1.symm.trans hb.1)) (Except.ok.inj (ha.2.symm.trans hb.2)))
      p.tables_eq q.tables_eq
  have primaryKeys : p.primaryKeys = q.primaryKeys := by
    refine List.right_unique_forall₂' (fun t a b ha hb => ?_) p.primaryKeys_eq q.primaryKeys_eq
    have name : a.1 = b.1 := Except.ok.inj (ha.1.symm.trans hb.1)
    exact Prod.ext name (Except.ok.inj (ha.2.symm.trans (name ▸ hb.2)))
  have foreignKeys : p.foreignKeys = q.foreignKeys :=
    List.right_unique_forall₂' (fun r a b ha hb => Except.ok.inj (ha.symm.trans hb))
      p.foreignKeys_eq q.foreignKeys_eq
  cases p
  cases q
  congr

/-- A foreign key is to one of the tables. -/
theorem target_mem_names {k : String × StoredKey} (h : k ∈ p.keys) (foreign : k.2.kind = .foreign) :
    k.2.target ∈ p.names := by
  rcases List.mem_append.mp h with h | h
  · obtain ⟨t, -, -, hkey⟩ := exists_of_forall₂_right p.primaryKeys_eq h
    obtain ⟨names, -, hkey⟩ := bind_eq_ok_iff.mp hkey
    rw [← Except.ok.inj hkey] at foreign
    cases foreign
  · obtain ⟨r, hr, hkey⟩ := exists_of_forall₂_right p.foreignKeys_eq h
    obtain ⟨parent, hparent, related⟩ := (Relation.storedKey_eq_ok hkey).2.target
    have both := (List.mem_filter.mp hr).2
    rw [Bool.and_eq_true, List.contains_iff_mem, List.contains_iff_mem] at both
    obtain ⟨t, ht, name⟩ := List.mem_map.mp both.1
    rw [StoredKey.target, related, Option.getD_some]
    exact p.mem_names_iff.mpr ⟨t, ht, by rw [Table.storedName, name]; exact hparent⟩

theorem apply_eq_ok_iff_keys :
    p.apply c = .ok c' ↔ ∃ c₁, c.remakeAll p.tables = .ok c₁ ∧ c₁.appendKeys p.keys = .ok c' := by
  rw [apply_eq_ok_iff]
  simp only [keys, appendKeys_append, bind_eq_ok_iff]
  constructor
  · rintro ⟨c₁, c₂, made, primary, foreign⟩
    exact ⟨c₁, made, c₂, primary, foreign⟩
  · rintro ⟨c₁, made, c₂, primary, foreign⟩
    exact ⟨c₁, c₂, made, primary, foreign⟩

def made (p : s.Placement o) : List StoredTable := (lastMade p.tables).map (·.withKeys p.keys)

theorem of_mem_made {t : StoredTable} (h : t ∈ p.made) :
    p.names.any (sameName t.name) = true ∧ t.rows = [] := by
  obtain ⟨u, hu, rfl⟩ := List.mem_map.mp h
  obtain ⟨q, hq, rfl⟩ := mem_lastMade hu
  refine ⟨List.any_eq_true.mpr ⟨q.1, List.mem_map_of_mem hq, ?_⟩, StoredTable.withKeys_rows _ _⟩
  rw [StoredTable.withKeys_name]
  exact sameName_refl q.1

theorem isTaken_made {name : String} (h : name ∈ p.names) : isTaken p.made name = true := by
  obtain ⟨q, hq, rfl⟩ := List.mem_map.mp h
  obtain ⟨t, ht, same⟩ := List.any_eq_true.mp (isTaken_lastMade hq)
  refine List.any_eq_true.mpr ⟨_, List.mem_map_of_mem ht, ?_⟩
  rw [StoredTable.withKeys_name]
  exact same

theorem pairwise_made : (p.made.map (·.name)).Pairwise (sameName · · = false) := by
  have names : p.made.map (·.name) = (lastMade p.tables).map (·.name) := by
    rw [made, List.map_map]
    exact List.map_congr_left fun t _ => t.withKeys_name _
  rw [names]
  exact pairwise_lastMade p.tables

/-- What a placement leads to, whether names are repeated or not. -/
theorem apply_beside (h : p.apply c = .ok c') :
    ∃ gone, Purges p.names c.tables gone ∧ c'.tables = beside p.names gone c.tables ++ p.made := by
  obtain ⟨c₁, htables, hkeys⟩ := apply_eq_ok_iff_keys.mp h
  obtain ⟨-, gone, purges, remade⟩ := remakeAll_tables htables
  refine ⟨gone, purges, ?_⟩
  have free : ∀ k ∈ p.keys, ∀ t ∈ beside p.names gone c.tables, sameName t.name k.1 = false :=
    fun k hk t ht => of_mem_beside ht k.1 (p.mem_names_of_mem_keys hk)
  have single : ∀ k ∈ p.keys, Single c₁.tables k.1 := by
    intro k hk
    rw [remade]
    exact single_append (free k hk) (pairwise_lastMade p.tables)
  rw [appendKeys_eq_ok hkeys single, remade, List.map_append]
  congr 1
  refine (List.map_congr_left fun t ht => ?_).trans (List.map_id _)
  exact StoredTable.withKeys_eq_self fun k hk => free k hk t ht

/-- Where a placement has been applied once, it can be applied to any catalog in which no two tables
have one of its names. -/
theorem exists_apply (h : p.apply c = .ok c') {e : Catalog}
    (single : ∀ name ∈ p.names, Single e.tables name) : ∃ e', p.apply e = .ok e' := by
  obtain ⟨c₁, htables, hkeys⟩ := apply_eq_ok_iff_keys.mp h
  obtain ⟨distinct, gone, -, remade⟩ := remakeAll_tables htables
  obtain ⟨e₁, again⟩ := exists_remakeAll
    (fun q hq => single q.1 (List.mem_map_of_mem hq)) distinct
  obtain ⟨-, gone', -, remade'⟩ := remakeAll_tables again
  -- Keys are appended to the tables made, whatever stands in front of them.
  let base : Catalog := { c with tables := lastMade p.tables }
  have apart (gone : StoredKey → Bool) (tables : List StoredTable) :
      ∀ k ∈ p.keys, ∀ t ∈ beside p.names gone tables, sameName t.name k.1 = false :=
    fun k hk t ht => of_mem_beside ht k.1 (p.mem_names_of_mem_keys hk)
  have target (gone : StoredKey → Bool) (tables : List StoredTable) :
      ∀ k ∈ p.keys, k.2.kind = .foreign → ∀ t ∈ beside p.names gone tables,
        sameName t.name k.2.target = false :=
    fun k hk foreign t ht => of_mem_beside ht k.2.target (target_mem_names hk foreign)
  have first : c₁ = behind c₁ (beside p.names gone c.tables) base := by
    change c₁.tables = beside p.names gone c.tables ++ base.tables at remade
    rw [behind, ← remade]
  have second : e₁ = behind e₁ (beside p.names gone' e.tables) base := by
    change e₁.tables = beside p.names gone' e.tables ++ base.tables at remade'
    rw [behind, ← remade']
  rw [first, appendKeys_behind (apart _ _) (target _ _)] at hkeys
  cases keyed : base.appendKeys p.keys with
  | error f =>
    rw [keyed] at hkeys
    cases hkeys
  | ok b =>
    refine ⟨behind e₁ (beside p.names gone' e.tables) b, apply_eq_ok_iff_keys.mpr ⟨e₁, again, ?_⟩⟩
    rw [second, appendKeys_behind (apart _ _) (target _ _), keyed]
    rfl

theorem rows_of_apply (h : p.apply c = .ok c') {t : StoredTable} (ht : t ∈ c'.tables)
    (named : p.names.any (sameName t.name) = true) : t.rows = [] := by
  obtain ⟨gone, -, tables⟩ := apply_beside h
  rw [tables] at ht
  rcases List.mem_append.mp ht with ht | ht
  · obtain ⟨name, hname, same⟩ := List.any_eq_true.mp named
    rw [of_mem_beside ht name hname] at same
    cases same
  · exact (of_mem_made ht).2

/-! ### The second time -/

theorem map_purged_made : p.made.map (·.purged p.names) = p.made :=
  (List.map_congr_left fun _ ht => if_pos (of_mem_made ht).1).trans (List.map_id _)

theorem map_purged_beside (gone : StoredKey → Bool) (tables : List StoredTable) :
    (beside p.names gone tables).map (·.purged p.names) =
      beside p.names (fun k => p.names.any (k.refersTo ·)) (beside p.names gone tables) := by
  have others : ∀ t ∈ beside p.names gone tables, p.names.any (sameName t.name) = false :=
    fun t ht => List.any_eq_false.mpr fun name hname => by
      simpa using of_mem_beside ht name hname
  rw [beside.eq_def p.names (fun k => p.names.any (k.refersTo ·)),
    List.filter_eq_self.mpr fun t ht => by rw [others t ht]; rfl]
  refine List.map_congr_left fun t ht => ?_
  rw [StoredTable.purged, others t ht, if_neg Bool.false_ne_true]

/-- Nothing more can go if every key to a table was looked for the first time. -/
theorem map_purged_of_anchored (h : p.apply c = .ok c') (anchored : Anchored p.names c.tables) :
    c'.tables.map (·.purged p.names) = c'.tables := by
  obtain ⟨gone, purges, tables⟩ := apply_beside h
  have kept : (beside p.names gone c.tables).map (·.purged p.names) =
      beside p.names gone c.tables := by
    refine (List.map_congr_left fun t ht => ?_).trans (List.map_id _)
    obtain ⟨u, hu, rfl⟩ := List.mem_map.mp ht
    obtain ⟨hu, other⟩ := List.mem_filter.mp hu
    rw [Bool.not_eq_true'] at other
    rw [StoredTable.purged, StoredTable.without_name, other, if_neg Bool.false_ne_true]
    refine StoredTable.without_eq_self fun k hk => ?_
    obtain ⟨hk, stays⟩ := List.mem_filter.mp hk
    rw [List.any_eq_false]
    intro name hname refers
    rw [purges.all k name hname refers (anchored u hu other k hk name hname refers)] at stays
    cases stays
  rw [tables, List.map_append, map_purged_made, kept]

/-- Rows apart, a placement applied once more changes nothing but foreign keys to its tables. -/
theorem apply_again (h : p.apply c = .ok c') {e : Catalog}
    (frames : List.Forall₂ StoredTable.SameFrame c'.tables e.tables) :
    ∃ e', p.apply e = .ok e' ∧
      List.Forall₂ StoredTable.SameFrame (c'.tables.map (·.purged p.names)) e'.tables := by
  obtain ⟨gone, -, tables⟩ := apply_beside h
  have names : e.tables.map (·.name) = c'.tables.map (·.name) := map_name_of_sameFrame frames
  have single : ∀ name ∈ p.names, Single e.tables name := by
    intro name hname
    have before : Single c'.tables name := by
      rw [tables]
      exact single_append (fun t ht => of_mem_beside ht name hname) pairwise_made
    rw [single_iff_pairwise] at before ⊢
    rwa [names]
  have taken : ∀ name ∈ p.names, isTaken e.tables name = true := by
    intro name hname
    obtain ⟨t, ht, same⟩ := List.any_eq_true.mp (isTaken_made hname)
    have mem : t ∈ c'.tables := by
      rw [tables]
      exact List.mem_append_right _ ht
    obtain ⟨u, hu, htu⟩ := exists_of_forall₂_left frames mem
    exact List.any_eq_true.mpr ⟨u, hu, by rwa [htu.name]⟩
  obtain ⟨e', again⟩ := exists_apply h single
  obtain ⟨gone', purges, tables'⟩ := apply_beside again
  refine ⟨e', again, ?_⟩
  have kept := forall₂_beside p.names (fun k => p.names.any (k.refersTo ·)) frames
  rw [tables, beside_append, beside_eq_nil fun t ht => (of_mem_made ht).1, List.append_nil,
    ← map_purged_beside] at kept
  rw [tables', purges.eq_any taken, tables, List.map_append, map_purged_made]
  exact List.rel_append kept (List.forall₂_same.mpr fun t _ => rfl)

end Schema.Placement

end Tabular
