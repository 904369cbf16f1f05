import Tabular.Proofs.Acceptance
import Tabular.Proofs.Aftermath
import Tabular.Proofs.Cascade

/-!
Rows that lose the row that they refer to. A deletion follows the foreign keys that cascade, through
any number of tables and however they run in circles, and looks at no others: so a row that refers
by a key that cascades goes with the row that it refers to, and any other row stays, and may be left
referring to none.
-/
namespace Tabular

def StoredKey.Cascades (k : StoredKey) : Prop :=
  k.deleteRule = .cascade ∧ k.relatedTable = some k.target

namespace Catalog

variable {tables : List StoredTable} {gone : Finset Occurrence} {x y : Occurrence}
  {i : Nat} {t u : StoredTable} {r q : Row} {k : StoredKey} {criteria : Criteria}

/-- Has every row, by every foreign key of a kind that has no null in the row, a row that it refers
to? -/
def Referring (K : StoredKey → Prop) (tables : List StoredTable) : Prop :=
  ∀ u ∈ tables, ∀ k ∈ u.foreignKeys, K k → ∀ r ∈ u.rows, r.IsFull k.columns → Referred tables k r

instance {K : StoredKey → Prop} [DecidablePred K] : Decidable (Referring K tables) :=
  inferInstanceAs (Decidable (∀ u ∈ tables, ∀ k ∈ u.foreignKeys, K k → ∀ r ∈ u.rows,
    r.IsFull k.columns → Referred tables k r))

def IsTarget (tables : List StoredTable) (k : StoredKey) (r : Row) (x : Occurrence) : Prop :=
  ∃ t q, IsAt tables x t q ∧ sameName t.name k.target = true ∧
    agreeing (q.project k.relatedColumns) (r.project k.columns) = true

/-- Does a row stay whose key has no null in it, while every row that it refers to by the key
goes? -/
def Strands (tables : List StoredTable) (gone : Finset Occurrence) (y : Occurrence)
    (k : StoredKey) : Prop :=
  y ∉ gone ∧ ∃ u r, IsAt tables y u r ∧ k ∈ u.foreignKeys ∧ r.IsFull k.columns ∧
    ∀ x, IsTarget tables k r x → x ∈ gone

/-! ### What remains -/

theorem mem_rows_survivors :
    r ∈ (survivors gone i t).rows ↔ ∃ n, t.rows[n]? = some r ∧ (i, n) ∉ gone := by
  unfold survivors
  simp only [List.mem_map, List.mem_filter, Prod.exists, List.mem_zipIdx_iff_getElem?,
    decide_eq_true_eq]
  constructor
  · rintro ⟨_, n, ⟨at_, left⟩, rfl⟩
    exact ⟨n, at_, left⟩
  · rintro ⟨n, at_, left⟩
    exact ⟨r, n, ⟨at_, left⟩, rfl⟩

theorem mem_remaining : u ∈ remaining tables gone ↔ ∃ i t, tables[i]? = some t ∧
    survivors gone i t = u := by
  rw [List.mem_iff_getElem?]
  constructor
  · rintro ⟨i, hi⟩
    rw [getElem?_remaining, Option.map_eq_some_iff] at hi
    exact ⟨i, hi⟩
  · rintro ⟨i, t, ht, rfl⟩
    exact ⟨i, by rw [getElem?_remaining, ht, Option.map_some]⟩

/-- A row refers to one that remains if one of those that it refers to has not gone. -/
theorem referred_remaining_iff :
    Referred (remaining tables gone) k r ↔ ∃ x, IsTarget tables k r x ∧ x ∉ gone := by
  constructor
  · rintro ⟨u, hu, target, held⟩
    obtain ⟨i, t, ht, rfl⟩ := mem_remaining.mp hu
    obtain ⟨q, hq, agree⟩ := StoredTable.holds_iff.mp held
    obtain ⟨n, at_, left⟩ := mem_rows_survivors.mp hq
    exact ⟨(i, n), ⟨t, q, ⟨ht, at_⟩, target, agree⟩, left⟩
  · rintro ⟨⟨i, n⟩, ⟨t, q, at_, target, agree⟩, left⟩
    refine ⟨survivors gone i t, mem_remaining.mpr ⟨i, t, at_.table, rfl⟩, target, ?_⟩
    exact StoredTable.holds_iff.mpr ⟨q, mem_rows_survivors.mpr ⟨n, at_.row, left⟩, agree⟩

/-- Every reference of a kind is kept exactly if no row is stranded by a key of the kind. -/
theorem referring_remaining_iff {K : StoredKey → Prop} :
    Referring K (remaining tables gone) ↔ ∀ y k, K k → ¬ Strands tables gone y k := by
  constructor
  · rintro referring ⟨i, n⟩ k kind ⟨stays, u, r, at_, hk, full, lost⟩
    have hr : r ∈ (survivors gone i u).rows := mem_rows_survivors.mpr ⟨n, at_.row, stays⟩
    have hu : survivors gone i u ∈ remaining tables gone :=
      mem_remaining.mpr ⟨i, u, at_.table, rfl⟩
    obtain ⟨x, target, left⟩ := referred_remaining_iff.mp (referring _ hu k hk kind r hr full)
    exact left (lost x target)
  · intro none_ u hu k hk kind r hr full
    obtain ⟨i, t, ht, rfl⟩ := mem_remaining.mp hu
    obtain ⟨n, at_, stays⟩ := mem_rows_survivors.mp hr
    rw [referred_remaining_iff]
    by_contra lost
    refine none_ (i, n) k kind ⟨stays, t, r, ⟨ht, at_⟩, hk, full, fun x target => ?_⟩
    by_contra left
    exact lost ⟨x, target, left⟩

/-! ### Keys that cascade -/

/-- A row that refers by a key that cascades depends on each row that it refers to. -/
theorem dependsOn_of_isTarget (hy : IsAt tables y u r) (hk : k ∈ u.foreignKeys)
    (cascades : k.Cascades) (full : r.IsFull k.columns) (target : IsTarget tables k r x) :
    DependsOn tables y x := by
  obtain ⟨t, q, hx, named, agree⟩ := target
  refine ⟨t, q, u, r, hx, hy, k, hk, cascades.1, ?_, fun p hp => ?_⟩
  · rw [StoredKey.refersTo, isForeign_of_mem hk, cascades.2]
    exact sameName_symm named
  · exact Row.meets_iff.mp (meets_dependents full agree) (p.1, q.value p.2)
      (mem_dependents_iff.mpr ⟨p, hp, rfl⟩)

/-- No deletion strands a row by a key that cascades. -/
theorem not_cascades_of_strands {K : StoredKey → Prop} (referring : Referring K tables)
    (closed : ClosedUnderDeletion tables i criteria ↑gone) (kind : K k)
    (strands : Strands tables gone y k) : ¬ k.Cascades := by
  obtain ⟨stays, u, r, hy, hk, full, lost⟩ := strands
  intro cascades
  have referred : Referred (remaining tables ∅) k r := by
    rw [remaining_empty]
    exact referring u (List.mem_of_getElem? hy.table) k hk kind r (List.mem_of_getElem? hy.row) full
  obtain ⟨x, target, -⟩ := referred_remaining_iff.mp referred
  exact stays (closed.dependent x (lost x target) y
    (dependsOn_of_isTarget hy hk cascades full target))

end Catalog

/-! ### Calls -/

namespace CatalogHandle

open Catalog

variable {h g : CatalogHandle} {s u : Store} {lock table : String} {given : Criteria}
  {written : Catalog}

/-- A deletion from a catalog in which every row has the row that it refers to, by every key of some
kind and whatever the delete rules. If it succeeds, keys that cascade strand no row, and every row
has the row that it refers to again exactly if no key does. If it fails the document has every row,
and so has the handle, unless it was a step on files that failed. -/
theorem deleteRows_strands (own : HasOwnDraft h.path) (holds : s.Holds h.path written)
    {K : StoredKey → Prop} (referring : Referring K h.catalog.tables) {o : Except Fault Nat}
    (ended : Store.Ends lock (h.deleteRows table given) s (o, g) u) :
    (∃ f, o = .error f ∧ u.Holds h.path written ∧
        ((∀ e : FileError, f ≠ e.fault) → g = h ∧ u = s)) ∨
      ∃ gone : Finset Occurrence, o = .ok gone.card ∧
        g = { h with catalog.tables := remaining h.catalog.tables gone } ∧
        u.Holds h.path g.catalog ∧
        (∀ y k, K k → Strands h.catalog.tables gone y k → ¬ k.Cascades) ∧
        (Referring K g.catalog.tables ↔ ∀ y k, K k → ¬ Strands h.catalog.tables gone y k) := by
  rcases ends_deleteRows ended with ⟨e, -, rfl, rfl, rfl⟩ | ⟨n, c, w, deleted, commits, rfl⟩
  · exact .inl ⟨_, rfl, holds, fun _ => ⟨rfl, rfl⟩⟩
  cases w with
  | error f =>
    refine .inl ⟨f, rfl, commits.document_error own holds, fun sound => ?_⟩
    cases commits with
    | unsaved e changes => exact absurd rfl (sound e)
  | ok v =>
    have document := commits.document_ok
    cases commits with
    | saved _ changes =>
      obtain ⟨⟨i, t⟩, located, rest⟩ := bind_eq_ok_iff.mp deleted
      obtain ⟨criteria, coerced, -⟩ := bind_eq_ok_iff.mp rest
      obtain ⟨gone, least, -, result⟩ := deleteRows_eq_remaining located coerced
      obtain ⟨rfl, rfl⟩ := Prod.mk.inj (Except.ok.inj (deleted.symm.trans result))
      exact .inr ⟨gone, rfl, rfl, document,
        fun y k kind strands => not_cascades_of_strands referring least.1 kind strands,
        referring_remaining_iff⟩

/-- A table of numbers, and two that refer to it: one by a key that does not cascade, and one by a
key that does. -/
def mixed (ps cs ds : List Int) : CatalogHandle :=
  let column (name : String) : StoredColumn := ⟨name, ⟨.integer, 4, false⟩⟩
  let rows (name : String) (ns : List Int) : List Row := ns.map fun n => [(name, .int n)]
  let kept : StoredKey := { StoredKey.foreign "f" ["b"] "p" ["a"] with deleteRule := .nothing }
  ⟨"s.jet.json", ⟨"s", .epoch,
    [⟨"p", [column "a"], [.primary "p" ["a"]], rows "a" ps⟩,
      ⟨"c", [column "b"], [kept], rows "b" cs⟩,
      ⟨"d", [column "e"], [.foreign "g" ["e"] "p" ["a"]], rows "e" ds⟩]⟩⟩

/-- The row that a row refers to by a key that cascades goes, and takes that row along. -/
theorem deleteRows_strands_mixed :
    let h := mixed [1, 2] [1] [2]
    HasOwnDraft h.path ∧ ∃ s : Store, s.Holds h.path h.catalog ∧
      Referring (fun _ => True) h.catalog.tables ∧ ∃ o g u,
        Store.Ends "s.jet.lock" (h.deleteRows "p" [("a", .int 2)]) s (o, g) u ∧
        o.toOption = some 2 ∧ g = mixed [1] [1] [] ∧ Referring (fun _ => True) g.catalog.tables ∧
        ∃ gone : Finset Occurrence, gone.card = 2 ∧ ∀ y k, ¬ Strands h.catalog.tables gone y k := by
  intro h
  have own : HasOwnDraft h.path := by decide
  have referring : Referring (fun _ => True) h.catalog.tables := by decide +kernel
  have again : Referring (fun _ => True) (mixed [1] [1] []).catalog.tables := by decide +kernel
  have result : h.catalog.deleteRows "p" [("a", .int 2)] =
      .ok (2, (mixed [1] [1] []).catalog) := by
    cbv
  obtain ⟨s, read, saved⟩ : ∃ s : Store, (s.read h.path).toOption = some h.catalog.toText ∧
      (s.run (h.commit (.ok (mixed [1] [1] []).catalog))).1.1.toOption = some () :=
    ⟨(Store.empty.run h.save).2, by decide +kernel⟩
  have holds : s.Holds h.path h.catalog := ⟨_, eq_ok_of_toOption read, .inl rfl⟩
  obtain ⟨g, u, shown, ended⟩ : ∃ g u, g = mixed [1] [1] [] ∧
      Store.Ends "s.jet.lock" (h.deleteRows "p" [("a", .int 2)]) s (.ok 2, g) u := by
    have ended := Store.ends_run "s.jet.lock" (h.deleteRows "p" [("a", .int 2)]) s
    rw [run_deleteRows s result] at ended
    dsimp only at ended
    rw [eq_ok_of_toOption saved] at ended
    exact ⟨_, _, snd_run_commit s h _, ended⟩
  refine ⟨own, s, holds, referring, .ok 2, g, u, ended, rfl, shown, shown ▸ again, ?_⟩
  rcases deleteRows_strands own holds referring ended with ⟨f, failed, -⟩ |
    ⟨gone, count, -, -, -, kept⟩
  · cases failed
  · refine ⟨gone, (Except.ok.inj count).symm, fun y k => ?_⟩
    exact kept.mp (shown ▸ again) y k trivial

/-- The row that a row refers to by a key that does not cascade goes, and that row stays. -/
theorem deleteRows_orphans_row :
    let h := mixed [1, 2] [1] [2]
    let r := Store.empty.run (h.deleteRows "p" [("a", .int 1)])
    Referring (fun _ => True) h.catalog.tables ∧ r.1.1.toOption = some 1 ∧
      r.1.2 = mixed [2] [1] [2] ∧
      ¬ Referring (fun _ => True) (mixed [2] [1] [2]).catalog.tables := by
  intro h r
  have result : h.catalog.deleteRows "p" [("a", .int 1)] =
      .ok (1, (mixed [2] [1] [2]).catalog) := by
    cbv
  have run : r = _ := run_deleteRows Store.empty result
  refine ⟨by decide +kernel, ?_, ?_, by decide +kernel⟩
  · rw [run]
    decide +kernel
  · rw [run]
    dsimp only
    rw [snd_run_commit]
    rfl

end CatalogHandle

end Tabular
