import Tabular.Proofs.Integrity

/-!
Catalogs that come back from their documents. Rows still have their values and refer to the rows
that they referred to; the values of a primary key stay apart in two rows if numbers do.
-/
namespace Tabular

theorem mapM_eq_some_iff {α β : Type} {f : α → Option β} {xs : List α} {ys : List β} :
    xs.mapM f = some ys ↔ List.Forall₂ (fun x y => f x = some y) xs ys := by
  induction xs generalizing ys with
  | nil => cases ys <;> simp
  | cons x xs ih =>
    rw [List.mapM_cons]
    constructor
    · intro h
      obtain ⟨y, hy, h⟩ := Option.bind_eq_some_iff.mp h
      obtain ⟨zs, hzs, h⟩ := Option.bind_eq_some_iff.mp h
      obtain rfl : y :: zs = ys := Option.some.inj h
      exact .cons hy (ih.mp hzs)
    · rintro (_ | ⟨hy, hys⟩)
      exact Option.bind_eq_some_iff.mpr ⟨_, hy, Option.bind_eq_some_iff.mpr ⟨_, ih.mpr hys, rfl⟩⟩

namespace StoredTable

structure ComesBackAs (t u : StoredTable) : Prop where
  frame : t.SameFrame u
  rows : List.Forall₂ (fun r q => r.reread? = some q) t.rows u.rows

theorem comesBackAs_of_reread? {t u : StoredTable} (h : t.reread? = some u) : t.ComesBackAs u := by
  obtain ⟨rows, hrows, h⟩ := Option.bind_eq_some_iff.mp h
  obtain rfl := Option.some.inj h
  exact ⟨rfl, mapM_eq_some_iff.mp hrows⟩

variable {P : Number → Prop} {t u : StoredTable}

theorem Sound.comesBack (closed : Number.Closed P) (sound : t.Sound P) (h : t.ComesBackAs u) :
    u.Sound P := by
  refine sound.reframe h.frame (fun q hq => ?_) fun q hq column hcolumn takesNone => ?_
  · obtain ⟨r, hr, hrq⟩ := exists_of_forall₂_right h.rows hq
    exact (sound.within r hr).reread? closed hrq
  · obtain ⟨r, hr, hrq⟩ := exists_of_forall₂_right h.rows hq
    rw [Json.isNull_reread? (Row.reread?_value (sound.within r hr) hrq column.name)]
    exact sound.valued r hr column hcolumn takesNone

end StoredTable

namespace Catalog

open StoredTable (ComesBackAs)

variable {P : Number → Prop} {c c' : Catalog}

theorem comesBack_of_reread? (h : c.reread? = some c') :
    ∃ tables, List.Forall₂ ComesBackAs c.tables tables ∧ { c with tables } = c' := by
  obtain ⟨tables, htables, h⟩ := Option.bind_eq_some_iff.mp h
  exact ⟨tables, (mapM_eq_some_iff.mp htables).imp fun t u => StoredTable.comesBackAs_of_reread?,
    Option.some.inj h⟩

theorem isFull_of_reread? {r q : Row} {columns : List String} (hr : r.Within P)
    (h : r.reread? = some q) (full : q.IsFull columns) : r.IsFull columns := by
  intro column hcolumn
  rw [← Json.isNull_reread? (Row.reread?_value hr h column)]
  exact full column hcolumn

def Durable (G : Catalog → Prop) : Prop := ∀ c c', G c → c.reread? = some c' → G c'

/-- Nothing that a document is read as opens a reference or leaves a value out. -/
theorem Sound.reread? (closed : Number.Closed P) (sound : c.Sound P) (h : c.reread? = some c') :
    c'.Sound P := by
  obtain ⟨tables, back, rfl⟩ := comesBack_of_reread? h
  refine sound.reframe (back.imp fun t u htu => htu.frame) (fun u hu => ?_) ?_
  · obtain ⟨t, ht, htu⟩ := exists_of_forall₂_right back hu
    exact (sound.tables t ht).comesBack closed htu
  · intro u hu k hk r' hr' full
    obtain ⟨t, ht, htu⟩ := exists_of_forall₂_right back hu
    rw [htu.frame.foreignKeys] at hk
    obtain ⟨r, hr, hrr⟩ := exists_of_forall₂_right htu.rows hr'
    have within := (sound.tables t ht).within r hr
    obtain ⟨v, hv, target, held⟩ :=
      sound.referring t ht k hk r hr (isFull_of_reread? within hrr full)
    obtain ⟨q, hq, agree⟩ := StoredTable.holds_iff.mp held
    obtain ⟨w, hw, hvw⟩ := exists_of_forall₂_left back hv
    obtain ⟨q', hq', hqq⟩ := exists_of_forall₂_left hvw.rows hq
    refine ⟨w, hw, by rwa [hvw.frame.name], StoredTable.holds_iff.mpr ⟨q', hq', ?_⟩⟩
    exact Row.agreeing_of_reread? ((sound.tables v hv).within q hq) within hqq hrr agree

/-- Primary keys stay distinct if no two numbers are read as one. -/
theorem KeysDistinct.reread? (apart : Number.KeptApart P) (sound : c.Sound P)
    (distinct : c.KeysDistinct) (h : c.reread? = some c') : c'.KeysDistinct := by
  obtain ⟨tables, back, rfl⟩ := comesBack_of_reread? h
  intro u hu k hk
  obtain ⟨t, ht, htu⟩ := exists_of_forall₂_right back hu
  rw [htu.frame.primaryKey?] at hk
  have within := (sound.tables t ht).within
  have old := distinct t ht k hk
  have rows := htu.rows
  generalize t.rows = rs at within old rows
  generalize u.rows = qs at rows
  induction rows with
  | nil => exact .nil
  | @cons r r' rs rs' hr hrs ih =>
    rw [List.forall_mem_cons] at within
    rw [List.pairwise_cons] at old
    refine .cons (fun q' hq' => ?_) (ih within.2 old.2)
    obtain ⟨q, hq, hqq⟩ := exists_of_forall₂_right hrs hq'
    rw [Bool.eq_false_iff]
    intro agree
    have := Row.agreeing_of_keptApart apart within.1 (within.2 q hq) hr hqq agree
    rw [old.1 q hq] at this
    cases this

end Catalog

end Tabular
