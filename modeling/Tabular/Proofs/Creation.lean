import Tabular.Proofs.CatalogNames
import Tabular.Proofs.Materialisation
import Tabular.Proofs.Upkeep

/-!
The session that fills a catalog, whether it succeeds or fails midway. The tables that it has made
so far have no rows and small column names, so every key comes to a table without rows and names the
columns as they are stored.
-/
namespace Tabular

namespace CatalogSession

variable {α β : Type} {G I E F : Catalog → Prop} {J : α → Catalog → Prop} {K : β → Catalog → Prop}

/-- Where a session leads from catalogs with one property: to another if it succeeds, to a third if
it fails. Documents have a property all along. -/
def Leads (G I : Catalog → Prop) (m : CatalogSession α) (J : α → Catalog → Prop)
    (E : Catalog → Prop) : Prop :=
  ∀ h : CatalogHandle, I h.catalog → Upholds G (m.run.run h) fun p =>
    Sure (J · p.2.catalog) p.1 ∧ (p.1.isOk = false → E p.2.catalog)

namespace Leads

theorem ofExcept {r : Except Fault α} (ok : ∀ a c, r = .ok a → I c → J a c)
    (error : ∀ c, I c → E c) : Leads G I (ofExcept r) J E := by
  intro h hi
  exact Upholds.pure ⟨fun a ha => ok a h.catalog ha hi, fun _ => error h.catalog hi⟩

theorem pure {a : α} (ok : ∀ c, I c → J a c) : Leads G I (Pure.pure a) J E := by
  intro h hi
  exact Upholds.pure ⟨fun b hb => Except.ok.inj hb ▸ ok h.catalog hi, fun f => by cases f⟩

theorem throw {f : Fault} (error : ∀ c, I c → E c) :
    Leads G I (throw f : CatalogSession α) J E := by
  intro h hi
  exact Upholds.pure ⟨fun b hb => (by cases hb), fun _ => error h.catalog hi⟩

theorem get : Leads G I get (fun h c => I c ∧ h.catalog = c) E := by
  intro h hi
  exact Upholds.pure ⟨fun g hg => Except.ok.inj hg ▸ ⟨hi, rfl⟩, fun f => by cases f⟩

theorem commit (durable : Catalog.Durable G) {r : Catalog → Except Refusal Catalog}
    {J : Catalog → Prop} (kept : ∀ c, I c → E c)
    (changed : ∀ c c', I c → r c = .ok c' → G c' ∧ J c' ∧ E c') :
    Leads G I (ofStep fun h => h.commit (r h.catalog)) (fun _ => J) E := by
  intro h hi
  refine (CatalogHandle.upholds_commit durable (kept _ hi) fun c' => changed _ c' hi).imp ?_
  rintro p ⟨before, after⟩
  exact ⟨after, fun _ => before⟩

section

variable (durable : Catalog.Durable G) {J : Catalog → Prop} {name : String}

include durable

theorem appendTable {columns : List StoredColumn} (kept : ∀ c, I c → E c)
    (changed : ∀ c c', I c → c.appendTable name columns = .ok c' → G c' ∧ J c' ∧ E c') :
    Leads G I (ofStep (·.appendTable name columns)) (fun _ => J) E :=
  @commit G I E durable (·.appendTable name columns) J kept changed

theorem dropTable (kept : ∀ c, I c → E c)
    (changed : ∀ c c', I c → c.dropTable name = .ok c' → G c' ∧ J c' ∧ E c') :
    Leads G I (ofStep (·.dropTable name)) (fun _ => J) E :=
  @commit G I E durable (·.dropTable name) J kept changed

theorem appendKey {k : StoredKey} (kept : ∀ c, I c → E c)
    (changed : ∀ c c', I c → c.appendKey name k = .ok c' → G c' ∧ J c' ∧ E c') :
    Leads G I (ofStep (·.appendKey name k)) (fun _ => J) E :=
  @commit G I E durable (·.appendKey name k) J kept changed

end

theorem bind {m : CatalogSession α} {k : α → CatalogSession β} (hm : Leads G I m J E)
    (hk : ∀ a, Leads G (J a) (k a) K E) : Leads G I (m >>= k) K E := by
  intro h hi
  change Upholds G (m.run.run h >>= fun p => (ExceptT.bindCont k p.1).run p.2) _
  refine (hm h hi).bind fun p hp => ?_
  obtain ⟨r, h'⟩ := p
  cases r with
  | ok a => exact hk a h' (hp.1 a rfl)
  | error f => exact Upholds.pure ⟨fun b hb => (by cases hb), fun _ => hp.2 rfl⟩

theorem tryCatch {m : CatalogSession α} {handler : Fault → CatalogSession α}
    (hm : Leads G I m J F) (hh : ∀ f, Leads G F (handler f) J E) :
    Leads G I (tryCatch m handler) J E := by
  intro h hi
  change Upholds G (m.run.run h >>= fun p =>
    (MonadExcept.tryCatch (ExceptT.mk (Pure.pure p.1)) handler : CatalogSession α).run.run p.2) _
  refine (hm h hi).bind fun p hp => ?_
  obtain ⟨r, h'⟩ := p
  cases r with
  | ok a => exact Upholds.pure ⟨hp.1, fun f => by cases f⟩
  | error f => exact hh f h' (hp.2 rfl)

theorem imp {J' : α → Catalog → Prop} {m : CatalogSession α} (hm : Leads G I m J E)
    (ok : ∀ a c, J a c → J' a c) (error : ∀ c, E c → F c) : Leads G I m J' F := by
  intro h hi
  refine (hm h hi).imp fun p hp => ?_
  exact ⟨fun a ha => ok a _ (hp.1 a ha), fun f => error _ (hp.2 f)⟩

theorem mono {I' : Catalog → Prop} {m : CatalogSession α} (hm : Leads G I m J E)
    (h : ∀ c, I' c → I c) : Leads G I' m J E := fun g hg => hm g (h _ hg)

/-- A session over all elements, with a property that tells which elements have been appended. -/
theorem appendEach {kind : CommandKind} {append : α → CatalogSession (Option Fault)}
    {I : List α → Catalog → Prop} {xs : List α}
    (each : ∀ x ∈ xs, ∀ done, Leads G (I done) (append x)
      (fun r c => if r.isNone then I (done ++ [x]) c else I done c) E)
    (report : Report) (done : List α) :
    Leads G (I done) (appendEach kind append report xs) (fun p c => I (done ++ p.1) c) E := by
  induction xs generalizing report done with
  | nil =>
    refine pure fun c hc => ?_
    rwa [List.append_nil]
  | cons x xs ih =>
    rw [appendEach_cons]
    have tail := ih fun y hy => each y (List.mem_cons_of_mem x hy)
    refine (each x (by simp) done).bind fun r => ?_
    cases r with
    | none =>
      refine (tail _ (done ++ [x])).bind fun p => pure fun c hc => ?_
      rwa [List.append_assoc] at hc
    | some f => exact (tail _ done).bind fun p => pure fun c hc => hc

theorem forM {act : α → CatalogSession Unit} {xs : List α}
    (each : ∀ x ∈ xs, Leads G I (act x) (fun _ => I) E) :
    Leads G I (xs.forM act) (fun _ => I) E := by
  induction xs with
  | nil => exact pure fun c hc => hc
  | cons x xs ih =>
    exact (each x (by simp)).bind fun _ => ih fun y hy => each y (List.mem_cons_of_mem x hy)

end Leads

end CatalogSession

/-! ### Tables that a session has made -/

structure StoredTable.IsFresh (t : StoredTable) : Prop where
  rows : t.rows = []
  small : ∀ column ∈ t.columns, IsSmall column.name

theorem StoredTable.IsFresh.withKey {t : StoredTable} (fresh : t.IsFresh) (k : StoredKey) :
    (t.withKey k).IsFresh := by
  refine ⟨by rw [withKey_rows, fresh.rows], fun column hcolumn => ?_⟩
  unfold StoredTable.withKey at hcolumn
  split at hcolumn
  · obtain ⟨old, hold, rfl⟩ := List.mem_map.mp hcolumn
    have := fresh.small old hold
    split
    · exact this
    · exact this
  · exact fresh.small column hcolumn

theorem eq_of_all_sameName {as bs : List String} (length : as.length = bs.length)
    (same : (as.zip bs).all (fun p => sameName p.1 p.2) = true) (ha : ∀ a ∈ as, IsSmall a)
    (hb : ∀ b ∈ bs, IsSmall b) : as = bs := by
  induction as generalizing bs with
  | nil => exact (List.length_eq_zero_iff.mp length.symm).symm
  | cons a as ih =>
    cases bs with
    | nil => cases length
    | cons b bs =>
      rw [List.zip_cons_cons, List.all_cons, Bool.and_eq_true] at same
      rw [List.forall_mem_cons] at ha hb
      rw [ha.1.eq_of_sameName hb.1 same.1, ih (Nat.succ.inj length) same.2 ha.2 hb.2]

theorem isSmall_catalogNames {names stored : List String} (h : catalogNames names = .ok stored) :
    ∀ name ∈ stored, IsSmall name := by
  intro name hname
  obtain ⟨given, -, hgiven⟩ := exists_of_mem_results h hname
  exact isSmall_catalogName hgiven

theorem isSmall_storedColumns {t : Table} {columns : List StoredColumn}
    (h : t.storedColumns = .ok columns) : ∀ column ∈ columns, IsSmall column.name := by
  intro column hcolumn
  obtain ⟨c, -, hc⟩ := exists_of_forall₂_right (storedAs_of_storedColumns h) hcolumn
  exact isSmall_catalogName hc.name

namespace Catalog

/-- An intact catalog in which the tables made for some tables of a schema are fresh. -/
structure Ready (P : Number → Prop) (o : Options) (created : List Table) (c : Catalog) : Prop where
  intact : c.Intact P
  fresh : ∀ t ∈ created, ∀ name, t.storedName o = .ok name → ∀ u ∈ c.tables,
    sameName u.name name = true → u.IsFresh

namespace Ready

variable {P : Number → Prop} {o : Options} {created : List Table} {c c' : Catalog} {name : String}

theorem of_subset {more : List Table} (ready : c.Ready P o more) (h : created ⊆ more) :
    c.Ready P o created := ⟨ready.intact, fun t ht => ready.fresh t (h ht)⟩

theorem dropTable (ready : c.Ready P o created) (h : c.dropTable name = .ok c') :
    c'.Ready P o created := by
  refine ⟨ready.intact.dropTable h, fun t ht given hgiven u hu same => ?_⟩
  obtain ⟨i, d, -, rfl⟩ := dropTable_eq_ok_iff.mp h
  obtain ⟨w, hw, rfl⟩ := mem_dropped hu
  obtain ⟨rows, small⟩ := ready.fresh t ht given hgiven w hw same
  exact ⟨rows, small⟩

theorem appendTable {t : Table} {columns : List StoredColumn} (ready : c.Ready P o created)
    (hname : t.storedName o = .ok name) (hcolumns : t.storedColumns = .ok columns)
    (h : c.appendTable name columns = .ok c') : c'.Ready P o (created ++ [t]) := by
  refine ⟨ready.intact.appendTable h, fun v hv given hgiven u hu same => ?_⟩
  obtain ⟨apart, -, rfl⟩ := appendTable_eq_ok_iff.mp h
  rcases List.mem_append.mp hu with old | new
  · rcases List.mem_append.mp hv with hv | hv
    · exact ready.fresh v hv given hgiven u old same
    · obtain rfl := List.mem_singleton.mp hv
      obtain rfl := Except.ok.inj (hname.symm.trans hgiven)
      rw [apart u old] at same
      cases same
  · obtain rfl := List.mem_singleton.mp new
    exact ⟨rfl, isSmall_storedColumns hcolumns⟩

/-- What a key of a schema is like: small names, and a target among the tables made. -/
structure Keyed (o : Options) (created : List Table) (name : String) (k : StoredKey) : Prop where
  table : ∃ t ∈ created, t.storedName o = .ok name
  columns : ∀ column ∈ k.columns, IsSmall column
  foreign : k.kind = .foreign → (k.deleteRule = .cascade ∧ k.relatedTable = some k.target) ∧
    (∃ t ∈ created, t.storedName o = .ok k.target) ∧ ∀ column ∈ k.relatedColumns, IsSmall column

theorem hasTarget {k : StoredKey} (ready : c.Ready P o created)
    (target : ∃ t ∈ created, t.storedName o = .ok k.target)
    (small : ∀ column ∈ k.relatedColumns, IsSmall column) (refers : c.Refers k) :
    HasTarget c.tables k := by
  obtain ⟨i, related, primary, located, hprimary, pairs⟩ := refers
  obtain ⟨hrelated, same⟩ := of_locate located
  have mem : related ∈ c.tables := List.mem_of_getElem? hrelated
  obtain ⟨t, ht, hname⟩ := target
  have fresh := ready.fresh t ht k.target hname related mem same
  have keyColumns := (ready.intact.sound.tables related mem).keyColumns primary
    (List.mem_of_find?_eq_some hprimary)
  unfold pairsWith at pairs
  rw [Bool.and_eq_true, Bool.and_eq_true, beq_iff_eq, beq_iff_eq] at pairs
  refine ⟨related, mem, same, primary, hprimary, eq_of_all_sameName pairs.1.2 pairs.2 ?_ small⟩
  intro name hname
  obtain ⟨column, hcolumn, rfl⟩ := keyColumns name hname
  exact fresh.small column hcolumn

theorem appendKey {k : StoredKey} (ready : c.Ready P o created) (keyed : Keyed o created name k)
    (h : c.appendKey name k = .ok c') : c'.Ready P o created := by
  obtain ⟨i, u, fits, rfl⟩ := appendKey_eq_ok h
  obtain ⟨hu, same⟩ := of_locate fits.located
  have mem : u ∈ c.tables := List.mem_of_getElem? hu
  obtain ⟨t, ht, hname⟩ := keyed.table
  have fresh := ready.fresh t ht name hname u mem same
  refine ⟨ready.intact.withKey fits ⟨fresh.rows, fun column hcolumn => ?_, fun kind => ?_⟩, ?_⟩
  · obtain ⟨stored, hstored, like⟩ := fits.columns column hcolumn
    refine ⟨stored, hstored, ?_⟩
    exact (fresh.small stored hstored).eq_of_sameName (keyed.columns column hcolumn) like
  · obtain ⟨⟨cascade, related⟩, target, small⟩ := keyed.foreign kind
    exact ⟨cascade, related, ready.hasTarget target small (fits.refers kind)⟩
  · intro v hv given hgiven w hw like
    rcases List.mem_or_eq_of_mem_set hw with hw | rfl
    · exact ready.fresh v hv given hgiven w hw like
    · rw [StoredTable.withKey_name] at like
      exact (ready.fresh v hv given hgiven u mem like).withKey k

end Ready

end Catalog

/-! ### Sessions that fill a catalog -/

section

open Catalog (Intact Ready Durable)
open CatalogSession (Leads)

variable {P : Number → Prop} {o : Options} {created : List Table}

theorem Table.leads_append (durable : Durable (Intact P)) (t : Table) :
    Leads (Intact P) (Ready P o created) (t.append o) (fun _ => Ready P o (created ++ [t]))
      (Ready P o created) := by
  rw [append_eq]
  refine Leads.bind (J := fun name c => t.storedName o = .ok name ∧ Ready P o created c)
    (.ofExcept (fun name c hname ready => ⟨hname, ready⟩) fun c ready => ready) fun name => ?_
  have append : Leads (Intact P) (fun c => t.storedName o = .ok name ∧ Ready P o created c)
      (do
        let columns ← CatalogSession.ofExcept t.storedColumns
        CatalogSession.ofStep (·.appendTable name columns))
      (fun _ => Ready P o (created ++ [t])) (Ready P o created) := by
    refine Leads.bind (J := fun columns c => t.storedColumns = .ok columns ∧
        t.storedName o = .ok name ∧ Ready P o created c)
      (.ofExcept (fun columns c hcolumns h => ⟨hcolumns, h⟩) fun c h => h.2) fun columns => ?_
    refine .appendTable durable (fun c h => h.2.2) fun c c' ⟨hcolumns, hname, ready⟩ h => ?_
    have ready' := ready.appendTable hname hcolumns h
    exact ⟨ready'.intact, ready', ready'.of_subset (by simp)⟩
  refine Leads.get.bind fun g => ?_
  dsimp only
  split
  · refine Leads.bind (J := fun _ c => t.storedName o = .ok name ∧ Ready P o created c)
      (.dropTable durable (fun c h => h.1.2) fun c c' ⟨⟨hname, ready⟩, _⟩ h => ?_) fun _ => append
    have ready' := ready.dropTable h
    exact ⟨ready'.intact, ⟨hname, ready'⟩, ready'⟩
  · exact append.mono fun c h => h.1

theorem Table.leads_appendOrSkip (durable : Durable (Intact P)) (t : Table) :
    Leads (Intact P) (Ready P o created) (t.appendOrSkip o)
      (fun r c => if r.isNone then Ready P o (created ++ [t]) c else Ready P o created c)
      (Intact P) := by
  refine Leads.tryCatch ((leads_append durable t).bind fun _ => .pure fun c ready => ready)
    fun f => ?_
  split
  · exact .pure fun c ready => ready
  · exact .pure fun c ready => ready
  · exact .throw fun c ready => ready.intact

theorem Table.leads_appendKey (durable : Durable (Intact P)) {t : Table} (ht : t ∈ created) :
    Leads (Intact P) (Ready P o created) (t.appendKey o) (fun _ => Ready P o created)
      (Intact P) := by
  refine Leads.bind (J := fun name c => t.storedName o = .ok name ∧ Ready P o created c)
    (.ofExcept (fun name c hname ready => ⟨hname, ready⟩) fun c ready => ready.intact)
    fun name => ?_
  refine Leads.bind (J := fun k c => t.storedKey name = .ok k ∧ t.storedName o = .ok name ∧
      Ready P o created c)
    (.ofExcept (fun k c hk h => ⟨hk, h⟩) fun c h => h.2.intact) fun k => ?_
  refine .appendKey durable (fun c h => h.2.2.intact) fun c c' ⟨hk, hname, ready⟩ h => ?_
  obtain ⟨names, hnames, hk⟩ := bind_eq_ok_iff.mp hk
  obtain rfl := Except.ok.inj hk
  have ready' := ready.appendKey
    ⟨⟨t, ht, hname⟩, isSmall_catalogNames hnames, fun kind => by cases kind⟩ h
  exact ⟨ready'.intact, ready', ready'.intact⟩

theorem Relation.keyed_of_storedKey {r : Relation} {p : String × StoredKey}
    (h : r.storedKey o = .ok p) (parent : (created.map (·.name)).contains r.parentTable = true)
    (child : (created.map (·.name)).contains r.childTable = true) :
    Ready.Keyed o created p.1 p.2 := by
  rw [List.contains_iff_mem] at parent child
  obtain ⟨t, ht, sameChild⟩ := List.mem_map.mp child
  obtain ⟨u, hu, sameParent⟩ := List.mem_map.mp parent
  obtain ⟨hchild, stored⟩ := Relation.storedKey_eq_ok h
  obtain ⟨name, hparent, related⟩ := stored.target
  have target : p.2.target = name := by rw [StoredKey.target, related, Option.getD_some]
  refine ⟨⟨t, ht, ?_⟩, isSmall_catalogNames stored.columns, fun _ => ⟨⟨stored.deleteRule, ?_⟩,
    ⟨u, hu, ?_⟩, isSmall_catalogNames stored.relatedColumns⟩⟩
  · rw [Table.storedName, sameChild, hchild]
  · rw [target, related]
  · rw [Table.storedName, sameParent, hparent, target]

theorem Relation.leads_appendOrSkip (durable : Durable (Intact P)) (r : Relation) :
    Leads (Intact P) (Ready P o created) (r.appendOrSkip o (created.map (·.name)))
      (fun _ => Ready P o created) (Intact P) := by
  unfold appendOrSkip
  dsimp only
  split
  · exact .pure fun c ready => ready
  · next both =>
    simp only [Bool.or_eq_true, Bool.not_eq_true', not_or, Bool.not_eq_false] at both
    refine Leads.bind (J := fun p c => r.storedKey o = .ok p ∧ Ready P o created c)
      (.ofExcept (fun p c hp ready => ⟨hp, ready⟩) fun c ready => ready.intact) fun p => ?_
    refine Leads.bind (J := fun _ => Ready P o created)
      (.appendKey durable (fun c h => h.2.intact) fun c c' ⟨hp, ready⟩ h => ?_)
      fun _ => .pure fun c ready => ready
    have ready' := ready.appendKey (keyed_of_storedKey hp both.1 both.2) h
    exact ⟨ready'.intact, ready', ready'.intact⟩

/-- A catalog that was intact is intact at the end of a session, and wherever it breaks off. -/
theorem Schema.leads_populate (durable : Durable (Intact P)) (s : Schema)
    (step : DatabaseStep) :
    Leads (Intact P) (Intact P) (s.populate o step) (fun _ => Intact P) (Intact P) := by
  rw [populate_eq]
  refine Leads.bind (J := fun p => Ready P o p.1) ?_ fun p => ?_
  · refine ((Leads.appendEach (I := Ready P o)
      (fun t _ done => Table.leads_appendOrSkip durable t) _ []).mono fun c intact => ?_).imp ?_
      fun _ intact => intact
    · exact ⟨intact, fun t ht => by cases ht⟩
    · exact fun p c ready => ready
  · obtain ⟨tables, made⟩ := p
    refine Leads.bind (J := fun _ => Ready P o tables)
      (.forM fun t ht => Table.leads_appendKey durable (List.mem_of_mem_filter ht)) fun _ => ?_
    refine Leads.bind (J := fun _ => Ready P o tables) ?_ fun q => .pure fun c ready => ready.intact
    refine (Leads.appendEach (I := fun _ => Ready P o tables) (fun r _ _ =>
      (Relation.leads_appendOrSkip durable r).imp (fun q c ready => ?_) fun _ intact => intact)
      _ [])
    rwa [ite_self]

end

end Tabular
