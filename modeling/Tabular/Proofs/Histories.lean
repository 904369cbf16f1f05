import Tabular.Proofs.Creation

/-!
Whatever is done to the catalogs of a store. Catalogs are created from schemas and opened, rows come
and go, tables are dropped, in any order; a creation may fail midway.
-/
namespace Tabular

namespace CatalogDirectory

open Catalog (Intact Durable)

variable {P : Number → Prop}

theorem upholds_openOrCreate (durable : Durable (Intact P)) (d : CatalogDirectory)
    (database : String) (overwrite : Bool) :
    Upholds (Intact P) (d.openOrCreate database overwrite).run (Sure (Intact P ·.catalog)) := by
  refine (Upholds.liftExcept _).andThen fun path _ => ?_
  refine (Upholds.isFile path).lift.andThen fun present _ => ?_
  have create := CatalogHandle.upholds_create durable path database (Intact.empty database)
  split
  · exact CatalogHandle.upholds_openAt path
  · split
    · exact ((CatalogHandle.upholds_delete path).imp fun _ _ _ _ => trivial).andThen
        fun _ _ => create
    · exact create

theorem upholds_openFor (durable : Durable (Intact P)) (d : CatalogDirectory) (s : Schema)
    (o : Options) : Upholds (Intact P) (d.openFor s o).run (Sure (Intact P ·.1.catalog)) := by
  unfold openFor
  split
  · refine (Upholds.liftExcept _).andThen fun path _ => ?_
    refine (CatalogHandle.upholds_openAt path).andThen fun h hh => ?_
    exact .pure fun p hp => Except.ok.inj hp ▸ hh
  · refine (upholds_openOrCreate durable d s.name o.overwrite).andThen fun h hh => ?_
    exact .pure fun p hp => Except.ok.inj hp ▸ hh

theorem upholds_create (durable : Durable (Intact P)) (d : CatalogDirectory) (s : Schema)
    (o : Options) : Upholds (Intact P) (d.create s o).run fun _ => True := by
  refine Upholds.imp (J := Sure fun _ => True) ?_ fun _ _ => trivial
  refine (upholds_openFor durable d s o).andThen fun p hp => ?_
  refine (s.leads_populate durable p.2 p.1 hp).lift.andThen fun q _ => ?_
  have close : Upholds (Intact P) q.2.close fun _ => True := CatalogHandle.upholds_releaseLock _
  refine close.lift.andThen fun closed _ => ?_
  refine Upholds.andThen (J := fun _ => True) (.pure fun _ _ => trivial) fun report _ => ?_
  exact Upholds.andThen (J := fun _ => True) (.pure fun _ _ => trivial) fun _ _ =>
    .pure fun _ _ => trivial

end CatalogDirectory

structure World where
  store : Store
  handles : List CatalogHandle := []

namespace World

inductive Action where
  | create (d : CatalogDirectory) (s : Schema) (o : Options)
  | openAt (path : String)
  | appendTable (i : Nat) (name : String) (columns : List StoredColumn)
  | insert (i : Nat) (table : String) (values : List (String × Json))
  | deleteRows (i : Nat) (table : String) (criteria : Criteria)
  | dropTable (i : Nat) (name : String)
  | close (i : Nat)
  | wait (clock : Timestamp)

def onHandle {α : Type} (w : World) (i : Nat)
    (step : CatalogHandle → FileTask (Except Fault α × CatalogHandle)) : World :=
  match w.handles[i]? with
  | none => w
  | some h =>
    let (result, store) := w.store.run (step h)
    ⟨store, w.handles.set i result.2⟩

def step (w : World) : Action → World
  | .create d s o => { w with store := (w.store.attempt (d.create s o)).2 }
  | .openAt path =>
    match w.store.run (CatalogHandle.openAt path) with
    | (.ok h, store) => ⟨store, w.handles ++ [h]⟩
    | (.error _, store) => ⟨store, w.handles⟩
  | .appendTable i name columns => w.onHandle i (·.appendTable name columns)
  | .insert i table values => w.onHandle i (·.insert table values)
  | .deleteRows i table criteria => w.onHandle i (·.deleteRows table criteria)
  | .dropTable i name => w.onHandle i (·.dropTable name)
  | .close i =>
    match w.handles[i]? with
    | none => w
    | some h => ⟨(w.store.run h.close).2, w.handles.eraseIdx i⟩
  | .wait clock => { w with store := { w.store with clock } }

def run (w : World) (actions : List Action) : World := actions.foldl step w

/-- Is the catalog open, or does a document read as it? -/
def Shows (w : World) (c : Catalog) : Prop :=
  (∃ h ∈ w.handles, h.catalog = c) ∨
    ∃ path text version, w.store.read path = .ok text ∧ Catalog.parse? text = some (version, c)

def Action.Within (P : Number → Prop) : Action → Prop
  | insert _ _ values => ∀ v ∈ values, v.2.Within P
  | _ => True

structure Intact (P : Number → Prop) (w : World) : Prop where
  store : w.store.Holding (Catalog.Intact P)
  handles : ∀ h ∈ w.handles, h.catalog.Intact P

variable {P : Number → Prop} {w : World}

theorem Intact.onHandle {α : Type} (intact : w.Intact P) {i : Nat}
    {step : CatalogHandle → FileTask (Except Fault α × CatalogHandle)}
    (upholds : ∀ h, h.catalog.Intact P →
      Upholds (Catalog.Intact P) (step h) fun p => p.2.catalog.Intact P) :
    (w.onHandle i step).Intact P := by
  unfold World.onHandle
  split
  · exact intact
  · next h hh =>
    have mem : h ∈ w.handles := List.mem_of_getElem? hh
    obtain ⟨store, result⟩ := upholds h (intact.handles h mem) w.store intact.store
    refine ⟨store, fun g hg => ?_⟩
    rcases List.mem_or_eq_of_mem_set hg with hg | rfl
    · exact intact.handles g hg
    · exact result

/-- A change of a catalog that keeps it intact. -/
theorem upholds_change (closed : Number.Closed P) {change : Catalog → Except Refusal Catalog}
    (changed : ∀ c c', c.Intact P → change c = .ok c' → c'.Intact P) (h : CatalogHandle)
    (hh : h.catalog.Intact P) :
    Upholds (Catalog.Intact P) (h.commit (change h.catalog)) fun p => p.2.catalog.Intact P := by
  refine (CatalogHandle.upholds_commit (J := fun _ => True) (Catalog.Intact.durable closed) hh
    fun c hc => ?_).imp fun p hp => hp.1
  exact ⟨changed _ c hh hc, trivial, changed _ c hh hc⟩

theorem upholds_deleteRows (closed : Number.Closed P) (table : String) (criteria : Criteria)
    (h : CatalogHandle) (hh : h.catalog.Intact P) :
    Upholds (Catalog.Intact P) (h.deleteRows table criteria) fun p => p.2.catalog.Intact P := by
  unfold CatalogHandle.deleteRows
  split
  · exact .pure hh
  · next removed catalog hc =>
    have left := hh.deleteRows hc
    refine (@upholds_change P closed (fun _ => .ok catalog) (fun c c' _ h => ?_) h hh).bind
      fun p hp => .pure hp
    exact Except.ok.inj h ▸ left

/-- What one action leaves intact. -/
theorem Intact.step (closed : Number.Closed P) (intact : w.Intact P) {a : Action}
    (ha : a.Within P) : (w.step a).Intact P := by
  cases a with
  | create d s o =>
    refine ⟨?_, intact.handles⟩
    exact (d.upholds_create (Catalog.Intact.durable closed) s o w.store intact.store).1
  | openAt path =>
    obtain ⟨store, opened⟩ := CatalogHandle.upholds_openAt path w.store intact.store
    unfold World.step
    dsimp only
    split
    · next h s hs =>
      rw [hs] at store opened
      refine ⟨store, fun g hg => ?_⟩
      rcases List.mem_append.mp hg with hg | hg
      · exact intact.handles g hg
      · obtain rfl := List.mem_singleton.mp hg
        exact opened g rfl
    · next f s hs =>
      rw [hs] at store
      exact ⟨store, intact.handles⟩
  | appendTable i name columns =>
    exact intact.onHandle (upholds_change closed fun c c' hc h => hc.appendTable h)
  | insert i table values =>
    exact intact.onHandle (upholds_change closed fun c c' hc h => hc.insert ha h)
  | deleteRows i table criteria => exact intact.onHandle (upholds_deleteRows closed table criteria)
  | dropTable i name =>
    exact intact.onHandle (upholds_change closed fun c c' hc h => hc.dropTable h)
  | close i =>
    unfold World.step
    dsimp only
    split
    · exact intact
    · next h _ =>
      have close : Upholds (Catalog.Intact P) h.close fun _ => True :=
        CatalogHandle.upholds_releaseLock _
      obtain ⟨held, -⟩ := close w.store intact.store
      generalize w.store.run h.close = outcome at held ⊢
      refine ⟨held, fun g hg => ?_⟩
      exact intact.handles g ((List.eraseIdx_sublist _ _).subset hg)
  | wait clock => exact ⟨intact.store, intact.handles⟩

/-- What any number of actions leaves intact. -/
theorem Intact.run (closed : Number.Closed P) (intact : w.Intact P) {actions : List Action}
    (h : ∀ a ∈ actions, a.Within P) : (w.run actions).Intact P := by
  unfold World.run
  induction actions generalizing w with
  | nil => exact intact
  | cons a as ih =>
    rw [List.forall_mem_cons] at h
    rw [List.foldl_cons]
    exact ih (intact.step closed h.1) h.2

theorem Intact.shows (intact : w.Intact P) {c : Catalog} (h : w.Shows c) : c.Intact P := by
  rcases h with ⟨g, hg, rfl⟩ | ⟨path, text, version, hr, hp⟩
  · exact intact.handles g hg
  · obtain ⟨p, -, he⟩ := Store.read_eq_ok_iff.mp hr
    exact intact.store p text he version c hp

end World

/-! ### From nothing -/

/-- Key columns named as they are stored and with values in them, and rows that refer to rows: what
is true of a catalog at any time. -/
structure Catalog.Integral (c : Catalog) : Prop where
  keyColumns : ∀ t ∈ c.tables, ∀ k ∈ t.keys, ∀ name ∈ k.columns,
    ∃ column ∈ t.columns, column.name = name
  valued : ∀ t ∈ c.tables, ∀ k, t.primaryKey? = some k → ∀ r ∈ t.rows, r.IsFull k.columns
  targets : ∀ t ∈ c.tables, ∀ k ∈ t.foreignKeys, HasTarget c.tables k
  referring : ∀ t ∈ c.tables, ∀ k ∈ t.foreignKeys, ∀ r ∈ t.rows, r.IsFull k.columns →
    Referred c.tables k r

theorem Catalog.Sound.integral {P : Number → Prop} {c : Catalog} (sound : c.Sound P) :
    c.Integral :=
  ⟨fun t ht => (sound.tables t ht).keyColumns,
    fun t ht _ hk _ hr => (sound.tables t ht).isFull hk hr,
    sound.targets, sound.referring⟩

def Store.HasNoCatalog (s : Store) : Prop :=
  ∀ p text, s.entry? p = some (.file (.text text)) → Catalog.parse? text = none

theorem Store.hasNoCatalog_empty : Store.empty.HasNoCatalog := by
  intro p text he
  cases p <;> cases he

namespace World

/-- The catalogs that come about where there was none, whatever is done with numbers of a kind. -/
def Reachable (P : Number → Prop) (c : Catalog) : Prop :=
  ∃ s : Store, s.HasNoCatalog ∧ ∃ actions : List Action, (∀ a ∈ actions, a.Within P) ∧
    ((⟨s, []⟩ : World).run actions).Shows c

variable {P : Number → Prop}

/-- Numbers of a kind are numbers. -/
theorem Reachable.of_within {c : Catalog} (h : Reachable P c) : Reachable (fun _ => True) c := by
  obtain ⟨s, none_, actions, within, shown⟩ := h
  refine ⟨s, none_, actions, fun a ha => ?_, shown⟩
  cases a with
  | insert i table values => exact fun v hv => (within _ ha v hv).mono fun _ _ => trivial
  | _ => trivial

theorem Reachable.intact (closed : Number.Closed P) {c : Catalog} (h : Reachable P c) :
    c.Intact P := by
  obtain ⟨s, none_, actions, within, shown⟩ := h
  have start : World.Intact P ⟨s, []⟩ := by
    refine ⟨fun p text he version c hc => ?_, fun g hg => by cases hg⟩
    rw [none_ p text he] at hc
    cases hc
  exact (start.run closed within).shows shown

end World

end Tabular
