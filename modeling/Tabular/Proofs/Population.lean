import Tabular.Proofs.Handles
import Tabular.Proofs.Remaking
import Tabular.Proofs.Naming
import Tabular.Proofs.Outcomes
import Tabular.Proofs.Soundness

/-!
The session that fills a catalog, when it succeeds: tables are made anew, then the primary keys are
appended, then the foreign keys, and the document follows every change. Only a table whose name has
no counterpart is left out, and it is left out before anything is changed for it.
-/
namespace Tabular

/-- A fault that leaves an entity out and lets the run go on. -/
def Fault.leavesOut : Fault → Bool
  | argument .. | unsupportedType .. => true
  | _ => false

namespace CatalogHandle

variable {h h' : CatalogHandle} {s s' : Store}

/-- A handle on the catalog of a path whose document is up to date. -/
def Synced (path : String) (h : CatalogHandle) (s : Store) : Prop :=
  h.path = path ∧ s.Holds path h.catalog

theorem run_commit_ok {r : Except Refusal Catalog}
    (hr : s.run (h.commit r) = ((.ok (), h'), s')) :
    r = .ok h'.catalog ∧ Synced h.path h' s' := by
  unfold commit at hr
  cases r with
  | error e => cases hr
  | ok c =>
    rw [Store.run_bind] at hr
    rcases hw : s.run (save { h with catalog := c }) with ⟨_ | ⟨⟩, t⟩
    · rw [hw] at hr
      cases hr
    · rw [hw] at hr
      obtain ⟨hh, rfl⟩ := Prod.mk.inj hr
      obtain ⟨-, rfl⟩ := Prod.mk.inj hh
      obtain ⟨hread, -⟩ := read_of_run_save hw
      exact ⟨rfl, rfl, _, hread, .inl rfl⟩

theorem run_save_error {f : Fault} {t : Store} (hs : s.run h.save = (.error f, t)) :
    ∃ e : FileError, e.fault = f := by
  unfold save at hs
  rw [Store.run_bind, Store.run_write] at hs
  cases hw : s.write (draftPath h.path) (.text h.catalog.toText) with
  | error e =>
    rw [hw] at hs
    exact ⟨e, Except.error.inj (Prod.mk.inj hs).1⟩
  | ok u =>
    rw [hw] at hs
    dsimp only [Store.outcome] at hs
    rw [Store.run_bind, Store.run_rename] at hs
    cases hr : u.rename (draftPath h.path) h.path with
    | error e =>
      rw [hr] at hs
      exact ⟨e, Except.error.inj (Prod.mk.inj hs).1⟩
    | ok v =>
      rw [hr] at hs
      cases hs

/-- What a catalog refuses, or cannot save, ends a run. -/
theorem run_commit_error {r : Except Refusal Catalog} {f : Fault}
    (hr : s.run (h.commit r) = ((.error f, h'), s')) : f.leavesOut = false := by
  unfold commit at hr
  cases r with
  | error e =>
    obtain ⟨hh, -⟩ := Prod.mk.inj hr
    rw [← Except.error.inj (Prod.mk.inj hh).1]
    rfl
  | ok c =>
    rw [Store.run_bind] at hr
    rcases hw : s.run (save { h with catalog := c }) with ⟨g | ⟨⟩, t⟩
    · rw [hw] at hr
      obtain ⟨hh, -⟩ := Prod.mk.inj hr
      obtain rfl : g = f := Except.error.inj (Prod.mk.inj hh).1
      obtain ⟨e, rfl⟩ := run_save_error hw
      rfl
    · rw [hw] at hr
      cases hr

end CatalogHandle

namespace CatalogSession

open CatalogHandle (Synced)

variable {α β : Type} {path : String} {h h' : CatalogHandle} {s s' : Store}

def Changed (path : String) (r : Except Refusal Catalog) (h' : CatalogHandle) (s' : Store) : Prop :=
  r = .ok h'.catalog ∧ Synced path h' s'

theorem appendEach_cons (kind : CommandKind) (append : α → CatalogSession (Option Fault))
    (report : Report) (x : α) (xs : List α) :
    appendEach kind append report (x :: xs) = (do
      let fault ← append x
      let (appended, report) ← appendEach kind append (report.note kind fault) xs
      match fault with
      | none => return (x :: appended, report)
      | some _ => return (appended, report)) := rfl

theorem exec_appendEach_cons_eq_ok {kind : CommandKind}
    {append : α → CatalogSession (Option Fault)} {x : α} {xs kept : List α}
    {report report' : Report}
    (hx : exec (appendEach kind append report (x :: xs)) h s = ((.ok (kept, report'), h'), s')) :
    ∃ r h₁ s₁ later, exec (append x) h s = ((.ok r, h₁), s₁) ∧
      exec (appendEach kind append (report.note kind r) xs) h₁ s₁ =
        ((.ok (later, report'), h'), s') ∧
      kept = if r.isNone then x :: later else later := by
  rw [appendEach_cons] at hx
  obtain ⟨r, h₁, s₁, hfirst, hx⟩ := exec_bind_eq_ok_iff.mp hx
  obtain ⟨⟨later, last⟩, h₂, s₂, hrest, hx⟩ := exec_bind_eq_ok_iff.mp hx
  refine ⟨r, h₁, s₁, later, hfirst, ?_⟩
  cases r <;>
  · obtain ⟨⟨⟩, rfl, rfl⟩ := exec_pure_eq_ok_iff.mp hx
    exact ⟨hrest, rfl⟩

/-- If every element is either left out without a change or makes one change, then a run over all
elements makes the changes of those that were not left out. -/
theorem exec_appendEach_ok {kind : CommandKind} {append : α → CatalogSession (Option Fault)}
    (keep : α → Bool) (R : α → β → Prop) (change : Catalog → β → Except Refusal Catalog)
    {xs kept : List α} {report report' : Report}
    (each : ∀ x ∈ xs, ∀ h s r h' s', Synced path h s → exec (append x) h s = ((.ok r, h'), s') →
      (keep x = false ∧ r.isSome = true ∧ h' = h ∧ s' = s) ∨
        (keep x = true ∧ r = none ∧ ∃ y, R x y ∧ Changed path (change h.catalog y) h' s'))
    (synced : Synced path h s)
    (hx : exec (appendEach kind append report xs) h s = ((.ok (kept, report'), h'), s')) :
    kept = xs.filter keep ∧ ∃ ys, List.Forall₂ R kept ys ∧
      Changed path (ys.foldlM change h.catalog) h' s' := by
  induction xs generalizing h s kept report report' with
  | nil =>
    obtain ⟨⟨⟩, rfl, rfl⟩ := exec_pure_eq_ok_iff.mp hx
    exact ⟨rfl, [], .nil, rfl, synced⟩
  | cons x xs ih =>
    obtain ⟨r, h₁, s₁, later, hfirst, hrest, rfl⟩ := exec_appendEach_cons_eq_ok hx
    have tail := fun y hy => each y (List.mem_cons_of_mem x hy)
    rcases each x (by simp) h s r h₁ s₁ synced hfirst with
      ⟨out, some, rfl, rfl⟩ | ⟨inside, rfl, y, hy, hchange, synced₁⟩
    · obtain ⟨f, rfl⟩ := Option.isSome_iff_exists.mp some
      rw [List.filter_cons_of_neg (by simp [out])]
      exact ih tail synced hrest
    · obtain ⟨rfl, ys, hys, hchanges, synced₂⟩ := ih tail synced₁ hrest
      rw [List.filter_cons_of_pos inside]
      refine ⟨rfl, y :: ys, .cons hy hys, ?_, synced₂⟩
      rw [List.foldlM_cons, hchange]
      exact hchanges

/-- A session over all elements that makes one change for each. -/
theorem exec_forM_ok {act : α → CatalogSession Unit} (R : α → β → Prop)
    (change : Catalog → β → Except Refusal Catalog) {xs : List α}
    (each : ∀ x ∈ xs, ∀ h s h' s', Synced path h s → exec (act x) h s = ((.ok (), h'), s') →
      ∃ y, R x y ∧ Changed path (change h.catalog y) h' s')
    (synced : Synced path h s) (hx : exec (xs.forM act) h s = ((.ok (), h'), s')) :
    ∃ ys, List.Forall₂ R xs ys ∧ Changed path (ys.foldlM change h.catalog) h' s' := by
  induction xs generalizing h s with
  | nil =>
    obtain ⟨-, rfl, rfl⟩ := exec_pure_eq_ok_iff.mp hx
    exact ⟨[], .nil, rfl, synced⟩
  | cons x xs ih =>
    change exec (act x >>= fun _ => xs.forM act) h s = _ at hx
    obtain ⟨_, h₁, s₁, hfirst, hrest⟩ := exec_bind_eq_ok_iff.mp hx
    obtain ⟨y, hy, hchange, synced₁⟩ := each x (by simp) h s h₁ s₁ synced hfirst
    obtain ⟨ys, hys, hchanges, synced₂⟩ :=
      ih (fun z hz => each z (List.mem_cons_of_mem x hz)) synced₁ hrest
    refine ⟨y :: ys, .cons hy hys, ?_, synced₂⟩
    rw [List.foldlM_cons, hchange]
    exact hchanges

end CatalogSession

namespace CatalogSession

variable {α β : Type}

def IsFirm (m : CatalogSession α) : Prop :=
  ∀ h s f h' s', exec m h s = ((.error f, h'), s') → f.leavesOut = false

theorem isFirm_get : IsFirm (get : CatalogSession CatalogHandle) := by
  intro h s f h' s' hx
  cases hx

theorem isFirm_commit (r : CatalogHandle → Except Refusal Catalog) :
    IsFirm (ofStep fun h => h.commit (r h)) := by
  intro h s f h' s' hx
  exact CatalogHandle.run_commit_error hx

theorem isFirm_ofExcept_ok (a : α) : IsFirm (ofExcept (.ok a)) := by
  intro h s f h' s' hx
  cases hx

theorem IsFirm.bind {m : CatalogSession α} {k : α → CatalogSession β} (hm : IsFirm m)
    (hk : ∀ a, IsFirm (k a)) : IsFirm (m >>= k) := by
  intro h s f h' s' hx
  rw [exec_bind] at hx
  rcases hfirst : exec m h s with ⟨⟨g | a, h₁⟩, s₁⟩
  · rw [hfirst] at hx
    obtain ⟨hh, rfl⟩ := Prod.mk.inj hx
    obtain ⟨hf, rfl⟩ := Prod.mk.inj hh
    obtain rfl := Except.error.inj hf
    exact hm h s _ _ _ hfirst
  · rw [hfirst] at hx
    exact hk a h₁ s₁ f h' s' hx

end CatalogSession

namespace Table

open CatalogHandle (Synced)
open CatalogSession hiding ofExcept

variable {path : String} {t : Table} {o : Options} {h h' : CatalogHandle} {s s' : Store}

def remakeAs (t : Table) (name : String) : CatalogSession Unit := do
  if ((← get).catalog.table? name).isSome then ofStep (·.dropTable name)
  let columns ← CatalogSession.ofExcept t.storedColumns
  ofStep (·.appendTable name columns)

theorem append_eq (t : Table) (o : Options) :
    t.append o = CatalogSession.ofExcept (t.storedName o) >>= t.remakeAs := rfl

theorem isFirm_remakeAs {columns : List StoredColumn} (hcolumns : t.storedColumns = .ok columns)
    (name : String) : IsFirm (t.remakeAs name) := by
  unfold remakeAs
  rw [hcolumns]
  refine isFirm_get.bind fun g => ?_
  have last : IsFirm (do
      let columns ← CatalogSession.ofExcept (.ok columns)
      ofStep (·.appendTable name columns)) :=
    (isFirm_ofExcept_ok columns).bind fun cs => isFirm_commit _
  dsimp only
  split
  · exact (isFirm_commit _).bind fun _ => last
  · exact last

theorem exec_remakeAs_ok {columns : List StoredColumn} (hcolumns : t.storedColumns = .ok columns)
    {name : String} (synced : Synced path h s)
    (hx : exec (t.remakeAs name) h s = ((.ok (), h'), s')) :
    Changed path (h.catalog.remake name columns) h' s' := by
  unfold remakeAs at hx
  unfold Catalog.remake
  rw [hcolumns] at hx
  rw [exec_get_bind] at hx
  dsimp only at hx
  split at hx
  · next taken =>
    obtain ⟨_, h₁, s₁, hdrop, hx⟩ := exec_bind_eq_ok_iff.mp hx
    obtain ⟨dropped, synced₁⟩ := CatalogHandle.run_commit_ok hdrop
    obtain ⟨appended, synced₂⟩ := CatalogHandle.run_commit_ok hx
    rw [if_pos taken, dropped]
    rw [synced₁.1, synced.1] at synced₂
    exact ⟨appended, synced₂⟩
  · next free =>
    obtain ⟨appended, synced₁⟩ := CatalogHandle.run_commit_ok hx
    rw [if_neg free]
    rw [synced.1] at synced₁
    exact ⟨appended, synced₁⟩

/-- What becomes of a table whose columns can be stored: without a name in the catalog it is left
out before anything is changed, and else it is made anew. -/
theorem exec_appendOrSkip_cases {columns : List StoredColumn} {r : Option Fault}
    (hcolumns : t.storedColumns = .ok columns)
    (hx : exec (t.appendOrSkip o) h s = ((.ok r, h'), s')) :
    (∃ f, t.storedName o = .error f ∧ r = some (f.forEntity t.name) ∧ h' = h ∧ s' = s) ∨
      ∃ name, t.storedName o = .ok name ∧ r = none ∧
        exec (t.remakeAs name) h s = ((.ok (), h'), s') := by
  unfold appendOrSkip at hx
  rw [exec_tryCatch, exec_bind, append_eq, exec_bind, exec_ofExcept] at hx
  cases hname : t.storedName o with
  | error f =>
    rw [hname] at hx
    cases f
    case argument =>
      obtain ⟨rfl, rfl, rfl⟩ := exec_pure_eq_ok_iff.mp hx
      exact .inl ⟨_, rfl, rfl, rfl, rfl⟩
    case unsupportedType =>
      obtain ⟨rfl, rfl, rfl⟩ := exec_pure_eq_ok_iff.mp hx
      exact .inl ⟨_, rfl, rfl, rfl, rfl⟩
    all_goals cases hx
  | ok name =>
    rw [hname] at hx
    dsimp only at hx
    rcases hremake : exec (t.remakeAs name) h s with ⟨⟨f | ⟨⟩, h₁⟩, s₁⟩
    · rw [hremake] at hx
      have firm := isFirm_remakeAs hcolumns name h s f h₁ s₁ hremake
      cases f
      case argument => cases firm
      case unsupportedType => cases firm
      all_goals cases hx
    · rw [hremake] at hx
      obtain ⟨rfl, rfl, rfl⟩ := exec_pure_eq_ok_iff.mp hx
      exact .inr ⟨name, rfl, rfl, hremake⟩

theorem exec_appendOrSkip_ok {columns : List StoredColumn} {r : Option Fault}
    (hcolumns : t.storedColumns = .ok columns) (synced : Synced path h s)
    (hx : exec (t.appendOrSkip o) h s = ((.ok r, h'), s')) :
    ((t.storedName o).isOk = false ∧ r.isSome = true ∧ h' = h ∧ s' = s) ∨
      ((t.storedName o).isOk = true ∧ r = none ∧ ∃ p : String × List StoredColumn,
        (t.storedName o = .ok p.1 ∧ t.storedColumns = .ok p.2) ∧
          Changed path (h.catalog.remake p.1 p.2) h' s') := by
  obtain ⟨f, hname, rfl, rfl, rfl⟩ | ⟨name, hname, rfl, hremake⟩ :=
    exec_appendOrSkip_cases hcolumns hx
  · exact .inl ⟨by rw [hname]; rfl, rfl, rfl, rfl⟩
  · exact .inr ⟨by rw [hname]; rfl, rfl, (name, columns), ⟨hname, hcolumns⟩,
      exec_remakeAs_ok hcolumns synced hremake⟩

theorem exec_appendKey_ok (synced : Synced path h s)
    (hx : exec (t.appendKey o) h s = ((.ok (), h'), s')) :
    ∃ p : String × StoredKey, (t.storedName o = .ok p.1 ∧ t.storedKey p.1 = .ok p.2) ∧
      Changed path (h.catalog.appendKey p.1 p.2) h' s' := by
  unfold appendKey at hx
  obtain ⟨name, hname, hx⟩ := exec_ofExcept_bind_eq_ok_iff.mp hx
  obtain ⟨key, hkey, hx⟩ := exec_ofExcept_bind_eq_ok_iff.mp hx
  obtain ⟨appended, synced₁⟩ := CatalogHandle.run_commit_ok hx
  rw [synced.1] at synced₁
  exact ⟨(name, key), ⟨hname, hkey⟩, appended, synced₁⟩

/-- The columns of a table without a defect can all be stored. -/
theorem exists_storedColumns (wf : t.WellFormed .catalog) :
    ∃ columns, t.storedColumns = .ok columns := by
  refine exists_mapM_eq_ok fun c hc => ?_
  obtain ⟨type, htype⟩ := Option.isSome_iff_exists.mp (wf.resolved c hc)
  have valid := wf.columnNames c hc
  have hname : Identifier.validate c.name = .ok () := by
    unfold isValidName at valid
    cases hv : Identifier.validate c.name with
    | error f => rw [hv] at valid; cases valid
    | ok _ => rfl
  simp [Column.nativeType, Column.resolvedType, htype, catalogName, Identifier.forCatalog,
    Identifier.bareOf, hname, bind, Except.bind, pure, Except.pure]

end Table

namespace Relation

open CatalogHandle (Synced)
open CatalogSession hiding ofExcept

variable {path : String} {r : Relation} {o : Options} {h h' : CatalogHandle} {s s' : Store}

/-- What becomes of a relation: without its tables it is left out, and else its key is appended. -/
theorem exec_appendOrSkip_cases {created : List String} {q : Option Fault}
    (hx : exec (r.appendOrSkip o created) h s = ((.ok q, h'), s')) :
    ((created.contains r.parentTable && created.contains r.childTable) = false ∧
        q = some (.argument r.name "skipped because a related table was not created") ∧
        h' = h ∧ s' = s) ∨
      ((created.contains r.parentTable && created.contains r.childTable) = true ∧ q = none ∧
        ∃ p : String × StoredKey, r.storedKey o = .ok p ∧
          exec (ofStep (·.appendKey p.1 p.2)) h s = ((.ok (), h'), s')) := by
  unfold appendOrSkip at hx
  dsimp only at hx
  split at hx
  · next missing =>
    obtain ⟨rfl, rfl, rfl⟩ := exec_pure_eq_ok_iff.mp hx
    exact .inl ⟨(Bool.not_eq_true' _).mp (by rw [Bool.not_and]; exact missing), rfl, rfl, rfl⟩
  · next both =>
    obtain ⟨p, hkey, hx⟩ := exec_ofExcept_bind_eq_ok_iff.mp hx
    obtain ⟨_, h₂, s₂, happend, hx⟩ := exec_bind_eq_ok_iff.mp hx
    obtain ⟨rfl, rfl, rfl⟩ := exec_pure_eq_ok_iff.mp hx
    exact .inr ⟨by simpa using both, rfl, p, hkey, happend⟩

theorem exec_appendOrSkip_ok {created : List String} {q : Option Fault} (synced : Synced path h s)
    (hx : exec (r.appendOrSkip o created) h s = ((.ok q, h'), s')) :
    ((created.contains r.parentTable && created.contains r.childTable) = false ∧
        q.isSome = true ∧ h' = h ∧ s' = s) ∨
      ((created.contains r.parentTable && created.contains r.childTable) = true ∧ q = none ∧
        ∃ p : String × StoredKey, r.storedKey o = .ok p ∧
          Changed path (h.catalog.appendKey p.1 p.2) h' s') := by
  obtain ⟨missing, rfl, rfl, rfl⟩ | ⟨both, rfl, p, hkey, happend⟩ := exec_appendOrSkip_cases hx
  · exact .inl ⟨missing, rfl, rfl, rfl⟩
  · obtain ⟨appended, synced₁⟩ := CatalogHandle.run_commit_ok happend
    rw [synced.1] at synced₁
    exact .inr ⟨both, rfl, p, hkey, appended, synced₁⟩

end Relation

namespace Schema

open CatalogHandle (Synced)
open CatalogSession hiding ofExcept

/-- The tables that a run creates: those without a defect whose name has a counterpart. -/
def placedTables (s : Schema) (o : Options) : List Table :=
  (s.soundTables .catalog).filter fun t => (t.storedName o).isOk

def placedRelations (s : Schema) (o : Options) : List Relation :=
  let created := (s.placedTables o).map (·.name)
  (s.soundRelations .catalog).filter fun r =>
    created.contains r.parentTable && created.contains r.childTable

/-- The changes of a run, in order, with the names, columns and keys that it takes from the
schema. -/
structure Placement (s : Schema) (o : Options) where
  tables : List (String × List StoredColumn)
  primaryKeys : List (String × StoredKey)
  foreignKeys : List (String × StoredKey)
  tables_eq : List.Forall₂ (fun t p => t.storedName o = .ok p.1 ∧ t.storedColumns = .ok p.2)
    (s.placedTables o) tables
  primaryKeys_eq : List.Forall₂ (fun t p => t.storedName o = .ok p.1 ∧ t.storedKey p.1 = .ok p.2)
    ((s.placedTables o).filter (·.hasKey)) primaryKeys
  foreignKeys_eq : List.Forall₂ (fun r p => r.storedKey o = .ok p) (s.placedRelations o) foreignKeys

def Placement.apply {s : Schema} {o : Options} (p : s.Placement o) (c : Catalog) :
    Except Refusal Catalog := do
  ((← (← c.remakeAll p.tables).appendKeys p.primaryKeys).appendKeys p.foreignKeys)

theorem Placement.apply_eq_ok_iff {s : Schema} {o : Options} {p : s.Placement o} {c c' : Catalog} :
    p.apply c = .ok c' ↔ ∃ c₁ c₂, c.remakeAll p.tables = .ok c₁ ∧
      c₁.appendKeys p.primaryKeys = .ok c₂ ∧ c₂.appendKeys p.foreignKeys = .ok c' := by
  unfold apply
  rw [bind_eq_ok_iff]
  simp only [bind_eq_ok_iff]
  constructor
  · rintro ⟨c₁, h₁, c₂, h₂, h₃⟩
    exact ⟨c₁, c₂, h₁, h₂, h₃⟩
  · rintro ⟨c₁, c₂, h₁, h₂, h₃⟩
    exact ⟨c₁, h₁, c₂, h₂, h₃⟩

/-- The keys are counted as they are appended, so that it makes no difference to count them
afterwards. -/
theorem populate_eq (s : Schema) (o : Options) (step : DatabaseStep) :
    s.populate o step = (do
      let report : Report := { engine := .jet, database := s.name, step }
      let (tables, report) ← appendEach .createTable (Table.appendOrSkip · o)
        (report.skipAll (s.entityFaults .catalog)) (s.soundTables .catalog)
      let keyed := tables.filter (·.hasKey)
      keyed.forM (Table.appendKey · o)
      let (_, report) ← appendEach .foreignKey (Relation.appendOrSkip · o (tables.map (·.name)))
        (keyed.foldl (fun r _ => r.count .primaryKey) report) (s.soundRelations .catalog)
      return report) := by
  unfold populate
  simp only [foldlM_account (fun t : Table => t.appendKey o) fun (r : Report) _ =>
    r.count .primaryKey, bind_assoc, pure_bind]

theorem exec_populate_ok {s : Schema} {o : Options} {step : DatabaseStep} {path : String}
    {h h' : CatalogHandle} {t t' : Store} {report : Report} (synced : Synced path h t)
    (hx : exec (s.populate o step) h t = ((.ok report, h'), t')) :
    ∃ p : s.Placement o, Changed path (p.apply h.catalog) h' t' := by
  rw [populate_eq] at hx
  obtain ⟨⟨tables, made⟩, h₁, t₁, htables, hx⟩ := exec_bind_eq_ok_iff.mp hx
  obtain ⟨_, h₂, t₂, hkeys, hx⟩ := exec_bind_eq_ok_iff.mp hx
  obtain ⟨⟨relations, noted⟩, h₃, t₃, hrelations, hx⟩ := exec_bind_eq_ok_iff.mp hx
  obtain ⟨-, rfl, rfl⟩ := exec_pure_eq_ok_iff.mp hx
  obtain ⟨rfl, defs, hdefs, remade, synced₁⟩ := exec_appendEach_ok
    (fun u => (u.storedName o).isOk)
    (fun u (p : String × List StoredColumn) =>
      u.storedName o = .ok p.1 ∧ u.storedColumns = .ok p.2)
    (fun c p => c.remake p.1 p.2)
    (fun u hu _ _ _ _ _ hsynced hu' => by
      obtain ⟨-, wf, -⟩ := of_mem_soundTables hu
      obtain ⟨columns, hcolumns⟩ := Table.exists_storedColumns wf
      exact Table.exec_appendOrSkip_ok hcolumns hsynced hu') synced htables
  obtain ⟨pks, hpks, keyed, synced₂⟩ := exec_forM_ok
    (fun u (p : String × StoredKey) => u.storedName o = .ok p.1 ∧ u.storedKey p.1 = .ok p.2)
    (fun c p => c.appendKey p.1 p.2)
    (fun u _ _ _ _ _ hsynced hu' => Table.exec_appendKey_ok hsynced hu') synced₁ hkeys
  obtain ⟨rfl, fks, hfks, related, synced₃⟩ := exec_appendEach_ok
    (fun r => ((s.placedTables o).map (·.name)).contains r.parentTable &&
      ((s.placedTables o).map (·.name)).contains r.childTable)
    (fun r (p : String × StoredKey) => r.storedKey o = .ok p)
    (fun c p => c.appendKey p.1 p.2)
    (fun r _ _ _ _ _ _ hsynced hr => Relation.exec_appendOrSkip_ok hsynced hr) synced₂ hrelations
  exact ⟨⟨defs, pks, fks, hdefs, hpks, hfks⟩,
    Placement.apply_eq_ok_iff.mpr ⟨h₁.catalog, h₂.catalog, remade, keyed, related⟩, synced₃⟩

end Schema

namespace CatalogDirectory

open CatalogSession hiding ofExcept

variable {d : CatalogDirectory} {s : Schema} {o : Options} {store store' : Store} {report : Report}

/-- A run opens the catalog, fills it and closes it. -/
theorem attempt_create_eq_ok_iff :
    store.attempt (d.create s o) = (.ok report, store') ↔
      ∃ handle step t filled u, store.attempt (d.openFor s o) = (.ok (handle, step), t) ∧
        exec (s.populate o step) handle t = ((.ok report, filled), u) ∧
          u.run filled.close = (.ok (), store') := by
  unfold create
  simp only [Store.attempt_bind_eq_ok_iff, Store.attempt_lift, Store.attempt_mk, Store.run_pure]
  constructor
  · rintro ⟨⟨handle, step⟩, t, hopen, ⟨populated, filled⟩, u, hpopulate, closed, v, hclose, r, w,
      hdone, ⟨⟩, w', hreleased, h⟩
    obtain ⟨rfl, rfl⟩ := Prod.mk.inj hdone
    obtain ⟨rfl, rfl⟩ := Prod.mk.inj hreleased
    obtain ⟨hr, rfl⟩ := Prod.mk.inj h
    obtain rfl := Except.ok.inj hr
    obtain ⟨hp, rfl⟩ := Prod.mk.inj hpopulate
    obtain ⟨hc, rfl⟩ := Prod.mk.inj hclose
    exact ⟨handle, step, t, filled, _, hopen, Prod.ext (Except.ok.inj hp) rfl,
      Prod.ext (Except.ok.inj hc) rfl⟩
  · rintro ⟨handle, step, t, filled, u, hopen, hpopulate, hclose⟩
    refine ⟨(handle, step), t, hopen, (.ok report, filled), u, ?_, .ok (), store', ?_, report,
      store', rfl, (), store', rfl, rfl⟩
    · unfold exec at hpopulate
      rw [hpopulate]
    · rw [hclose]

end CatalogDirectory

end Tabular
