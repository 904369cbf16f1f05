import Tabular.Proofs.Collisions
import Tabular.Proofs.Custody

/-!
Catalogs from one handle to the next. A catalog that is closed and opened again is the catalog that
it was if every value in it comes back as itself; then what is done through one handle after another
is as if done through a single one. A number need not come back as itself.
-/
namespace Tabular

open CatalogHandle (pathOf lockPath IsPlain Role)

/-! ### What comes back -/

namespace Json

def ComesBack (v : Json) : Prop := v.printed.value? Catalog.innerDepth = some v

theorem memberValues?_printed {depth : Nat} {ms : List (String × Json)}
    (h : ∀ m ∈ ms, m.2.printed.value? depth = some m.2) :
    JsonTree.memberValues? depth (printedMembers ms) = some ms := by
  induction ms with
  | nil => rfl
  | cons m ms ih =>
    obtain ⟨k, v⟩ := m
    rw [List.forall_mem_cons] at h
    rw [printedMembers, JsonTree.memberValues?, h.1, ih h.2]
    rfl

end Json

theorem Row.IsOf.reread? {r : Row} (h : r.IsOf Json.ComesBack) : r.reread? = some r := by
  have read := Json.memberValues?_printed h.values
  unfold Row.reread?
  change (JsonTree.memberValues? Catalog.innerDepth (Json.printedMembers r)).bind
    (fun ms => some (Json.sortMembers ms)) = some r
  rw [read, Option.bind_some, Json.sortMembers_of_ordered h.ordered]

theorem mapM_eq_some_self_iff {α : Type} {f : α → Option α} {xs : List α} :
    xs.mapM f = some xs ↔ ∀ x ∈ xs, f x = some x := by
  rw [mapM_eq_some_iff, List.forall₂_same]

theorem StoredTable.reread?_eq_self_iff {t : StoredTable} :
    t.reread? = some t ↔ ∀ r ∈ t.rows, r.reread? = some r := by
  rw [← mapM_eq_some_self_iff]
  unfold StoredTable.reread?
  constructor
  · intro h
    obtain ⟨rows, hrows, h⟩ := Option.bind_eq_some_iff.mp h
    rw [hrows, congrArg StoredTable.rows (Option.some.inj h).symm]
  · intro h
    rw [h]
    rfl

namespace Catalog

variable {c c' : Catalog} {r : Row}

def HasRow (c : Catalog) (r : Row) : Prop := ∃ t ∈ c.tables, r ∈ t.rows

/-- A catalog comes back as itself if every row does. -/
theorem reread?_eq_self_iff : c.reread? = some c ↔ ∀ r, c.HasRow r → r.reread? = some r := by
  have rows : (∀ r, c.HasRow r → r.reread? = some r) ↔ ∀ t ∈ c.tables, t.reread? = some t := by
    simp only [StoredTable.reread?_eq_self_iff]
    exact ⟨fun h t ht r hr => h r ⟨t, ht, hr⟩, fun h r ⟨t, ht, hr⟩ => h t ht r hr⟩
  rw [rows, ← mapM_eq_some_self_iff]
  unfold Catalog.reread?
  constructor
  · intro h
    obtain ⟨tables, htables, h⟩ := Option.bind_eq_some_iff.mp h
    rw [htables, congrArg Catalog.tables (Option.some.inj h).symm]
  · intro h
    rw [h]
    rfl

theorem hasRow_replace {i : Nat} {t : StoredTable} (h : (c.replace i t).HasRow r) :
    c.HasRow r ∨ r ∈ t.rows := by
  obtain ⟨u, hu, hr⟩ := h
  rcases List.mem_or_eq_of_mem_set hu with hu | rfl
  · exact .inl ⟨u, hu, hr⟩
  · exact .inr hr

end Catalog

namespace Mutation

variable {c c' : Catalog} {m : Mutation} {r : Row}

def ComesBack : Mutation → Prop
  | insert _ values => ∀ v ∈ values, v.2.ComesBack
  | _ => True

theorem apply_deleteRows_eq_ok {table : String} {criteria : Criteria}
    (h : (deleteRows table criteria).apply c = .ok c') :
    ∃ removed, c.deleteRows table criteria = .ok (removed, c') := by
  change (c.deleteRows table criteria).map (·.2) = .ok c' at h
  cases hd : c.deleteRows table criteria with
  | error e =>
    rw [hd] at h
    cases h
  | ok p =>
    rw [hd] at h
    exact ⟨p.1, by rw [← Except.ok.inj h]⟩

/-- The rows after a change are rows from before, or are of the values that were inserted. -/
theorem hasRow_of_apply {Q : Json → Prop} (texts : ∀ s, Q (.string s))
    (new : ∀ table values, m = .insert table values → ∀ v ∈ values, Q v.2)
    (h : m.apply c = .ok c') (hr : c'.HasRow r) : c.HasRow r ∨ r.IsOf Q := by
  cases m with
  | appendTable name columns =>
    obtain ⟨-, -, rfl⟩ := Catalog.appendTable_eq_ok_iff.mp h
    obtain ⟨t, ht, hr⟩ := hr
    rcases List.mem_append.mp ht with ht | ht
    · exact .inl ⟨t, ht, hr⟩
    · rw [List.mem_singleton.mp ht] at hr
      cases hr
  | appendKey table key =>
    obtain ⟨i, t, fits, rfl⟩ := Catalog.appendKey_eq_ok h
    rcases Catalog.hasRow_replace hr with hr | hr
    · exact .inl hr
    · have mem := List.mem_of_getElem? (Catalog.of_locate fits.located).1
      exact .inl ⟨t, mem, by simpa using hr⟩
  | dropTable name =>
    obtain ⟨i, t, -, rfl⟩ := Catalog.dropTable_eq_ok_iff.mp h
    obtain ⟨u, hu, hr⟩ := hr
    obtain ⟨v, hv, rfl⟩ := List.mem_map.mp hu
    exact .inl ⟨v, (List.eraseIdx_sublist _ _).subset hv, hr⟩
  | insert table values =>
    obtain ⟨i, t, stored, fits, rfl⟩ := Catalog.insert_eq_ok h
    rcases Catalog.hasRow_replace hr with hr | hr
    · exact .inl hr
    rcases List.mem_append.mp hr with hr | hr
    · exact .inl ⟨t, List.mem_of_getElem? (Catalog.of_locate fits.located).1, hr⟩
    · rw [List.mem_singleton.mp hr]
      exact .inr (Row.isOf_rowOf
        (StoredTable.of_coerceAll texts fits.coerced (new table values rfl)))
  | deleteRows table criteria =>
    obtain ⟨removed, h⟩ := apply_deleteRows_eq_ok h
    obtain ⟨pending, rfl⟩ := Catalog.deleteRows_eq_ok h
    obtain ⟨u, hu, hr⟩ := hr
    obtain ⟨t, ht, shrinks⟩ :=
      exists_of_forall₂_right (Catalog.deleteAll_shrinks c.tables pending) hu
    exact .inl ⟨t, ht, shrinks.rows.subset hr⟩

/-- What comes back as itself still does after a change that brings in nothing else. -/
theorem reread?_of_apply (back : m.ComesBack) (h : m.apply c = .ok c') (hc : c.reread? = some c) :
    c'.reread? = some c' := by
  rw [Catalog.reread?_eq_self_iff] at hc ⊢
  intro r hr
  have texts (s : String) : (Json.string s).ComesBack := rfl
  rcases hasRow_of_apply texts (fun _ _ inserted => by rw [inserted] at back; exact back) h hr with
    old | new
  · exact hc r old
  · exact new.reread?

end Mutation

theorem Store.catalogAt?_of_toText {s : Store} {path : String} {c : Catalog}
    (h : s.read path = .ok c.toText) (back : c.reread? = some c) : s.catalogAt? path = some c := by
  refine Store.catalogAt?_eq_some_iff.mpr ⟨_, h, ?_⟩
  rw [Catalog.parse?_toText, back]
  rfl

theorem Store.catalogAt?_of_file? {s t : Store} {path : String}
    (same : t.file? path = s.file? path) : t.catalogAt? path = s.catalogAt? path := by
  unfold Store.catalogAt?
  rw [same]

/-! ### A single handle -/

namespace Event

def ComesBack : Event → Prop
  | changed m => m.ComesBack
  | _ => True

/-- What becomes of a catalog, if there is one, in the hands of somebody who never lets go of it. -/
def replay (c : Option Catalog) : Event → Option Catalog
  | created name createdAt => some { name, createdAt }
  | opened | closed => c
  | changed m => c.bind fun c => (m.apply c).toOption
  | deleted => none

end Event

namespace World

variable {d : String} {w w' : World} {deed : Deed} {n m path : String} {e : Event}
  {held c : Option Catalog}

/-- What happens to the catalog of a path by a deed, if it is about that one and goes well. -/
def happening (d path : String) (w : World) (deed : Deed) : List Event :=
  match (w.act d deed).1, w.aim? d deed with
  | .ok _, some (path', e) => if path' = path then [e] else []
  | _, _ => []

def history (d path : String) (w : World) : List Deed → List Event
  | [] => []
  | deed :: deeds => w.happening d path deed ++ history d path (w.act d deed).2 deeds

/-- A catalog comes back as itself and is the one in the document and behind a handle. -/
structure Shown (path : String) (w : World) (c : Option Catalog) : Prop where
  stable : ∀ c', c = some c' → c'.reread? = some c'
  document : w.store.catalogAt? path = c
  handle : ∀ h ∈ w.handles, h.path = path → c = some h.catalog

/-- What happens to a catalog is what a single handle makes of it. -/
theorem Shown.replay (shown : w.Shown (pathOf d n) c) (custody : w.Custody d) (plain : IsPlain n)
    (effect : w.Effect (pathOf d n) e held w') (back : e.ComesBack) :
    w'.Shown (pathOf d n) (e.replay c) := by
  have result : (∀ c', e.replay c = some c' → c'.reread? = some c') ∧
      w'.store.catalogAt? (pathOf d n) = e.replay c ∧
      ∀ c', held = some c' → e.replay c = some c' := by
    cases effect with
    | @created t name createdAt _ _ written _ =>
      have new : ({ name, createdAt } : Catalog).reread? = some { name, createdAt } := rfl
      refine ⟨fun c' h => ?_, Store.catalogAt?_of_toText written new, fun c' h => h⟩
      rw [← Option.some.inj h, new]
    | opened found _ _ changes =>
      have document := Store.catalogAt?_of_file? (file_document_of_lock plain changes)
      refine ⟨shown.stable, document.trans shown.document, fun c' h => ?_⟩
      rw [← h, ← found]
      exact shown.document.symm
    | @changed t c' i h m found own applied written _ =>
      have before := shown.handle h (List.mem_of_getElem? found) own
      have after : (Event.changed m).replay c = some c' := by
        rw [before]
        simp only [Event.replay, Option.bind_some, applied]
        rfl
      have stable := Mutation.reread?_of_apply back applied (shown.stable _ before)
      rw [after]
      refine ⟨fun c'' h => ?_, Store.catalogAt?_of_toText written stable, fun c'' h => h⟩
      rw [← Option.some.inj h, stable]
    | closed _ _ _ changes =>
      have document := Store.catalogAt?_of_file? (file_document_of_lock plain changes)
      refine ⟨shown.stable, document.trans shown.document, fun c' h => ?_⟩
      cases h
    | deleted _ _ gone _ =>
      refine ⟨fun c' h => (by cases h), ?_, fun c' h => (by cases h)⟩
      unfold Store.catalogAt?
      rw [gone]
      rfl
  obtain ⟨stable, document, new⟩ := result
  refine ⟨stable, document, fun h hh own => ?_⟩
  rcases effect.mem_or_held custody plain h hh with ⟨-, other⟩ | ⟨-, mine⟩
  · exact absurd own other
  · exact new h.catalog mine

/-- What happens to another catalog does not show. -/
theorem Shown.other (shown : w.Shown (pathOf d n) c) (custody : w.Custody d) (plain : IsPlain n)
    (plain' : IsPlain m) (effect : w.Effect (pathOf d m) e held w') (apart : m ≠ n) :
    w'.Shown (pathOf d n) c := by
  have document := effect.file_other plain' plain apart .document
  refine ⟨shown.stable, (Store.catalogAt?_of_file? document).trans shown.document, ?_⟩
  intro h hh own
  rcases effect.mem_or_held custody plain' h hh with ⟨mem, -⟩ | ⟨here, -⟩
  · exact shown.handle h mem own
  · exact absurd (CatalogHandle.pathOf_injective plain' plain (here.symm.trans own)) apart

/-- One deed, and what a single handle makes of what happens. -/
theorem Shown.act (shown : w.Shown (pathOf d n) c) (orderly : w.Orderly d) (plain : IsPlain n)
    (fits : deed.Fits d w.store) (back : ∀ e ∈ w.happening d (pathOf d n) deed, e.ComesBack) :
    (w.act d deed).2.Shown (pathOf d n)
      ((w.happening d (pathOf d n) deed).foldl Event.replay c) := by
  unfold happening at back ⊢
  rcases outcome orderly fits with
    ⟨aim, clock, same⟩ | ⟨f, same⟩ | @⟨m, e, held, w', plain', -, aim, same, effect⟩
  · have untouched := (changesOnly_clock w.store clock).file (pathOf d n) (by simp)
    simp only [same, aim]
    exact ⟨shown.stable, (Store.catalogAt?_of_file? untouched).trans shown.document, shown.handle⟩
  · simp only [same]
    exact shown
  · simp only [same, aim] at back ⊢
    by_cases here : m = n
    · subst here
      simp only [if_true, List.forall_mem_singleton] at back ⊢
      exact shown.replay orderly.custody plain effect back
    · have away : pathOf d m ≠ pathOf d n := fun h =>
        here (CatalogHandle.pathOf_injective plain' plain h)
      simp only [if_neg away]
      exact shown.other orderly.custody plain plain' effect here

/-- Any number of deeds, and what a single handle makes of what happens. -/
theorem Shown.acts (shown : w.Shown (pathOf d n) c) (orderly : w.Orderly d) (plain : IsPlain n)
    {deeds : List Deed} (fits : ∀ deed ∈ deeds, deed.Fits d w.store)
    (back : ∀ e ∈ w.history d (pathOf d n) deeds, e.ComesBack) :
    (w.acts d deeds).Shown (pathOf d n)
      ((w.history d (pathOf d n) deeds).foldl Event.replay c) := by
  unfold World.acts
  induction deeds generalizing w c with
  | nil => exact shown
  | cons deed deeds ih =>
    rw [List.forall_mem_cons] at fits
    rw [history, List.forall_mem_append] at back
    rw [List.foldl_cons, history, List.foldl_append]
    obtain ⟨next, dirs⟩ := orderly.act fits.1
    exact ih (shown.act orderly plain fits.1 back.1) next
      (fun deed h => (fits.2 deed h).of_sameDirectories dirs) back.2

/-- Whatever is done to the catalogs of a directory, by any number of handles: no catalog has two, a
lock stands exactly beside an open catalog, and documents are up to date; one more deed touches no
other catalog, and nothing at all if it fails. A catalog whose values come back as themselves is
what a single handle makes of all that has happened to it. -/
theorem acts_compose {s : Store} {deeds : List Deed}
    (unlocked : ∀ n, IsPlain n → s.file? (lockPath (pathOf d n)) = none)
    (fits : ∀ deed ∈ deeds, deed.Fits d s) :
    let w := (⟨s, []⟩ : World).acts d deeds
    w.Custody d ∧
      (∀ deed : Deed, deed.Fits d s →
        (∀ f, (w.act d deed).1 = .error f → (w.act d deed).2 = w) ∧
          ∀ n, IsPlain n → (∀ e, w.aim? d deed ≠ some (pathOf d n, e)) → ∀ role : Role,
            (w.act d deed).2.store.file? (role.path (pathOf d n)) =
              w.store.file? (role.path (pathOf d n))) ∧
      ∀ n, IsPlain n → (∀ c, s.catalogAt? (pathOf d n) = some c → c.reread? = some c) →
        (∀ e ∈ history d (pathOf d n) ⟨s, []⟩ deeds, e.ComesBack) →
        w.Shown (pathOf d n) ((history d (pathOf d n) ⟨s, []⟩ deeds).foldl Event.replay
          (s.catalogAt? (pathOf d n))) := by
  have start : Orderly d ⟨s, []⟩ := orderly_of_unlocked unlocked
  obtain ⟨orderly, dirs⟩ := start.acts fits
  refine ⟨orderly.custody, fun deed next => ?_, fun n plain stable back => ?_⟩
  · have next := next.of_sameDirectories dirs
    exact ⟨fun f => orderly.act_of_error next, fun n plain => orderly.file_other next plain⟩
  · have shown : Shown (pathOf d n) ⟨s, []⟩ (s.catalogAt? (pathOf d n)) := ⟨stable, rfl, by simp⟩
    exact shown.acts start plain fits back

def Deed.ComesBack : Deed → Prop
  | change _ m => m.ComesBack
  | _ => True

theorem comesBack_of_aim? (back : deed.ComesBack) (aim : w.aim? d deed = some (path, e)) :
    e.ComesBack := by
  cases deed with
  | change i m =>
    obtain ⟨h, -, he⟩ := Option.map_eq_some_iff.mp aim
    exact (Prod.mk.inj he).2 ▸ back
  | close i | drop i =>
    obtain ⟨h, -, he⟩ := Option.map_eq_some_iff.mp aim
    exact (Prod.mk.inj he).2 ▸ trivial
  | create | openAt | delete => exact (Prod.mk.inj (Option.some.inj aim)).2 ▸ trivial
  | wait => cases aim

theorem comesBack_of_mem_history {deeds : List Deed} (back : ∀ deed ∈ deeds, deed.ComesBack) :
    ∀ e ∈ history d path w deeds, e.ComesBack := by
  induction deeds generalizing w with
  | nil => simp [history]
  | cons deed deeds ih =>
    rw [List.forall_mem_cons] at back
    rw [history, List.forall_mem_append]
    refine ⟨fun e he => ?_, ih back.2⟩
    unfold happening at he
    split at he
    · next path' e' _ aim =>
      split at he
      · exact comesBack_of_aim? back.1 (List.mem_singleton.mp he ▸ aim)
      · cases he
    · cases he

theorem acts_append (w : World) (deeds more : List Deed) :
    w.acts d (deeds ++ more) = (w.acts d deeds).acts d more := List.foldl_append

theorem history_append (w : World) (deeds more : List Deed) :
    history d path w (deeds ++ more) =
      history d path w deeds ++ history d path (w.acts d deeds) more := by
  induction deeds generalizing w with
  | nil => rfl
  | cons deed deeds ih =>
    rw [List.cons_append, history, history, ih, List.append_assoc]
    rfl

/-- An opening shows nothing new, whether it goes well or not. -/
theorem foldl_replay_openAt (w : World) (c : Option Catalog) :
    (history d path w [.openAt n]).foldl Event.replay c = c := by
  simp only [history, happening, aim?, List.append_nil]
  split
  · next found =>
    split
    · obtain ⟨-, rfl⟩ := Prod.mk.inj (Option.some.inj found)
      rfl
    · rfl
  · rfl

/-- The one handle on a catalog finds it as its document is read. -/
theorem handles_openAt {c c' : Catalog} (closed : w.handles = [])
    (written : w.store.file? (pathOf d n) = some (.text c.toText))
    (lock : (w.store.create (lockPath (pathOf d n))).isOk = true) (read : c.reread? = some c') :
    (w.acts d [.openAt n]).handles = [⟨pathOf d n, c'⟩] := by
  cases made : w.store.create (lockPath (pathOf d n)) with
  | error e =>
    rw [made] at lock
    cases lock
  | ok t =>
    have present : w.store.isFile (pathOf d n) = true := by
      rw [Store.isFile_eq_isSome, written]
      rfl
    have text := (CatalogHandle.read_lock (CatalogHandle.getLast?_pathOf d n) made).mpr
      (Store.read_eq_ok_iff_file?.mpr written)
    have parsed : Catalog.parse? c.toText = some (Catalog.formatVersion, c') := by
      rw [Catalog.parse?_toText, read]
      rfl
    have opened := CatalogHandle.run_openAt present made text parsed
    simp only [acts, List.foldl_cons, List.foldl_nil, act, opening, opened, closed, List.nil_append]

/-! ### A number from one handle to the next -/

def storing (n : Number) : List Deed :=
  [.create "s" "s", .change 0 (.appendTable "t" [⟨"k", ⟨.double, 8, true⟩⟩]),
    .change 0 (.insert "t" (Collision.row n)), .close 0]

/-- A number is stored through one handle, and there is another one on the catalog in the end. -/
def handOver (n : Number) : List Deed := storing n ++ [.openAt "s"]

def holding (n : Number) : Catalog :=
  ⟨"s", .epoch, [⟨"t", [⟨"k", ⟨.double, 8, true⟩⟩], [], [Collision.row n]⟩]⟩

/-- An integer that fits is there for the next handle. -/
theorem acts_compose_int :
    (∀ n, IsPlain n → Store.empty.file? (lockPath (pathOf "." n)) = none) ∧
      (∀ deed ∈ handOver (.int 1), deed.Fits "." Store.empty) ∧
      (∀ e ∈ history "." (pathOf "." "s") ⟨Store.empty, []⟩ (handOver (.int 1)), e.ComesBack) ∧
      ((⟨Store.empty, []⟩ : World).acts "." (handOver (.int 1))).Custody "." ∧
      ((⟨Store.empty, []⟩ : World).acts "." (handOver (.int 1))).Shown (pathOf "." "s")
        (some (holding (.int 1))) := by
  have unlocked (n : String) (_ : IsPlain n) := Store.file?_empty (lockPath (pathOf "." n))
  have plain : IsPlain "s" := by
    unfold IsPlain
    decide
  have admits : Store.empty.Admits (pathOf "." "s") := fun _ =>
    ⟨["s.jet.tmp"], ["s.jet.json"], eq_ok_of_toOption (by decide +kernel), by decide,
      eq_ok_of_toOption (by decide +kernel), by decide⟩
  have fits : ∀ deed ∈ handOver (.int 1), deed.Fits "." Store.empty := by
    simp [handOver, storing, Deed.Fits, plain, admits]
  have back : ∀ e ∈ history "." (pathOf "." "s") ⟨Store.empty, []⟩ (handOver (.int 1)),
      e.ComesBack := by
    have number : (Json.number (.int 1)).ComesBack := by
      unfold Json.ComesBack
      decide +kernel
    refine comesBack_of_mem_history ?_
    simp [handOver, storing, Deed.ComesBack, Mutation.ComesBack, Collision.row, number]
  have empty : ∀ c, Store.empty.catalogAt? (pathOf "." "s") = some c → c.reread? = some c := by
    intro c hc
    unfold Store.catalogAt? at hc
    rw [Store.file?_empty] at hc
    cases hc
  have replayed : (history "." (pathOf "." "s") ⟨Store.empty, []⟩ (handOver (.int 1))).foldl
      Event.replay (Store.empty.catalogAt? (pathOf "." "s")) = some (holding (.int 1)) := by
    rw [handOver, history_append, List.foldl_append, foldl_replay_openAt]
    decide +kernel
  obtain ⟨custody, -, shown⟩ := acts_compose unlocked fits
  exact ⟨unlocked, fits, back, custody, replayed ▸ shown "s" plain empty back⟩

/-- A double is read as the one next to it: the next handle has a catalog that no single handle
would have. -/
theorem acts_lose_double :
    ((⟨Store.empty, []⟩ : World).acts "."
        (handOver (.double ⟨false, 6516913984057057, -100⟩))).handles.map (·.catalog) =
      [holding (.double ⟨false, 6516913984057058, -100⟩)] ∧
    (history "." (pathOf "." "s") ⟨Store.empty, []⟩
        (handOver (.double ⟨false, 6516913984057057, -100⟩))).foldl Event.replay
      (Store.empty.catalogAt? (pathOf "." "s")) =
      some (holding (.double ⟨false, 6516913984057057, -100⟩)) ∧
    holding (.double ⟨false, 6516913984057058, -100⟩) ≠
      holding (.double ⟨false, 6516913984057057, -100⟩) := by
  have written : ((⟨Store.empty, []⟩ : World).acts "."
      (storing (.double ⟨false, 6516913984057057, -100⟩))).store.file? (pathOf "." "s") =
      some (.text (holding (.double ⟨false, 6516913984057057, -100⟩)).toText) := by
    decide +kernel
  have read : (holding (.double ⟨false, 6516913984057057, -100⟩)).reread? =
      some (holding (.double ⟨false, 6516913984057058, -100⟩)) := by
    decide +kernel
  refine ⟨?_, ?_, by decide⟩
  · have found := handles_openAt (by decide +kernel) written (by decide +kernel) read
    rw [handOver, acts_append, found]
    rfl
  · rw [handOver, history_append, List.foldl_append, foldl_replay_openAt]
    decide +kernel

end World

end Tabular
