import Tabular.Proofs.CatalogFiles
import Tabular.Proofs.Materialisation
import Tabular.Proofs.Reports

/-!
The session that fills a catalog, when its changes are accepted. What a catalog takes up is written
wherever the document can be; a session without changes needs no such place.
-/
namespace Tabular

namespace CatalogHandle

variable {s t : Store} {h h' : CatalogHandle}

/-- What was saved had its place. -/
theorem writable_of_run_save (hs : s.run h.save = (.ok (), t)) : Writable s h.path := by
  obtain ⟨u, hw, hr⟩ := run_save_ok hs
  obtain ⟨p, hp, freeP, rfl⟩ := Store.write_eq_ok_iff.mp hw
  obtain ⟨-, -, q, -, -, hq, freeQ, -⟩ := Store.rename_eq_ok_iff.mp hr
  have dirs := Store.sameDirectories_put (Store.place_ne_nil hp) (.text h.catalog.toText) freeP
  exact ⟨p, q, hp, freeP, dirs.symm.locate hq, fun d => freeQ ((dirs.directory q).mp d)⟩

theorem writable_of_run_commit {r : Except Refusal Catalog}
    (hs : s.run (h.commit r) = ((.ok (), h'), t)) : Writable s h.path := by
  cases r with
  | error e => cases hs
  | ok c =>
    unfold commit at hs
    dsimp only at hs
    rw [Store.run_bind] at hs
    rcases hw : s.run (save ⟨h.path, c⟩) with ⟨_ | ⟨⟩, u⟩
    · rw [hw] at hs
      cases hs
    · exact writable_of_run_save (h := ⟨h.path, c⟩) hw

end CatalogHandle

namespace CatalogSession

open CatalogHandle (Writable draftPath)

variable {α β : Type} {home : Store} {path : String} {a : α} {b : β} {c c' c'' : Catalog}

/-- Wherever directories stand as in a store, a session takes one catalog to another. -/
def Carries (home : Store) (path : String) (m : CatalogSession α) (c : Catalog) (a : α)
    (c' : Catalog) : Prop :=
  ∀ s, home.SameDirectories s → ∃ t, exec m ⟨path, c⟩ s = ((.ok a, ⟨path, c'⟩), t) ∧
    s.ChangesOnly [draftPath path, path] t

namespace Carries

theorem pure : Carries home path (Pure.pure a) c a c := fun s _ => ⟨s, rfl, .refl _ s⟩

theorem ofExcept : Carries home path (CatalogSession.ofExcept (.ok a)) c a c :=
  fun s _ => ⟨s, rfl, .refl _ s⟩

theorem get : Carries home path get c ⟨path, c⟩ c := fun s _ => ⟨s, rfl, .refl _ s⟩

theorem bind {m : CatalogSession α} {k : α → CatalogSession β} (hm : Carries home path m c a c')
    (hk : Carries home path (k a) c' b c'') : Carries home path (m >>= k) c b c'' := by
  intro s dirs
  obtain ⟨t, first, changes⟩ := hm s dirs
  obtain ⟨u, second, changes'⟩ := hk t (dirs.trans changes.directories)
  exact ⟨u, exec_bind_eq_ok_iff.mpr ⟨a, _, t, first, second⟩, changes.trans changes'⟩

/-- A change that is accepted is written. -/
theorem commit {r : Catalog → Except Refusal Catalog} (writable : Writable home path)
    (h : r c = .ok c') : Carries home path (ofStep fun h => h.commit (r h.catalog)) c () c' := by
  intro s dirs
  obtain ⟨e, refused, -⟩ | ⟨d, t, accepted, run, -, changes⟩ :=
    CatalogHandle.run_commit (h := ⟨path, c⟩) (writable.of_sameDirectories dirs) (r c)
  · rw [h] at refused
    cases refused
  · obtain rfl := Except.ok.inj (h.symm.trans accepted)
    exact ⟨t, run, changes⟩

theorem tryCatch {m : CatalogSession α} {handler : Fault → CatalogSession α}
    (hm : Carries home path m c a c') : Carries home path (tryCatch m handler) c a c' := by
  intro s dirs
  obtain ⟨t, done, changes⟩ := hm s dirs
  refine ⟨t, ?_, changes⟩
  rw [exec_tryCatch, done]

/-- A session over elements: those that are left out change nothing, and the others make one change
each. -/
theorem appendEach {kind : CommandKind} {append : α → CatalogSession (Option Fault)}
    {omission? : α → Option Fault} {R : α → β → Prop}
    {change : Catalog → β → Except Refusal Catalog} {xs : List α} {ys : List β} (report : Report)
    (out : ∀ x ∈ xs, ∀ f, omission? x = some f → ∀ c, Carries home path (append x) c (some f) c)
    (inside : ∀ x ∈ xs, omission? x = none → ∀ y c c', R x y → change c y = .ok c' →
      Carries home path (append x) c none c')
    (hys : List.Forall₂ R (xs.filter fun x => (omission? x).isNone) ys)
    (h : ys.foldlM change c = .ok c') :
    Carries home path (CatalogSession.appendEach kind append report xs) c
      (xs.filter (fun x => (omission? x).isNone),
        xs.foldl (fun r x => r.note kind (omission? x)) report) c' := by
  induction xs generalizing c ys report with
  | nil =>
    obtain rfl := List.forall₂_nil_left_iff.mp hys
    obtain rfl : c = c' := Except.ok.inj h
    exact pure
  | cons x xs ih =>
    rw [List.forall_mem_cons] at out inside
    rw [appendEach_cons, List.foldl_cons]
    cases omitted : omission? x with
    | some f =>
      rw [List.filter_cons_of_neg (by simp [omitted])]
      rw [List.filter_cons_of_neg (by simp [omitted])] at hys
      exact (out.1 f omitted c).bind ((ih _ out.2 inside.2 hys h).bind pure)
    | none =>
      rw [List.filter_cons_of_pos (by simp [omitted])]
      rw [List.filter_cons_of_pos (by simp [omitted])] at hys
      obtain ⟨y, rest, hxy, hrest, rfl⟩ := List.forall₂_cons_left_iff.mp hys
      rw [List.foldlM_cons] at h
      obtain ⟨c₁, hchange, h⟩ := bind_eq_ok_iff.mp h
      exact (inside.1 omitted y c c₁ hxy hchange).bind ((ih _ out.2 inside.2 hrest h).bind pure)

theorem forM {act : α → CatalogSession Unit} {R : α → β → Prop}
    {change : Catalog → β → Except Refusal Catalog} {xs : List α} {ys : List β}
    (each : ∀ x ∈ xs, ∀ y c c', R x y → change c y = .ok c' → Carries home path (act x) c () c')
    (hys : List.Forall₂ R xs ys) (h : ys.foldlM change c = .ok c') :
    Carries home path (xs.forM act) c () c' := by
  induction hys generalizing c with
  | nil =>
    obtain rfl : c = c' := Except.ok.inj h
    exact pure
  | cons hxy _ ih =>
    rw [List.forall_mem_cons] at each
    rw [List.foldlM_cons] at h
    obtain ⟨c₁, hchange, h⟩ := bind_eq_ok_iff.mp h
    exact (each.1 _ c c₁ hxy hchange).bind (ih each.2 h)

end Carries

end CatalogSession

theorem catalogName_isArgument {name : String} {f : Fault} (h : catalogName name = .error f) :
    ∃ entity, f.IsArgument entity := by
  unfold catalogName Identifier.forCatalog Identifier.bareOf at h
  cases hv : Identifier.validate name with
  | error g =>
    rw [hv] at h
    obtain rfl : g = f := Except.error.inj h
    exact Identifier.validate_isArgument hv
  | ok _ =>
    rw [hv] at h
    cases h

open CatalogSession hiding ofExcept
open CatalogHandle (Writable)

variable {home : Store} {path : String} {o : Options} {c c' : Catalog}

namespace Table

variable {t : Table}

theorem carries_remakeAs {columns : List StoredColumn} {name : String}
    (writable : Writable home path) (hcolumns : t.storedColumns = .ok columns)
    (h : c.remake name columns = .ok c') : Carries home path (t.remakeAs name) c () c' := by
  have last {c₁ : Catalog} (h : c₁.appendTable name columns = .ok c') :
      Carries home path (do
        let columns ← CatalogSession.ofExcept t.storedColumns
        CatalogSession.ofStep (·.appendTable name columns)) c₁ () c' := by
    rw [hcolumns]
    exact Carries.ofExcept.bind (Carries.commit (r := (·.appendTable name columns)) writable h)
  unfold Catalog.remake at h
  dsimp only at h
  unfold remakeAs
  refine Carries.get.bind ?_
  dsimp only
  split
  · next taken =>
    rw [if_pos taken] at h
    obtain ⟨c₁, hdrop, happend⟩ := bind_eq_ok_iff.mp h
    exact (Carries.commit (r := (·.dropTable name)) writable hdrop).bind (last happend)
  · next free =>
    rw [if_neg free] at h
    exact last h

theorem carries_appendOrSkip {columns : List StoredColumn} {name : String}
    (writable : Writable home path) (hname : t.storedName o = .ok name)
    (hcolumns : t.storedColumns = .ok columns) (h : c.remake name columns = .ok c') :
    Carries home path (t.appendOrSkip o) c none c' := by
  have made : Carries home path (t.append o) c () c' := by
    rw [append_eq, hname]
    exact Carries.ofExcept.bind (carries_remakeAs writable hcolumns h)
  have done : Carries home path (do t.append o; return none) c (none : Option Fault) c' :=
    made.bind Carries.pure
  exact done.tryCatch

/-- A table whose name has no counterpart is left out before anything is done. -/
theorem exec_appendOrSkip_omission {f : Fault} (h : t.omission? o = some f)
    (handle : CatalogHandle) (s : Store) :
    exec (t.appendOrSkip o) handle s = ((.ok (some f), handle), s) := by
  unfold omission? at h
  cases hname : t.storedName o with
  | ok name =>
    rw [hname] at h
    cases h
  | error g =>
    rw [hname] at h
    obtain rfl := Option.some.inj h
    obtain ⟨entity, message, rfl⟩ := catalogName_isArgument hname
    unfold appendOrSkip
    rw [exec_tryCatch, exec_bind, append_eq, exec_bind, exec_ofExcept, hname]
    rfl

theorem carries_omission {f : Fault} (h : t.omission? o = some f) :
    Carries home path (t.appendOrSkip o) c (some f) c :=
  fun s _ => ⟨s, exec_appendOrSkip_omission h _ s, .refl _ s⟩

theorem carries_appendKey {name : String} {key : StoredKey} (writable : Writable home path)
    (hname : t.storedName o = .ok name) (hkey : t.storedKey name = .ok key)
    (h : c.appendKey name key = .ok c') : Carries home path (t.appendKey o) c () c' := by
  unfold appendKey
  rw [hname]
  refine Carries.ofExcept.bind ?_
  rw [hkey]
  exact Carries.ofExcept.bind (Carries.commit (r := (·.appendKey name key)) writable h)

/-! What went well had its place. -/

variable {h h' : CatalogHandle} {s s' : Store}

theorem writable_of_exec_remakeAs {name : String}
    (hx : exec (t.remakeAs name) h s = ((.ok (), h'), s')) : Writable s h.path := by
  unfold remakeAs at hx
  rw [exec_get_bind] at hx
  dsimp only at hx
  split at hx
  · obtain ⟨_, h₂, s₂, hdrop, -⟩ := exec_bind_eq_ok_iff.mp hx
    exact CatalogHandle.writable_of_run_commit hdrop
  · obtain ⟨columns, -, hx⟩ := exec_ofExcept_bind_eq_ok_iff.mp hx
    exact CatalogHandle.writable_of_run_commit hx

theorem writable_of_exec_appendOrSkip {columns : List StoredColumn} {r : Option Fault}
    (hcolumns : t.storedColumns = .ok columns) (inside : t.omission? o = none)
    (hx : exec (t.appendOrSkip o) h s = ((.ok r, h'), s')) : Writable s h.path := by
  obtain ⟨f, hname, -, -, -⟩ | ⟨name, -, -, hremake⟩ := exec_appendOrSkip_cases hcolumns hx
  · unfold omission? at inside
    rw [hname] at inside
    cases inside
  · exact writable_of_exec_remakeAs hremake

end Table

/-- Up to the first element that is not left out nothing happens, and that one is written. -/
theorem CatalogSession.writable_of_exec_appendEach {α : Type} {kind : CommandKind}
    {append : α → CatalogSession (Option Fault)} (omission? : α → Option Fault) {xs : List α}
    {report : Report} {h h' : CatalogHandle} {s s' : Store} {r : List α × Report}
    (out : ∀ x ∈ xs, ∀ f, omission? x = some f →
      ∀ h s, exec (append x) h s = ((.ok (some f), h), s))
    (inside : ∀ x ∈ xs, omission? x = none → ∀ h s r h' s',
      exec (append x) h s = ((.ok r, h'), s') → Writable s h.path)
    (some : ∃ x ∈ xs, omission? x = none)
    (hx : exec (appendEach kind append report xs) h s = ((.ok r, h'), s')) :
    Writable s h.path := by
  induction xs generalizing report h s h' s' r with
  | nil =>
    obtain ⟨x, hmem, -⟩ := some
    cases hmem
  | cons x xs ih =>
    rw [List.forall_mem_cons] at out inside
    obtain ⟨q, h₁, s₁, later, hfirst, hrest, -⟩ := exec_appendEach_cons_eq_ok hx
    cases omitted : omission? x with
    | none => exact inside.1 omitted h s q h₁ s₁ hfirst
    | some f =>
      obtain ⟨-, rfl, rfl⟩ := exec_pure_eq_ok_iff.mp ((out.1 f omitted h s).symm.trans hfirst)
      obtain ⟨y, hy, kept⟩ := some
      rcases List.mem_cons.mp hy with rfl | hy
      · rw [kept] at omitted
        cases omitted
      · exact ih out.2 inside.2 ⟨y, hy, kept⟩ hrest

namespace Relation

variable {r : Relation} {created : List String}

theorem carries_appendOrSkip {p : String × StoredKey} (writable : Writable home path)
    (inside : r.omission? created = none) (hkey : r.storedKey o = .ok p)
    (h : c.appendKey p.1 p.2 = .ok c') :
    Carries home path (r.appendOrSkip o created) c none c' := by
  have both := r.omission?_isNone created
  rw [inside, Option.isNone_none] at both
  unfold appendOrSkip
  rw [if_neg (by rw [← Bool.not_and, ← both]; decide), hkey]
  exact Carries.ofExcept.bind
    ((Carries.commit (r := (·.appendKey p.1 p.2)) writable h).bind Carries.pure)

theorem carries_omission {f : Fault} (h : r.omission? created = some f) :
    Carries home path (r.appendOrSkip o created) c (some f) c := by
  unfold omission? at h
  split at h
  · cases h
  · next missing =>
    obtain rfl := Option.some.inj h
    unfold appendOrSkip
    rw [if_pos (by rw [← Bool.not_and, Bool.eq_false_iff.mpr missing]; rfl)]
    exact Carries.pure

end Relation

namespace Schema

variable {s : Schema} {p : s.Placement o}

/-- A placement that the catalog accepts is what a session makes of it. -/
theorem carries_populate (step : DatabaseStep)
    (writable : s.placedTables o ≠ [] → Writable home path) (h : p.apply c = .ok c') :
    Carries home path (s.populate o step) c (s.fillReport o step) c' := by
  obtain ⟨c₁, c₂, htables, hkeys, hrelations⟩ := Placement.apply_eq_ok_iff.mp h
  have placed : (s.soundTables .catalog).filter (fun t => (t.omission? o).isNone) =
      s.placedTables o := List.filter_congr fun t _ => t.omission?_isNone
  have related : (s.soundRelations .catalog).filter (fun r =>
      (r.omission? ((s.placedTables o).map (·.name))).isNone) = s.placedRelations o :=
    List.filter_congr fun r _ => r.omission?_isNone _
  have tables (report : Report) : Carries home path
      (appendEach .createTable (Table.appendOrSkip · o) report (s.soundTables .catalog)) c
      (s.placedTables o, (s.soundTables .catalog).foldl
        (fun r t => r.note .createTable (t.omission? o)) report) c₁ := by
    refine placed ▸ Carries.appendEach report
      (fun t _ f omitted c => Table.carries_omission omitted)
      (fun t ht inside q d d' hq made => ?_) (placed.symm ▸ p.tables_eq) htables
    have here : t ∈ s.placedTables o := placed ▸ List.mem_filter.mpr ⟨ht, by rw [inside]; rfl⟩
    exact Table.carries_appendOrSkip (writable (List.ne_nil_of_mem here)) hq.1 hq.2 made
  have keys : Carries home path
      (((s.placedTables o).filter (·.hasKey)).forM (Table.appendKey · o)) c₁ () c₂ := Carries.forM
    (fun t ht q d d' hq keyed => Table.carries_appendKey
      (writable (List.ne_nil_of_mem (List.mem_filter.mp ht).1)) hq.1 hq.2 keyed)
    p.primaryKeys_eq hkeys
  have relations (report : Report) : Carries home path (appendEach .foreignKey
      (Relation.appendOrSkip · o ((s.placedTables o).map (·.name))) report
        (s.soundRelations .catalog)) c₂
      (s.placedRelations o, (s.soundRelations .catalog).foldl (fun r x =>
        r.note .foreignKey (x.omission? ((s.placedTables o).map (·.name)))) report) c' := by
    refine related ▸ Carries.appendEach report
      (fun r _ f omitted c => Relation.carries_omission omitted)
      (fun r hr inside q d d' hq keyed => ?_) (related.symm ▸ p.foreignKeys_eq) hrelations
    have here : r ∈ s.placedRelations o := related ▸ List.mem_filter.mpr ⟨hr, by rw [inside]; rfl⟩
    obtain ⟨t, ht, -⟩ := exists_childTable here
    exact Relation.carries_appendOrSkip (writable (List.ne_nil_of_mem ht)) inside hq keyed
  rw [populate_eq, fillReport_eq]
  exact (tables _).bind (keys.bind ((relations _).bind Carries.pure))

theorem writable_of_exec_populate {h h' : CatalogHandle} {t t' : Store} {report : Report}
    (some : s.placedTables o ≠ [])
    (hx : exec (s.populate o step) h t = ((.ok report, h'), t')) : Writable t h.path := by
  rw [populate_eq] at hx
  obtain ⟨tables, h₁, t₁, htables, -⟩ := exec_bind_eq_ok_iff.mp hx
  obtain ⟨u, hu⟩ := List.exists_mem_of_ne_nil _ some
  obtain ⟨hu, named⟩ := List.mem_filter.mp hu
  rw [← Table.omission?_isNone, Option.isNone_iff_eq_none] at named
  refine writable_of_exec_appendEach (Table.omission? · o)
    (fun v _ f omitted h s => Table.exec_appendOrSkip_omission omitted h s)
    (fun v hv inside h s r h' s' hv' => ?_) ⟨u, hu, named⟩ htables
  obtain ⟨-, wf, -⟩ := of_mem_soundTables hv
  obtain ⟨columns, hcolumns⟩ := Table.exists_storedColumns wf
  exact Table.writable_of_exec_appendOrSkip hcolumns inside hv'

end Schema

end Tabular
