import Tabular.Proofs.Completion

/-!
A catalog that is created twice. Where a run has succeeded it succeeds again, with the same report,
whatever rows come and go in between; the tables, columns and keys are the same, but for foreign
keys that had no table to refer to until the first run made it.
-/
namespace Tabular

open CatalogHandle (lockPath draftPath Writable Lasts HasDocument)

def Schema.madeNames (s : Schema) (o : Options) : List String :=
  (s.placedTables o).filterMap fun t => (t.storedName o).toOption

theorem Schema.Placement.names_eq_madeNames {s : Schema} {o : Options} (p : s.Placement o) :
    p.names = s.madeNames o := by
  have made : s.madeNames o =
      (p.names.map (Except.ok : String → Except Fault String)).filterMap Except.toOption := by
    rw [p.names_eq, List.filterMap_map]
    rfl
  rw [made, List.filterMap_map]
  exact (List.filterMap_some (l := p.names)).symm

def Mutation.OnRows : Mutation → Prop
  | insert .. | deleteRows .. => True
  | _ => False

theorem Mutation.bare_settle {m : Mutation} (rows : m.OnRows) (c : Catalog) :
    (m.settle c).tables.map (·.bare) = c.tables.map (·.bare) := by
  cases applied : m.apply c with
  | error e =>
    rw [settle, applied]
    rfl
  | ok c' =>
    rw [settle_of_ok applied]
    cases m with
    | insert =>
      obtain ⟨tables, frames, rfl⟩ := Catalog.sameFrame_insert applied
      exact (StoredTable.forall₂_sameFrame_iff.mp frames).symm
    | deleteRows =>
      obtain ⟨removed, deleted⟩ := apply_deleteRows_eq_ok applied
      obtain ⟨tables, frames, rfl⟩ := Catalog.sameFrame_deleteRows deleted
      exact (StoredTable.forall₂_sameFrame_iff.mp frames).symm
    | appendTable | appendKey | dropTable => exact rows.elim

theorem Mutation.legible_settle {m : Mutation} (legible : m.IsLegible) {c : Catalog}
    (hc : c.Legible) : (m.settle c).Legible := by
  cases applied : m.apply c with
  | error e =>
    rw [settle, applied]
    exact hc
  | ok c' =>
    rw [settle_of_ok applied]
    exact legible_of_apply legible applied hc

/-- A catalog that can be read again, with tables that are known but for their rows. -/
def Catalog.IsBare (tables : List StoredTable) (c : Catalog) : Prop :=
  c.Legible ∧ c.tables.map (·.bare) = tables

theorem Catalog.lasts_isBare (tables : List StoredTable) : Lasts (IsBare tables) := by
  rintro c ⟨legible, rfl⟩
  obtain ⟨c', read, legible', frames⟩ := legible.exists_reread?
  exact ⟨c', read, legible', (StoredTable.forall₂_sameFrame_iff.mp frames).symm⟩

/-- A change that is accepted is in the document after a visit. -/
theorem CatalogHandle.read_visit {s : Store} {path : String} {m : Mutation} {c c' : Catalog}
    (ends : path.toList.getLast? = some 'n') (found : s.catalogAt? path = some c)
    (free : s.file? (lockPath path) = none) (place : s.HasPlace (lockPath path))
    (writable : Writable s path) (accepted : m.apply c = .ok c') :
    (s.run (visit path [m])).2.read path = .ok c'.toText := by
  obtain ⟨t, opened, held, dirs⟩ := exists_run_openAt ends found free place
  obtain ⟨e, refused, -⟩ | ⟨d, u, applied, run, read, changes⟩ :=
    run_commit (h := ⟨path, c⟩) (writable.of_sameDirectories dirs) (m.apply c)
  · rw [accepted] at refused
    cases refused
  obtain rfl := Except.ok.inj (accepted.symm.trans applied)
  have task : t.run (m.task ⟨path, c⟩) = ((.ok (), ⟨path, c'⟩), u) := (m.run_task _ t).trans run
  obtain ⟨-, release⟩ := run_abandon (s := u) ⟨path, c'⟩
    ((file_lockPath ends changes).trans held)
  have visited : (s.run (visit path [m])).2 = (u.run (abandon ⟨path, c'⟩)).2 := by
    unfold visit
    rw [Store.run_bind, opened]
    dsimp only
    rw [Store.run_bind, perform, Store.run_bind, task]
    rfl
  rw [visited, Store.read_eq_ok_iff_file?, release.file_of_ne (base_lockPath_ne ends)]
  exact Store.read_eq_ok_iff_file?.mp read

def Json.nested : Nat → Json
  | 0 => .null
  | depth + 1 => .array [nested depth]

namespace CatalogDirectory

variable {d : CatalogDirectory} {s : Schema} {o : Options} {store store₁ store₂ store₃ : Store}
  {path : String} {c₁ c₂ : Catalog} {report : Report}

theorem tablesBefore_eq_nil (anew : o.startsOver = true) : tablesBefore store path o = [] :=
  if_pos anew

theorem tablesBefore_eq_tables (stays : o.startsOver = false)
    (document : store.catalogAt? path = some c₁) : tablesBefore store path o = c₁.tables := by
  obtain ⟨text, read, parsed⟩ := Store.catalogAt?_eq_some_iff.mp document
  have kept : ¬ (o.overwrite && !o.useExisting) = true := Bool.eq_false_iff.mp stays
  rw [tablesBefore, if_neg kept, Store.tablesAt, read]
  dsimp only
  rw [parsed]
  rfl

namespace Settled

variable (first : Settled s o path store store₁ c₁)

include first

theorem rows_eq_nil {t : StoredTable} (ht : t ∈ c₁.tables)
    (named : (s.madeNames o).any (sameName t.name) = true) : t.rows = [] := by
  obtain ⟨p, found, filled, -, applied, follow⟩ := first.filled
  obtain ⟨u, hu, follows⟩ := exists_of_forall₂_right follow ht
  refine follows.empty (p.rows_of_apply applied hu ?_)
  rw [p.names_eq_madeNames, ← follows.frame.name]
  exact named

/-- Where every foreign key to a table that is made has had that table, there is none to lose. -/
theorem purged_of_anchored
    (anchored : Catalog.Anchored (s.madeNames o) (tablesBefore store path o)) :
    c₁.tables.map (·.bare.purged (s.madeNames o)) = c₁.tables.map (·.bare) := by
  obtain ⟨p, found, filled, before, applied, follow⟩ := first.filled
  have same := StoredTable.forall₂_sameFrame_iff.mp (follow.imp fun _ _ h => h.frame)
  rw [← before, ← p.names_eq_madeNames] at anchored
  calc c₁.tables.map (·.bare.purged (s.madeNames o))
      = (c₁.tables.map (·.bare)).map (·.purged (s.madeNames o)) := by rw [List.map_map]; rfl
    _ = (filled.tables.map (·.purged p.names)).map (·.bare) := by
      rw [← same, ← p.names_eq_madeNames, List.map_map, List.map_map]
      exact List.map_congr_left fun t _ => (t.bare_purged p.names).symm
    _ = c₁.tables.map (·.bare) := by rw [p.map_purged_of_anchored applied anchored, same]

/-- A run that has succeeded succeeds again, if nothing but rows has changed. -/
theorem exists_again (hp : d.catalogPath s.name = .ok path) (dirs : store₁.SameDirectories store₂)
    (free : store₂.file? (lockPath path) = none)
    (between : o.startsOver = false →
      HasDocument (fun e => e.tables.map (·.bare) = c₁.tables.map (·.bare)) path store₂) :
    ∃ report store₃, store₂.attempt (d.create s o) = (.ok report, store₃) := by
  have ends := catalogPath_eq_ok hp
  have place := first.place.of_sameDirectories dirs
  have writable := fun some => (first.writable some).of_sameDirectories dirs
  obtain ⟨p, found, filled, -, applied, follow⟩ := first.filled
  cases start : o.startsOver with
  | true =>
    obtain ⟨e, step, t, hopen, none_, held, dirs'⟩ :=
      exists_openFor_new hp start free place (writable (.inl start))
    obtain ⟨e', again⟩ := p.exists_apply applied (e := e) fun name _ => by
      rw [none_, Catalog.single_iff_pairwise]
      exact .nil
    exact exists_create ends hopen held
      (fun some => (writable (.inr some)).of_sameDirectories dirs') again
  | false =>
    obtain ⟨e, document, same⟩ := between start
    obtain ⟨step, t, hopen, held, dirs'⟩ := exists_openFor_found hp start document free place
    have frames := StoredTable.forall₂_sameFrame_iff.mp (follow.imp fun _ _ h => h.frame)
    obtain ⟨e', again, -⟩ :=
      p.apply_again applied (StoredTable.forall₂_sameFrame_iff.mpr (frames.trans same.symm))
    exact exists_create ends hopen held
      (fun some => (writable (.inr some)).of_sameDirectories dirs') again

/-- The tables that a second run leaves are those of the first one, but for rows and for foreign
keys to tables that the runs make. -/
theorem bare_again (second : Settled s o path store₂ store₃ c₂)
    (between : o.startsOver = false →
      (tablesBefore store₂ path o).map (·.bare) = c₁.tables.map (·.bare)) :
    c₂.tables.map (·.bare) = c₁.tables.map (·.bare.purged (s.madeNames o)) := by
  obtain ⟨p, found, filled, before, applied, follow⟩ := first.filled
  obtain ⟨q, found', filled', before', applied', follow'⟩ := second.filled
  obtain rfl := p.eq q
  have same := StoredTable.forall₂_sameFrame_iff.mp (follow.imp fun _ _ h => h.frame)
  have same' := StoredTable.forall₂_sameFrame_iff.mp (follow'.imp fun _ _ h => h.frame)
  have again :
      filled'.tables.map (·.bare) = (filled.tables.map (·.purged p.names)).map (·.bare) := by
    cases start : o.startsOver with
    | true =>
      obtain ⟨gone, -, tables⟩ := p.apply_beside applied
      obtain ⟨gone', -, tables'⟩ := p.apply_beside applied'
      rw [before, tablesBefore_eq_nil start] at tables
      rw [before', tablesBefore_eq_nil start] at tables'
      rw [tables', tables]
      exact congrArg (List.map _) p.map_purged_made.symm
    | false =>
      rw [← before'] at between
      obtain ⟨e, applied'', frames⟩ := p.apply_again applied
        (StoredTable.forall₂_sameFrame_iff.mpr (same.trans (between start).symm))
      obtain rfl := Except.ok.inj (applied'.symm.trans applied'')
      exact (StoredTable.forall₂_sameFrame_iff.mp frames).symm
  calc c₂.tables.map (·.bare)
      = (filled.tables.map (·.purged p.names)).map (·.bare) := same'.symm.trans again
    _ = (filled.tables.map (·.bare)).map (·.purged p.names) := by
      rw [List.map_map, List.map_map]
      exact List.map_congr_left fun t _ => t.bare_purged p.names
    _ = c₁.tables.map (·.bare.purged (s.madeNames o)) := by
      rw [same, List.map_map, p.names_eq_madeNames]
      rfl

end Settled

/-- A run that has succeeded succeeds again, with the same report, whatever rows have come and gone
in between, if what has come can be read again or the catalog is made anew anyway. The tables are
the same, with their columns and keys and in the same order, and those made are empty: only foreign
keys can go that had no table to refer to before the first run. -/
theorem create_again (h : store.attempt (d.create s o) = (.ok report, store₁)) :
    ∃ path c₁, d.catalogPath s.name = .ok path ∧ store₁.catalogAt? path = some c₁ ∧
      ∀ (visits : List (List Mutation)) (clock : Timestamp),
        (∀ ms ∈ visits, ∀ m ∈ ms, m.OnRows) →
        (o.startsOver = false → ∀ ms ∈ visits, ∀ m ∈ ms, m.IsLegible) →
        ∃ store₂ c₂,
          { store₁.visited path visits with clock }.attempt (d.create s o) = (.ok report, store₂) ∧
          store₂.catalogAt? path = some c₂ ∧
          c₂.tables.map (·.bare) = c₁.tables.map (·.bare.purged (s.madeNames o)) ∧
          (Catalog.Anchored (s.madeNames o) (tablesBefore store path o) →
            c₂.tables.map (·.bare) = c₁.tables.map (·.bare)) ∧
          ∀ t ∈ c₂.tables, (s.madeNames o).any (sameName t.name) = true → t.rows = [] := by
  obtain ⟨path, c₁, hp, first⟩ := settled_of_create h
  refine ⟨path, c₁, hp, first.document, fun visits clock rows legible => ?_⟩
  have ends := catalogPath_eq_ok hp
  obtain ⟨free, dirs⟩ := Store.free_visited ends visits first.free
  have tick := World.changesOnly_clock (store₁.visited path visits) clock
  have document : o.startsOver = false → HasDocument (Catalog.IsBare (c₁.tables.map (·.bare))) path
      { store₁.visited path visits with clock } := by
    intro stays
    refine HasDocument.of_file? ?_ (tick.file path (by simp))
    refine Store.hasDocument_visited (Catalog.lasts_isBare _) ends (fun ms hms m hm c hc => ?_)
      ⟨c₁, first.document, first.legible, rfl⟩
    exact ⟨Mutation.legible_settle (legible stays ms hms m hm) hc.1,
      (Mutation.bare_settle (rows ms hms m hm) c).trans hc.2⟩
  obtain ⟨report', store₃, again⟩ := first.exists_again hp (dirs.trans tick.directories)
    ((tick.file _ (by simp)).trans free) fun stays => by
      obtain ⟨e, he, -, same⟩ := document stays
      exact ⟨e, he, same⟩
  obtain ⟨path', c₂, hp', second⟩ := settled_of_create again
  obtain rfl : path = path' := Except.ok.inj (hp.symm.trans hp')
  have same := first.bare_again second fun stays => by
    obtain ⟨e, he, -, same⟩ := document stays
    rw [tablesBefore_eq_tables stays he, same]
  refine ⟨store₃, c₂, ?_, second.document, same, fun anchored => ?_, fun t => second.rows_eq_nil⟩
  · rw [again, create_report again, create_report h]
  · rw [same, first.purged_of_anchored anchored]

theorem create_again_forest :
    let s : Schema := ⟨"Forest", [⟨"Tree Node", [⟨"Id", some .int32, none, -1, true⟩,
      ⟨"Up", some .int32, none, -1, true⟩], some ["Id"]⟩],
      [⟨"Above", "Tree Node", ["Id"], "Tree Node", ["Up"]⟩]⟩
    let store : Store := { clock := .epoch }
    let d : CatalogDirectory := ⟨"."⟩
    let root : Mutation := .insert "tree_node" [("id", .number (.int 1))]
    let leaf : Mutation :=
      .insert "tree_node" [("id", .number (.int 2)), ("up", .number (.int 1))]
    let visits := [[root, leaf], [.deleteRows "tree_node" [("id", .number (.int 2))]]]
    ∃ report store₁ path c₁, store.attempt (d.create s {}) = (.ok report, store₁) ∧
      d.catalogPath s.name = .ok path ∧ store₁.catalogAt? path = some c₁ ∧
      (∀ ms ∈ visits, ∀ m ∈ ms, m.OnRows) ∧ (∀ ms ∈ visits, ∀ m ∈ ms, m.IsLegible) ∧
      Catalog.Anchored (s.madeNames {}) (tablesBefore store path {}) ∧
      ∃ store₂ c₂,
        { store₁.visited path visits with clock := .epoch }.attempt (d.create s {}) =
          (.ok report, store₂) ∧
        store₂.catalogAt? path = some c₂ ∧
        c₂.tables.map (·.bare) = c₁.tables.map (·.bare.purged (s.madeNames {})) ∧
        c₂.tables.map (·.bare) = c₁.tables.map (·.bare) ∧
        ∀ t ∈ c₂.tables, (s.madeNames {}).any (sameName t.name) = true → t.rows = [] := by
  intro s store d root leaf visits
  have ok : (store.attempt (d.create s {})).1.isOk = true := by decide +kernel
  have place : d.catalogPath s.name = .ok "./forest.jet.json" :=
    eq_ok_of_toOption (by decide +kernel)
  have start : tablesBefore store "./forest.jet.json" {} = [] := by decide +kernel
  rcases h : store.attempt (d.create s {}) with ⟨_ | report, store₁⟩
  · rw [h] at ok
    cases ok
  obtain ⟨path, c₁, hp, document, again⟩ := create_again h
  obtain rfl : "./forest.jet.json" = path := Except.ok.inj (place.symm.trans hp)
  have rows : ∀ ms ∈ visits, ∀ m ∈ ms, m.OnRows := by
    simp [visits, root, leaf, Mutation.OnRows]
  have legible : ∀ ms ∈ visits, ∀ m ∈ ms, m.IsLegible := by
    simp only [visits, root, leaf, Mutation.IsLegible, List.forall_mem_cons, List.not_mem_nil,
      false_imp_iff, implies_true, and_true, Json.FitsIn, Number.IsMachine]
    decide
  have anchored :
      Catalog.Anchored (s.madeNames {}) (tablesBefore store "./forest.jet.json" {}) := by
    rw [start]
    intro t ht
    cases ht
  obtain ⟨store₂, c₂, run, found, purged, same, empty⟩ := again visits .epoch rows fun _ => legible
  exact ⟨report, store₁, _, c₁, rfl, place, document, rows, legible, anchored, store₂, c₂, run,
    found, purged, same anchored, empty⟩

/-! ### Where two runs differ -/

/-- A run that keeps a document succeeds only if there is a catalog in it. -/
theorem exists_catalogAt?_of_create (hp : d.catalogPath s.name = .ok path)
    (stays : o.startsOver = false) (present : store.isFile path = true)
    (h : store.attempt (d.create s o) = (.ok report, store₁)) :
    ∃ c, store.catalogAt? path = some c := by
  obtain ⟨handle, step, t, filled, u, hopen, -⟩ := attempt_create_eq_ok_iff.mp h
  obtain ⟨path', hp', ⟨-, opened⟩ | ⟨anew | missing, -⟩⟩ := attempt_openFor_source hopen
  · obtain rfl : path = path' := Except.ok.inj (hp.symm.trans hp')
    obtain ⟨-, found, -⟩ := CatalogHandle.run_openAt_found (catalogPath_eq_ok hp) opened
    exact ⟨_, found⟩
  · rw [stays] at anew
    cases anew
  · obtain rfl : path = path' := Except.ok.inj (hp.symm.trans hp')
    rw [present] at missing
    cases missing

/-- No run succeeds once a change has been accepted that cannot be read again. -/
theorem Settled.create_ne_ok (first : Settled s o path store store₁ c₁)
    (hp : d.catalogPath s.name = .ok path) (stays : o.startsOver = false)
    (places : s.placedTables o ≠ []) {m : Mutation} {c : Catalog} (accepted : m.apply c₁ = .ok c)
    (unread : c.reread? = none) (report : Report) (store₂ : Store) :
    (store₁.visited path [[m]]).attempt (d.create s o) ≠ (.ok report, store₂) := by
  have written : (store₁.visited path [[m]]).read path = .ok c.toText :=
    CatalogHandle.read_visit (catalogPath_eq_ok hp) first.document first.free first.place
      (first.writable (.inr places)) accepted
  intro again
  have present : (store₁.visited path [[m]]).isFile path = true := by
    rw [Store.isFile_eq_isSome, Store.read_eq_ok_iff_file?.mp written]
    rfl
  obtain ⟨c', found⟩ := exists_catalogAt?_of_create hp stays present again
  obtain ⟨text, read, parsed⟩ := Store.catalogAt?_eq_some_iff.mp found
  obtain rfl := Except.ok.inj (written.symm.trans read)
  rw [Catalog.parse?_toText, unread] at parsed
  cases parsed

def looseKey : StoredKey := { StoredKey.foreign "k" [] "b" [] with deleteRule := .nothing }

/-- A document that has a foreign key to a missing table, and another table with a column for dates,
in which any value can be stored. -/
def looseStore : Store :=
  let column := "\x7b\"name\":\"d\",\"data_type\":\"Date\",\"defined_size\":8,\"nullable\":true\x7d"
  let text := "[1,\"s\",\"1970-01-01T00:00:00Z\",[" ++
    "[\"a\",[],[[\"k\",\"foreign\",[],\"b\",[],\"none\",\"none\"]]],[\"c\",[" ++ column ++ "]]]]"
  ⟨[(["s.jet.json"], .file (.text text))], [], .epoch⟩

def looseSchema : Schema := ⟨"s", [⟨"b", [], none⟩], []⟩

def dateTable : StoredTable := ⟨"c", [⟨"d", ⟨.date, 8, true⟩⟩], [], []⟩

theorem tablesBefore_looseStore :
    tablesBefore looseStore "./s.jet.json" {} = [⟨"a", [], [looseKey], []⟩, dateTable] := by
  decide +kernel

theorem madeNames_looseSchema : looseSchema.madeNames {} = ["b"] := by decide

theorem Settled.tables_looseSchema
    (first : Settled looseSchema {} "./s.jet.json" looseStore store₁ c₁) :
    ∃ rest, c₁.tables = ⟨"a", [], [looseKey], []⟩ :: dateTable :: rest := by
  obtain ⟨p, found, filled, before, applied, follow⟩ := first.filled
  have names : p.names = ["b"] := p.names_eq_madeNames.trans madeNames_looseSchema
  obtain ⟨-, tables⟩ := p.apply_tables applied (by rw [names]; decide)
  have kept : Catalog.keptTables ["b"] [⟨"a", [], [looseKey], []⟩, dateTable] =
      [⟨"a", [], [looseKey], []⟩, dateTable] := by
    decide
  rw [names, before, tablesBefore_looseStore, kept] at tables
  rw [tables] at follow
  obtain ⟨t, us, ht, follow, eq⟩ := List.forall₂_cons_left_iff.mp follow
  obtain ⟨u, rest, hu, -, rfl⟩ := List.forall₂_cons_left_iff.mp follow
  exact ⟨rest, by rw [eq, ht.eq_of_empty rfl, hu.eq_of_empty rfl]⟩

/-- A foreign key that the first run leaves is gone after the second; and a value that nests too
deep makes the document one that cannot be read. -/
theorem create_differs_again :
    let run := (⟨"."⟩ : CatalogDirectory).create looseSchema {}
    ∃ report store₁ c₁, looseStore.attempt run = (.ok report, store₁) ∧
      store₁.catalogAt? "./s.jet.json" = some c₁ ∧
      (∃ store₂ c₂, store₁.attempt run = (.ok report, store₂) ∧
        store₂.catalogAt? "./s.jet.json" = some c₂ ∧
        c₂.tables.map (·.bare) ≠ c₁.tables.map (·.bare)) ∧
      ∀ report' store₂,
        (store₁.visited "./s.jet.json" [[.insert "c" [("d", .nested 123)]]]).attempt run ≠
          (.ok report', store₂) := by
  intro run
  have ok : (looseStore.attempt run).1.isOk = true := by decide +kernel
  have place : (⟨"."⟩ : CatalogDirectory).catalogPath looseSchema.name = .ok "./s.jet.json" :=
    eq_ok_of_toOption (by decide +kernel)
  rcases h : looseStore.attempt run with ⟨_ | report, store₁⟩
  · rw [h] at ok
    cases ok
  obtain ⟨path, c₁, hp, first⟩ := settled_of_create h
  obtain rfl : "./s.jet.json" = path := Except.ok.inj (place.symm.trans hp)
  obtain ⟨rest, tables⟩ := first.tables_looseSchema
  refine ⟨report, store₁, c₁, rfl, first.document, ?_, ?_⟩
  · obtain ⟨report', store₂, again⟩ :=
      first.exists_again hp (.refl _) first.free fun _ => ⟨c₁, first.document, rfl⟩
    obtain ⟨path, c₂, hp', second⟩ := settled_of_create again
    obtain rfl : "./s.jet.json" = path := Except.ok.inj (place.symm.trans hp')
    have same := first.bare_again second fun stays => by
      rw [tablesBefore_eq_tables stays first.document]
    refine ⟨store₂, c₂, ?_, second.document, fun still => ?_⟩
    · rw [again, create_report again, create_report h]
    · rw [same, tables, madeNames_looseSchema] at still
      exact absurd (List.cons.inj still).1 (by decide +kernel)
  · have some : looseSchema.placedTables {} ≠ [] := by decide +kernel
    let filled : StoredTable := { dateTable with rows := [[("d", .nested 123)]] }
    have accepted : (Mutation.insert "c" [("d", .nested 123)]).apply c₁ =
        .ok (c₁.replace 1 filled) := by
      have located : c₁.locate "c" = .ok (1, dateTable) := by
        have other : sameName "a" "c" = false := by decide +kernel
        unfold Catalog.locate
        rw [tables, List.zipIdx_cons, List.zipIdx_cons, List.find?_cons_of_neg (by simp [other]),
          List.find?_cons_of_pos (by exact sameName_refl "c")]
      have coerced : dateTable.coerceAll "c" [("d", .nested 123)] = .ok [("d", .nested 123)] :=
        eq_ok_of_toOption (by decide +kernel)
      have free : dateTable.foreignKeys = [] := rfl
      exact Catalog.RowFits.insert_eq ⟨located, coerced, by decide +kernel, by decide +kernel,
        fun k hk => by rw [free] at hk; cases hk⟩
    have unread : (c₁.replace 1 filled).reread? = none := by
      refine Catalog.reread?_eq_none (t := filled) ?_ (by decide +kernel)
      rw [Catalog.replace, tables]
      exact List.mem_cons_of_mem _ List.mem_cons_self
    exact first.create_ne_ok hp rfl some accepted unread

end CatalogDirectory

end Tabular
