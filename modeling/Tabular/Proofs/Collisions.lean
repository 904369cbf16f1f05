import Tabular.Proofs.Histories

/-!
Numbers that are read as one. A key tells them apart when they are inserted, and no longer when the
document is read; nothing else takes the integrity of a catalog away.
-/
namespace Tabular

namespace Collision

open CatalogDirectory (working)
open CatalogHandle (Writable)

def schema : Schema := ⟨"s", [⟨"t", [⟨"k", some .double, none, -1, true⟩], some ["k"]⟩], []⟩

def row (n : Number) : Row := [("k", .number n)]

def table (ns : List Number) : StoredTable :=
  ⟨"t", [⟨"k", ⟨.double, 8, false⟩⟩], [.primary "t" ["k"]], ns.map row⟩

def document : String := CatalogHandle.pathOf working.path schema.name

/-! ### The catalog that is created -/

theorem create_succeeds :
    let r := Store.empty.attempt (working.create schema {})
    r.1.isOk = true ∧ (working.catalogPath "s").toOption = some document ∧
      (r.2.create (CatalogHandle.lockPath document)).isOk = true ∧
      (r.2.locate (CatalogHandle.draftPath document)).toOption = some ⟨["s.jet.tmp"], true⟩ ∧
      Store.entry? r.2 ["s.jet.tmp"] = none := by
  decide +kernel

/-- What the schema leads to in a catalog without tables. -/
theorem tables_of_apply {p : schema.Placement {}} {c c' : Catalog} (hc : c.tables = [])
    (h : p.apply c = .ok c') : c'.tables = [table []] := by
  have placed : schema.placedTables {} = schema.tables := by decide
  have name : ∀ t ∈ schema.tables, t.storedName {} = .ok "t" := by
    rw [schema, List.forall_mem_singleton]
    exact eq_ok_of_toOption (by decide)
  have columns : ∀ t ∈ schema.tables, t.storedColumns = .ok [⟨"k", ⟨.double, 8, false⟩⟩] := by
    rw [schema, List.forall_mem_singleton]
    exact eq_ok_of_toOption (by decide)
  have key : ∀ t ∈ schema.tables, t.storedKey "t" = .ok (.primary "t" ["k"]) := by
    rw [schema, List.forall_mem_singleton]
    exact eq_ok_of_toOption (by decide)
  have distinct : ((schema.placedTables {}).map (·.storedName {})).Nodup := by
    rw [placed]
    exact List.nodup_singleton _
  have tables : p.tables = [("t", [⟨"k", ⟨.double, 8, false⟩⟩])] := by
    have stored := p.tables_eq
    rw [placed] at stored
    obtain ⟨⟨n, cs⟩, rest, ⟨hname, hcolumns⟩, hrest, heq⟩ := List.forall₂_cons_left_iff.mp stored
    obtain rfl := Except.ok.inj ((name _ (by simp [schema])).symm.trans hname)
    obtain rfl := Except.ok.inj ((columns _ (by simp [schema])).symm.trans hcolumns)
    rw [heq, List.forall₂_nil_left_iff.mp hrest]
  have primaryKeys : p.primaryKeys = [("t", .primary "t" ["k"])] := by
    have stored := p.primaryKeys_eq
    rw [placed] at stored
    obtain ⟨⟨n, k⟩, rest, ⟨hname, hkey⟩, hrest, heq⟩ := List.forall₂_cons_left_iff.mp stored
    obtain rfl := Except.ok.inj ((name _ (by simp [schema])).symm.trans hname)
    obtain rfl := Except.ok.inj ((key _ (by simp [schema])).symm.trans hkey)
    rw [heq, List.forall₂_nil_left_iff.mp hrest]
  have foreignKeys : p.foreignKeys = [] := List.forall₂_nil_left_iff.mp p.foreignKeys_eq
  rw [(p.apply_tables h (p.nodup_names distinct)).2, hc, Schema.Placement.fresh,
    Schema.Placement.keys, tables, primaryKeys, foreignKeys]
  exact (by decide : List.map (fun q => (Catalog.emptyTable q.1 q.2).withKeys
    [("t", .primary "t" ["k"])]) [("t", [⟨"k", ⟨.double, 8, false⟩⟩])] = [table []])

/-- The created document has the table, and can be opened and written. -/
theorem create_holds : ∃ s c, (Store.empty.attempt (working.create schema {})).2 = s ∧
    s.Holds document c ∧ c.tables = [table []] ∧ Writable s document ∧
      ∃ t, s.create (CatalogHandle.lockPath document) = .ok t := by
  obtain ⟨ok, place, lock, draft, free⟩ := create_succeeds
  rcases h : Store.empty.attempt (working.create schema {}) with ⟨_ | report, s⟩
  · rw [h] at ok
    cases ok
  rw [h] at lock draft free
  obtain ⟨path', c, opened, hpath, holds, before, p, applied⟩ :=
    CatalogDirectory.attempt_create_ok h
  obtain rfl : document = path' := Except.ok.inj ((eq_ok_of_toOption place).symm.trans hpath)
  obtain ⟨text, read, -⟩ := id holds
  obtain ⟨q, hq, he⟩ := Store.read_eq_ok_iff.mp read
  refine ⟨s, c, rfl, holds, tables_of_apply before applied, ?_, ?_⟩
  · exact ⟨_, q, eq_ok_of_toOption draft, by rw [free]; simp, hq, by rw [he]; simp⟩
  · cases hl : s.create (CatalogHandle.lockPath document) with
    | ok t => exact ⟨t, rfl⟩
    | error e =>
      rw [hl] at lock
      cases lock

/-! ### Rows -/

theorem agreeing_row_iff {n m : Number} :
    agreeing ((row n).project ["k"]) ((row m).project ["k"]) = true ↔
      n.unsignedZero = m.unsignedZero := by
  simp [agreeing, Row.project, Row.value, Row.get?, row, Json.unsignedZeros]

/-- A number that no row agrees with is inserted. -/
theorem insert_row {c : Catalog} {ns : List Number} {n : Number} (hc : c.tables = [table ns])
    (apart : ∀ m ∈ ns, m.unsignedZero ≠ n.unsignedZero) :
    c.insert "t" (row n) = .ok { c with tables := [table (ns ++ [n])] } := by
  have located : c.locate "t" = .ok (0, table ns) :=
    Catalog.locate_eq_ok_iff.mpr ⟨by rw [hc]; rfl, sameName_refl "t", fun j hj => by omega⟩
  have fresh : (table ns).repeatsKey (row n) = false := by
    rw [Bool.eq_false_iff]
    intro held
    obtain ⟨r, hr, same⟩ :=
      StoredTable.holds_iff.mp (show (table ns).holds ["k"] _ = true from held)
    obtain ⟨m, hm, rfl⟩ := List.mem_map.mp hr
    exact apart m hm (agreeing_row_iff.mp same)
  unfold Catalog.insert
  rw [located]
  change (if (table ns).repeatsKey (row n) = true then _ else _) = _
  rw [fresh]
  have replaced : c.replace 0 { table ns with rows := (table ns).rows ++ [row n] } =
      { c with tables := [table (ns ++ [n])] } := by
    simp [Catalog.replace, hc, table]
  exact congrArg Except.ok replaced

theorem reread?_row {n m : Number} (h : n.reread? = some m) : (row n).reread? = some (row m) := by
  have printed : (Json.object (row n)).printed = .object [(some "k", .number (some m))] := by
    simp [row, Json.printed, Json.printedMembers, h]
  unfold Row.reread?
  rw [printed]
  rfl

theorem reread?_of_tables {c : Catalog} {ns ms : List Number} (hc : c.tables = [table ns])
    (h : List.Forall₂ (fun n m => n.reread? = some m) ns ms) :
    c.reread? = some { c with tables := [table ms] } := by
  have rows : (ns.map row).mapM Row.reread? = some (ms.map row) := by
    rw [mapM_eq_some_iff, List.forall₂_map_left_iff, List.forall₂_map_right_iff]
    exact h.imp fun n m => reread?_row
  have tables : (table ns).reread? = some (table ms) := by
    unfold StoredTable.reread? table
    rw [rows]
    rfl
  unfold Catalog.reread?
  rw [hc, List.mapM_cons, tables]
  rfl

/-! ### The run -/

/-- A row inserted by an open handle, where the document can be written. -/
theorem step_insert {s : Store} {c : Catalog} (ns : List Number) {n : Number}
    (writable : Writable s document) (hc : c.tables = [table ns])
    (apart : ∀ m ∈ ns, m.unsignedZero ≠ n.unsignedZero) :
    ∃ t, (⟨s, [⟨document, c⟩]⟩ : World).step (.insert 0 "t" (row n)) =
        ⟨t, [⟨document, { c with tables := [table (ns ++ [n])] }⟩]⟩ ∧ Writable t document ∧
      t.read document = .ok { c with tables := [table (ns ++ [n])] }.toText := by
  generalize hnew : ({ c with tables := [table (ns ++ [n])] } : Catalog) = new
  have inserted : c.insert "t" (row n) = .ok new := by rw [insert_row hc apart, hnew]
  obtain ⟨t, saved⟩ := CatalogHandle.exists_run_save (h := ⟨document, new⟩) writable
  obtain ⟨read, changed⟩ := CatalogHandle.read_of_run_save saved
  have run : s.run (CatalogHandle.insert ⟨document, c⟩ "t" (row n)) =
      ((.ok (), ⟨document, new⟩), t) := by
    unfold CatalogHandle.insert CatalogHandle.commit
    rw [inserted]
    dsimp only
    rw [Store.run_bind, saved]
    rfl
  refine ⟨t, ?_, writable.of_sameDirectories changed.directories, read⟩
  change (let (result, store) := s.run (CatalogHandle.insert ⟨document, c⟩ "t" (row n))
    (⟨store, [result.2]⟩ : World)) = _
  rw [run]

/-- What is done to bring two numbers under one key. -/
def actions (n m : Number) : List World.Action :=
  [.create working schema {}, .openAt document, .insert 0 "t" (row n), .insert 0 "t" (row m)]

theorem run_actions {n m : Number} (apart : n.unsignedZero ≠ m.unsignedZero) :
    ∃ c : Catalog, c.tables = [table [n, m]] ∧
      ((⟨Store.empty, []⟩ : World).run (actions n m)).store.read document = .ok c.toText := by
  obtain ⟨s, c, hs, holds, hc, writable, t, lock⟩ := create_holds
  have back : c.reread? = some c := by
    rw [reread?_of_tables hc .nil, ← hc]
  have opened : s.run (CatalogHandle.openAt document) = (.ok ⟨document, c⟩, t) :=
    CatalogHandle.run_openAt_of_holds (by decide) holds back lock
  obtain ⟨p, hp, free, put⟩ := Store.create_eq_ok_iff.mp lock
  have dirs : s.SameDirectories t := by
    rw [← put]
    exact Store.sameDirectories_put (Store.place_ne_nil hp) (.text "") (by rw [free]; simp)
  obtain ⟨u, first, writable, -⟩ := step_insert [] (n := n)
    (writable.of_sameDirectories dirs) hc (by simp)
  obtain ⟨v, second, -, read⟩ := step_insert (c := { c with tables := [table ([] ++ [n])] })
    [n] (n := m) writable rfl (by simpa using apart)
  have created : (⟨Store.empty, []⟩ : World).step (.create working schema {}) = ⟨s, []⟩ := by
    rw [← hs]
    rfl
  have reopened : (⟨s, []⟩ : World).step (.openAt document) = ⟨t, [⟨document, c⟩]⟩ := by
    unfold World.step
    dsimp only
    rw [opened]
    rfl
  refine ⟨{ c with tables := [table ([] ++ [n] ++ [m])] }, rfl, ?_⟩
  unfold World.run actions
  rw [List.foldl_cons, List.foldl_cons, List.foldl_cons, List.foldl_cons, List.foldl_nil, created,
    reopened, first, second]
  exact read

theorem within_actions {P : Number → Prop} {n m : Number} (hn : P n) (hm : P m) :
    ∀ a ∈ actions n m, a.Within P := by
  intro a ha
  simp only [actions, List.mem_cons, List.not_mem_nil, or_false] at ha
  rcases ha with rfl | rfl | rfl | rfl
  · trivial
  · trivial
  · simpa [World.Action.Within, row, Json.Within] using hn
  · simpa [World.Action.Within, row, Json.Within] using hm

/-- Any two numbers that are told apart end up in a document, as they are read. -/
theorem exists_reachable {P : Number → Prop} {n m n' m' : Number} (hn : P n) (hm : P m)
    (hn' : n.reread? = some n') (hm' : m.reread? = some m')
    (apart : n.unsignedZero ≠ m.unsignedZero) :
    ∃ c : Catalog, c.tables = [table [n', m']] ∧ World.Reachable P c := by
  obtain ⟨c, hc, read⟩ := run_actions apart
  have back := reread?_of_tables hc (.cons hn' (.cons hm' .nil))
  refine ⟨{ c with tables := [table [n', m']] }, rfl, Store.empty, Store.hasNoCatalog_empty,
    actions n m, within_actions hn hm, .inr ⟨document, c.toText, Catalog.formatVersion, read, ?_⟩⟩
  rw [Catalog.parse?_toText, back]
  rfl

/-- Two rows have one key if their numbers agree. -/
theorem not_keysDistinct {c : Catalog} {n m : Number} (hc : c.tables = [table [n, m]])
    (same : n.unsignedZero = m.unsignedZero) : ¬ c.KeysDistinct := by
  intro distinct
  have pairs := distinct (table [n, m]) (by simp [hc]) (.primary "t" ["k"]) rfl
  have first := (List.pairwise_cons.mp pairs).1 (row m) (by simp [row])
  have agree := (@agreeing_row_iff n m).mpr same
  cases agree.symm.trans first

end Collision

def Number.IsStable (n : Number) : Prop := n.reread? = some n

theorem Number.isStable_int {v : Int} (low : -2 ^ 63 ≤ v) (high : v < 2 ^ 64) :
    IsStable (.int v) := reread?_int low high

theorem Number.closed_isStable : Closed IsStable := by
  intro n m hn h
  obtain rfl := Option.some.inj (hn.symm.trans h)
  exact hn

theorem Number.keptApart_isStable : KeptApart IsStable := by
  intro n m n' m' hn hm hn' hm' same
  obtain rfl := Option.some.inj (hn.symm.trans hn')
  obtain rfl := Option.some.inj (hm.symm.trans hm')
  exact same

/-- Whatever is done and wherever it fails, rows keep what they owe to keys. Only primary keys may
be repeated, and only by numbers that are read as one. -/
theorem World.reachable_integrity {P : Number → Prop} (closed : Number.Closed P) :
    (∀ c, Reachable (fun _ => True) c → c.Integral) ∧
      ((∀ c, Reachable P c → c.KeysDistinct) ↔ Number.KeptApart P) := by
  refine ⟨fun c h => (h.intact fun _ _ _ _ => trivial).sound.integral, fun distinct => ?_,
    fun apart c h => (h.intact closed).distinct apart⟩
  intro n m n' m' hn hm hn' hm' same
  by_contra apart
  obtain ⟨c, hc, reachable⟩ := Collision.exists_reachable hn hm hn' hm' apart
  exact Collision.not_keysDistinct hc same (distinct c reachable)

theorem World.reachable_integrity_stable : Number.Closed Number.IsStable ∧
    ∃ c : Catalog, c.tables = [Collision.table [.int 1, .int 2]] ∧
      Reachable Number.IsStable c ∧ c.Integral ∧ c.KeysDistinct := by
  have one : Number.IsStable (.int 1) := Number.isStable_int (by decide) (by decide)
  have two : Number.IsStable (.int 2) := Number.isStable_int (by decide) (by decide)
  obtain ⟨c, hc, reachable⟩ := Collision.exists_reachable one two one two (by decide)
  have integrity := reachable_integrity Number.closed_isStable
  exact ⟨Number.closed_isStable, c, hc, reachable, integrity.1 c reachable.of_within,
    integrity.2.mpr Number.keptApart_isStable c reachable⟩

/-- Two doubles next to each other, the first of which is read as the second. -/
theorem World.exists_repeated : ∃ c, Reachable (fun _ => True) c ∧ ¬ c.KeysDistinct := by
  have first : (Number.double ⟨false, 6516913984057057, -100⟩).reread? =
      some (.double ⟨false, 6516913984057058, -100⟩) := by decide +kernel
  have second : (Number.double ⟨false, 6516913984057058, -100⟩).reread? =
      some (.double ⟨false, 6516913984057058, -100⟩) := by decide +kernel
  obtain ⟨c, hc, reachable⟩ :=
    Collision.exists_reachable (P := fun _ => True) trivial trivial first second (by decide)
  exact ⟨c, reachable, Collision.not_keysDistinct hc rfl⟩

end Tabular
