import Tabular.Proofs.Filling
import Tabular.Proofs.Idempotence
import Tabular.Proofs.Respelling
import Tabular.Proofs.Troubles

/-!
Requests to an open catalog in any spelling of names. Two runs of requests that differ in the case
of names only are compared step by step. Requests for tables and keys come out alike; requests for
rows do so as well if the columns of keys are spelled alike, and not otherwise.
-/
namespace Tabular

/-! ### Requests -/

inductive Request where
  | change (m : Mutation)
  | rows (table : String)

namespace Request

def OnRows : Request → Prop
  | change m => m.OnRows
  | rows _ => True

/-- The catalog after a request, the same as before if the request is refused. -/
def settle (c : Catalog) : Request → Catalog
  | change m => m.settle c
  | rows _ => c

end Request

namespace CatalogHandle

def serve (h : CatalogHandle) : Request → FileTask (Except Fault (List Row) × CatalogHandle)
  | .change m => do
    let (outcome, h) ← m.task h
    return (outcome.map fun () => [], h)
  | .rows table => return (h.rows table, h)

def serveAll (h : CatalogHandle) :
    List Request → FileTask (List (Except Fault (List Row)) × CatalogHandle)
  | [] => return ([], h)
  | r :: rs => do
    let (outcome, h) ← h.serve r
    let (outcomes, h) ← h.serveAll rs
    return (outcome :: outcomes, h)

end CatalogHandle

/-! ### Requests in two spellings -/

/-- Two changes to a catalog that differ in the case of names only. Columns that come to be are
called alike, and if `exact` holds so are the columns of keys. -/
inductive Mutation.Respells (exact : Prop) (c : Catalog) : Mutation → Mutation → Prop where
  | appendTable {n m : String} {xs ys : List StoredColumn} (same : sameName n m = true)
      (columns : List.Forall₂ (fun x y => sameName x.name y.name = true) xs ys)
      (introduced : (c.appendTable n xs).isOk = true → ys = xs) :
      Respells exact c (.appendTable n xs) (.appendTable m ys)
  | appendKey {n m : String} {k l : StoredKey} (same : sameName n m = true)
      (key : k.Respells exact l) : Respells exact c (.appendKey n k) (.appendKey m l)
  | dropTable {n m : String} (same : sameName n m = true) :
      Respells exact c (.dropTable n) (.dropTable m)
  | insert {n m : String} {vs ws : List (String × Json)} (same : sameName n m = true)
      (values : SameValues vs ws) : Respells exact c (.insert n vs) (.insert m ws)
  | deleteRows {n m : String} {vs ws : Criteria} (same : sameName n m = true)
      (criteria : SameValues vs ws) : Respells exact c (.deleteRows n vs) (.deleteRows m ws)

inductive Request.Respells (exact : Prop) (c : Catalog) : Request → Request → Prop where
  | change {m m' : Mutation} (same : m.Respells exact c m') :
      Respells exact c (.change m) (.change m')
  | rows {n m : String} (same : sameName n m = true) : Respells exact c (.rows n) (.rows m)

/-- Two lists of requests that differ, one by one, in the case of names only. The first of them are
made to a given catalog. -/
inductive Respelled (exact : Prop) : Catalog → List Request → List Request → Prop where
  | nil {c : Catalog} : Respelled exact c [] []
  | cons {c : Catalog} {x y : Request} {xs ys : List Request} (head : x.Respells exact c y)
      (tail : Respelled exact (x.settle c) xs ys) : Respelled exact c (x :: xs) (y :: ys)

/-! ### One change -/

namespace Mutation

variable {exact : Prop} {c d : Catalog} {m m' : Mutation}

theorem sameFrame_settle (rows : m.OnRows) (c : Catalog) :
    List.Forall₂ StoredTable.SameFrame c.tables (m.settle c).tables :=
  StoredTable.forall₂_sameFrame_iff.mpr (m.bare_settle rows c).symm

namespace Respells

theorem onRows (same : m.Respells exact c m') (rows : m.OnRows) : m'.OnRows := by
  cases same with
  | insert | deleteRows => trivial
  | appendTable | appendKey | dropTable => exact rows.elim

/-- A change is accepted in both spellings or in neither. -/
theorem apply (h : c.Respells exact d) (same : m.Respells exact c m') (hx : m.OnRows → exact) :
    Agree Refusal.code (Catalog.Respells exact) (m.apply c) (m'.apply d) := by
  cases same with
  | appendTable same columns introduced => exact h.appendTable same columns introduced
  | appendKey same key => exact h.appendKey same key
  | dropTable same => exact h.dropTable same
  | insert same values => exact h.insert (hx trivial) same values
  | deleteRows same criteria =>
    exact (h.deleteRows (hx trivial) same criteria).map fun _ _ related => related.2

/-- What any change preserves, accepted or not. -/
theorem settle (h : c.Respells exact d) (same : m.Respells exact c m') :
    (m.settle c).Respells exact (m'.settle d) := by
  by_cases hx : m.OnRows → exact
  · have applied := same.apply h hx
    unfold Mutation.settle
    generalize m.apply c = x at applied ⊢
    generalize m'.apply d = y at applied ⊢
    cases applied with
    | ok related => exact related
    | error => exact h
  · -- Keys are spelled otherwise: rows may differ, but no change of rows touches a frame.
    obtain ⟨rows, other⟩ := Classical.not_imp.mp hx
    obtain rfl : exact = False := eq_false other
    exact h.of_sameFrame (sameFrame_settle rows c) (sameFrame_settle (same.onRows rows) d)

end Respells

end Mutation

theorem Request.Respells.settle {exact : Prop} {c d : Catalog} {x y : Request}
    (h : c.Respells exact d) (same : x.Respells exact c y) :
    (x.settle c).Respells exact (y.settle d) := by
  cases same with
  | change same => exact same.settle h
  | rows same => exact h

/-! ### One request -/

namespace CatalogHandle

variable {s t : Store} {h g : CatalogHandle}

/-- A save goes well or not by where directories stand, whatever is saved. -/
theorem agree_run_save (path : g.path = h.path) (dirs : s.SameDirectories t) :
    Agree Fault.engineCode? Eq (s.run h.save).1 (t.run g.save).1 := by
  rcases hs : s.run h.save with ⟨e | ⟨⟩, s'⟩ <;> rcases ht : t.run g.save with ⟨f | ⟨⟩, t'⟩
  · obtain ⟨e, rfl⟩ := run_save_error hs
    obtain ⟨f, rfl⟩ := run_save_error ht
    exact .error rfl
  · have writable := (writable_of_run_save ht).of_sameDirectories dirs.symm
    obtain ⟨s'', saved⟩ := exists_run_save (path ▸ writable)
    rw [saved] at hs
    cases hs
  · have writable := (writable_of_run_save hs).of_sameDirectories dirs
    obtain ⟨t'', saved⟩ := exists_run_save (h := g) (path ▸ writable)
    rw [saved] at ht
    cases ht
  · exact .ok rfl

/-- What is taken up is saved. -/
theorem run_commit_saved (s : Store) (h : CatalogHandle) (c : Catalog) :
    s.run (h.commit (.ok c)) =
      let saved := s.run (save { h with catalog := c })
      ((saved.1, { h with catalog := c }), saved.2) := by
  unfold commit
  dsimp only
  rw [Store.run_bind, Store.run_pure]

theorem agree_run_commit {R : Catalog → Catalog → Prop} {r q : Except Refusal Catalog}
    (path : g.path = h.path) (dirs : s.SameDirectories t) (agree : Agree Refusal.code R r q) :
    Agree Fault.engineCode? Eq (s.run (h.commit r)).1.1 (t.run (g.commit q)).1.1 := by
  cases agree with
  | error same => exact .error (congrArg some same)
  | @ok c d related =>
    rw [run_commit_saved, run_commit_saved]
    dsimp only
    apply agree_run_save
    · exact path
    · exact dirs

/-- Directories stay, whether a document is written or not. -/
theorem sameDirectories_run_save (s : Store) (h : CatalogHandle) :
    s.SameDirectories (s.run h.save).2 := by
  unfold save
  rw [Store.run_bind, Store.run_write]
  cases hw : s.write (draftPath h.path) (.text h.catalog.toText) with
  | error e =>
    dsimp only [Store.outcome]
    rw [Store.run_pure]
    exact .refl s
  | ok u =>
    have renamed : u.ChangesOnly [draftPath h.path, h.path]
        (u.outcome (u.rename (draftPath h.path) h.path)).2 :=
      Store.changesOnly_outcome fun _ hr => (Store.rename_ok hr).2
    dsimp only [Store.outcome]
    rw [Store.run_bind, Store.run_rename, Store.run_pure]
    exact (Store.write_ok hw).2.directories.trans renamed.directories

theorem sameDirectories_run_commit (s : Store) (h : CatalogHandle) (r : Except Refusal Catalog) :
    s.SameDirectories (s.run (h.commit r)).2 := by
  cases r with
  | error e => exact .refl s
  | ok c =>
    rw [run_commit_saved]
    dsimp only
    exact sameDirectories_run_save s _

theorem run_serve_change (s : Store) (h : CatalogHandle) (m : Mutation) :
    s.run (h.serve (.change m)) =
      let made := s.run (h.commit (m.apply h.catalog))
      ((made.1.1.map fun () => [], made.1.2), made.2) := by
  unfold serve
  rw [Store.run_bind, m.run_task]
  rcases s.run (h.commit (m.apply h.catalog)) with ⟨⟨outcome, g⟩, t⟩
  rfl

/-- The catalog after a request. -/
theorem snd_run_serve (s : Store) (h : CatalogHandle) (r : Request) :
    (s.run (h.serve r)).1.2 = { h with catalog := r.settle h.catalog } := by
  cases r with
  | rows table => rfl
  | change m =>
    rw [run_serve_change]
    dsimp only
    rw [snd_run_commit]
    rfl

theorem sameDirectories_run_serve (s : Store) (h : CatalogHandle) (r : Request) :
    s.SameDirectories (s.run (h.serve r)).2 := by
  cases r with
  | rows table => exact .refl s
  | change m =>
    rw [run_serve_change]
    dsimp only
    exact sameDirectories_run_commit s h _

/-- Rows are the same wherever catalogs hold the same. -/
theorem agree_rows {exact : Prop} {n m : String} (catalogs : h.catalog.Respells exact g.catalog)
    (hx : exact) (same : sameName n m = true) :
    Agree Fault.engineCode? Eq (h.rows n) (g.rows m) := by
  have located := catalogs.locate same
  unfold rows
  generalize h.catalog.locate n = x at located ⊢
  generalize g.catalog.locate m = y at located ⊢
  cases located with
  | error same => exact .error (congrArg some same)
  | ok related => exact .ok (StoredTable.Respells.rows related.2 hx).symm

/-- One request comes out alike in both spellings, unless it is about rows and keys are spelled
otherwise. -/
theorem agree_serve {exact : Prop} {x y : Request} (path : g.path = h.path)
    (dirs : s.SameDirectories t) (catalogs : h.catalog.Respells exact g.catalog)
    (same : x.Respells exact h.catalog y) (hx : x.OnRows → exact) :
    Agree Fault.engineCode? Eq (s.run (h.serve x)).1.1 (t.run (g.serve y)).1.1 := by
  cases same with
  | rows same => exact agree_rows catalogs (hx trivial) same
  | change same =>
    rw [run_serve_change, run_serve_change]
    exact (agree_run_commit path dirs (same.apply catalogs hx)).map fun _ _ _ => rfl

/-! ### Runs -/

/-- Do requests come out alike in two runs, step by step? If `exact` does not hold, those about rows
need not. -/
def SameOutcomes (exact : Prop) (xs : List Request)
    (as bs : List (Except Fault (List Row))) : Prop :=
  ∀ (i : Nat) (x : Request), xs[i]? = some x → ∃ a b, as[i]? = some a ∧ bs[i]? = some b ∧
    ((x.OnRows → exact) → Agree Fault.engineCode? Eq a b)

theorem SameOutcomes.cons {exact : Prop} {x : Request} {xs : List Request}
    {a b : Except Fault (List Row)} {as bs : List (Except Fault (List Row))}
    (head : (x.OnRows → exact) → Agree Fault.engineCode? Eq a b)
    (tail : SameOutcomes exact xs as bs) : SameOutcomes exact (x :: xs) (a :: as) (b :: bs) := by
  intro i y hy
  cases i with
  | zero =>
    obtain rfl : x = y := Option.some.inj hy
    exact ⟨a, b, rfl, rfl, head⟩
  | succ i => exact tail i y hy

theorem run_serveAll_cons (s : Store) (h : CatalogHandle) (r : Request) (rs : List Request) :
    s.run (h.serveAll (r :: rs)) =
      let first := s.run (h.serve r)
      let rest := first.2.run (first.1.2.serveAll rs)
      ((first.1.1 :: rest.1.1, rest.1.2), rest.2) := by
  rw [serveAll, Store.run_bind]
  rcases s.run (h.serve r) with ⟨⟨outcome, g⟩, t⟩
  dsimp only
  rw [Store.run_bind]
  rcases t.run (g.serveAll rs) with ⟨⟨outcomes, g'⟩, u⟩
  rfl

variable {exact : Prop} {c d : Catalog} {xs ys : List Request}

theorem serveAll_respelled_from (path : String) (dirs : s.SameDirectories t)
    (catalogs : c.Respells exact d) (same : Respelled exact c xs ys) :
    let p := (s.run (serveAll ⟨path, c⟩ xs)).1
    let q := (t.run (serveAll ⟨path, d⟩ ys)).1
    SameOutcomes exact xs p.1 q.1 ∧ p.2.catalog.Respells exact q.2.catalog := by
  -- What carries the induction: catalogs stay alike, and directories stay, so that saves do, too.
  induction same generalizing s t d with
  | nil =>
    refine ⟨fun i x hx => ?_, catalogs⟩
    cases hx
  | @cons c x y xs ys head tail ih =>
    have dirs' := ((sameDirectories_run_serve s ⟨path, c⟩ x).symm.trans dirs).trans
      (sameDirectories_run_serve t ⟨path, d⟩ y)
    obtain ⟨later, final⟩ := ih dirs' (head.settle catalogs)
    rw [run_serveAll_cons, run_serveAll_cons]
    dsimp only
    rw [snd_run_serve, snd_run_serve]
    exact ⟨later.cons (agree_serve rfl dirs catalogs head), final⟩

/-- Requests that differ in the case of names only, made to the same open catalog. Every request for
tables and keys is met in both runs, or refused with one code in both. If the columns of keys are
spelled alike, then so is every other request, the rows given are the same, and in the end the
tables hold the same rows in the same order. -/
theorem serveAll_respelled (s : Store) (h : CatalogHandle)
    (same : Respelled exact h.catalog xs ys) :
    let p := (s.run (h.serveAll xs)).1
    let q := (s.run (h.serveAll ys)).1
    SameOutcomes exact xs p.1 q.1 ∧ p.2.catalog.Respells exact q.2.catalog :=
  serveAll_respelled_from h.path (.refl s) (.refl exact h.catalog) same

def blank : CatalogHandle := ⟨"s.jet.json", ⟨"s", .epoch, []⟩⟩

def refusedWith {α : Type} : Except Fault α → Option (Option Int)
  | .ok _ => none
  | .error e => some e.engineCode?

/-- A table is made and called by a name of its own, as its column is. One row goes in once, and out
again. -/
def errand (table column : String) : List Request :=
  [.change (.appendTable "t" [⟨"a", ⟨.integer, 4, true⟩⟩]),
    .change (.appendKey table (.primary "p" ["a"])),
    .change (.insert table [(column, .number (.int 1))]),
    .change (.insert table [(column, .number (.int 1))]), .rows table,
    .change (.deleteRows table [(column, .number (.int 1))]), .change (.dropTable table)]

theorem respelled_errand {table column : String} (ht : sameName "t" table = true)
    (ha : sameName "a" column = true) (c : Catalog) :
    Respelled True c (errand "t" "a") (errand table column) := by
  have values : SameValues [("a", .number (.int 1))] [(column, .number (.int 1))] :=
    .cons ⟨ha, rfl⟩ .nil
  refine .cons (.change (.appendTable (sameName_refl "t") ?_ fun _ => rfl)) ?_
  · exact .cons (sameName_refl "a") .nil
  refine .cons (.change (.appendKey ht (.refl True _))) ?_
  refine .cons (.change (.insert ht values)) (.cons (.change (.insert ht values)) ?_)
  refine .cons (.rows ht) (.cons (.change (.deleteRows ht values)) ?_)
  exact .cons (.change (.dropTable ht)) .nil

theorem serveAll_respelled_errand :
    let p := (Store.empty.run (blank.serveAll (errand "t" "a"))).1
    let q := (Store.empty.run (blank.serveAll (errand "T" "A"))).1
    Respelled True blank.catalog (errand "t" "a") (errand "T" "A") ∧
      SameOutcomes True (errand "t" "a") p.1 q.1 ∧ p.2.catalog.Respells True q.2.catalog ∧
      (Store.empty.run (blank.serveAll ((errand "T" "A").take 5))).1.1.map refusedWith =
        [none, none, none, some (some 3022), none] := by
  intro p q
  have same : Respelled True blank.catalog (errand "t" "a") (errand "T" "A") :=
    respelled_errand (by decide) (by decide) blank.catalog
  obtain ⟨outcomes, catalogs⟩ := serveAll_respelled Store.empty blank same
  exact ⟨same, outcomes, catalogs, by decide +kernel⟩

def numbering (column : String) : List Request :=
  [.change (.appendTable "t" [⟨"a", ⟨.integer, 4, true⟩⟩]),
    .change (.appendKey "t" (.primary "p" [column])),
    .change (.insert "t" [("a", .number (.int 1))]),
    .change (.insert "t" [("a", .number (.int 2))]), .rows "t"]

/-- A key takes any spelling of a column, but no value is found under another than the column's own:
all rows have the same key. -/
theorem serveAll_numbering :
    let p := (Store.empty.run (blank.serveAll (numbering "a"))).1
    let q := (Store.empty.run (blank.serveAll (numbering "A"))).1
    Respelled False blank.catalog (numbering "a") (numbering "A") ∧
      p.1.map refusedWith = [none, none, none, none, none] ∧
      q.1.map refusedWith = [none, none, none, some (some 3022), none] ∧
      p.2.catalog.tables.map (·.rows) =
        [[[("a", .number (.int 1))], [("a", .number (.int 2))]]] ∧
      q.2.catalog.tables.map (·.rows) = [[[("a", .number (.int 1))]]] := by
  intro p q
  refine ⟨?_, by decide +kernel, by decide +kernel, by decide +kernel, by decide +kernel⟩
  have values (n : Int) : SameValues [("a", .number (.int n))] [("a", .number (.int n))] :=
    .cons ⟨sameName_refl "a", rfl⟩ .nil
  have key : (StoredKey.primary "p" ["a"]).Respells False (.primary "p" ["A"]) :=
    ⟨sameName_refl "p", rfl, .cons (by decide) .nil, .none, .nil, rfl, rfl, False.elim⟩
  refine .cons (.change (.appendTable (sameName_refl "t") ?_ fun _ => rfl)) ?_
  · exact .cons (sameName_refl "a") .nil
  refine .cons (.change (.appendKey (sameName_refl "t") key)) ?_
  refine .cons (.change (.insert (sameName_refl "t") (values 1))) ?_
  refine .cons (.change (.insert (sameName_refl "t") (values 2))) ?_
  exact .cons (.rows (sameName_refl "t")) .nil

end CatalogHandle

end Tabular
