import Tabular.Proofs.Troubles

/-!
What is left of a change to an open catalog where steps on files fail. A change that the catalog
refuses leaves nothing behind. One that cannot be written is kept by the handle all the same, out of
step with the document, until a later change is written and takes it along.
-/
namespace Tabular

open CatalogHandle (lockPath draftPath)

namespace Store

variable {α β : Type} {s t u : Store} {lock : String}

/-- A task in two parts ends where its second part ends, begun where the first part ended. -/
theorem ends_bind_iff {d : FileTask α} {k : α → FileTask β} {b : β} :
    Ends lock (d >>= k) s b u ↔ ∃ a t, Ends lock d s a t ∧ Ends lock (k a) t b u := by
  change Ends lock (d.bind k) s b u ↔ _
  induction d generalizing s with
  | done a =>
    constructor
    · exact fun rest => ⟨a, s, ⟨rfl, rfl⟩, rest⟩
    · rintro ⟨_, _, ⟨rfl, rfl⟩, rest⟩
      exact rest
  | ask q next ih =>
    constructor
    · rintro ⟨r, v, answered, rest⟩
      obtain ⟨a, t, first, last⟩ := (ih r).mp rest
      exact ⟨a, t, ⟨r, v, answered, first⟩, last⟩
    · rintro ⟨a, t, ⟨r, v, answered, first⟩, last⟩
      exact ⟨r, v, answered, (ih r).mpr ⟨a, t, first, last⟩⟩

theorem ends_pure_iff {a b : α} : Ends lock (pure a) s b t ↔ a = b ∧ s = t := Iff.rfl

theorem ends_query_iff {q : FileQuery} {r : q.Reply} :
    Ends lock (Dialogue.query q) s r t ↔ s.Answers lock q r t := by
  constructor
  · rintro ⟨_, _, answered, rfl, rfl⟩
    exact answered
  · exact fun answered => ⟨r, t, answered, rfl, rfl⟩

variable {p text goal : String} {v : Unit} {e : FileError}

theorem write_of_answers (answered : s.Answers lock (.write p text) (.ok v) t) :
    s.write p (.text text) = .ok t := by
  rcases answered with regular | fails
  · exact eq_ok_of_outcome regular
  · exact fails.elim

theorem rename_of_answers (answered : s.Answers lock (.rename p goal) (.ok v) t) :
    s.rename p goal = .ok t := by
  rcases answered with regular | fails
  · exact eq_ok_of_outcome regular
  · exact fails.elim

theorem eq_of_rename_error (answered : s.Answers lock (.rename p goal) (.error e) t) : t = s := by
  rcases answered with regular | fails
  · exact eq_of_outcome_error regular
  · exact fails

theorem read_of_answers (answered : s.Answers lock (.read p) (.ok text) t) :
    s.read p = .ok text ∧ t = s := by
  rcases answered with regular | fails
  · obtain ⟨read, same⟩ := Prod.mk.inj regular
    exact ⟨read, same.symm⟩
  · exact fails.elim

end Store

namespace CatalogHandle

def HasOwnDraft (path : String) : Prop :=
  Path.base (draftPath path).toList ≠ Path.base path.toList

instance (path : String) : Decidable (HasOwnDraft path) := inferInstanceAs (Decidable (_ ≠ _))

variable {h g : CatalogHandle} {s t : Store} {lock path : String}

/-! ### Saving -/

theorem ends_save_ok (ended : Store.Ends lock h.save s (.ok ()) t) :
    t.file? h.path = some (.text h.catalog.toText) ∧
      s.ChangesOnly [draftPath h.path, h.path] t := by
  unfold save at ended
  obtain ⟨written, u, draft, rest⟩ := Store.ends_bind_iff.mp ended
  cases written with
  | error e => cases (Store.ends_pure_iff.mp rest).1
  | ok v =>
    obtain ⟨moved, w, renamed, result, rfl⟩ := Store.ends_bind_iff.mp rest
    cases moved with
    | error e => cases result
    | ok v' =>
      obtain ⟨put, changes⟩ :=
        Store.write_ok (Store.write_of_answers (Store.ends_query_iff.mp draft))
      obtain ⟨shown, changes'⟩ :=
        Store.rename_ok (Store.rename_of_answers (Store.ends_query_iff.mp renamed))
      exact ⟨shown.trans put, (changes.mono (by simp)).trans changes'⟩

/-- A failed save touches the draft alone. -/
theorem ends_save_error {f : Fault} (ended : Store.Ends lock h.save s (.error f) t) :
    ∃ e : FileError, f = e.fault ∧ s.ChangesOnly [draftPath h.path] t := by
  unfold save at ended
  obtain ⟨written, u, draft, rest⟩ := Store.ends_bind_iff.mp ended
  have changes := Store.changesOnly_of_write (Store.ends_query_iff.mp draft)
  cases written with
  | error e =>
    obtain ⟨fault, rfl⟩ := Store.ends_pure_iff.mp rest
    exact ⟨e, (Except.error.inj fault).symm, changes⟩
  | ok v =>
    obtain ⟨moved, w, renamed, result, rfl⟩ := Store.ends_bind_iff.mp rest
    cases moved with
    | ok v' => cases result
    | error e =>
      obtain rfl := Store.eq_of_rename_error (Store.ends_query_iff.mp renamed)
      exact ⟨e, (Except.error.inj result).symm, changes⟩

/-- The write of a draft can always fail, and leave everything on disk as it was. -/
theorem ends_save_failing (h : CatalogHandle) (s : Store) (e : FileError) :
    Store.Ends lock h.save s (.error e.fault) s :=
  Store.ends_bind_iff.mpr
    ⟨.error e, s, Store.ends_query_iff.mpr (.inr (.inl rfl)), rfl, rfl⟩

/-! ### Opening -/

/-- A handle comes of the catalog at a path, opened or new, and the store is left so. -/
inductive Begins (path : String) : CatalogHandle → Store → Prop where
  | opened {s : Store} {h : CatalogHandle} {t : Store}
      (ended : Store.Ends (lockPath path) (openAt path) s (.ok h) t) : Begins path h t
  | created {name : String} {s : Store} {h : CatalogHandle} {t : Store}
      (ended : Store.Ends (lockPath path) (create path name) s (.ok h) t) : Begins path h t

theorem ends_locked_ok {α : Type} {task : FileTask (Except Fault α)} {a : α}
    (ended : Store.Ends lock (locked path task) s (.ok a) t) :
    ∃ u, Store.Ends lock task u (.ok a) t := by
  unfold locked at ended
  obtain ⟨acquired, u, -, rest⟩ := Store.ends_bind_iff.mp ended
  cases acquired with
  | error f => cases (Store.ends_pure_iff.mp rest).1
  | ok v =>
    obtain ⟨result, w, done, rest⟩ := Store.ends_bind_iff.mp rest
    cases result with
    | error f =>
      obtain ⟨_, _, -, failed, -⟩ := Store.ends_bind_iff.mp rest
      cases failed
    | ok b =>
      obtain ⟨same, rfl⟩ := Store.ends_pure_iff.mp rest
      exact ⟨u, same ▸ done⟩

/-- The document is up to date when a handle begins. -/
theorem Begins.synced (began : Begins path h t) : h.path = path ∧ t.Holds path h.catalog := by
  cases began with
  | opened ended =>
    unfold openAt at ended
    obtain ⟨present, u, -, rest⟩ := Store.ends_bind_iff.mp ended
    split at rest
    · cases (Store.ends_pure_iff.mp rest).1
    obtain ⟨w, task⟩ := ends_locked_ok rest
    obtain ⟨text, w', read, parsed⟩ := Store.ends_bind_iff.mp task
    cases text with
    | error e => cases (Store.ends_pure_iff.mp parsed).1
    | ok text =>
      obtain ⟨found, rfl⟩ := Store.read_of_answers (Store.ends_query_iff.mp read)
      obtain ⟨handle, rfl⟩ := Store.ends_pure_iff.mp parsed
      obtain ⟨same, reads⟩ := ofText_eq_ok handle
      exact ⟨same, text, found, .inr reads⟩
  | created ended =>
    unfold create at ended
    obtain ⟨present, u, -, rest⟩ := Store.ends_bind_iff.mp ended
    dsimp only at rest
    split at rest
    · cases (Store.ends_pure_iff.mp rest).1
    obtain ⟨w, task⟩ := ends_locked_ok rest
    obtain ⟨createdAt, w', -, rest⟩ := Store.ends_bind_iff.mp task
    obtain ⟨saved, w'', save, result⟩ := Store.ends_bind_iff.mp rest
    obtain ⟨handle, rfl⟩ := Store.ends_pure_iff.mp result
    cases saved with
    | error f => cases handle
    | ok v =>
      obtain rfl := Except.ok.inj handle
      obtain ⟨document, -⟩ := ends_save_ok save
      exact ⟨rfl, _, Store.read_eq_ok_iff_file?.mpr document, .inl rfl⟩

/-! ### One change -/

/-- How a change can come out that leads to a catalog or is refused: what it answers, and the handle
and the store that it leaves behind. -/
inductive Commits (h : CatalogHandle) (s : Store) :
    Except Refusal Catalog → Except Fault Unit → CatalogHandle → Store → Prop where
  | refused (e : Refusal) : Commits h s (.error e) (.error e.fault) h s
  | saved {c : Catalog} {t : Store} (document : t.file? h.path = some (.text c.toText))
      (changes : s.ChangesOnly [draftPath h.path, h.path] t) :
      Commits h s (.ok c) (.ok ()) { h with catalog := c } t
  | unsaved {c : Catalog} {t : Store} (e : FileError)
      (changes : s.ChangesOnly [draftPath h.path] t) :
      Commits h s (.ok c) (.error e.fault) { h with catalog := c } t

theorem commits_of_ends {r : Except Refusal Catalog} {o : Except Fault Unit}
    (ended : Store.Ends lock (h.commit r) s (o, g) t) : h.Commits s r o g t := by
  unfold commit at ended
  cases r with
  | error e =>
    obtain ⟨same, rfl⟩ := Store.ends_pure_iff.mp ended
    cases same
    exact .refused e
  | ok c =>
    obtain ⟨written, u, save, rest⟩ := Store.ends_bind_iff.mp ended
    obtain ⟨same, rfl⟩ := Store.ends_pure_iff.mp rest
    cases same
    cases o with
    | ok v =>
      obtain ⟨document, changes⟩ := ends_save_ok save
      exact .saved document changes
    | error f =>
      obtain ⟨e, rfl, changes⟩ := ends_save_error save
      exact .unsaved e changes

variable {r : Except Refusal Catalog}

/-- A change that succeeded is in the document. -/
theorem Commits.document_ok (commits : h.Commits s r (.ok ()) g t) : t.Holds h.path g.catalog := by
  cases commits with
  | saved document changes => exact ⟨_, Store.read_eq_ok_iff_file?.mpr document, .inl rfl⟩

/-- A change that failed is not. -/
theorem Commits.document_error {f : Fault} {c : Catalog} (commits : h.Commits s r (.error f) g t)
    (own : HasOwnDraft h.path) (holds : s.Holds h.path c) : t.Holds h.path c := by
  cases commits with
  | refused e => exact holds
  | unsaved e changes => exact holds.of_file? (changes.file_of_ne own)

variable {h g g' : CatalogHandle} {s t t' : Store} {path : String}
  {calls : List (Mutation × Except Fault Unit)}

/-- What a change shows is what it makes of the catalog, whether it is written or not. -/
theorem Commits.shown {m : Mutation} {o : Except Fault Unit}
    (commits : h.Commits s (m.apply h.catalog) o g t) :
    g = { h with catalog := m.settle h.catalog } := by
  unfold Mutation.settle
  generalize m.apply h.catalog = r at commits
  cases commits <;> rfl

/-! ### Deletions, with the number of rows -/

section

variable {table : String} {given : Criteria}

/-- How a deletion ends: refused, or with the rows gone and the catalog written or not. -/
theorem ends_deleteRows {o : Except Fault Nat}
    (ended : Store.Ends lock (h.deleteRows table given) s (o, g) u) :
    (∃ e, h.catalog.deleteRows table given = .error e ∧ o = .error e.fault ∧ g = h ∧ u = s) ∨
      ∃ n c w, h.catalog.deleteRows table given = .ok (n, c) ∧ h.Commits s (.ok c) w g u ∧
        o = w.map fun () => n := by
  unfold CatalogHandle.deleteRows at ended
  split at ended
  · next e refused =>
    obtain ⟨same, rfl⟩ := Store.ends_pure_iff.mp ended
    cases same
    exact .inl ⟨e, refused, rfl, rfl, rfl⟩
  · next n c deleted =>
    obtain ⟨⟨w, g'⟩, u', first, rest⟩ := Store.ends_bind_iff.mp ended
    obtain ⟨same, rfl⟩ := Store.ends_pure_iff.mp rest
    cases same
    exact .inr ⟨n, c, w, deleted, commits_of_ends first, rfl⟩

theorem run_deleteRows {n : Nat} {c : Catalog} (s : Store)
    (deleted : h.catalog.deleteRows table given = .ok (n, c)) :
    s.run (h.deleteRows table given) =
      let made := s.run (h.commit (.ok c))
      ((made.1.1.map fun () => n, made.1.2), made.2) := by
  unfold CatalogHandle.deleteRows
  rw [deleted]
  dsimp only
  rw [Store.run_bind]
  rcases s.run (h.commit (.ok c)) with ⟨⟨w, g⟩, u⟩
  rfl

end

/-! ### Many changes -/

/-- Changes through a handle, each with its answer, and the handle and the store after them. -/
inductive Undergoes (lock : String) :
    CatalogHandle → Store → List (Mutation × Except Fault Unit) → CatalogHandle → Store → Prop where
  | nil {h : CatalogHandle} {s : Store} : Undergoes lock h s [] h s
  | cons {h : CatalogHandle} {s : Store} {m : Mutation} {o : Except Fault Unit}
      {g : CatalogHandle} {t : Store} {calls : List (Mutation × Except Fault Unit)}
      {g' : CatalogHandle} {t' : Store} (first : Store.Ends lock (m.task h) s (o, g) t)
      (rest : Undergoes lock g t calls g' t') : Undergoes lock h s ((m, o) :: calls) g' t'

def shownAfter (c : Catalog) (calls : List (Mutation × Except Fault Unit)) : Catalog :=
  (calls.map (·.1)).foldl Mutation.settle c

/-- The catalog in the document after changes: the one shown by the last that succeeded. -/
def writtenAfter (shown written : Catalog) : List (Mutation × Except Fault Unit) → Catalog
  | [] => written
  | (m, .ok _) :: calls => writtenAfter (m.settle shown) (m.settle shown) calls
  | (m, .error _) :: calls => writtenAfter (m.settle shown) written calls

/-- The handle follows every change, the document those that succeed. -/
theorem Undergoes.tracks {lock : String} {written : Catalog} (own : HasOwnDraft h.path)
    (holds : s.Holds h.path written) (made : Undergoes lock h s calls g t) :
    g = { h with catalog := shownAfter h.catalog calls } ∧
      t.Holds h.path (writtenAfter h.catalog written calls) := by
  induction made generalizing written with
  | nil => exact ⟨rfl, holds⟩
  | @cons h s m o g t calls g' t' first rest ih =>
    rw [m.task_eq] at first
    have commits := commits_of_ends first
    cases o with
    | ok u =>
      have later := commits.document_ok
      obtain rfl := commits.shown
      exact ih own later
    | error f =>
      have later := commits.document_error own holds
      obtain rfl := commits.shown
      exact ih own later

/-- Has a step on files failed in none of the calls? -/
def Unhindered (calls : List (Mutation × Except Fault Unit)) : Prop :=
  ∀ call ∈ calls, ∀ e : FileError, call.2 ≠ .error e.fault

/-- A change that failed, though no step on files did, was refused. -/
theorem Commits.settle_of_error {m : Mutation} {f : Fault}
    (commits : h.Commits s (m.apply h.catalog) (.error f) g t)
    (sound : ∀ e : FileError, f ≠ e.fault) : m.settle h.catalog = h.catalog := by
  unfold Mutation.settle
  generalize m.apply h.catalog = r at commits
  cases commits with
  | refused e => rfl
  | unsaved e changes => exact absurd rfl (sound e)

/-- Where no step on files has failed, the document shows what the handle shows. -/
theorem Undergoes.writtenAfter_eq {lock : String} (made : Undergoes lock h s calls g t)
    (unhindered : Unhindered calls) :
    writtenAfter h.catalog h.catalog calls = shownAfter h.catalog calls := by
  induction made with
  | nil => rfl
  | @cons h s m o g t calls g' t' first rest ih =>
    obtain ⟨sound, later⟩ := List.forall_mem_cons.mp unhindered
    rw [m.task_eq] at first
    have commits := commits_of_ends first
    have shown := commits.shown
    subst shown
    cases o with
    | ok u => exact ih later
    | error f =>
      have same := commits.settle_of_error fun e fault => sound e (congrArg Except.error fault)
      have tail := ih later
      dsimp only at tail
      rw [same] at tail
      change writtenAfter (m.settle h.catalog) h.catalog calls =
        shownAfter (m.settle h.catalog) calls
      rw [same]
      exact tail

/-- What a failed change leaves behind, after any others and whatever step on files failed in them.
The document stays as the last change left it that succeeded. If the catalog refuses the change,
nothing at all has changed; if a step on files fails, the handle keeps what could not be written.
Handle and document show the same as long as no such step has failed. -/
theorem change_fails_leaving (own : HasOwnDraft path) (began : Begins path h s)
    (past : Undergoes (lockPath path) h s calls g t) {m : Mutation} {f : Fault}
    (ended : Store.Ends (lockPath path) (m.task g) t (.error f, g') t') :
    let shown := shownAfter h.catalog calls
    let written := writtenAfter h.catalog h.catalog calls
    g = ⟨path, shown⟩ ∧ t.Holds path written ∧ t'.Holds path written ∧
      ((∃ e : Refusal, m.apply shown = .error e ∧ f = e.fault ∧ g' = g ∧ t' = t) ∨
        ∃ c, ∃ e : FileError, m.apply shown = .ok c ∧ f = e.fault ∧ g' = ⟨path, c⟩ ∧
          t.ChangesOnly [draftPath path] t') ∧
      (Unhindered calls → written = shown) := by
  intro shown written
  obtain ⟨rfl, holds⟩ := began.synced
  obtain ⟨rfl, document⟩ := past.tracks own holds
  rw [m.task_eq] at ended
  have commits := commits_of_ends ended
  have after := commits.document_error own document
  refine ⟨rfl, document, after, ?_, past.writtenAfter_eq⟩
  change Commits ⟨h.path, shown⟩ t (m.apply shown) _ _ _ at commits
  generalize m.apply shown = r at commits ⊢
  cases commits with
  | refused e => exact .inl ⟨e, rfl, rfl, rfl, rfl⟩
  | unsaved e changes => exact .inr ⟨_, e, rfl, rfl, rfl, changes⟩

/-- A table is made, and a row for it is inserted that cannot be written: the handle has the row,
the document has the table without it. -/
theorem change_fails_leaving_row :
    let path := "s.jet.json"
    let table (rows : List Row) : StoredTable := ⟨"t", [⟨"a", ⟨.integer, 4, true⟩⟩], [], rows⟩
    let shows (rows : List Row) : Catalog := ⟨"s", .epoch, [table rows]⟩
    let insert := Mutation.insert "t" [("a", .int 1)]
    HasOwnDraft path ∧ ∃ h s calls g t g', Begins path h s ∧
      Undergoes (lockPath path) h s calls g t ∧
      Store.Ends (lockPath path) (insert.task g) t (.error FileError.isDirectory.fault, g') t ∧
      g = ⟨path, shows []⟩ ∧ g' = ⟨path, shows [[("a", .int 1)]]⟩ ∧ t.Holds path (shows []) := by
  intro path table shows insert
  have own : HasOwnDraft path := by decide
  have empty : (Store.empty.run (create path "s")).1.toOption =
      some ⟨path, ⟨"s", .epoch, []⟩⟩ := by
    decide +kernel
  rcases created : Store.empty.run (create path "s") with ⟨r, s⟩
  rw [created] at empty
  obtain rfl := eq_ok_of_toOption empty
  have began : Begins path ⟨path, ⟨"s", .epoch, []⟩⟩ s := by
    have ended := Store.ends_run (lockPath path) (create path "s") Store.empty
    rw [created] at ended
    exact .created ended
  let grow := Mutation.appendTable "t" [⟨"a", ⟨.integer, 4, true⟩⟩]
  have grows : grow.apply ⟨"s", .epoch, []⟩ = .ok (shows []) :=
    eq_ok_of_toOption (by decide +kernel)
  have inserts : insert.apply (shows []) = .ok (shows [[("a", .int 1)]]) :=
    eq_ok_of_toOption (by decide +kernel)
  obtain ⟨t, grown⟩ : ∃ t, s.run (grow.task ⟨path, ⟨"s", .epoch, []⟩⟩) =
      ((.ok (), ⟨path, shows []⟩), t) := by
    obtain ⟨-, current⟩ := current_of_run_create (by decide) created
    rw [grow.run_task, grows]
    rcases run_commit current.writable (.ok (shows [])) with ⟨e, refused, -⟩ | ⟨c, t, taken, run, -⟩
    · cases refused
    · obtain rfl := Except.ok.inj taken
      exact ⟨t, run⟩
  have past : Undergoes (lockPath path) ⟨path, ⟨"s", .epoch, []⟩⟩ s [(grow, .ok ())]
      ⟨path, shows []⟩ t := by
    have first := Store.ends_run (lockPath path) (grow.task ⟨path, ⟨"s", .epoch, []⟩⟩) s
    rw [grown] at first
    exact .cons first .nil
  have ended : Store.Ends (lockPath path) (insert.task ⟨path, shows []⟩) t
      (.error FileError.isDirectory.fault, ⟨path, shows [[("a", .int 1)]]⟩) t := by
    rw [insert.task_eq, inserts]
    exact Store.ends_bind_iff.mpr ⟨_, _, ends_save_failing _ _ _, rfl, rfl⟩
  obtain ⟨-, -, document, -⟩ := change_fails_leaving own began past ended
  have written : writtenAfter ⟨"s", .epoch, []⟩ ⟨"s", .epoch, []⟩ [(grow, .ok ())] = shows [] :=
    Mutation.settle_of_ok grows
  rw [written] at document
  exact ⟨own, _, s, _, _, t, _, began, past, ended, rfl, rfl, document⟩

/-- Where a directory stands in the way of the draft, a table is refused to the caller and shown by
the handle, and the next change that can be written puts it in the document. -/
theorem change_fails_lingering :
    let path := "s.jet.json"
    let made := Store.empty.run (create path "s")
    let blocked := made.2.plant "s.jet.tmp/x" (.text "")
    let failed := blocked.run
      ((Mutation.appendTable "t" [⟨"a", ⟨.integer, 4, true⟩⟩]).task ⟨path, ⟨"s", .epoch, []⟩⟩)
    let later := made.2.run ((Mutation.insert "t" [("a", .int 1)]).task failed.1.2)
    made.1.toOption = some ⟨path, ⟨"s", .epoch, []⟩⟩ ∧ failed.1.1.isOk = false ∧
      failed.1.2.catalog.tables.map (·.name) = ["t"] ∧
      (failed.2.read path).toOption = some (Catalog.toText ⟨"s", .epoch, []⟩) ∧
      later.1.1.isOk = true ∧ later.1.2.catalog.tables.map (·.name) = ["t"] ∧
      (later.2.read path).toOption = some later.1.2.catalog.toText := by
  decide +kernel

end CatalogHandle

end Tabular
