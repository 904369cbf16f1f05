import Tabular.Proofs.Persistence

/-!
The discipline of the lock. A task on a catalog takes the lock before it touches the document or its
draft, touches nothing else, and does not end without having given the lock up, unless in a handle.
This is said of the queries that a task asks, whatever the replies: so it holds where steps fail,
and where other tasks take steps in between.
-/
namespace Tabular

open CatalogHandle (lockPath draftPath HasOwnLock)

inductive Standing where
  /-- Without the lock, which it may have had before. -/
  | outside (had : Bool)
  /-- With the lock, and perhaps with the document read or put in place since. -/
  | inside (seen : Bool)
  deriving DecidableEq

/-- What a task is for: to put a document where it has seen none, or to remove it. -/
structure Licence where
  founds : Bool
  removes : Bool

namespace Standing

def Permits (path : String) (licence : Licence) : Standing → FileQuery → Prop
  | _, .isFile _ | _, .now => True
  | outside _, .create p => p = lockPath path
  | inside _, .read p => p = path
  | inside seen, .write p _ => p = draftPath path ∧ (seen = true ∨ licence.founds = true)
  | inside seen, .rename p goal =>
    p = draftPath path ∧ goal = path ∧ (seen = true ∨ licence.founds = true)
  | inside _, .remove p => p = lockPath path ∨ p = path ∧ licence.removes = true
  | _, _ => False

/-- Where a task stands after a reply. The lock is given up whatever the reply. -/
def next (path : String) : Standing → (q : FileQuery) → q.Reply → Standing
  | outside _, .create _, .ok _ => inside false
  | inside _, .read _, .ok _ => inside true
  | inside _, .rename .., .ok _ => inside true
  | inside seen, .remove p, _ => if p = lockPath path then outside true else inside seen
  | st, _, _ => st

variable {path : String} {seen : Bool}

theorem next_removeLock (r : (FileQuery.remove (lockPath path)).Reply) :
    (inside seen).next path (.remove (lockPath path)) r = outside true := if_pos rfl

theorem next_removeDocument (own : HasOwnLock path) (r : (FileQuery.remove path).Reply) :
    (inside seen).next path (.remove path) r = inside seen := if_neg own.ne

end Standing

open Standing (outside inside)

/-- A task that asks only what it may, and ends as it should. -/
def Obeys {α : Type} (path : String) (licence : Licence) (post : Standing → α → Prop) :
    FileTask α → Standing → Prop
  | .done a, st => post st a
  | .ask q next, st =>
    st.Permits path licence q ∧ ∀ r, Obeys path licence post (next r) (st.next path q r)

def LetsGo {α : Type} (ok : Standing → α → Prop) (st : Standing) : Except Fault α → Prop
  | .ok a => ok st a
  | .error _ => ∃ had, st = outside had

def EndsOpen (path : String) : Standing → Except Fault CatalogHandle → Prop :=
  LetsGo fun st h => st = inside true ∧ h.path = path

namespace Obeys

variable {α β : Type} {path : String} {licence : Licence} {st : Standing}
  {post post' : Standing → α → Prop} {goal : Standing → β → Prop}

theorem pure {a : α} (h : post st a) :
    Obeys path licence post (Pure.pure a : FileTask α) st := h

theorem bind {d : FileTask α} {k : α → FileTask β} (hd : Obeys path licence post d st)
    (hk : ∀ st a, post st a → Obeys path licence goal (k a) st) :
    Obeys path licence goal (d >>= k) st := by
  change Obeys path licence goal (Dialogue.bind d k) st
  induction d generalizing st with
  | done a => exact hk st a hd
  | ask q next ih => exact ⟨hd.1, fun r => ih r (hd.2 r)⟩

theorem imp {d : FileTask α} (hd : Obeys path licence post d st)
    (h : ∀ st a, post st a → post' st a) : Obeys path licence post' d st := by
  have whole := hd.bind (k := Pure.pure) fun st a ha => pure (h st a ha)
  rwa [bind_pure] at whole

/-- A query is asked, and the task goes on with the reply. -/
theorem query {q : FileQuery} {k : q.Reply → FileTask β} (permitted : st.Permits path licence q)
    (hk : ∀ r, Obeys path licence goal (k r) (st.next path q r)) :
    Obeys path licence goal (Dialogue.query q >>= k) st := ⟨permitted, hk⟩

/-- What a task does that stops at its first fault. -/
theorem andThen {m : ExceptT Fault FileTask α} {k : α → ExceptT Fault FileTask β}
    (hm : Obeys path licence (LetsGo post) m.run st)
    (hk : ∀ st a, post st a → Obeys path licence (LetsGo goal) (k a).run st) :
    Obeys path licence (LetsGo goal) (m >>= k).run st := by
  change Obeys path licence _ (m.run >>= ExceptT.bindCont k) st
  refine hm.bind fun st r hr => ?_
  cases r with
  | ok a => exact hk st a hr
  | error f => exact pure hr

theorem lift {d : FileTask α} (hd : Obeys path licence post d st) :
    Obeys path licence (LetsGo post) (ExceptT.lift d : ExceptT Fault FileTask α).run st := by
  change Obeys path licence _
    (d >>= fun a => (Pure.pure (Except.ok a) : FileTask (Except Fault α))) st
  exact hd.bind fun st a ha => pure ha

end Obeys

/-! ### Operations -/

namespace CatalogHandle

variable {path : String} {licence : Licence} {had : Bool}

theorem obeys_acquireLock :
    Obeys path licence (LetsGo fun st _ => st = inside false) (acquireLock path) (outside had) := by
  refine .query rfl fun r => ?_
  split
  · exact .pure rfl
  · exact .pure ⟨had, rfl⟩
  · exact .pure ⟨had, rfl⟩

theorem obeys_releaseLock {seen : Bool} :
    Obeys path licence (fun st _ => st = outside true) (releaseLock path) (inside seen) := by
  refine .query (.inl rfl) fun r => ?_
  rw [Standing.next_removeLock]
  split <;> exact .pure rfl

theorem obeys_locked {α : Type} {task : FileTask (Except Fault α)} {ok : Standing → α → Prop}
    (h : Obeys path licence
      (fun st r => (∃ seen, st = inside seen) ∧ ∀ a, r = .ok a → ok st a) task (inside false)) :
    Obeys path licence (LetsGo ok) (locked path task) (outside had) := by
  refine obeys_acquireLock.bind fun st r hr => ?_
  cases r with
  | error f => exact .pure hr
  | ok u =>
    obtain rfl : st = inside false := hr
    refine h.bind fun st result hresult => ?_
    obtain ⟨⟨seen, rfl⟩, success⟩ := hresult
    cases result with
    | ok a => exact .pure (success a rfl)
    | error f => exact obeys_releaseLock.bind fun st _ hst => .pure ⟨true, hst⟩

theorem obeys_save {h : CatalogHandle} {seen : Bool} (own : h.path = path)
    (may : seen = true ∨ licence.founds = true) :
    Obeys path licence
      (fun st r => (∃ seen, st = inside seen) ∧ (seen = true ∨ r = .ok () → st = inside true))
      h.save (inside seen) := by
  subst own
  refine .query ⟨rfl, may⟩ fun r => ?_
  split
  · exact .pure ⟨⟨seen, rfl⟩, fun done => done.elim (fun h => by rw [h]; rfl) fun h => by cases h⟩
  · refine .query ⟨rfl, rfl, may⟩ fun r => ?_
    cases r with
    | ok u => exact .pure ⟨⟨true, rfl⟩, fun _ => rfl⟩
    | error e =>
      exact .pure ⟨⟨seen, rfl⟩, fun done => done.elim (fun h => by rw [h]; rfl) fun h => by cases h⟩

theorem obeys_delete (own : HasOwnLock path) (removes : licence.removes = true) :
    Obeys path licence (LetsGo fun st _ => st = outside true) (delete path) (outside had) := by
  refine obeys_acquireLock.bind fun st r hr => ?_
  cases r with
  | error f => exact .pure hr
  | ok u =>
    obtain rfl : st = inside false := hr
    refine .query (.inr ⟨rfl, removes⟩) fun removed => ?_
    rw [Standing.next_removeDocument own]
    refine obeys_releaseLock.bind fun st _ hst => ?_
    split
    · exact .pure hst
    · exact .pure hst
    · exact .pure ⟨true, hst⟩

theorem obeys_create (founds : licence.founds = true) (name : String) :
    Obeys path licence (EndsOpen path) (create path name) (outside had) := by
  refine .query trivial fun present => ?_
  dsimp only
  split
  · exact .pure ⟨had, rfl⟩
  · refine obeys_locked (.query trivial fun createdAt => ?_)
    refine (obeys_save rfl (.inr founds)).bind fun st r hr => .pure ⟨hr.1, fun h hh => ?_⟩
    cases r with
    | error f => cases hh
    | ok u => exact ⟨hr.2 (.inr rfl), by rw [← Except.ok.inj hh]⟩

theorem obeys_openAt : Obeys path licence (EndsOpen path) (openAt path) (outside had) := by
  refine .query trivial fun present => ?_
  split
  · exact .pure ⟨had, rfl⟩
  · refine obeys_locked (.query rfl fun r => ?_)
    cases r with
    | error e => exact .pure ⟨⟨false, rfl⟩, fun a ha => by cases ha⟩
    | ok text => exact .pure ⟨⟨true, rfl⟩, fun h hh => ⟨rfl, (ofText_eq_ok hh).1⟩⟩

def Stays (path : String) {α : Type} (st : Standing) (p : α × CatalogHandle) : Prop :=
  st = inside true ∧ p.2.path = path

theorem obeys_commit {h : CatalogHandle} (own : h.path = path) (r : Except Refusal Catalog) :
    Obeys path licence (Stays path) (h.commit r) (inside true) := by
  cases r with
  | error e => exact .pure ⟨rfl, own⟩
  | ok c =>
    refine (obeys_save (h := { h with catalog := c }) own (.inl rfl)).bind fun st r hr => ?_
    exact .pure ⟨hr.2 (.inl rfl), own⟩

theorem obeys_task {h : CatalogHandle} (own : h.path = path) (m : Mutation) :
    Obeys path licence (Stays path) (m.task h) (inside true) := by
  cases m with
  | deleteRows table criteria =>
    have deleted : Obeys path licence (Stays path) (h.deleteRows table criteria) (inside true) := by
      unfold deleteRows
      split
      · exact .pure ⟨rfl, own⟩
      · exact (obeys_commit own _).bind fun st p hp => .pure hp
    exact deleted.bind fun st p hp => .pure hp
  | appendTable name columns => exact obeys_commit own _
  | appendKey table key => exact obeys_commit own _
  | dropTable name => exact obeys_commit own _
  | insert table values => exact obeys_commit own _

theorem obeys_close {h : CatalogHandle} (own : h.path = path) :
    Obeys path licence (fun st _ => st = outside true) h.close (inside true) := by
  subst own
  exact obeys_releaseLock

end CatalogHandle

/-! ### Sessions -/

namespace CatalogSession

open CatalogHandle (Stays)

variable {α β : Type} {path : String} {licence : Licence}

def Abides (path : String) (licence : Licence) (m : CatalogSession α) : Prop :=
  ∀ h : CatalogHandle, h.path = path →
    Obeys path licence (Stays path) (m.run.run h) (inside true)

namespace Abides

theorem ofExcept (r : Except Fault α) : Abides path licence (ofExcept r) :=
  fun _ own => .pure ⟨rfl, own⟩

theorem pure (a : α) : Abides path licence (Pure.pure a) := fun _ own => .pure ⟨rfl, own⟩

theorem throw (f : Fault) : Abides path licence (throw f : CatalogSession α) :=
  fun _ own => .pure ⟨rfl, own⟩

theorem get : Abides path licence get := fun _ own => .pure ⟨rfl, own⟩

theorem commit (r : CatalogHandle → Except Refusal Catalog) :
    Abides path licence (ofStep fun h => h.commit (r h)) :=
  fun h own => CatalogHandle.obeys_commit own (r h)

theorem bind {m : CatalogSession α} {k : α → CatalogSession β} (hm : Abides path licence m)
    (hk : ∀ a, Abides path licence (k a)) : Abides path licence (m >>= k) := by
  intro h own
  change Obeys path licence _
    (m.run.run h >>= fun p => (ExceptT.bindCont k p.1).run p.2) (inside true)
  refine (hm h own).bind fun st p hp => ?_
  obtain ⟨r, h'⟩ := p
  obtain ⟨rfl, own'⟩ := hp
  cases r with
  | ok a => exact hk a h' own'
  | error f => exact Obeys.pure ⟨rfl, own'⟩

theorem tryCatch {m : CatalogSession α} {handler : Fault → CatalogSession α}
    (hm : Abides path licence m) (hh : ∀ f, Abides path licence (handler f)) :
    Abides path licence (tryCatch m handler) := by
  intro h own
  change Obeys path licence _ (m.run.run h >>= fun p =>
    (MonadExcept.tryCatch (ExceptT.mk (Pure.pure p.1)) handler : CatalogSession α).run.run p.2)
    (inside true)
  refine (hm h own).bind fun st p hp => ?_
  obtain ⟨r, h'⟩ := p
  obtain ⟨rfl, own'⟩ := hp
  cases r with
  | ok a => exact Obeys.pure ⟨rfl, own'⟩
  | error f => exact hh f h' own'

theorem appendEach {kind : CommandKind} {append : α → CatalogSession (Option Fault)}
    (each : ∀ x, Abides path licence (append x)) (report : Report) (xs : List α) :
    Abides path licence (appendEach kind append report xs) := by
  induction xs generalizing report with
  | nil => exact pure _
  | cons x xs ih =>
    rw [appendEach_cons]
    refine (each x).bind fun fault => (ih _).bind fun p => ?_
    cases fault <;> exact pure _

theorem forM {act : α → CatalogSession Unit} (each : ∀ x, Abides path licence (act x))
    (xs : List α) : Abides path licence (xs.forM act) := by
  induction xs with
  | nil => exact pure ()
  | cons x xs ih => exact (each x).bind fun _ => ih

end Abides

end CatalogSession

section Populate

open CatalogSession (Abides)

variable {path : String} {licence : Licence} {o : Options}

theorem Table.abides_appendOrSkip (t : Table) : Abides path licence (t.appendOrSkip o) := by
  have append : Abides path licence (t.append o) := by
    refine (Abides.ofExcept _).bind fun name => Abides.get.bind fun h => ?_
    have last : Abides path licence (do
        let columns ← CatalogSession.ofExcept t.storedColumns
        CatalogSession.ofStep (·.appendTable name columns)) :=
      (Abides.ofExcept _).bind fun columns => .commit _
    dsimp only
    split
    · exact Abides.bind (.commit _) fun _ => last
    · exact last
  refine (append.bind fun _ => .pure none).tryCatch fun f => ?_
  split
  · exact .pure _
  · exact .pure _
  · exact .throw _

theorem Table.abides_appendKey (t : Table) : Abides path licence (t.appendKey o) :=
  (Abides.ofExcept _).bind fun _ => (Abides.ofExcept _).bind fun _ => .commit _

theorem Relation.abides_appendOrSkip (r : Relation) (created : List String) :
    Abides path licence (r.appendOrSkip o created) := by
  unfold Relation.appendOrSkip
  split
  · exact .pure _
  · exact (Abides.ofExcept _).bind fun key => Abides.bind (.commit _) fun _ => .pure none

theorem Schema.abides_populate (s : Schema) (step : DatabaseStep) :
    Abides path licence (s.populate o step) := by
  rw [populate_eq]
  refine (Abides.appendEach Table.abides_appendOrSkip _ _).bind fun p => ?_
  refine (Abides.forM Table.abides_appendKey _).bind fun _ => ?_
  exact (Abides.appendEach (fun r => r.abides_appendOrSkip _) _ _).bind fun q => .pure _

end Populate

/-! ### Whole runs -/

namespace CatalogDirectory

variable {d : CatalogDirectory} {path database : String} {had : Bool}

def licence : Licence := ⟨true, true⟩

theorem obeys_openOrCreate (hp : d.catalogPath database = .ok path) (own : HasOwnLock path)
    (overwrite : Bool) :
    Obeys path licence (EndsOpen path) (d.openOrCreate database overwrite).run (outside had) := by
  have create (had : Bool) :
      Obeys path licence (EndsOpen path) (CatalogHandle.create path database) (outside had) :=
    CatalogHandle.obeys_create rfl database
  unfold openOrCreate
  rw [hp]
  refine .query trivial fun present => ?_
  dsimp only
  cases present with
  | false => exact create had
  | true =>
    cases overwrite with
    | false => exact CatalogHandle.obeys_openAt
    | true =>
      refine (CatalogHandle.obeys_delete own rfl).andThen fun st _ hst => ?_
      rw [hst]
      exact create true

theorem obeys_openFor {s : Schema} (hp : d.catalogPath s.name = .ok path) (own : HasOwnLock path)
    (o : Options) :
    Obeys path licence (LetsGo fun st p => st = inside true ∧ p.1.path = path) (d.openFor s o).run
      (outside had) := by
  unfold openFor
  split
  · rw [hp]
    exact CatalogHandle.obeys_openAt.andThen fun st h hst => .pure hst
  · exact (obeys_openOrCreate hp own o.overwrite).andThen fun st h hst => .pure hst

theorem obeys_pure {α : Type} (r : Except Fault α) :
    Obeys path licence (LetsGo fun st _ => st = outside true)
      (ExceptT.mk (pure r) : ExceptT Fault FileTask α).run (outside true) := by
  cases r with
  | ok a => exact .pure rfl
  | error f => exact .pure ⟨true, rfl⟩

/-- A run ends without the lock, and has had it if it succeeds. -/
theorem obeys_createDatabase {s : Schema} (hp : d.catalogPath s.name = .ok path)
    (own : HasOwnLock path) (overwrite : Bool) :
    Obeys path licence (LetsGo fun st _ => st = outside true) (d.createDatabase s overwrite).run
      (outside had) := by
  refine (obeys_openOrCreate hp own overwrite).andThen fun st h hst => ?_
  obtain ⟨rfl, same⟩ := hst
  refine (CatalogHandle.obeys_close same).imp fun st r hst => ?_
  cases r with
  | ok u => exact hst
  | error f => exact ⟨true, hst⟩

theorem obeys_create {s : Schema} (hp : d.catalogPath s.name = .ok path) (own : HasOwnLock path)
    (o : Options) :
    Obeys path licence (LetsGo fun st _ => st = outside true) (d.create s o).run (outside had) := by
  refine (obeys_openFor hp own o).andThen fun st p hst => ?_
  obtain ⟨h, step⟩ := p
  obtain ⟨rfl, same⟩ := hst
  refine (s.abides_populate step h same).lift.andThen fun st q hq => ?_
  obtain ⟨populated, h'⟩ := q
  obtain ⟨rfl, same'⟩ := hq
  refine (CatalogHandle.obeys_close same').lift.andThen fun st closed hst => ?_
  obtain rfl : st = outside true := hst
  refine (obeys_pure populated).andThen fun st report hst => ?_
  obtain rfl : st = outside true := hst
  refine (obeys_pure closed).andThen fun st _ hst => ?_
  exact .pure hst

end CatalogDirectory

end Tabular
