import Tabular.Proofs.Discipline

/-!
Runs in which steps on files fail. Any step can fail for any reason, and a write with a part of its
text in the file; only a lock that is there can always be removed. A run on a directory that meets a
lock changes nothing, and one that meets none leaves none behind, however it ends.
-/
namespace Tabular

open CatalogHandle (lockPath draftPath HasOwnLock)
open Standing (outside inside)

namespace Store

def Fails (lock : String) (s : Store) : (q : FileQuery) → q.Reply → Store → Prop
  | .isFile _, found, t => found = false ∧ t = s
  | .create _, .error _, t | .read _, .error _, t | .rename .., .error _, t => t = s
  | .write p _, .error _, t => t = s ∨ ∃ part, s.write p part = .ok t
  | .remove p, .error _, t => p ≠ lock ∧ t = s
  | .now, _, t => t = s
  | _, _, _ => False

def Answers (lock : String) (s : Store) (q : FileQuery) (r : q.Reply) (t : Store) : Prop :=
  s.reply q = (r, t) ∨ s.Fails lock q r t

/-- How a task can end from a store, and the store that it leaves behind. -/
def Ends {α : Type} (lock : String) : FileTask α → Store → α → Store → Prop
  | .done b, s, a, t => b = a ∧ s = t
  | .ask q next, s, a, t => ∃ r u, s.Answers lock q r u ∧ Ends lock (next r) u a t

/-- What a run does in which nothing fails is one way to end. -/
theorem ends_run {α : Type} (lock : String) (d : FileTask α) (s : Store) :
    Ends lock d s (s.run d).1 (s.run d).2 := by
  induction d generalizing s with
  | done a => exact ⟨rfl, rfl⟩
  | ask q next ih => exact ⟨_, _, .inl rfl, ih _ _⟩

variable {s t : Store} {path : String} {licence : Licence}

theorem changesOnly_outcome {paths : List String} {r : Except FileError Store}
    (h : ∀ t, r = .ok t → s.ChangesOnly paths t) : s.ChangesOnly paths (s.outcome r).2 := by
  cases r with
  | ok t => exact h t rfl
  | error e => exact .refl paths s

theorem eq_ok_of_outcome {r : Except FileError Store} {u : Unit} (h : s.outcome r = (.ok u, t)) :
    r = .ok t := by
  cases r with
  | ok v => exact congrArg Except.ok (Prod.mk.inj h).2
  | error e => cases (Prod.mk.inj h).1

theorem eq_of_outcome_error {r : Except FileError Store} {e : FileError}
    (h : s.outcome r = (.error e, t)) : t = s := by
  cases r with
  | ok v => cases (Prod.mk.inj h).1
  | error e => exact (Prod.mk.inj h).2.symm

/-- Asking after a file, reading one or asking for the time changes nothing. -/
theorem eq_of_answers {lock : String} {q : FileQuery} {r : q.Reply}
    (quiet : match q with | .isFile _ | .read _ | .now => True | _ => False)
    (answered : s.Answers lock q r t) : t = s := by
  rcases answered with regular | fails
  · cases q with
    | isFile p | read p | now => exact (Prod.mk.inj regular).2.symm
    | _ => exact quiet.elim
  · cases q with
    | isFile p => exact fails.2
    | now => exact fails
    | read p =>
      cases r with
      | ok text => exact fails.elim
      | error e => exact fails
    | _ => exact quiet.elim

theorem changesOnly_of_write {lock p text : String} {r : Except FileError Unit}
    (answered : s.Answers lock (.write p text) r t) : s.ChangesOnly [p] t := by
  rcases answered with regular | fails
  · obtain rfl := (Prod.mk.inj regular).2
    exact changesOnly_outcome fun t h => (write_ok h).2
  · cases r with
    | ok u => exact fails.elim
    | error e =>
      rcases fails with rfl | ⟨part, torn⟩
      · exact .refl _ t
      · exact (write_ok torn).2

theorem changesOnly_of_rename {lock p goal : String} {r : Except FileError Unit}
    (answered : s.Answers lock (.rename p goal) r t) : s.ChangesOnly [p, goal] t := by
  rcases answered with regular | fails
  · obtain rfl := (Prod.mk.inj regular).2
    exact changesOnly_outcome fun t h => (rename_ok h).2
  · cases r with
    | ok u => exact fails.elim
    | error e =>
      obtain rfl : t = s := fails
      exact .refl _ t

theorem changesOnly_of_remove {lock p : String} {r : Except FileError Unit}
    (answered : s.Answers lock (.remove p) r t) : s.ChangesOnly [p] t := by
  rcases answered with regular | fails
  · obtain rfl := (Prod.mk.inj regular).2
    exact changesOnly_outcome fun t h => (remove_ok h).2
  · cases r with
    | ok u => exact fails.elim
    | error e =>
      obtain rfl : t = s := fails.2
      exact .refl _ t

theorem create_of_answers {lock p : String} {u : Unit}
    (answered : s.Answers lock (.create p) (.ok u) t) : s.create p = .ok t := by
  rcases answered with regular | fails
  · exact eq_ok_of_outcome regular
  · exact fails.elim

theorem eq_of_create_error {lock p : String} {e : FileError}
    (answered : s.Answers lock (.create p) (.error e) t) : t = s := by
  rcases answered with regular | fails
  · exact eq_of_outcome_error regular
  · exact fails

/-- A lock that is there can be removed. -/
theorem file?_of_remove {lock : String} {r : Except FileError Unit}
    (held : (s.file? lock).isSome = true) (answered : s.Answers lock (.remove lock) r t) :
    t.file? lock = none := by
  rcases answered with regular | fails
  · obtain ⟨content, hc⟩ := Option.isSome_iff_exists.mp held
    obtain ⟨u, removed⟩ := exists_remove hc
    change s.outcome (s.remove lock) = (r, t) at regular
    rw [removed] at regular
    obtain rfl : u = t := (Prod.mk.inj regular).2
    exact (remove_ok removed).1
  · cases r with
    | ok u => exact fails.elim
    | error e => exact absurd rfl fails.1

/-- As long as the lock is not given up, only the document and its draft are touched. -/
theorem changesOnly_of_answers {seen : Bool} {q : FileQuery} {r : q.Reply}
    (permitted : (inside seen).Permits path licence q) (kept : q ≠ .remove (lockPath path))
    (answered : s.Answers (lockPath path) q r t) : s.ChangesOnly [draftPath path, path] t := by
  cases q with
  | isFile p | read p | now =>
    obtain rfl := eq_of_answers trivial answered
    exact .refl _ t
  | create p => exact permitted.elim
  | write p text =>
    obtain ⟨rfl, -⟩ := permitted
    exact (changesOnly_of_write answered).mono (by simp)
  | rename p goal =>
    obtain ⟨rfl, rfl, -⟩ := permitted
    exact changesOnly_of_rename answered
  | remove p =>
    rcases permitted with rfl | ⟨rfl, -⟩
    · exact absurd rfl kept
    · exact (changesOnly_of_remove answered).mono (by simp)

end Store

namespace Standing

variable {s t home : Store} {path : String} {licence : Licence} {st : Standing}

theorem exists_inside (seen : Bool) {q : FileQuery} (kept : q ≠ .remove (lockPath path))
    (r : q.Reply) : ∃ now, (inside seen).next path q r = inside now := by
  cases q with
  | remove p => exact ⟨seen, if_neg fun same => kept (by rw [same])⟩
  | read p | rename p goal => cases r <;> exact ⟨_, rfl⟩
  | _ => exact ⟨seen, rfl⟩

def Fits (lock : String) (home : Store) : Standing → Store → Prop
  | outside false, s => s = home
  | outside true, s => home.file? lock = none ∧ s.file? lock = none
  | inside _, s => home.file? lock = none ∧ (s.file? lock).isSome = true

theorem Fits.outside_of_free {lock : String} {had : Bool} (fits : (outside had).Fits lock home s)
    (free : home.file? lock = none) : s.file? lock = none := by
  cases had with
  | false => exact (congrArg (·.file? lock) fits).trans free
  | true => exact fits.2

theorem Fits.answer (own : HasOwnLock path) {q : FileQuery} {r : q.Reply}
    (permitted : st.Permits path licence q) (fits : st.Fits (lockPath path) home s)
    (answered : s.Answers (lockPath path) q r t) :
    (st.next path q r).Fits (lockPath path) home t := by
  cases st with
  | outside had =>
    cases q with
    | isFile p | now =>
      obtain rfl := Store.eq_of_answers trivial answered
      exact fits
    | create p =>
      obtain rfl : p = lockPath path := permitted
      cases r with
      | error e =>
        obtain rfl := Store.eq_of_create_error answered
        exact fits
      | ok u =>
        obtain ⟨absent, made, -⟩ := Store.create_ok (Store.create_of_answers answered)
        refine ⟨?_, by rw [made]; rfl⟩
        cases had with
        | false => exact (congrArg (·.file? (lockPath path)) fits).symm.trans absent
        | true => exact fits.1
    | _ => exact permitted.elim
  | inside seen =>
    obtain ⟨free, held⟩ := fits
    by_cases kept : q = .remove (lockPath path)
    · subst kept
      rw [next_removeLock]
      exact ⟨free, Store.file?_of_remove held answered⟩
    · obtain ⟨now, stays⟩ := exists_inside seen kept r
      rw [stays]
      have changes := Store.changesOnly_of_answers permitted kept answered
      exact ⟨free, by rw [own.file_lockPath changes]; exact held⟩

end Standing

/-! ### Runs -/

/-- A task that keeps the discipline ends with a store that fits where it stands. -/
theorem Obeys.fits {α : Type} {s t home : Store} {path : String} {licence : Licence}
    {st : Standing} {post : Standing → α → Prop} {d : FileTask α} {a : α} (own : HasOwnLock path)
    (obeys : Obeys path licence post d st) (fits : st.Fits (lockPath path) home s)
    (ended : Store.Ends (lockPath path) d s a t) :
    ∃ st, post st a ∧ st.Fits (lockPath path) home t := by
  induction d generalizing st s with
  | done b =>
    obtain ⟨rfl, rfl⟩ := ended
    exact ⟨st, obeys, fits⟩
  | ask q next ih =>
    obtain ⟨r, u, answered, rest⟩ := ended
    exact ih r (obeys.2 r) (fits.answer own obeys.1 answered) rest

/-- How a task treats a lock: where it meets one it fails and changes nothing, and where it meets
none it leaves none behind. -/
structure Store.KeepsLock (lock : String) (s : Store) (isOk : Bool) (t : Store) : Prop where
  met : (s.file? lock).isSome = true → isOk = false ∧ t = s
  free : s.file? lock = none → t.file? lock = none

theorem Obeys.keepsLock {α : Type} {s t : Store} {path : String} {licence : Licence}
    {d : FileTask (Except Fault α)} {r : Except Fault α} (own : HasOwnLock path)
    (obeys : Obeys path licence (LetsGo fun st _ => st = outside true) d (outside false))
    (ended : Store.Ends (lockPath path) d s r t) : s.KeepsLock (lockPath path) r.isOk t := by
  have start : (outside false).Fits (lockPath path) s s := rfl
  obtain ⟨st, settled, fits⟩ := obeys.fits own start ended
  constructor
  · intro met
    cases r with
    | ok a =>
      obtain rfl : st = outside true := settled
      rw [fits.1] at met
      cases met
    | error f =>
      obtain ⟨had, rfl⟩ := settled
      cases had with
      | false => exact ⟨rfl, fits⟩
      | true =>
        rw [fits.1] at met
        cases met
  · intro free
    have out : ∃ had, st = outside had := by
      cases r with
      | ok a => exact ⟨true, settled⟩
      | error f => exact settled
    obtain ⟨had, rfl⟩ := out
    exact fits.outside_of_free free

namespace CatalogDirectory

theorem hasOwnLock {d : CatalogDirectory} {database path : String}
    (hp : d.catalogPath database = .ok path) : HasOwnLock path :=
  CatalogHandle.hasOwnLock (catalogPath_eq_ok hp)

/-- Whatever fails on the way, a catalog that is locked is not touched, and one that is not locked
is not locked afterwards. -/
theorem create_keepsLock {d : CatalogDirectory} {schema : Schema} {path : String}
    (hp : d.catalogPath schema.name = .ok path) (o : Options) (overwrite : Bool) (s t : Store) :
    (∀ r, Store.Ends (lockPath path) (d.create schema o).run s r t →
      s.KeepsLock (lockPath path) r.isOk t) ∧
    ∀ r, Store.Ends (lockPath path) (d.createDatabase schema overwrite).run s r t →
      s.KeepsLock (lockPath path) r.isOk t := by
  have own := hasOwnLock hp
  exact ⟨fun r ended => (obeys_create hp own o).keepsLock own ended,
    fun r ended => (obeys_createDatabase hp own overwrite).keepsLock own ended⟩

def obstructed : Store := ⟨[(["s.jet.tmp"], .directory)], [], .epoch⟩

def occupied : Store := ⟨[(["s.jet.lock"], .file (.text ""))], [], .epoch⟩

theorem create_keepsLock_failing :
    let schema : Schema := ⟨"s", [⟨"t", [⟨"k", some .double, none, -1, true⟩], some ["k"]⟩], []⟩
    let path := CatalogHandle.pathOf working.path schema.name
    let run (s : Store) := s.attempt (working.create schema {})
    (working.catalogPath schema.name).toOption = some path ∧
      ((run obstructed).1.isOk = false ∧ (run obstructed).2.file? (lockPath path) = none) ∧
      (run occupied).1.isOk = false ∧ (run occupied).2 = occupied := by
  intro schema path run
  have named : (working.catalogPath schema.name).toOption = some path := by decide +kernel
  have keeps (s : Store) := (create_keepsLock (eq_ok_of_toOption named) {} false s
    (s.attempt (working.create schema {})).2).1 _ (Store.ends_run _ _ s)
  refine ⟨named, ⟨by decide +kernel, (keeps obstructed).free ?_⟩, (keeps occupied).met ?_⟩
  · decide +kernel
  · decide +kernel

end CatalogDirectory

end Tabular
