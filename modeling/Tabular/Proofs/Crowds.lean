import Tabular.Proofs.Troubles

/-!
Many agents on one catalog. They take turns in any order, one step on a file each, as they create,
open, change, close and delete the catalog at a path. At most one of them has the lock, and it knows
the document from the moment that it has read or written it; so a document is replaced by an agent
that knows it, or removed by one that deletes it. Only a creation can come too late: it looks for a
document before it has the lock, and does not look again.
-/
namespace Tabular

open CatalogHandle (lockPath draftPath HasOwnLock Stays)
open Standing (outside inside)

inductive Call where
  | create (title : String)
  | openAt
  | delete
  | change (m : Mutation)
  | close

namespace Call

/-- The steps of a call, with the handle before and after it. A call for which the agent has no
handle, or needs none and has one, takes no step. -/
def task (path : String) : Call → Option CatalogHandle → FileTask (Option CatalogHandle)
  | create title, none => do return (← CatalogHandle.create path title).toOption
  | openAt, none => do return (← CatalogHandle.openAt path).toOption
  | delete, none => do
    let _ ← CatalogHandle.delete path
    return none
  | change m, some h => do
    let (_, h) ← m.task h
    return some h
  | close, some h => do
    let _ ← h.close
    return none
  | _, held => return held

def licence : Call → Licence
  | create _ => ⟨true, false⟩
  | delete => ⟨false, true⟩
  | _ => ⟨false, false⟩

end Call

structure Agent where
  call : Call
  /-- What is left of the call. -/
  task : FileTask (Option CatalogHandle)
  /-- What the agent has last read in the document or put there, since it has the lock. -/
  known : Option Content
  /-- The document at the moment at which the agent got the lock. -/
  met : Option Content

namespace Agent

def fresh : Agent := ⟨.close, .done none, none, none⟩

def learn (path : String) (a : Agent) (s t : Store) : (q : FileQuery) → q.Reply → Option Content
  | .create _, .ok _ => none
  | .read _, .ok _ | .rename .., .ok _ => t.file? path
  | _, _ => if t.file? path = s.file? path then a.known else t.file? path

def meet (path : String) (a : Agent) (s : Store) : (q : FileQuery) → q.Reply → Option Content
  | .create _, .ok _ => s.file? path
  | _, _ => a.met

end Agent

structure Crowd where
  store : Store
  agents : Nat → Agent

namespace Crowd

def gather (s : Store) : Crowd := ⟨s, fun _ => .fresh⟩

def put (w : Crowd) (i : Nat) (a : Agent) (s : Store) : Crowd :=
  ⟨s, Function.update w.agents i a⟩

/-- An agent takes its next step, or begins a call if it is in none. -/
def turn (path : String) (w : Crowd) (i : Nat) (call : Call) : Crowd :=
  let a := w.agents i
  match a.task with
  | .done held => w.put i { a with call, task := call.task path held } w.store
  | .ask q next =>
    let (r, t) := w.store.reply q
    w.put i
      { a with
        task := next r, known := a.learn path w.store t q r, met := a.meet path w.store q r } t

def run (path : String) (w : Crowd) (turns : List (Nat × Call)) : Crowd :=
  turns.foldl (fun w next => w.turn path next.1 next.2) w

end Crowd

/-! ### Calls -/

def Rests (path : String) (st : Standing) : Option CatalogHandle → Prop
  | none => ∃ had, st = outside had
  | some h => st = inside true ∧ h.path = path

variable {path : String} {st : Standing}

theorem rests_toOption {r : Except Fault CatalogHandle} (h : EndsOpen path st r) :
    Rests path st r.toOption := by
  cases r with
  | ok opened => exact h
  | error f => exact h

/-- A call keeps the discipline. -/
theorem Call.obeys_task (own : HasOwnLock path) (call : Call) {held : Option CatalogHandle}
    (rests : Rests path st held) :
    Obeys path call.licence (Rests path) (call.task path held) st := by
  cases held with
  | none =>
    obtain ⟨had, rfl⟩ := rests
    have idle : Obeys path call.licence (Rests path) (pure none : FileTask _) (outside had) :=
      .pure ⟨had, rfl⟩
    cases call with
    | create title =>
      exact (CatalogHandle.obeys_create rfl title).bind fun st r hr => .pure (rests_toOption hr)
    | openAt => exact CatalogHandle.obeys_openAt.bind fun st r hr => .pure (rests_toOption hr)
    | delete =>
      refine (CatalogHandle.obeys_delete own rfl).bind fun st r hr => .pure ?_
      cases r with
      | ok u => exact ⟨true, hr⟩
      | error f => exact hr
    | change m => exact idle
    | close => exact idle
  | some h =>
    obtain ⟨rfl, same⟩ := rests
    have idle : Obeys path call.licence (Rests path) (pure (some h) : FileTask _) (inside true) :=
      .pure ⟨rfl, same⟩
    cases call with
    | change m => exact (CatalogHandle.obeys_task same m).bind fun st p hp => .pure hp
    | close => exact (CatalogHandle.obeys_close same).bind fun st r hr => .pure ⟨true, hr⟩
    | create title => exact idle
    | openAt => exact idle
    | delete => exact idle

/-! ### Order -/

def Standing.isInside : Standing → Bool
  | outside _ => false
  | inside _ => true

namespace Agent

variable {s t : Store} {a : Agent}

/-- An agent with the lock knows the document, if it has seen it, or has met it. -/
def Knows (path : String) (a : Agent) (s : Store) : Standing → Prop
  | outside _ => True
  | inside true => a.known = s.file? path
  | inside false => a.known = s.file? path ∨ a.known = none ∧ a.met = s.file? path

theorem knows_of_outside (h : st.isInside = false) : a.Knows path s st := by
  cases st with
  | outside had => trivial
  | inside seen => cases h

theorem Knows.of_file? (knows : a.Knows path s st) (same : t.file? path = s.file? path) :
    a.Knows path t st := by
  cases st with
  | outside had => trivial
  | inside seen =>
    cases seen with
    | true => exact Eq.trans knows same.symm
    | false => exact knows.imp (·.trans same.symm) fun fresh => ⟨fresh.1, fresh.2.trans same.symm⟩

/-- An agent knows what it has changed itself. -/
theorem Knows.notice {task : FileTask (Option CatalogHandle)} (knows : a.Knows path s st) :
    Knows path
      { a with task, known := if t.file? path = s.file? path then a.known else t.file? path } t
      st := by
  by_cases same : t.file? path = s.file? path
  · rw [if_pos same]
    exact knows.of_file? (a := { a with task }) same
  · rw [if_neg same]
    cases st with
    | outside had => trivial
    | inside seen =>
      cases seen with
      | true => rfl
      | false => exact .inl rfl

/-- With the lock, an agent goes on knowing the document. -/
theorem Knows.learn {licence : Licence} {seen : Bool} {q : FileQuery} {r : q.Reply}
    {task : FileTask (Option CatalogHandle)} (permitted : (inside seen).Permits path licence q)
    (kept : q ≠ .remove (lockPath path)) (knows : a.Knows path s (inside seen)) :
    Knows path { a with task, known := a.learn path s t q r, met := a.meet path s q r } t
      ((inside seen).next path q r) := by
  cases q with
  | isFile p | now | write p text => exact knows.notice
  | create p => exact permitted.elim
  | read p =>
    cases r with
    | ok text => exact rfl
    | error e => exact knows.notice
  | rename p goal =>
    cases r with
    | ok u => exact rfl
    | error e => exact knows.notice
  | remove p =>
    have stays : (inside seen).next path (.remove p) r = inside seen :=
      if_neg fun same => kept (by rw [same])
    rw [stays]
    exact knows.notice

end Agent

namespace Crowd

variable {w : Crowd} {stand : Nat → Standing} {i : Nat} {t : Store}

theorem agents_put_self (w : Crowd) (i : Nat) (a : Agent) (s : Store) :
    (w.put i a s).agents i = a := by
  unfold put
  exact Function.update_self _ _ _

theorem agents_put_of_ne {j : Nat} (h : j ≠ i) (w : Crowd) (a : Agent) (s : Store) :
    (w.put i a s).agents j = w.agents j := by
  unfold put
  exact Function.update_of_ne h _ _

/-- Every agent keeps the discipline, one at most has the lock, and it knows the document. -/
structure Orderly (path : String) (w : Crowd) (stand : Nat → Standing) : Prop where
  keeps : ∀ i, Obeys path (w.agents i).call.licence (Rests path) (w.agents i).task (stand i)
  alone : ∀ i j, (stand i).isInside = true → (stand j).isInside = true → i = j
  locked : ∀ i, (stand i).isInside = true → (w.store.file? (lockPath path)).isSome = true
  knows : ∀ i, (w.agents i).Knows path w.store (stand i)

theorem orderly_gather (path : String) (s : Store) :
    (gather s).Orderly path fun _ => outside false where
  keeps := fun _ => ⟨false, rfl⟩
  alone := fun _ _ h => by cases h
  locked := fun _ h => by cases h
  knows := fun _ => trivial

theorem Orderly.put (orderly : w.Orderly path stand) {a : Agent} {now : Standing}
    (keeps : Obeys path a.call.licence (Rests path) a.task now)
    (entered : now.isInside = true →
      (t.file? (lockPath path)).isSome = true ∧ ∀ j ≠ i, (stand j).isInside = false)
    (others : ∀ j ≠ i, (stand j).isInside = true →
      (t.file? (lockPath path)).isSome = true ∧ t.file? path = w.store.file? path)
    (knows : a.Knows path t now) :
    (w.put i a t).Orderly path (Function.update stand i now) := by
  refine ⟨fun j => ?_, fun j k hj hk => ?_, fun j hj => ?_, fun j => ?_⟩
  · by_cases same : j = i
    · subst same
      rw [agents_put_self, Function.update_self]
      exact keeps
    · rw [agents_put_of_ne same, Function.update_of_ne same]
      exact orderly.keeps j
  · by_cases first : j = i <;> by_cases second : k = i
    · exact first.trans second.symm
    · subst first
      rw [Function.update_self] at hj
      rw [Function.update_of_ne second, (entered hj).2 k second] at hk
      cases hk
    · subst second
      rw [Function.update_self] at hk
      rw [Function.update_of_ne first, (entered hk).2 j first] at hj
      cases hj
    · rw [Function.update_of_ne first] at hj
      rw [Function.update_of_ne second] at hk
      exact orderly.alone j k hj hk
  · by_cases same : j = i
    · subst same
      rw [Function.update_self] at hj
      exact (entered hj).1
    · rw [Function.update_of_ne same] at hj
      exact (others j same hj).1
  · by_cases same : j = i
    · subst same
      rw [agents_put_self, Function.update_self]
      exact knows
    · rw [agents_put_of_ne same, Function.update_of_ne same]
      cases inside : (stand j).isInside with
      | false => exact Agent.knows_of_outside inside
      | true => exact (orderly.knows j).of_file? (others j same inside).2

/-- Nobody else has the lock. -/
theorem Orderly.outside_of_ne (orderly : w.Orderly path stand) {j : Nat}
    (has : (stand i).isInside = true) (other : j ≠ i) : (stand j).isInside = false := by
  cases inside : (stand j).isInside with
  | false => rfl
  | true => exact absurd (orderly.alone j i inside has) other

/-- Without the lock an agent gets it from nobody, or changes nothing. -/
theorem Orderly.step_outside (own : HasOwnLock path) (orderly : w.Orderly path stand) {had : Bool}
    {q : FileQuery} {r : q.Reply} {licence : Licence}
    (permitted : (outside had).Permits path licence q)
    (answered : w.store.Answers (lockPath path) q r t) {a : Agent}
    (keeps : Obeys path a.call.licence (Rests path) a.task ((outside had).next path q r))
    (met : a.known = (w.agents i).learn path w.store t q r ∧
      a.met = (w.agents i).meet path w.store q r) :
    ∃ stand, (w.put i a t).Orderly path stand := by
  have unmoved (same : t = w.store) (out : (outside had).next path q r = outside had) :
      ∃ stand, (w.put i a t).Orderly path stand := by
    subst same
    rw [out] at keeps
    exact ⟨_, orderly.put keeps (fun h => by cases h)
      (fun j _ inside => ⟨orderly.locked j inside, rfl⟩) trivial⟩
  cases q with
  | isFile p | now => exact unmoved (Store.eq_of_answers trivial answered) rfl
  | create p =>
    obtain rfl : p = lockPath path := permitted
    cases r with
    | error e => exact unmoved (Store.eq_of_create_error answered) rfl
    | ok u =>
      obtain ⟨free, made, changes⟩ := Store.create_ok (Store.create_of_answers answered)
      -- The lock was free, so no agent can have it.
      have nobody (j : Nat) : (stand j).isInside = false := by
        cases inside : (stand j).isInside with
        | false => rfl
        | true =>
          have held := orderly.locked j inside
          rw [free] at held
          cases held
      refine ⟨_, orderly.put keeps (fun _ => ⟨by rw [made]; rfl, fun j _ => nobody j⟩)
        (fun j _ inside => ?_) (.inr ⟨met.1, met.2.trans (changes.file_of_ne own).symm⟩)⟩
      rw [nobody j] at inside
      cases inside
  | _ => exact permitted.elim

/-- With the lock an agent keeps it, or gives it up. -/
theorem Orderly.step_inside (own : HasOwnLock path) (orderly : w.Orderly path stand) {seen : Bool}
    (here : stand i = inside seen) {q : FileQuery} {r : q.Reply} {licence : Licence}
    (permitted : (inside seen).Permits path licence q)
    (answered : w.store.Answers (lockPath path) q r t) {a : Agent}
    (keeps : Obeys path a.call.licence (Rests path) a.task ((inside seen).next path q r))
    (knows : q ≠ .remove (lockPath path) → a.Knows path t ((inside seen).next path q r)) :
    ∃ stand, (w.put i a t).Orderly path stand := by
  have has : (stand i).isInside = true := by rw [here]; rfl
  have others (j : Nat) (other : j ≠ i) : (stand j).isInside = false :=
    orderly.outside_of_ne has other
  have vacant (j : Nat) (other : j ≠ i) (inside : (stand j).isInside = true) :
      (t.file? (lockPath path)).isSome = true ∧ t.file? path = w.store.file? path := by
    rw [others j other] at inside
    cases inside
  by_cases kept : q = .remove (lockPath path)
  · subst kept
    rw [Standing.next_removeLock] at keeps
    exact ⟨_, orderly.put keeps (fun h => by cases h) vacant trivial⟩
  · obtain ⟨now, stays⟩ := Standing.exists_inside seen kept r
    have changes := Store.changesOnly_of_answers permitted kept answered
    have held : (t.file? (lockPath path)).isSome = true := by
      rw [own.file_lockPath changes]
      exact orderly.locked i has
    exact ⟨_, orderly.put keeps (fun _ => ⟨held, others⟩) vacant (knows kept)⟩

/-- A turn keeps the order. -/
theorem Orderly.turn (own : HasOwnLock path) (orderly : w.Orderly path stand) (i : Nat)
    (call : Call) : ∃ stand, (w.turn path i call).Orderly path stand := by
  have keeps := orderly.keeps i
  unfold Crowd.turn
  dsimp only
  split
  · next held rest =>
    rw [rest] at keeps
    exact ⟨_, orderly.put (call.obeys_task own keeps)
      (fun inside => ⟨orderly.locked i inside, fun j => orderly.outside_of_ne inside⟩)
      (fun j _ inside => ⟨orderly.locked j inside, rfl⟩) (orderly.knows i)⟩
  · next q next rest =>
    have knows := orderly.knows i
    rw [rest] at keeps
    obtain ⟨permitted, later⟩ := keeps
    rcases reply : w.store.reply q with ⟨r, t⟩
    have answered : w.store.Answers (lockPath path) q r t := .inl reply
    cases here : stand i with
    | outside had =>
      rw [here] at permitted later
      exact orderly.step_outside own permitted answered (later r) ⟨rfl, rfl⟩
    | inside seen =>
      rw [here] at permitted later knows
      exact orderly.step_inside own here permitted answered (later r) fun kept =>
        knows.learn permitted kept

theorem Orderly.run (own : HasOwnLock path) (orderly : w.Orderly path stand)
    (turns : List (Nat × Call)) : ∃ stand, (w.run path turns).Orderly path stand := by
  induction turns generalizing w stand with
  | nil => exact ⟨stand, orderly⟩
  | cons next turns ih =>
    obtain ⟨stand, orderly⟩ := orderly.turn own next.1 next.2
    exact ih orderly

end Crowd

/-! ### Documents that are replaced -/

namespace Store

variable {s t : Store} {old : Content}

/-- Where a file stands there is one after any write. -/
theorem isSome_file?_of_write {p : String} {content : Content} (was : s.file? path = some old)
    (written : s.write p content = .ok t) : (t.file? path).isSome = true := by
  obtain ⟨place, hp, free, rfl⟩ := write_eq_ok_iff.mp written
  obtain ⟨q, hq, he⟩ := file?_eq_some_iff.mp was
  have nonempty := place_ne_nil hp
  have located := (sameDirectories_put nonempty content free).locate hq
  rw [Option.isSome_iff_exists]
  by_cases same : q = place
  · exact ⟨content, file?_eq_some_iff.mpr ⟨q, located, by rw [entry?_put nonempty, if_pos same]⟩⟩
  · exact ⟨old, file?_eq_some_iff.mpr ⟨q, located, by rw [entry?_put nonempty, if_neg same, he]⟩⟩

theorem isSome_file?_of_rename {p : String} (moved : s.rename p path = .ok t) :
    (t.file? path).isSome = true := by
  obtain ⟨q, content, -, hq, he, -⟩ := rename_eq_ok_iff.mp moved
  rw [(rename_ok moved).1, file?_eq_some_iff.mpr ⟨q, hq, he⟩]
  rfl

end Store

/-- Why a document is another after a step of an agent, or is gone. -/
inductive Reason (a : Agent) (old : Content) : Option Content → Prop
  /-- The agent knew the document: it has read it or put it there itself. -/
  | saved (new : Content) (known : a.known = some old) : Reason a old (some new)
  | removed (deletes : a.call = .delete) : Reason a old none
  /-- The agent creates a catalog and has not looked at the document, which was there when it got
  the lock. -/
  | founded (new : Content) (title : String) (creates : a.call = .create title)
      (unseen : a.known = none) (met : a.met = some old) : Reason a old (some new)

theorem Call.eq_create_of_founds {call : Call} (h : call.licence.founds = true) :
    ∃ title, call = .create title := by
  cases call with
  | create title => exact ⟨title, rfl⟩
  | _ => cases h

theorem Call.eq_delete_of_removes {call : Call} (h : call.licence.removes = true) :
    call = .delete := by
  cases call with
  | delete => rfl
  | _ => cases h

theorem Agent.Knows.reason {a : Agent} {s : Store} {seen : Bool} {old new : Content}
    (knows : a.Knows path s (inside seen)) (was : s.file? path = some old)
    (may : seen = true ∨ a.call.licence.founds = true) : Reason a old (some new) := by
  cases seen with
  | true => exact .saved new (Eq.trans knows was)
  | false =>
    rcases knows with known | ⟨unseen, met⟩
    · exact .saved new (known.trans was)
    · obtain ⟨title, creates⟩ := Call.eq_create_of_founds (may.resolve_left Bool.false_ne_true)
      exact .founded new title creates unseen (met.trans was)

namespace Crowd

variable {w : Crowd} {stand : Nat → Standing} {i : Nat} {call : Call}

theorem store_turn_done {held : Option CatalogHandle} (rest : (w.agents i).task = .done held) :
    (w.turn path i call).store = w.store := by
  unfold turn
  dsimp only
  rw [rest]
  rfl

theorem store_turn_ask {q : FileQuery} {next : q.Reply → FileTask (Option CatalogHandle)}
    (rest : (w.agents i).task = .ask q next) :
    (w.turn path i call).store = (w.store.reply q).2 := by
  unfold turn
  dsimp only
  rw [rest]
  rfl

/-- A step without the lock leaves the document. -/
theorem file?_reply_outside (own : HasOwnLock path) {s : Store} {had : Bool} {licence : Licence}
    {q : FileQuery} (permitted : (outside had).Permits path licence q) :
    (s.reply q).2.file? path = s.file? path := by
  cases q with
  | isFile p | now => rfl
  | create p =>
    obtain rfl : p = lockPath path := permitted
    change (s.outcome (s.create (lockPath path))).2.file? path = _
    cases made : s.create (lockPath path) with
    | error e => rfl
    | ok t => exact (Store.create_ok made).2.2.file_of_ne own
  | _ => exact permitted.elim

/-- A step with the lock leaves the document, or there is a reason. -/
theorem reason_of_reply_inside (own : HasOwnLock path) {s : Store} {a : Agent} {seen : Bool}
    {q : FileQuery} {old : Content} (knows : a.Knows path s (inside seen))
    (permitted : (inside seen).Permits path a.call.licence q) (was : s.file? path = some old) :
    (s.reply q).2.file? path = some old ∨ Reason a old ((s.reply q).2.file? path) := by
  have saved {t : Store} (may : seen = true ∨ a.call.licence.founds = true)
      (there : (t.file? path).isSome = true) : Reason a old (t.file? path) := by
    obtain ⟨new, hnew⟩ := Option.isSome_iff_exists.mp there
    rw [hnew]
    exact knows.reason was may
  have outcome {r : Except FileError Store}
      (h : ∀ t, r = .ok t → t.file? path = some old ∨ Reason a old (t.file? path)) :
      (s.outcome r).2.file? path = some old ∨ Reason a old ((s.outcome r).2.file? path) := by
    cases r with
    | ok t => exact h t rfl
    | error e => exact .inl was
  cases q with
  | isFile p | now | read p => exact .inl was
  | create p => exact permitted.elim
  | write p text =>
    exact outcome fun t written =>
      .inr (saved permitted.2 (Store.isSome_file?_of_write was written))
  | rename p goal =>
    obtain ⟨rfl, rfl, may⟩ := permitted
    exact outcome fun t moved => .inr (saved may (Store.isSome_file?_of_rename moved))
  | remove p =>
    refine outcome fun t removed => ?_
    obtain ⟨gone, changes⟩ := Store.remove_ok removed
    rcases permitted with rfl | ⟨rfl, removes⟩
    · exact .inl ((changes.file_of_ne own).trans was)
    · rw [gone]
      exact .inr (.removed (Call.eq_delete_of_removes removes))

theorem Orderly.reason (own : HasOwnLock path) (orderly : w.Orderly path stand) {old : Content}
    (was : w.store.file? path = some old)
    (changed : (w.turn path i call).store.file? path ≠ some old) :
    Reason (w.agents i) old ((w.turn path i call).store.file? path) := by
  have keeps := orderly.keeps i
  have knows := orderly.knows i
  cases rest : (w.agents i).task with
  | done held =>
    rw [store_turn_done rest] at changed
    exact absurd was changed
  | ask q next =>
    rw [rest] at keeps
    rw [store_turn_ask rest] at changed ⊢
    cases here : stand i with
    | outside had =>
      rw [here] at keeps
      rw [file?_reply_outside own keeps.1] at changed
      exact absurd was changed
    | inside seen =>
      rw [here] at keeps knows
      exact (reason_of_reply_inside own knows keeps.1 was).resolve_left changed

/-- Whatever the agents do, in whatever order they take their turns: a document that is replaced was
known to the agent that replaces it, and one that is gone was deleted, unless a creation got the
lock while the document was there. -/
theorem run_turn_reason (own : HasOwnLock path) (s : Store) (turns : List (Nat × Call)) (i : Nat)
    (call : Call) {old : Content} (was : ((gather s).run path turns).store.file? path = some old)
    (changed : (((gather s).run path turns).turn path i call).store.file? path ≠ some old) :
    Reason (((gather s).run path turns).agents i) old
      ((((gather s).run path turns).turn path i call).store.file? path) := by
  obtain ⟨stand, orderly⟩ := (orderly_gather path s).run own turns
  exact orderly.reason own was changed

def blank (name : String) : Catalog := { name, createdAt := .epoch }

def turns (count i : Nat) (call : Call) : List (Nat × Call) := List.replicate count (i, call)

/-- One agent creates a catalog and closes it; another one opens it and is about to put it in place
with a table more. -/
def succession : List (Nat × Call) :=
  turns 6 0 (.create "a") ++ turns 2 0 .close ++ turns 4 1 .openAt ++
    turns 2 1 (.change (.appendTable "t" []))

theorem run_turn_reason_succession :
    let w := (gather Store.empty).run "s.jet.json" succession
    let w' := w.turn "s.jet.json" 1 .close
    HasOwnLock "s.jet.json" ∧ w.store.file? "s.jet.json" = some (.text (blank "a").toText) ∧
      w'.store.file? "s.jet.json" ≠ some (.text (blank "a").toText) ∧
      Reason (w.agents 1) (.text (blank "a").toText) (w'.store.file? "s.jet.json") := by
  have own : HasOwnLock "s.jet.json" := by decide
  have was : ((gather Store.empty).run "s.jet.json" succession).store.file? "s.jet.json" =
      some (.text (blank "a").toText) := by
    decide +kernel
  have changed : (((gather Store.empty).run "s.jet.json" succession).turn "s.jet.json" 1
      .close).store.file? "s.jet.json" ≠ some (.text (blank "a").toText) := by
    decide +kernel
  exact ⟨own, was, changed, run_turn_reason own _ succession 1 .close was changed⟩

/-- Two agents look for a document, and then one creates it and closes it before the other one gets
the lock. -/
def race : List (Nat × Call) :=
  turns 1 0 (.create "a") ++ turns 1 1 (.create "b") ++ turns 1 0 .close ++ turns 1 1 .close ++
    turns 6 0 .close ++ turns 3 1 .close

/-- A creation overwrites the document that was there when it got the lock. -/
theorem create_overwrites :
    let w := (gather Store.empty).run "s.jet.json" race
    w.store.file? "s.jet.json" = some (.text (blank "a").toText) ∧
      (w.agents 1).met = some (.text (blank "a").toText) ∧ (w.agents 1).known = none ∧
      (w.turn "s.jet.json" 1 .close).store.file? "s.jet.json" =
        some (.text (blank "b").toText) ∧ (blank "a").toText ≠ (blank "b").toText := by
  decide +kernel

end Crowd

end Tabular
