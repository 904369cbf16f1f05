import Tabular.Proofs.Outcomes
import Tabular.Server.Creation

/-!
Tasks on a server and the calls that they make. A connector answers every call as it likes, with the
calls before it in view. What a task keeps to, whatever it is answered, is put together from what
its parts keep to.
-/
namespace Tabular

structure ServerCall where
  query : ServerQuery
  reply : query.Reply

namespace ServerCall

def isExecute (c : ServerCall) : Bool :=
  match c.query with
  | .execute .. => true
  | _ => false

def isClose (c : ServerCall) : Bool :=
  match c.query with
  | .close _ => true
  | _ => false

def fault? : ServerCall → Option Fault
  | ⟨.connect _, .error f⟩ => some f
  | ⟨.execute .., .error f⟩ => some f
  | ⟨.close _, .error f⟩ => some f
  | _ => none

end ServerCall

structure Connector where
  answer : List ServerCall → (q : ServerQuery) → q.Reply

namespace Connector

variable {α β : Type}

def run (k : Connector) (before : List ServerCall) :
    Dialogue ServerQuery ServerQuery.Reply α → α × List ServerCall
  | .done a => (a, [])
  | .ask q next =>
    let call : ServerCall := ⟨q, k.answer before q⟩
    let (a, calls) := k.run (before ++ [call]) (next call.reply)
    (a, call :: calls)

theorem run_bind (k : Connector) (before : List ServerCall)
    (d : Dialogue ServerQuery ServerQuery.Reply α)
    (f : α → Dialogue ServerQuery ServerQuery.Reply β) :
    k.run before (d >>= f) =
      let (a, calls) := k.run before d
      let (b, more) := k.run (before ++ calls) (f a)
      (b, calls ++ more) := by
  change k.run before (d.bind f) = _
  induction d generalizing before with
  | done a => simp [Dialogue.bind, run]
  | ask q next ih => simp [Dialogue.bind, run, ih]

def runTask (k : Connector) (before : List ServerCall) (t : ServerTask α) :
    Except Fault α × List ServerCall :=
  k.run before t.run

theorem runTask_bind (k : Connector) (before : List ServerCall) (t : ServerTask α)
    (f : α → ServerTask β) :
    k.runTask before (t >>= f) =
      match k.runTask before t with
      | (.ok a, calls) =>
        ((k.runTask (before ++ calls) (f a)).1, calls ++ (k.runTask (before ++ calls) (f a)).2)
      | (.error e, calls) => (.error e, calls) := by
  have run : k.runTask before (t >>= f) = _ := k.run_bind before t.run (ExceptT.bindCont f)
  rw [run]
  unfold runTask
  rcases k.run before t.run with ⟨_ | a, calls⟩
  · simp [ExceptT.bindCont, Connector.run, pure]
  · rfl

theorem of_runTask_bind_eq_ok {k : Connector} {before : List ServerCall} {t : ServerTask α}
    {f : α → ServerTask β} {b : β} {calls : List ServerCall}
    (h : k.runTask before (t >>= f) = (.ok b, calls)) :
    ∃ a first rest, k.runTask before t = (.ok a, first) ∧
      k.runTask (before ++ first) (f a) = (.ok b, rest) ∧ first ++ rest = calls := by
  rw [k.runTask_bind] at h
  rcases ht : k.runTask before t with ⟨_ | a, first⟩
  all_goals rw [ht] at h
  · cases h
  · obtain ⟨hb, hcalls⟩ := Prod.mk.inj h
    exact ⟨a, first, _, rfl, Prod.ext hb rfl, hcalls⟩

theorem runTask_lift (k : Connector) (before : List ServerCall)
    (d : Dialogue ServerQuery ServerQuery.Reply α) :
    k.runTask before (ExceptT.lift d) = (.ok (k.run before d).1, (k.run before d).2) := by
  have run := k.run_bind before d fun a =>
    (pure (Except.ok a) : Dialogue ServerQuery ServerQuery.Reply (Except Fault α))
  refine run.trans ?_
  simp [Connector.run, pure]

def IsReliable (k : Connector) : Prop :=
  ∀ before q, (⟨q, k.answer before q⟩ : ServerCall).fault? = none

/-- Opens a connection to every catalog, and closes it with a fault if it is to one of these. -/
def closingBadly (catalogs : List (Option String)) : Connector where
  answer _
    | .connect catalog => .ok ⟨catalog⟩
    | .execute .. => .ok ()
    | .close c =>
      if catalogs.contains c.catalog then .error (.resource "close failed" "server") else .ok ()

theorem isReliable_closingBadly_nil : (closingBadly []).IsReliable := by
  intro before q
  cases q <;> rfl

theorem IsReliable.fault?_eq_none {k : Connector} (reliable : k.IsReliable)
    (before : List ServerCall) (d : Dialogue ServerQuery ServerQuery.Reply α) :
    ∀ c ∈ (k.run before d).2, c.fault? = none := by
  induction d generalizing before with
  | done a => simp [run]
  | ask q next ih => exact List.forall_mem_cons.mpr ⟨reliable before q, ih _ _⟩

end Connector

/-! ### What is asked of calls -/

/-- Is every connection that is opened closed once, before the next one is opened and before the
end, and is nothing executed but on the one that is open? -/
def Balanced : Option Connection → List ServerCall → Prop
  | none, [] => True
  | none, ⟨.connect _, .ok c⟩ :: calls => Balanced (some c) calls
  | none, ⟨.connect _, .error _⟩ :: calls => Balanced none calls
  | some c, ⟨.execute d _, _⟩ :: calls => d = c ∧ Balanced (some c) calls
  | some c, ⟨.close d, _⟩ :: calls => d = c ∧ Balanced none calls
  | _, _ => False

def executions : Option String → List ServerCall → List (Option String × String)
  | _, [] => []
  | _, ⟨.connect catalog, _⟩ :: calls => executions catalog calls
  | place, ⟨.execute _ sql, _⟩ :: calls => (place, sql) :: executions place calls
  | place, ⟨.close _, _⟩ :: calls => executions place calls

def connections (calls : List ServerCall) : List (Option String) :=
  calls.filterMap fun c =>
    match c.query with
    | .connect catalog => some catalog
    | _ => none

theorem executions_append (calls more : List ServerCall) (h : Balanced none more)
    (place : Option String) :
    executions place (calls ++ more) = executions place calls ++ executions none more := by
  fun_induction executions place calls with
  | case1 place =>
    -- The calls to come connect first, so that the place before them does not matter.
    match more, h with
    | [], _ => rfl
    | ⟨.connect _, _⟩ :: _, _ => rfl
  | case2 place catalog reply calls ih => exact ih
  | case3 place c sql reply calls ih => exact congrArg (List.cons (place, sql)) ih
  | case4 place c reply calls ih => exact ih

theorem Balanced.append {calls more : List ServerCall} (hm : Balanced none more)
    {held : Option Connection} (h : Balanced held calls) : Balanced held (calls ++ more) := by
  fun_induction Balanced held calls with
  | case1 => exact hm
  | case2 catalog c calls ih => exact ih h
  | case3 catalog f calls ih => exact ih h
  | case4 c d sql reply calls ih => exact ⟨h.1, ih h.2⟩
  | case5 c d reply calls ih => exact ⟨h.1, ih h.2⟩
  | case6 => exact h.elim

def faultOf? {α : Type} : Except Fault α → Option Fault
  | .ok _ => none
  | .error f => some f

/-- Calls that keep to a plan of texts, each for a place, and stop where they fail. -/
structure Orderly {α : Type} (plan : List (Option String × String)) (calls : List ServerCall)
    (result : Except Fault α) : Prop where
  balanced : Balanced none calls
  planned : executions none calls <+: plan
  whole : result.isOk = true → executions none calls = plan
  /-- Behind a call that failed comes nothing but a close, and that only if an execution failed. -/
  halted : calls.Pairwise fun c d => c.fault?.isSome → c.isExecute = true ∧ d.isClose = true
  /-- The fault of the first call that failed, if there is one, is the outcome. -/
  verdict : faultOf? result = calls.findSome? ServerCall.fault?

namespace Orderly

variable {α β : Type} {plan more : List (Option String × String)} {calls later : List ServerCall}

theorem fault?_eq_none {a : α} (h : Orderly plan calls (.ok a)) :
    ∀ c ∈ calls, c.fault? = none :=
  List.findSome?_eq_none_iff.mp h.verdict.symm

/-- What comes after a success. -/
theorem append {a : α} {result : Except Fault β} (h : Orderly plan calls (.ok a))
    (l : Orderly more later result) : Orderly (plan ++ more) (calls ++ later) result := by
  have first : executions none (calls ++ later) = plan ++ executions none later := by
    rw [executions_append calls later l.balanced, h.whole rfl]
  constructor
  case balanced => exact l.balanced.append h.balanced
  case planned =>
    rw [first]
    exact (List.prefix_append_right_inj plan).mpr l.planned
  case whole =>
    intro ok
    rw [first, l.whole ok]
  case halted =>
    refine List.pairwise_append.mpr ⟨h.halted, l.halted, fun c hc d _ failed => ?_⟩
    rw [h.fault?_eq_none c hc] at failed
    cases failed
  case verdict => rw [List.findSome?_append, ← h.verdict, l.verdict]; rfl

/-- A failure leaves out the rest of a plan. -/
theorem of_error {f : Fault} (h : Orderly plan calls (.error f : Except Fault α)) :
    Orderly (plan ++ more) calls (.error f : Except Fault β) where
  balanced := h.balanced
  planned := h.planned.trans (List.prefix_append plan more)
  whole ok := by cases ok
  halted := h.halted
  verdict := h.verdict

end Orderly

def ServerTask.Follows {α : Type} (t : ServerTask α) (plan : List (Option String × String)) :
    Prop :=
  ∀ (k : Connector) before, Orderly plan (k.runTask before t).2 (k.runTask before t).1

namespace ServerTask

variable {α β : Type} {plan more : List (Option String × String)}

theorem follows_pure (a : α) : Follows (pure a) [] := fun _ _ =>
  ⟨trivial, List.prefix_rfl, fun _ => rfl, .nil, rfl⟩

theorem Follows.bind {t : ServerTask α} {f : α → ServerTask β} (ht : t.Follows plan)
    (hf : ∀ a, (f a).Follows more) : (t >>= f).Follows (plan ++ more) := by
  intro k before
  have first := ht k before
  rw [k.runTask_bind]
  rcases h : k.runTask before t with ⟨_ | a, calls⟩
  all_goals rw [h] at first
  · exact first.of_error
  · exact first.append (hf a k (before ++ calls))

end ServerTask

/-! ### Sessions -/

inductive Executes (c : Connection) : List String → List ServerCall → Except Fault Unit → Prop where
  | nil : Executes c [] [] (.ok ())
  | failed (sql : String) (texts : List String) (f : Fault) :
      Executes c (sql :: texts) [⟨.execute c sql, .error f⟩] (.error f)
  | cons (sql : String) {texts : List String} {calls : List ServerCall}
      {result : Except Fault Unit} (rest : Executes c texts calls result) :
      Executes c (sql :: texts) (⟨.execute c sql, .ok ()⟩ :: calls) result

/-- The calls of a connection that texts are executed on: it is refused, or it is closed after
them, and the fault of an execution wins over one of the close. -/
inductive Session (catalog : Option String) (texts : List String) :
    List ServerCall → Except Fault Unit → Prop where
  | refused (f : Fault) : Session catalog texts [⟨.connect catalog, .error f⟩] (.error f)
  | held (c : Connection) {calls : List ServerCall} {result : Except Fault Unit}
      (executes : Executes c texts calls result) (closed : Except Fault Unit) :
      Session catalog texts (⟨.connect catalog, .ok c⟩ :: (calls ++ [⟨.close c, closed⟩]))
        (result >>= fun () => closed)

namespace Executes

variable {c : Connection} {texts : List String} {calls : List ServerCall}
  {result : Except Fault Unit}

theorem balanced (h : Executes c texts calls result) (closed : Except Fault Unit) :
    Balanced (some c) (calls ++ [⟨.close c, closed⟩]) := by
  induction h with
  | nil => exact ⟨rfl, trivial⟩
  | failed sql texts f => exact ⟨rfl, rfl, trivial⟩
  | cons sql rest ih => exact ⟨rfl, ih⟩

theorem executions_closed (h : Executes c texts calls result) (place : Option String)
    (closed : Except Fault Unit) :
    executions place (calls ++ [⟨.close c, closed⟩]) = executions place calls := by
  induction h with
  | nil => rfl
  | failed sql texts f => rfl
  | cons sql rest ih => exact congrArg (List.cons (place, sql)) ih

theorem planned (h : Executes c texts calls result) (place : Option String) :
    executions place calls <+: texts.map (place, ·) := by
  induction h with
  | nil => exact List.prefix_rfl
  | failed sql texts f => exact ⟨texts.map (place, ·), rfl⟩
  | cons sql rest ih => exact (List.prefix_cons_inj (place, sql)).mpr ih

theorem executed (h : Executes c texts calls result) (ok : result = .ok ())
    (place : Option String) : executions place calls = texts.map (place, ·) := by
  induction h with
  | nil => rfl
  | failed sql texts f => cases ok
  | cons sql rest ih => exact congrArg (List.cons (place, sql)) (ih ok)

theorem whole (h : Executes c texts calls result) (ok : result = .ok ()) :
    calls = texts.map fun sql => ⟨.execute c sql, .ok ()⟩ := by
  induction h with
  | nil => rfl
  | failed sql texts f => cases ok
  | cons sql rest ih => rw [List.map_cons, ← ih ok]

theorem halted (h : Executes c texts calls result) (closed : Except Fault Unit) :
    (calls ++ [(⟨.close c, closed⟩ : ServerCall)]).Pairwise fun c d =>
      c.fault?.isSome → c.isExecute = true ∧ d.isClose = true := by
  induction h with
  | nil => exact List.pairwise_singleton _ _
  | failed sql texts f => exact List.pairwise_pair.mpr fun _ => ⟨rfl, rfl⟩
  | cons sql rest ih =>
    refine List.pairwise_cons.mpr ⟨fun d _ failed => ?_, ih⟩
    cases failed

theorem verdict (h : Executes c texts calls result) (closed : Except Fault Unit) :
    faultOf? (result >>= fun () => closed) =
      (calls ++ [(⟨.close c, closed⟩ : ServerCall)]).findSome? ServerCall.fault? := by
  induction h with
  | nil => cases closed <;> rfl
  | failed sql texts f => rfl
  | cons sql rest ih => exact ih

end Executes

namespace Session

variable {catalog : Option String} {texts : List String} {calls : List ServerCall}
  {result : Except Fault Unit}

def whole (catalog : Option String) (texts : List String) (c : Connection) : List ServerCall :=
  ⟨.connect catalog, .ok c⟩ ::
    ((texts.map fun sql => ⟨.execute c sql, .ok ()⟩) ++ [⟨.close c, .ok ()⟩])

theorem eq_whole (h : Session catalog texts calls (.ok ())) :
    ∃ c, calls = whole catalog texts c := by
  generalize hr : (Except.ok () : Except Fault Unit) = result at h
  cases h with
  | refused f => cases hr
  | @held c calls result executes closed =>
    obtain ⟨⟨⟩, done, rfl⟩ := bind_eq_ok_iff.mp hr.symm
    exact ⟨c, by rw [executes.whole done]; rfl⟩

theorem connections_whole (catalog : Option String) (texts : List String) (c : Connection) :
    connections (whole catalog texts c) = [catalog] := by
  simp [connections, whole, List.filterMap_map]

theorem orderly (h : Session catalog texts calls result) :
    Orderly (texts.map (catalog, ·)) calls result := by
  cases h with
  | refused f =>
    refine ⟨trivial, List.nil_prefix, fun ok => ?_, List.pairwise_singleton _ _, rfl⟩
    cases ok
  | @held c calls result executes closed =>
    constructor
    case balanced => exact executes.balanced closed
    case planned =>
      have closes := executes.executions_closed catalog closed
      exact closes ▸ executes.planned catalog
    case whole =>
      intro ok
      have done : result = .ok () := by
        cases result with
        | ok _ => rfl
        | error f => cases ok
      exact (executes.executions_closed catalog closed).trans (executes.executed done catalog)
    case halted =>
      refine List.pairwise_cons.mpr ⟨fun d _ failed => ?_, executes.halted closed⟩
      cases failed
    case verdict => exact executes.verdict closed

end Session

namespace ServerTask

def session (catalog : Option String) (texts : List String) : ServerTask Unit := do
  let c ← connect catalog
  thenClose c (texts.forM fun sql => execute c sql)

variable (k : Connector) (before : List ServerCall) (c : Connection)

theorem runTask_connect (catalog : Option String) :
    k.runTask before (connect catalog) =
      (k.answer before (.connect catalog),
        [⟨.connect catalog, k.answer before (.connect catalog)⟩]) :=
  rfl

theorem runTask_execute (sql : String) :
    k.runTask before (execute c sql) =
      (k.answer before (.execute c sql), [⟨.execute c sql, k.answer before (.execute c sql)⟩]) :=
  rfl

theorem executes_run (texts : List String) :
    Executes c texts (k.runTask before (texts.forM fun sql => execute c sql)).2
      (k.runTask before (texts.forM fun sql => execute c sql)).1 := by
  induction texts generalizing before with
  | nil => exact .nil
  | cons sql texts ih =>
    have first : (sql :: texts).forM (fun sql => execute c sql) =
        execute c sql >>= fun _ => texts.forM fun sql => execute c sql := rfl
    rw [first, k.runTask_bind, runTask_execute]
    rcases k.answer before (.execute c sql) with f | ⟨⟩
    · exact .failed sql texts f
    · exact .cons sql (ih _)

/-- What is made of the result of a task does not depend on when its connection is closed. -/
theorem thenClose_map {α β : Type} (c : Connection) (task : ServerTask α) (f : α → β) :
    thenClose c (do return f (← task)) = do return f (← thenClose c task) := by
  unfold thenClose
  apply ExceptT.ext
  simp only [ExceptT.run_bind, ExceptT.run_pure, ExceptT.run_lift, ExceptT.run_mk, bind_assoc,
    map_eq_pure_bind, pure_bind]
  refine bind_congr fun done => ?_
  cases done <;> simp

theorem runTask_close :
    k.run before (close c).run =
      (k.answer before (.close c), [⟨.close c, k.answer before (.close c)⟩]) :=
  rfl

theorem runTask_thenClose (task : ServerTask Unit) :
    k.runTask before (thenClose c task) =
      let (done, calls) := k.runTask before task
      let closed := k.answer (before ++ calls) (.close c)
      (done >>= fun () => closed, calls ++ [⟨.close c, closed⟩]) := by
  unfold thenClose
  rw [k.runTask_bind, k.runTask_lift]
  dsimp only
  rw [k.runTask_bind, k.runTask_lift, runTask_close]
  unfold Connector.runTask
  rcases k.run before task.run with ⟨_ | ⟨⟩, calls⟩
  · rfl
  · dsimp only
    rcases k.answer (before ++ calls) (.close c) with _ | ⟨⟩
    · rfl
    · rfl

theorem session_run (catalog : Option String) (texts : List String) :
    Session catalog texts (k.runTask before (session catalog texts)).2
      (k.runTask before (session catalog texts)).1 := by
  unfold session
  rw [k.runTask_bind, runTask_connect]
  rcases k.answer before (.connect catalog) with f | c
  · exact .refused f
  · dsimp only
    rw [runTask_thenClose]
    exact .held c (executes_run k _ c texts) _

theorem eq_whole_of_session {calls : List ServerCall} {catalog : Option String}
    {texts : List String} (h : k.runTask before (session catalog texts) = (.ok (), calls)) :
    ∃ c, calls = Session.whole catalog texts c := by
  have run := session_run k before catalog texts
  rw [h] at run
  exact run.eq_whole

theorem follows_session (catalog : Option String) (texts : List String) :
    (session catalog texts).Follows (texts.map (catalog, ·)) :=
  fun k before => (session_run k before catalog texts).orderly

end ServerTask

end Tabular
