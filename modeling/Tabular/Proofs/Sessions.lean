import Tabular.Catalog.Creation
import Tabular.Files.Store

/-!
Runs of tasks and sessions against a store. A session is run from an open catalog and a store; what
it does in sequence is what its steps do one after the other, up to the first fault.
-/
namespace Tabular

namespace Store

variable {α β : Type}

@[simp] theorem run_pure (s : Store) (a : α) : s.run (pure a : FileTask α) = (a, s) := rfl

theorem run_bind (s : Store) (d : FileTask α) (k : α → FileTask β) :
    s.run (d >>= k) = (s.run d).2.run (k (s.run d).1) := by
  change s.run (d.bind k) = _
  induction d generalizing s with
  | done a => rfl
  | ask q next ih => exact ih _ _

/-- The run of a task that stops at its first fault. -/
def attempt (s : Store) (m : ExceptT Fault FileTask α) : Except Fault α × Store := s.run m.run

variable {s u : Store} {b : β}

theorem attempt_bind_eq_ok_iff {m : ExceptT Fault FileTask α} {k : α → ExceptT Fault FileTask β} :
    s.attempt (m >>= k) = (.ok b, u) ↔
      ∃ a t, s.attempt m = (.ok a, t) ∧ t.attempt (k a) = (.ok b, u) := by
  have run : s.attempt (m >>= k) = (s.attempt m).2.run (ExceptT.bindCont k (s.attempt m).1) :=
    s.run_bind m.run (ExceptT.bindCont k)
  rw [run]
  rcases s.attempt m with ⟨_ | a, t⟩
  · constructor
    · intro h
      cases h
    · rintro ⟨a, t, h, -⟩
      cases h
  · constructor
    · intro h
      exact ⟨a, t, rfl, h⟩
    · rintro ⟨a, t, h, hk⟩
      cases h
      exact hk

@[simp] theorem attempt_pure (a : α) : s.attempt (pure a) = (.ok a, s) := rfl

@[simp] theorem attempt_mk (d : FileTask (Except Fault α)) :
    s.attempt (ExceptT.mk d) = s.run d := rfl

theorem attempt_lift (d : FileTask α) :
    s.attempt (ExceptT.lift d) = (.ok (s.run d).1, (s.run d).2) :=
  s.run_bind d fun a => (pure (Except.ok a) : FileTask (Except Fault α))

theorem attempt_lift_eq_ok_iff {d : FileTask α} {a : α} :
    s.attempt (ExceptT.lift d) = (.ok a, t) ↔ s.run d = (a, t) := by
  rw [attempt_lift, Prod.ext_iff, Prod.ext_iff, Except.ok.injEq]

theorem attempt_liftExcept (r : Except Fault α) :
    s.attempt (liftM r : ExceptT Fault FileTask α) = (r, s) := by
  cases r <;> rfl

theorem attempt_liftExcept_bind_eq_ok_iff {r : Except Fault α} {k : α → ExceptT Fault FileTask β} :
    s.attempt ((liftM r : ExceptT Fault FileTask α) >>= k) = (.ok b, u) ↔
      ∃ a, r = .ok a ∧ s.attempt (k a) = (.ok b, u) := by
  simp only [attempt_bind_eq_ok_iff, attempt_liftExcept, Prod.mk.injEq]
  constructor
  · rintro ⟨a, _, ⟨rfl, rfl⟩, hk⟩
    exact ⟨a, rfl, hk⟩
  · rintro ⟨a, rfl, hk⟩
    exact ⟨a, s, ⟨rfl, rfl⟩, hk⟩

theorem attempt_pure_eq_ok_iff {a a' : α} :
    s.attempt (pure a) = (.ok a', u) ↔ a = a' ∧ s = u := by
  rw [attempt_pure, Prod.mk.injEq, Except.ok.injEq]

end Store

namespace CatalogSession

variable {α β : Type}

def exec (m : CatalogSession α) (h : CatalogHandle) (s : Store) :
    (Except Fault α × CatalogHandle) × Store :=
  s.run (m.run.run h)

variable {h : CatalogHandle} {s : Store}

@[simp] theorem exec_pure (a : α) : exec (pure a) h s = ((.ok a, h), s) := rfl

@[simp] theorem exec_ofExcept (r : Except Fault α) : exec (ofExcept r) h s = ((r, h), s) := rfl

theorem exec_bind (m : CatalogSession α) (k : α → CatalogSession β) :
    exec (m >>= k) h s =
      match exec m h s with
      | ((.ok a, h'), s') => exec (k a) h' s'
      | ((.error f, h'), s') => ((.error f, h'), s') := by
  have run : exec (m >>= k) h s = (exec m h s).2.run
      ((ExceptT.bindCont k (exec m h s).1.1).run (exec m h s).1.2) :=
    s.run_bind (m.run.run h) fun p => (ExceptT.bindCont k p.1).run p.2
  rw [run]
  rcases exec m h s with ⟨⟨_ | a, h'⟩, s'⟩ <;> rfl

theorem exec_tryCatch (m : CatalogSession α) (handler : Fault → CatalogSession α) :
    exec (tryCatch m handler) h s =
      match exec m h s with
      | ((.ok a, h'), s') => ((.ok a, h'), s')
      | ((.error f, h'), s') => exec (handler f) h' s' := by
  have run : exec (tryCatch m handler) h s = (exec m h s).2.run
      ((tryCatch (ExceptT.mk (pure (exec m h s).1.1)) handler : CatalogSession α).run.run
        (exec m h s).1.2) :=
    s.run_bind (m.run.run h) fun p =>
      (tryCatch (ExceptT.mk (pure p.1)) handler : CatalogSession α).run.run p.2
  rw [run]
  rcases exec m h s with ⟨⟨_ | a, h'⟩, s'⟩ <;> rfl

variable {h'' : CatalogHandle} {s'' : Store} {a : α} {b : β}

theorem exec_pure_eq_ok_iff {a' : α} :
    exec (pure a) h s = ((.ok a', h''), s'') ↔ a = a' ∧ h = h'' ∧ s = s'' := by
  rw [exec_pure, Prod.mk.injEq, Prod.mk.injEq, Except.ok.injEq, and_assoc]

theorem exec_bind_eq_ok_iff {m : CatalogSession α} {k : α → CatalogSession β} :
    exec (m >>= k) h s = ((.ok b, h''), s'') ↔
      ∃ a h' s', exec m h s = ((.ok a, h'), s') ∧ exec (k a) h' s' = ((.ok b, h''), s'') := by
  rw [exec_bind]
  rcases exec m h s with ⟨⟨_ | a, h'⟩, s'⟩
  · constructor
    · intro e
      cases e
    · rintro ⟨a, h', s', e, -⟩
      cases e
  · constructor
    · intro e
      exact ⟨a, h', s', rfl, e⟩
    · rintro ⟨a, h', s', e, hk⟩
      cases e
      exact hk

theorem exec_get_bind (k : CatalogHandle → CatalogSession β) :
    exec (get >>= k) h s = exec (k h) h s := exec_bind get k

theorem exec_ofExcept_bind_eq_ok_iff {r : Except Fault α} {k : α → CatalogSession β} :
    exec (ofExcept r >>= k) h s = ((.ok b, h''), s'') ↔
      ∃ a, r = .ok a ∧ exec (k a) h s = ((.ok b, h''), s'') := by
  rw [exec_bind, exec_ofExcept]
  cases r with
  | ok a =>
    refine ⟨fun hk => ⟨a, rfl, hk⟩, ?_⟩
    rintro ⟨_, ⟨⟩, hk⟩
    exact hk
  | error f =>
    refine ⟨nofun, ?_⟩
    rintro ⟨_, ⟨⟩, -⟩

end CatalogSession

end Tabular
