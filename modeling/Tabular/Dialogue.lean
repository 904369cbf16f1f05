/-!
Computations that ask. A dialogue either is done or asks one query and goes on with the reply, so
that each step on the outside is a node of its own. A dialogue becomes an effect, or a run against
a state, by answering its queries.
-/
namespace Tabular

universe u

inductive Dialogue (Query : Type) (Reply : Query → Type) (α : Type u) where
  | done (a : α)
  | ask (q : Query) (next : Reply q → Dialogue Query Reply α)

namespace Dialogue

variable {Query : Type} {Reply : Query → Type} {α β γ : Type u}

def bind : Dialogue Query Reply α → (α → Dialogue Query Reply β) → Dialogue Query Reply β
  | done a, k => k a
  | ask q next, k => ask q fun r => (next r).bind k

instance : Monad (Dialogue Query Reply) where
  pure := done
  bind := bind

theorem bind_done (d : Dialogue Query Reply α) : d.bind done = d := by
  induction d with
  | done a => rfl
  | ask q next ih => simp [bind, ih]

theorem bind_bind (d : Dialogue Query Reply α) (k : α → Dialogue Query Reply β)
    (l : β → Dialogue Query Reply γ) : (d.bind k).bind l = d.bind fun a => (k a).bind l := by
  induction d with
  | done a => rfl
  | ask q next ih => simp [bind, ih]

instance : LawfulMonad (Dialogue Query Reply) :=
  LawfulMonad.mk' _ bind_done (fun _ _ => rfl) bind_bind

/-- The reply to a single query. -/
def query {Query : Type} {Reply : Query → Type} (q : Query) : Dialogue Query Reply (Reply q) :=
  ask q done

/-- Runs a dialogue in a monad that answers its queries. -/
def answer {m : Type → Type} [Monad m] {α : Type} (handler : (q : Query) → m (Reply q)) :
    Dialogue Query Reply α → m α
  | done a => pure a
  | ask q next => do (next (← handler q)).answer handler

end Dialogue

end Tabular
