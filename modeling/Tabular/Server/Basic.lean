import Tabular.Dialogue
import Tabular.Fault

/-!
Steps on a database server, as queries. A connection is to one catalog of the server, or to none.
-/
namespace Tabular

structure Connection where
  catalog : Option String
  deriving DecidableEq, Repr

inductive ServerQuery where
  | connect (catalog : Option String)
  | execute (connection : Connection) (sql : String)
  | close (connection : Connection)
  deriving DecidableEq, Repr

def ServerQuery.Reply : ServerQuery → Type
  | connect _ => Except Fault Connection
  | execute .. | close _ => Except Fault Unit

/-- A computation over connections to a server. -/
abbrev ServerTask := ExceptT Fault (Dialogue ServerQuery ServerQuery.Reply)

namespace ServerTask

def connect (catalog : Option String) : ServerTask Connection :=
  ExceptT.mk (Dialogue.query (ServerQuery.connect catalog))

def execute (c : Connection) (sql : String) : ServerTask Unit :=
  ExceptT.mk (Dialogue.query (ServerQuery.execute c sql))

def close (c : Connection) : ServerTask Unit :=
  ExceptT.mk (Dialogue.query (ServerQuery.close c))

/-- Closes a connection after a task. A fault of the task wins over one of closing. -/
def thenClose {α : Type} (c : Connection) (task : ServerTask α) : ServerTask α := do
  let done ← ExceptT.lift task.run
  let closed ← ExceptT.lift (close c).run
  let a ← ExceptT.mk (pure done)
  ExceptT.mk (pure closed)
  return a

end ServerTask

end Tabular
