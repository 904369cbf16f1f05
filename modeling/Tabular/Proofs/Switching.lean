import Tabular.Proofs.ServerRuns

/-!
Scripts that run on their own. A script whose database has a name switches into that database once,
in front of everything that is made in it. A script can be complete and have no database to switch
into, but only if the database is said to exist already.
-/
namespace Tabular

namespace Schema

variable {s : Schema} {o : Options}

def MakesEntity (st : Statement) : Prop :=
  st.kind = .createTable ∨ st.kind = .primaryKey ∨ st.kind = .foreignKey

theorem makesEntity_of_mem_compileEntities {st : Statement}
    (h : st ∈ (s.compileEntities o).statements) : MakesEntity st := by
  rcases List.mem_append.mp h with h | h
  · rcases List.mem_append.mp h with h | h
    · exact .inl (kind_of_mem_tables h)
    · exact .inr (.inl (kind_of_mem_keys h))
  · exact .inr (.inr (kind_of_mem_relations h))

/-- The statement of a script that switches into the database of a name: there is one, behind
nothing but a statement that makes the database, and in front of all others. -/
def SwitchesInto (name : String) (ss : List Statement) : Prop :=
  ∃ database front back, Identifier.forServer name = .ok database ∧
    ss = front ++ ⟨name, .useDatabase database⟩ :: back ∧
    front.length ≤ 1 ∧ (∀ st ∈ front, st.kind = .createDatabase) ∧ ∀ st ∈ back, MakesEntity st

theorem insertUse_append {use : Statement} {front back : List Statement}
    (hfront : ∀ st ∈ front, st.kind = .createDatabase)
    (hback : ∀ st ∈ back, st.kind ≠ .createDatabase) :
    insertUse use (front ++ back) = front ++ use :: back := by
  induction front with
  | nil =>
    cases back with
    | nil => rfl
    | cons first back =>
      have other : (first.kind == .createDatabase) = false := by
        simpa using hback first List.mem_cons_self
      simp [insertUse, other]
  | cons first front ih =>
    rw [List.forall_mem_cons] at hfront
    simp [insertUse, hfront.1, ih hfront.2]

/-- A name that is safe is switched into, whether the script is complete or not. -/
theorem switchesInto_of_forServer {database : Identifier}
    (safe : Identifier.forServer s.name = .ok database) (o : Options) :
    SwitchesInto s.name (s.compileScript o).statements := by
  have opening : ∀ st ∈ Server.opening s database o, st.kind = .createDatabase := by
    unfold Server.opening
    split
    · simp
    · simp [Statement.kind, Command.kind]
  have script : (s.compileScript o).statements =
      insertUse ⟨s.name, .useDatabase database⟩
        (Server.opening s database o ++ (s.compileEntities o).statements) := by
    unfold compileScript
    rw [safe, Server.compile_eq safe]
  refine ⟨database, Server.opening s database o, (s.compileEntities o).statements, safe, ?_, ?_,
    opening, fun st => makesEntity_of_mem_compileEntities⟩
  · rw [script]
    exact insertUse_append opening fun st => Server.kind_of_mem_compileEntities
  · unfold Server.opening
    split <;> simp

/-- Where the database is to be made, a name that is not safe is among the failures. -/
theorem exists_forServer_of_complete (fresh : o.useExisting = false)
    (complete : (s.compileScript o).isComplete = true) :
    ∃ database, Identifier.forServer s.name = .ok database := by
  cases safe : Identifier.forServer s.name with
  | ok database => exact ⟨database, rfl⟩
  | error f =>
    obtain ⟨g, failed⟩ : ∃ g, createDatabaseStatement o s.name = .error g := by
      unfold createDatabaseStatement
      rw [safe]
      split
      · exact ⟨_, rfl⟩
      · exact ⟨_, rfl⟩
    unfold compileScript compile at complete
    simp [safe, failed, fresh, Compilation.isComplete] at complete

/-- A script without failures switches into its database, unless it is for a database that exists
and has no name that a server takes. -/
theorem compileScript_switches_iff (complete : (s.compileScript o).isComplete = true) :
    SwitchesInto s.name (s.compileScript o).statements ↔
      (o.useExisting = true → (Identifier.forServer s.name).isOk = true) := by
  constructor
  · rintro ⟨database, front, back, safe, -⟩ -
    rw [safe]
    rfl
  · intro named
    obtain ⟨database, safe⟩ : ∃ database, Identifier.forServer s.name = .ok database := by
      cases existing : o.useExisting with
      | false => exact exists_forServer_of_complete existing complete
      | true =>
        cases safe : Identifier.forServer s.name with
        | ok database => exact ⟨database, rfl⟩
        | error f =>
          have taken := named existing
          rw [safe] at taken
          cases taken
    exact switchesInto_of_forServer safe o

theorem compileScript_switches_shop :
    let s : Schema := ⟨"shop", [⟨"item", [⟨"id", some .int32, none, -1, true⟩], none⟩], []⟩
    (s.compileScript {}).isComplete = true ∧ SwitchesInto s.name (s.compileScript {}).statements :=
  ⟨by decide +kernel, (compileScript_switches_iff (by decide +kernel)).mpr fun h => by cases h⟩

/-- A table that is made in whatever database a session happens to be in. -/
theorem compileScript_complete_without_switch :
    let s : Schema := ⟨" ", [⟨"item", [⟨"id", some .int32, none, -1, true⟩], none⟩], []⟩
    let c := s.compileScript { useExisting := true }
    c.isComplete = true ∧ (c.ofKind .useDatabase).length = 0 ∧
      (c.ofKind .createTable).length = 1 := by
  decide +kernel

end Schema

end Tabular
