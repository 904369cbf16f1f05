import Mathlib.Data.List.TakeWhile
import Tabular.Proofs.Accounting
import Tabular.Proofs.Calls

/-!
Schemas created on a server. Two sessions at most, one for the database and one for what is in it,
execute the compiled statements in order; a call that fails ends the run, and every connection is
closed before it ends.
-/
namespace Tabular

/-- One statement more, behind those that make the database. -/
theorem Schema.insertUse_eq_append (use : Statement) (ss : List Statement) :
    ∃ front back, front ++ back = ss ∧ insertUse use ss = front ++ use :: back := by
  induction ss with
  | nil => exact ⟨[], [], rfl, rfl⟩
  | cons s ss ih =>
    unfold insertUse
    split
    · obtain ⟨front, back, rfl, inserted⟩ := ih
      exact ⟨s :: front, back, rfl, congrArg (List.cons s) inserted⟩
    · exact ⟨[], s :: ss, rfl, rfl⟩

namespace Server

variable {s : Schema} {database : Identifier}

/-! ### The name of the database -/

theorem isBlankText_of_forServer {name : String} {id : Identifier}
    (h : Identifier.forServer name = .ok id) : isBlankText name = false := by
  by_contra blank
  have blanks : ∀ c ∈ name.toList, Text.isBlank c = true := by
    simpa [isBlankText, Text.allBlank] using blank
  have start : Text.trimStart name.toList = [] := List.dropWhile_eq_nil_iff.mpr blanks
  have text : Identifier.serverText name = [] := by
    unfold Identifier.serverText Text.trim
    rw [start]
    rfl
  have solid := (Identifier.forServer_isOk_iff.mp ⟨id, h⟩).1
  rw [text] at solid
  cases solid

theorem createDatabaseStatement_eq (safe : Identifier.forServer s.name = .ok database)
    (o : Options) :
    createDatabaseStatement o s.name =
      .ok ⟨s.name, .createDatabase database o.overwrite⟩ := by
  unfold createDatabaseStatement
  rw [isBlankText_of_forServer safe, safe]
  rfl

theorem databaseName_eq (safe : Identifier.forServer s.name = .ok database) :
    databaseName s = .ok database.bare := by
  unfold databaseName
  rw [isBlankText_of_forServer safe, safe]
  rfl

/-! ### The sessions -/

theorem createDatabase_eq (safe : Identifier.forServer s.name = .ok database) (overwrite : Bool) :
    createDatabase s overwrite =
      ServerTask.session none [SqlText.createDatabase database overwrite] := by
  unfold createDatabase ServerTask.session
  rw [createDatabaseStatement_eq safe]
  have single (c : Connection) (sql : String) :
      [sql].forM (fun sql => ServerTask.execute c sql) = ServerTask.execute c sql :=
    bind_pure (ServerTask.execute c sql)
  simp only [single]
  rfl

def texts (s : Schema) (o : Options) : List String :=
  (s.compileEntities o).statements.map (·.sql)

/-- The report of a run in which every statement succeeded. -/
def report (s : Schema) (o : Options) (database : String) : Report :=
  (s.compileEntities o).statements.foldl (fun r x => r.countExecuted x.kind)
    (startReport s o database)

theorem executeAll_eq (c : Connection) (ss : List Statement) (r : Report) :
    executeAll c ss r = (do
      (ss.map (·.sql)).forM fun sql => ServerTask.execute c sql
      return ss.foldl (fun r x => r.countExecuted x.kind) r) := by
  have texts : (ss.map (·.sql)).forM (fun sql => ServerTask.execute c sql) =
      ss.forM fun x => ServerTask.execute c x.sql := List.forM_map ..
  rw [texts]
  exact foldlM_account (fun x : Statement => ServerTask.execute c x.sql) _ ss r

/-- Statements executed on a connection of their own are a session, and are counted. -/
theorem connect_executeAll (catalog : Option String) (ss : List Statement) (r : Report) :
    (do
      let c ← ServerTask.connect catalog
      ServerTask.thenClose c (executeAll c ss r)) =
    (do
      ServerTask.session catalog (ss.map (·.sql))
      return ss.foldl (fun r x => r.countExecuted x.kind) r) := by
  unfold ServerTask.session
  rw [bind_assoc]
  refine bind_congr fun c => ?_
  rw [executeAll_eq]
  exact ServerTask.thenClose_map c _ fun _ => _

theorem create_eq (safe : Identifier.forServer s.name = .ok database) (o : Options) :
    create s o = do
      if !o.useExisting then
        ServerTask.session none [SqlText.createDatabase database o.overwrite]
      ServerTask.session (some database.bare) (texts s o)
      return report s o database.bare := by
  unfold create
  rw [databaseName_eq safe, createDatabase_eq safe]
  simp only [connect_executeAll]
  rfl

/-! ### The plan -/

/-- Where a compiled statement is executed: on no catalog if it makes the database, and in the
database otherwise. -/
def placed (database : Identifier) (x : Statement) : Option String × String :=
  (if x.kind = .createDatabase then none else some database.bare, x.sql)

theorem kind_of_mem_compileEntities {o : Options} {x : Statement}
    (h : x ∈ (s.compileEntities o).statements) : x.kind ≠ .createDatabase := by
  rcases List.mem_append.mp h with h | h
  · rcases List.mem_append.mp h with h | h
    · rw [Schema.kind_of_mem_tables h]
      decide
    · rw [Schema.kind_of_mem_keys h]
      decide
  · rw [Schema.kind_of_mem_relations h]
    decide

theorem map_placed_entities (database : Identifier) (o : Options) :
    (s.compileEntities o).statements.map (placed database) =
      (texts s o).map (some database.bare, ·) := by
  rw [texts, List.map_map]
  refine List.map_congr_left fun x hx => ?_
  rw [placed, if_neg (kind_of_mem_compileEntities hx)]
  rfl

def opening (s : Schema) (database : Identifier) (o : Options) : List Statement :=
  if o.useExisting then [] else [⟨s.name, .createDatabase database o.overwrite⟩]

theorem compile_eq (safe : Identifier.forServer s.name = .ok database) (o : Options) :
    s.compile o = { s.compileEntities o with
      statements := opening s database o ++ (s.compileEntities o).statements } := by
  unfold Schema.compile opening
  rw [createDatabaseStatement_eq safe]
  cases o.useExisting <;> rfl

theorem follows_createDatabase (safe : Identifier.forServer s.name = .ok database)
    (overwrite : Bool) :
    (createDatabase s overwrite).Follows [(none, SqlText.createDatabase database overwrite)] := by
  rw [createDatabase_eq safe]
  exact ServerTask.follows_session none _

theorem follows_create (safe : Identifier.forServer s.name = .ok database) (o : Options) :
    (create s o).Follows ((s.compile o).statements.map (placed database)) := by
  have finish : (do
      ServerTask.session (some database.bare) (texts s o)
      return report s o database.bare).Follows ((texts s o).map (some database.bare, ·)) := by
    have last := (ServerTask.follows_session (some database.bare) (texts s o)).bind fun _ =>
      ServerTask.follows_pure (report s o database.bare)
    rwa [List.append_nil] at last
  rw [create_eq safe, compile_eq safe, List.map_append, map_placed_entities]
  unfold opening
  cases o.useExisting with
  | true => exact finish
  | false => exact (ServerTask.follows_session none _).bind fun _ => finish

/-! ### Runs -/

/-- Nothing is executed in a database to be made before it is made without a fault. -/
theorem exists_whole_of_mem_executions (safe : Identifier.forServer s.name = .ok database)
    {o : Options} (fresh : o.useExisting = false) (k : Connector) {sql : String}
    (h : (some database.bare, sql) ∈ executions none (k.runTask [] (create s o)).2) :
    ∃ c rest, (k.runTask [] (create s o)).2 =
      Session.whole none [SqlText.createDatabase database o.overwrite] c ++ rest := by
  have first := ServerTask.follows_session none [SqlText.createDatabase database o.overwrite] k []
  rw [create_eq safe, fresh] at h ⊢
  change _ ∈ executions none (k.runTask [] (ServerTask.session none _ >>= _)).2 at h
  change ∃ c rest, (k.runTask [] (ServerTask.session none _ >>= _)).2 = _
  rw [k.runTask_bind] at h ⊢
  rcases run : k.runTask [] (ServerTask.session none
    [SqlText.createDatabase database o.overwrite]) with ⟨_ | ⟨⟩, calls⟩
  all_goals rw [run] at first h
  · have none_ := first.planned.subset h
    simp at none_
  · obtain ⟨c, rfl⟩ := ServerTask.eq_whole_of_session k [] run
    exact ⟨c, _, rfl⟩

/-- A run without a fault, session by session. -/
theorem of_create_eq_ok (safe : Identifier.forServer s.name = .ok database) {o : Options}
    {k : Connector} {r : Report} {calls : List ServerCall}
    (h : k.runTask [] (create s o) = (.ok r, calls)) :
    r = report s o database.bare ∧
      connections calls = (if o.useExisting then [] else [none]) ++ [some database.bare] := by
  have finish {before : List ServerCall} {calls : List ServerCall}
      (h : k.runTask before (do
        ServerTask.session (some database.bare) (texts s o)
        return report s o database.bare) = (.ok r, calls)) :
      r = report s o database.bare ∧ connections calls = [some database.bare] := by
    obtain ⟨⟨⟩, first, rest, session, last, rfl⟩ := Connector.of_runTask_bind_eq_ok h
    obtain ⟨hr, rfl⟩ := Prod.mk.inj last
    obtain ⟨c, rfl⟩ := ServerTask.eq_whole_of_session k before session
    rw [List.append_nil]
    exact ⟨(Except.ok.inj hr).symm, Session.connections_whole _ _ c⟩
  rw [create_eq safe] at h
  cases existing : o.useExisting with
  | true =>
    rw [existing] at h
    exact finish h
  | false =>
    rw [existing] at h
    obtain ⟨⟨⟩, first, rest, session, last, rfl⟩ := Connector.of_runTask_bind_eq_ok h
    obtain ⟨c, rfl⟩ := ServerTask.eq_whole_of_session k [] session
    obtain ⟨hr, hrest⟩ := finish last
    refine ⟨hr, ?_⟩
    rw [connections, List.filterMap_append]
    exact congrArg₂ List.append (Session.connections_whole _ _ c) hrest

/-! ### What a run makes -/

theorem ofKind_compile (safe : Identifier.forServer s.name = .ok database) (o : Options)
    {k : CommandKind} (other : k ≠ .createDatabase) :
    (s.compile o).ofKind k = (s.compileEntities o).ofKind k := by
  rw [compile_eq safe]
  unfold Compilation.ofKind opening
  dsimp only
  rw [List.filter_append]
  cases o.useExisting with
  | true => rfl
  | false =>
    have none_ : (Statement.kind ⟨s.name, .createDatabase database o.overwrite⟩ == k) = false :=
      beq_eq_false_iff_ne.mpr (Ne.symm other)
    simp [none_]

/-- The counts of a report. -/
theorem report_eq (s : Schema) (o : Options) (database : String) :
    let c := s.compileEntities o
    report s o database =
      { engine := .sql, database
        step := if o.useExisting then .usedExisting else .created
        statementsExecuted := (if o.useExisting then 0 else 1) + c.statements.length
        tablesCreated := (c.ofKind .createTable).length
        primaryKeysCreated := (c.ofKind .primaryKey).length
        relationsCreated := (c.ofKind .foreignKey).length
        skipped := c.failures.map Fault.message
        failures := c.failures } := by
  have ofKind (k : CommandKind) :
      ((s.compileEntities o).statements.map Statement.kind).count k =
        ((s.compileEntities o).ofKind k).length := by
    rw [Compilation.ofKind, List.count, List.countP_map, List.countP_eq_length_filter]
    rfl
  unfold report startReport
  rw [← List.foldl_map (f := Statement.kind) (g := Report.countExecuted),
    Report.foldl_countExecuted, Report.foldl_count, Report.skipAll_eq]
  simp only [ofKind, List.length_map, Nat.zero_add, List.nil_append]

/-- Where nothing fails, what is executed is what is compiled: the statement that makes the
database on a connection to no catalog, all others on one connection to the database, each on the
connection that is open. The script has the same statements and one that switches into that
database, and the report counts what was executed. -/
theorem create_executes_compiled (safe : Identifier.forServer s.name = .ok database) (o : Options)
    {k : Connector} (reliable : k.IsReliable) :
    let c := s.compile o
    ∃ r calls, k.runTask [] (create s o) = (.ok r, calls) ∧
      executions none calls = c.statements.map (placed database) ∧
      connections calls = (if o.useExisting then [] else [none]) ++ [some database.bare] ∧
      Balanced none calls ∧
      (∃ front back, front ++ back = c.statements ∧
        (s.compileScript o).statements = front ++ ⟨s.name, .useDatabase database⟩ :: back) ∧
      r.database = database.bare ∧
      r.skipped = c.failures.map Fault.message ∧
      r.statementsExecuted = (executions none calls).length ∧
      r.tablesCreated = (c.ofKind .createTable).length ∧
      r.primaryKeysCreated = (c.ofKind .primaryKey).length ∧
      r.relationsCreated = (c.ofKind .foreignKey).length := by
  have orderly := follows_create safe o k []
  have noFault := reliable.fault?_eq_none [] (create s o).run
  rcases run : k.runTask [] (create s o) with ⟨f | r, calls⟩
  all_goals rw [run] at orderly
  · have failed := orderly.verdict
    rw [List.findSome?_eq_none_iff.mpr] at failed
    · cases failed
    · unfold Connector.runTask at run
      rwa [run] at noFault
  obtain ⟨rfl, connected⟩ := of_create_eq_ok safe run
  have executed := orderly.whole rfl
  obtain ⟨front, back, parts, inserted⟩ :=
    Schema.insertUse_eq_append ⟨s.name, .useDatabase database⟩ (s.compile o).statements
  have script : (s.compileScript o).statements =
      Schema.insertUse ⟨s.name, .useDatabase database⟩ (s.compile o).statements := by
    unfold Schema.compileScript
    rw [safe]
  refine ⟨_, calls, rfl, executed, connected, orderly.balanced,
    ⟨front, back, parts, script.trans inserted⟩, ?_⟩
  rw [executed, List.length_map, ofKind_compile safe o (by decide),
    ofKind_compile safe o (by decide), ofKind_compile safe o (by decide), report_eq,
    compile_eq safe]
  refine ⟨rfl, rfl, ?_, rfl, rfl, rfl⟩
  unfold opening
  cases o.useExisting with
  | true => exact Nat.zero_add _
  | false => exact Nat.add_comm 1 _

theorem create_executes_compiled_shop :
    let s : Schema :=
      ⟨"[shop] ",
        [⟨"item", [⟨"id", some .int32, none, -1, true⟩], some ["id"]⟩, ⟨"item", [], none⟩], []⟩
    let database : Identifier := ⟨"[shop]", "shop"⟩
    let k : Connector := .closingBadly []
    Identifier.forServer s.name = .ok database ∧ k.IsReliable ∧
      ∃ r calls, k.runTask [] (create s {}) = (.ok r, calls) ∧
        connections calls = [none, some "shop"] ∧ r.statementsExecuted = 3 ∧
        r.tablesCreated = 1 ∧ r.primaryKeysCreated = 1 ∧ r.skipped.length = 1 := by
  intro s database k
  have safe : Identifier.forServer s.name = .ok database := eq_ok_of_toOption (by decide +kernel)
  refine ⟨safe, Connector.isReliable_closingBadly_nil, ?_⟩
  obtain ⟨r, calls, run, executed, connected, -, -, -, skipped, count, tables, keys, -⟩ :=
    create_executes_compiled safe {} Connector.isReliable_closingBadly_nil
  refine ⟨r, calls, run, connected, ?_, ?_, ?_, ?_⟩
  · rw [count, executed, List.length_map]
    decide +kernel
  · rw [tables]
    decide +kernel
  · rw [keys]
    decide +kernel
  · rw [skipped, List.length_map]
    decide +kernel

/-- Whatever fails, connections are opened, used and closed one after the other, what is executed
is the beginning of what is compiled, nothing is executed in the database before it is made without
a fault, and the first fault ends the run and is its outcome. -/
theorem create_keeps_order (safe : Identifier.forServer s.name = .ok database) (k : Connector) :
    (∀ o : Options,
      let (result, calls) := k.runTask [] (create s o)
      Orderly ((s.compile o).statements.map (placed database)) calls result ∧
        (o.useExisting = false → ∀ sql, (some database.bare, sql) ∈ executions none calls →
          ∃ c rest, calls =
            Session.whole none [SqlText.createDatabase database o.overwrite] c ++ rest)) ∧
      ∀ overwrite,
        let (result, calls) := k.runTask [] (createDatabase s overwrite)
        Orderly [(none, SqlText.createDatabase database overwrite)] calls result :=
  ⟨fun o => ⟨follows_create safe o k [],
      fun fresh _ h => exists_whole_of_mem_executions safe fresh k h⟩,
    fun overwrite => follows_createDatabase safe overwrite k []⟩

/-- A database whose connection cannot be closed is not connected to. -/
theorem create_keeps_order_shop :
    let s : Schema := ⟨"shop", [⟨"item", [⟨"id", some .int32, none, -1, true⟩], none⟩], []⟩
    let database : Identifier := ⟨"[shop]", "shop"⟩
    let k : Connector := .closingBadly [none]
    let (result, calls) := k.runTask [] (create s {})
    Identifier.forServer s.name = .ok database ∧ result.isOk = false ∧ calls.length = 3 ∧
      Orderly ((s.compile {}).statements.map (placed database)) calls result := by
  intro s database k
  have safe : Identifier.forServer s.name = .ok database := eq_ok_of_toOption (by decide +kernel)
  have order := ((create_keeps_order safe k).1 {}).1
  have outcome : (k.runTask [] (create s {})).1.isOk = false ∧
      (k.runTask [] (create s {})).2.length = 3 := by decide +kernel
  exact ⟨safe, outcome.1, outcome.2, order⟩

end Server

end Tabular
