import Relayvia.Concurrency.CellWrites
import Relayvia.Concurrency.Snapshots
import Relayvia.Concurrency.Spared

/-!
# Human actions on one NodeRun

Approve, reject and submit load the NodeRun before they lock it, and the locking read leaves
the attributes of a loaded object as they are.  Where each of them finds under its lock the
NodeRun WAITING that it has loaded as WAITING, at most one of them is accepted.
-/

namespace Relayvia

variable {env : Env} {now : Time} {n : NodeRun} {id : NodeId} {db db' : RunRecord}
  {s s' : LockWorld} {step : LockStep} {p q : Sitting} {action : HumanAction}

/-! ## What an action writes -/

namespace HumanAction

def result : HumanAction → HumanResult
  | approve => approval
  | reject => rejection
  | submit input => submission input

/-- The NodeRun after the action. -/
def write (action : HumanAction) (now : Time) (n : NodeRun) : NodeRun :=
  { n with
    status := action.result.target
    output := action.result.output.or n.output
    error := action.result.error.or n.error
    finishedAt := some now }

def events (action : HumanAction) (id : NodeId) : List RunEvent :=
  [{ nodeRunId := some id
     eventType := .nodeResumed
     message := some action.result.resumedMessage
     payload := [("node_id", .str id), ("action", .str action.result.action)] },
    { nodeRunId := some id
      eventType := action.result.finishedType
      message := some action.result.finishedMessage
      payload := ("node_id", .str id) :: action.result.finishedPayload }]

/-- The action is applied to a WAITING NodeRun. -/
structure Applied (now : Time) (id : NodeId) (action : HumanAction) (db db' : RunRecord) : Prop where
  waiting : statusOf db.nodeRuns id = some .waiting
  nodeRuns : db'.nodeRuns = Table.modify NodeRun.nodeId id (action.write now) db.nodeRuns
  tasks : db'.tasks = db.tasks
  events : db'.events = db.events ++ action.events id

theorem apply_applied (action : HumanAction) :
    Returns (action.apply env now id db) (action.Applied now id db) := by
  have happlied (hwaiting : statusOf db.nodeRuns id = some .waiting) :
      Returns (applyHumanResult now db id action.result) (action.Applied now id db) := by
    refine Outcome.Holds.bind (returns_any _) fun _ _ ↦
      Outcome.holds_pure.mpr ⟨hwaiting, rfl, rfl, ?_⟩
    simp [RunRecord.recordEvent, RunRecord.modifyNode, events]
  have hlocked {rest : NodeRun → Except Raised RunRecord}
      (hrest : ∀ m, statusOf db.nodeRuns id = some .waiting →
        Returns (rest m) (action.Applied now id db)) :
      Returns (do
        let m ← liftM (lockNodeRun db id)
        liftM (requireWaiting m)
        rest m) (action.Applied now id db) := by
    refine lockNodeRun_sound.returns.bind fun m hm ↦ ?_
    refine requireWaiting_sound.returns.bind fun _ hwaiting ↦ hrest m ?_
    rw [statusOf, hm, Option.map_some, hwaiting]
  cases action with
  | approve =>
      refine hlocked fun m hwaiting ↦ ?_
      exact Outcome.Holds.bind (returns_any _) fun _ _ ↦ happlied hwaiting
  | reject =>
      refine hlocked fun m hwaiting ↦ ?_
      refine Outcome.Holds.bind (returns_any _) fun _ _ ↦ ?_
      exact Outcome.Holds.ite (fun _ ↦ trivial) fun _ ↦ happlied hwaiting
  | submit input =>
      refine hlocked fun m hwaiting ↦ ?_
      refine Outcome.Holds.bind (returns_any _) fun _ _ ↦ Outcome.Holds.bind (returns_any _) fun _ _ ↦ ?_
      exact happlied hwaiting

/-- An action on a NodeRun that does not wait. -/
theorem apply_refused (action : HumanAction) (env : Env) (now : Time)
    (hn : findNodeRun db.nodeRuns id = some n)
    (hstatus : n.status ≠ .waiting) :
    ∃ e, action.apply env now id db = .error (.relayvia e) ∧ e.code = "NODE_RUN_NOT_WAITING" := by
  have hlock : (liftM (lockNodeRun db id) : Except Raised NodeRun) = .ok n := by
    rw [lockNodeRun, hn]
    rfl
  obtain ⟨e, he, hcode⟩ : ∃ e, (liftM (requireWaiting n) : Except Raised Unit) =
      .error (.relayvia e) ∧ e.code = "NODE_RUN_NOT_WAITING" := by
    rw [requireWaiting, if_neg hstatus]
    exact ⟨_, rfl, rfl⟩
  have hrefused {rest : NodeRun → Except Raised RunRecord} :
      ∃ e, (do
        let m ← liftM (lockNodeRun db id)
        liftM (requireWaiting m)
        rest m) = .error (.relayvia e) ∧ e.code = "NODE_RUN_NOT_WAITING" := by
    refine ⟨e, ?_, hcode⟩
    rw [hlock]
    change (liftM (requireWaiting n) >>= fun _ ↦ rest n) = _
    rw [he]
    rfl
  cases action with
  | approve => exact hrefused
  | reject => exact hrefused
  | submit input => exact hrefused

theorem find?_write (action : HumanAction) (now : Time) (id id' : NodeId) (nodeRuns : List NodeRun) :
    findNodeRun (Table.modify NodeRun.nodeId id (action.write now) nodeRuns) id' =
      if id' = id then (findNodeRun nodeRuns id).map (action.write now)
      else findNodeRun nodeRuns id' := by
  have hkey (m : NodeRun) : (action.write now m).nodeId = m.nodeId := rfl
  exact Table.find?_modify hkey id id' nodeRuns

theorem write_terminal (action : HumanAction) (now : Time) (n : NodeRun) :
    (action.write now n).status.isTerminal = true := by
  cases action <;> rfl

end HumanAction

/-! ## Histories -/

/-- The two transactions of a request. -/
def Transaction.ofAction : Transaction → Bool
  | human .. | reconcile _ .action => true
  | _ => false

/-- The action on the NodeRun. -/
def Transaction.actionOn (id : NodeId) : Transaction → List (Time × HumanAction)
  | human now id' action => if id' = id then [(now, action)] else []
  | _ => []

/-- The action on the NodeRun that the step commits. -/
def LockStep.accepted (env : Env) (id : NodeId) (s : LockWorld) : LockStep → List (Time × HumanAction)
  | .commit sid =>
      match s.sittings sid with
      | some p =>
          match p.rest, p.tx.commit env p.view s.db with
          | [], .ok _ => p.tx.actionOn id
          | _, _ => []
      | none => []
  | _ => []

/-- The actions on the NodeRun that the steps commit. -/
def acceptedActions (env : Env) (id : NodeId) : List LockStep → LockWorld → List (Time × HumanAction)
  | [], _ => []
  | step :: steps, s => step.accepted env id s ++ acceptedActions env id steps (step.exec env s)

/-- The NodeRun after the actions. -/
def writtenBy (actions : List (Time × HumanAction)) (n : NodeRun) : NodeRun :=
  actions.foldl (fun m a ↦ a.2.write a.1 m) n

/-- `allowed` holds at every step. -/
def LockStep.AllAllowed (env : Env) (allowed : LockWorld → LockStep → Prop) :
    List LockStep → LockWorld → Prop
  | [], _ => True
  | step :: steps, s => allowed s step ∧ AllAllowed env allowed steps (step.exec env s)

/-- Only requests begin. -/
def LockStep.OfActions (_ : LockWorld) : LockStep → Prop
  | .begin tx => tx.ofAction = true
  | _ => True

/-- Only requests begin, and one that locks the NodeRun that it has loaded as WAITING finds
it WAITING. -/
def ActionCurrent (id : NodeId) (s : LockWorld) (step : LockStep) : Prop :=
  step.OfActions s ∧
    match step with
    | .next sid => ∀ p now action sn, s.sittings sid = some p → p.tx = .human now id action →
        p.rest.head? = some (.lockNode id) → p.view.snapshot = some sn →
          statusOf sn.nodeRuns id = some .waiting → statusOf s.db.nodeRuns id = some .waiting
    | _ => True

/-- At most one action is accepted; it alone writes the NodeRun and its events; once it is
committed, the requests that hold the lock fail. -/
structure OneActionWins (env : Env) (db : RunRecord) (n : NodeRun)
    (actions : List (Time × HumanAction)) (s : LockWorld) : Prop where
  single : actions.length ≤ 1
  row : findNodeRun s.db.nodeRuns n.nodeId = some (writtenBy actions n)
  events : s.db.events.filter (·.resolves n.nodeId) =
    db.events.filter (·.resolves n.nodeId) ++ actions.flatMap fun a ↦ a.2.events n.nodeId
  refused : actions ≠ [] → ∀ sid p now action, s.sittings sid = some p →
    p.tx = .human now n.nodeId action → p.rest = [] →
      (∃ e, p.tx.commit env p.view s.db = .error (.relayvia e) ∧ e.code = "NODE_RUN_NOT_WAITING") ∧
        ((LockStep.commit sid).exec env s).db = s.db

/-! ## Commits -/

theorem writeBack_nodeRuns {base : RunRecord} {session : Session}
    (h : writeBack base session db = .ok db') :
    db'.nodeRuns = Merge.rows NodeRun.nodeId NodeRun.merge base.nodeRuns session.nodeRuns
      db.nodeRuns := by
  obtain ⟨tasks, -, h⟩ := Outcome.bind_eq_ok_iff.mp h
  cases h
  rfl

theorem writeBack_events {base : RunRecord} {session : Session}
    (h : writeBack base session db = .ok db') : db'.events = db.events ++ session.events := by
  obtain ⟨tasks, -, h⟩ := Outcome.bind_eq_ok_iff.mp h
  cases h
  rfl

/-- A session that keeps or cancels the tasks that it has read. -/
theorem writeBack_tasksEnded (now : Time) {base : RunRecord} {session : Session}
    (h : writeBack base session db = .ok db')
    (htaken : session.tasks.take base.tasks.length = base.tasks ∨
      session.tasks.take base.tasks.length = base.tasks.map (cancelTask now))
    (hsession : TasksEnded id (session.tasks ++ session.added)) (htasks : TasksEnded id db.tasks) :
    TasksEnded id db'.tasks := by
  obtain ⟨tasks, hinsert, h⟩ := Outcome.bind_eq_ok_iff.mp h
  cases h
  have hmerged : TasksEnded id (Merge.rows ExecutionTask.id ExecutionTask.merge base.tasks
      (session.tasks.take base.tasks.length) db.tasks) := by
    rcases htaken with hkept | hcancelled
    · rw [hkept, Merge.rows_same ExecutionTask.merge_same]
      exact htasks
    · rw [hcancelled]
      intro t ht hid
      obtain ⟨row, hrow, rfl⟩ := List.mem_map.mp ht
      rw [Table.find?_map cancelTask_id] at hid ⊢
      cases hbase : Table.find? ExecutionTask.id row.id base.tasks with
      | none =>
          rw [hbase] at hid
          exact htasks row hrow hid
      | some b =>
          rw [hbase] at hid
          have hended := htasks row hrow hid
          change (Merge.column b.status (cancelTask now b).status row.status).isTerminal = true
          unfold Merge.column
          split
          · exact hended
          · exact cancelTask_terminal now b
  rw [Session.insertTasks_ok hinsert]
  intro t ht hid
  rcases List.mem_append.mp ht with hold | hnew
  · exact hmerged t hold hid
  · obtain ⟨u, hu, k, rfl⟩ := Session.mem_numbered hnew
    refine hsession u ?_ hid
    rcases List.mem_append.mp hu with hflushed | hadded
    · exact List.mem_append_left _ (List.mem_of_mem_drop hflushed)
    · exact List.mem_append_right _ hadded

/-! ## Requests under way -/

/-- In committed rows the NodeRun waits as `n` does, or has ended. -/
structure Standing (n : NodeRun) (db : RunRecord) : Prop where
  nodup : (db.nodeRuns.map NodeRun.nodeId).Nodup
  row : ∃ m, findNodeRun db.nodeRuns n.nodeId = some m ∧ (m = n ∨ m.status.isTerminal = true)
  tasks : TasksEnded n.nodeId db.tasks

/-- A request has loaded committed rows.  A reconciliation locks tasks to cancel them; an
action holds the lock on the run once it has locked the NodeRun. -/
structure Sitting.Acts (env : Env) (n : NodeRun) (db : RunRecord) (p : Sitting) : Prop where
  kind : p.tx.ofAction = true
  script : p.rest <:+ p.tx.script
  takesLock : Statement.lockRun ∈ p.rest ∨ RowLock.run ∈ p.locks
  begun : p.rest = p.tx.script ∧ p.view.tasks = none ∨
    p.view.snapshot.isSome = true ∧ (p.tx.schedules = true → p.view.run.isSome = true)
  snapshot : ∀ sn, p.view.snapshot = some sn → Standing n sn
  tasks : ∀ ts, p.view.tasks = some ts → TasksEnded n.nodeId ts
  cancels : ∀ now, p.tx = .reconcile now .action → p.view.tasks ≠ none → ∀ d,
    (p.view.rows d).run.status = .cancelled ∨ derivesFailed env now (p.view.rows d) = true
  current : ∀ now action, p.tx = .human now n.nodeId action →
    Statement.lockNode n.nodeId ∈ p.rest ∨
      RowLock.run ∈ p.locks ∧ ∀ sn, p.view.snapshot = some sn →
        statusOf sn.nodeRuns n.nodeId = some .waiting → statusOf db.nodeRuns n.nodeId = some .waiting

namespace Transaction

variable {tx : Transaction} {stmt : Statement} {rest : List Statement} {view : View}

/-- The first statement pins the snapshot, and that of a reconciliation loads the run. -/
theorem first_statement (hkind : tx.ofAction = true) (hscript : stmt :: rest = tx.script) :
    stmt = .select ∧ tx.schedules = false ∨ stmt = .loadRun := by
  cases tx with
  | human =>
      cases hscript
      exact .inl ⟨rfl, rfl⟩
  | reconcile now caller =>
      cases caller with
      | action =>
          cases hscript
          exact .inr rfl
      | worker | other => cases hkind
  | _ => cases hkind

/-- A request locks tasks only in a reconciliation that cancels them. -/
theorem read_tasks_of_action (env : Env) (db : RunRecord) (view : View)
    (hkind : tx.ofAction = true) (hmem : stmt ∈ tx.script) :
    (stmt.read env view db).tasks = view.tasks ∨
      (stmt.read env view db).tasks = some db.tasks ∧ stmt ≠ .loadRun ∧
        ∀ now, tx = .reconcile now .action →
          (view.rows db).run.status = .cancelled ∨ derivesFailed env now (view.rows db) = true := by
  cases tx with
  | human =>
      simp only [script, List.mem_cons, List.not_mem_nil, or_false] at hmem
      rcases hmem with rfl | rfl | rfl <;> exact .inl rfl
  | reconcile now caller =>
      cases caller with
      | action =>
          simp only [script, List.cons_append, List.nil_append, List.mem_cons, List.not_mem_nil,
            or_false] at hmem
          rcases hmem with rfl | rfl | rfl | rfl | rfl
          · exact .inl rfl
          · exact .inl rfl
          · simp only [Statement.read]
            split
            · next hlocks =>
              exact .inr ⟨rfl, by simp, fun _ _ ↦ .inl (by simpa [Statement.locksTasks] using hlocks)⟩
            · exact .inl rfl
          · exact .inl rfl
          · simp only [Statement.read]
            split
            · next hlocks =>
              refine .inr ⟨rfl, by simp, ?_⟩
              rintro _ ⟨⟩
              exact .inr hlocks
            · exact .inl rfl
      | worker | other => cases hkind
  | _ => cases hkind

end Transaction

/-- The rows of a session that has its snapshot and the run. -/
theorem Statement.read_rows {stmt : Statement} {view : View} (hsnapshot : view.snapshot.isSome = true)
    (hrun : view.run.isSome = true) (d : RunRecord) :
    (stmt.read env view db).rows d = view.rows db := by
  obtain ⟨sn, hsn⟩ := Option.isSome_iff_exists.mp hsnapshot
  obtain ⟨r, hr⟩ := Option.isSome_iff_exists.mp hrun
  have hread : (stmt.read env view db).snapshot = some sn := by
    rcases @Statement.read_snapshot env db view stmt with hsame | ⟨hnone, -⟩
    · rw [hsame, hsn]
    · rw [hsn] at hnone
      cases hnone
  simp [View.rows, hread, Statement.read_run hr, hsn, hr]

namespace Sitting.Acts

theorem start (db : RunRecord) {tx : Transaction} (hkind : tx.ofAction = true) :
    Acts env n db { tx := tx, rest := tx.script } where
  kind := hkind
  script := List.suffix_rfl
  takesLock := by
    left
    cases tx with
    | human => simp [Transaction.script]
    | reconcile => simp [Transaction.script]
    | _ => cases hkind
  begun := .inl ⟨rfl, rfl⟩
  snapshot _ h := by cases h
  tasks _ h := by cases h
  cancels _ _ h := absurd rfl h
  current now action htx := by
    cases htx
    simp [Transaction.script]

theorem advance {stmt : Statement} {rest : List Statement} (h : p.Acts env n db)
    (hrest : p.rest = stmt :: rest) (hdb : Standing n db)
    (hcurrent : stmt = .lockNode n.nodeId → ∀ now action sn, p.tx = .human now n.nodeId action →
      p.view.snapshot = some sn → statusOf sn.nodeRuns n.nodeId = some .waiting →
        statusOf db.nodeRuns n.nodeId = some .waiting) :
    (p.advance env db stmt rest).Acts env n db := by
  have hscript : stmt :: rest <:+ p.tx.script := hrest ▸ h.script
  have hmem : stmt ∈ p.tx.script := hscript.subset List.mem_cons_self
  have hsnapshot := @Statement.read_snapshot env db p.view stmt
  have hkept (hsome : p.view.snapshot.isSome = true) :
      (stmt.read env p.view db).snapshot = p.view.snapshot := by
    rcases hsnapshot with hsame | ⟨hnone, -⟩
    · exact hsame
    · simp [hnone] at hsome
  constructor
  · exact h.kind
  · exact (List.suffix_cons stmt rest).trans hscript
  · exact locked_advance hrest h.takesLock
  · right
    change (stmt.read env p.view db).snapshot.isSome = true ∧
      (p.tx.schedules = true → (stmt.read env p.view db).run.isSome = true)
    rcases h.begun with ⟨hall, -⟩ | ⟨hsome, hrun⟩
    · rcases Transaction.first_statement h.kind (hrest.symm.trans hall) with ⟨rfl, hother⟩ | rfl
      · cases hview : p.view.snapshot <;> simp [Statement.read, View.pin, hview, hother]
      · cases hview : p.view.snapshot <;> cases hrun : p.view.run <;>
          simp [Statement.read, View.pin, hview, hrun]
    · refine ⟨hkept hsome ▸ hsome, fun hs ↦ ?_⟩
      obtain ⟨r, hr⟩ := Option.isSome_iff_exists.mp (hrun hs)
      rw [Statement.read_run hr]
      rfl
  · intro sn (hsn : (stmt.read env p.view db).snapshot = some sn)
    rcases hsnapshot with hsame | ⟨-, hpinned⟩
    · exact h.snapshot sn (hsame ▸ hsn)
    · cases hpinned.symm.trans hsn
      exact hdb
  · intro ts (hts : (stmt.read env p.view db).tasks = some ts)
    rcases Transaction.read_tasks_of_action env db p.view h.kind hmem with
      hsame | ⟨hlocked, -⟩
    · exact h.tasks ts (hsame ▸ hts)
    · cases hlocked.symm.trans hts
      exact hdb.tasks
  · intro now (htx : p.tx = .reconcile now .action)
      (hlocked : (stmt.read env p.view db).tasks ≠ none) d
    change ((stmt.read env p.view db).rows d).run.status = .cancelled ∨
      derivesFailed env now ((stmt.read env p.view db).rows d) = true
    have hread := Transaction.read_tasks_of_action env db p.view h.kind hmem
    have hfirst (hall : p.rest = p.tx.script) : stmt = .loadRun := by
      rcases Transaction.first_statement h.kind (hrest.symm.trans hall) with ⟨-, hother⟩ | hload
      · rw [htx] at hother
        cases hother
      · exact hload
    obtain ⟨hsome, hrun⟩ : p.view.snapshot.isSome = true ∧ p.view.run.isSome = true := by
      rcases h.begun with ⟨hall, hnone⟩ | ⟨hsome, hrun⟩
      · rcases hread with hsame | ⟨-, hne, -⟩
        · exact absurd (hsame.trans hnone) hlocked
        · exact absurd (hfirst hall) hne
      · exact ⟨hsome, hrun (by rw [htx]; rfl)⟩
    rw [Statement.read_rows hsome hrun d]
    rcases hread with hsame | ⟨-, -, hcancels⟩
    · exact h.cancels now htx (hsame ▸ hlocked) db
    · exact hcancels now htx
  · intro now action (htx : p.tx = .human now n.nodeId action)
    rcases h.current now action htx with hmem | ⟨hlock, hfresh⟩
    · rw [hrest, List.mem_cons] at hmem
      rcases hmem with rfl | hmem
      · have hnone : Statement.lockRun ∉ rest := by
          rw [htx] at hscript
          simp only [Transaction.script, List.suffix_cons_iff, List.cons.injEq] at hscript
          rcases hscript with ⟨hne, -⟩ | ⟨hne, -⟩ | ⟨-, rfl⟩ | hnil
          · cases hne
          · cases hne
          · simp
          · simp at hnil
        refine .inr ⟨(locked_advance hrest h.takesLock).resolve_left hnone, fun sn hsn ↦ ?_⟩
        exact hcurrent rfl now action sn htx hsn
      · exact .inl hmem
    · refine .inr ⟨List.mem_append_left _ hlock, fun sn hsn hwaiting ↦ ?_⟩
      rcases hsnapshot with hsame | ⟨-, hpinned⟩
      · exact hfresh sn (hsame.symm.trans hsn) hwaiting
      · cases hpinned.symm.trans hsn
        exact hwaiting

theorem run_mem (h : p.Acts env n db) (hrest : p.rest = []) : RowLock.run ∈ p.locks := by
  apply h.takesLock.resolve_left
  simp [hrest]

/-- The commit of another request needs the lock on the run. -/
theorem other (hp : p.Acts env n db) (hrest : p.rest = [])
    (hdisjoint : ∀ l ∈ p.locks, l ∉ q.locks) (hq : q.Acts env n db) : q.Acts env n db' where
  kind := hq.kind
  script := hq.script
  takesLock := hq.takesLock
  begun := hq.begun
  snapshot := hq.snapshot
  tasks := hq.tasks
  cancels := hq.cancels
  current now action htx := by
    rcases hq.current now action htx with hmem | ⟨hlock, -⟩
    · exact .inl hmem
    · exact absurd hlock (hdisjoint _ (hp.run_mem hrest))

theorem exists_snapshot (h : p.Acts env n db) (hrest : p.rest = []) :
    ∃ sn, p.view.snapshot = some sn := by
  rcases h.begun with ⟨hall, -⟩ | ⟨hsome, -⟩
  · have hmem : p.tx.script ≠ [] := by
      have hkind := h.kind
      cases htx : p.tx with
      | human | reconcile => simp [Transaction.script]
      | _ =>
          rw [htx] at hkind
          cases hkind
    exact absurd (hall.symm.trans hrest) hmem
  · exact Option.isSome_iff_exists.mp hsome

/-- The rows of a request that has read all it reads. -/
theorem standing (h : p.Acts env n db) (hrest : p.rest = []) :
    Standing n (p.view.rows db) ∧ Standing n (Transaction.base p.view db) := by
  obtain ⟨sn, hsn⟩ := h.exists_snapshot hrest
  have hstanding := h.snapshot sn hsn
  have hnodes : (p.view.rows db).nodeRuns = sn.nodeRuns := by simp [View.rows, hsn]
  have htasks : (p.view.rows db).tasks = sn.tasks := by simp [View.rows, hsn]
  have hrows : Standing n (p.view.rows db) :=
    ⟨hnodes ▸ hstanding.nodup, hnodes ▸ hstanding.row, htasks ▸ hstanding.tasks⟩
  refine ⟨hrows, hrows.nodup, hrows.row, ?_⟩
  change TasksEnded n.nodeId (p.view.tasks.getD (p.view.rows db).tasks)
  cases hview : p.view.tasks with
  | none => exact hrows.tasks
  | some ts => exact h.tasks ts hview

end Sitting.Acts

/-! ## Commits of requests -/

/-- The commit leaves the NodeRun and its events as they are. -/
structure Untouched (id : NodeId) (db db' : RunRecord) : Prop where
  nodeIds : db'.nodeRuns.map NodeRun.nodeId = db.nodeRuns.map NodeRun.nodeId
  row : findNodeRun db'.nodeRuns id = findNodeRun db.nodeRuns id
  tasks : TasksEnded id db.tasks → TasksEnded id db'.tasks
  events : db'.events.filter (·.resolves id) = db.events.filter (·.resolves id)

/-- A session that has not changed the row, keeps or cancels the tasks that it has read, and
records no end of the NodeRun. -/
theorem writeBack_untouched (now : Time) {base : RunRecord} {session : Session}
    (h : writeBack base session db = .ok db')
    (hrow : findNodeRun session.nodeRuns id = findNodeRun base.nodeRuns id)
    (htaken : session.tasks.take base.tasks.length = base.tasks ∨
      session.tasks.take base.tasks.length = base.tasks.map (cancelTask now))
    (hsession : TasksEnded id (session.tasks ++ session.added))
    (hevents : ∀ e ∈ session.events, e.resolves id = false) : Untouched id db db' where
  nodeIds := by
    rw [writeBack_nodeRuns h]
    exact Merge.map_rows NodeRun.nodeId fun _ _ _ ↦ rfl
  row := by
    rw [writeBack_nodeRuns h]
    exact Merge.find?_rows_same (fun _ _ _ ↦ rfl) NodeRun.merge_same hrow
  tasks := writeBack_tasksEnded now h htaken hsession
  events := by
    rw [writeBack_events h, List.filter_append]
    have hnone : session.events.filter (·.resolves id) = [] := by
      simpa [List.filter_eq_nil_iff] using hevents
    rw [hnone, List.append_nil]

theorem HumanAction.run_ok {view : View}
    (h : (Transaction.human now id action).run env view db = .ok session) :
    action.Applied now id (Transaction.base view db) session.toRunRecord ∧ session.added = [] := by
  obtain ⟨rows, hrows, rfl⟩ := Outcome.map_eq_ok_iff.mp h
  exact ⟨action.apply_applied.of_ok hrows, rfl⟩

/-- The commit of a reconciliation, or of an action on another NodeRun. -/
theorem Sitting.Acts.commit_untouched (h : p.Acts env n db) (hrest : p.rest = []) (hn : n.Parked)
    (hother : p.tx.actionOn n.nodeId = []) (hcommit : p.tx.commit env p.view db = .ok db') :
    Untouched n.nodeId db db' := by
  obtain ⟨session, hrun, hwrite⟩ := Transaction.commit_ok hcommit
  obtain ⟨hrows, hbase⟩ := h.standing hrest
  have hkind := h.kind
  cases htx : p.tx with
  | human now id action =>
      rw [htx] at hother hrun
      have hne : id ≠ n.nodeId := by
        intro heq
        simp [Transaction.actionOn, heq] at hother
      obtain ⟨hsession, hadded⟩ := HumanAction.run_ok hrun
      refine writeBack_untouched now hwrite ?_ (.inl ?_) ?_ ?_
      · rw [hsession.nodeRuns, HumanAction.find?_write, if_neg hne.symm]
      · rw [hsession.tasks, List.take_length]
      · rw [hsession.tasks, hadded, List.append_nil]
        exact hbase.tasks
      · have hevents : session.events = action.events id := hsession.events
        rw [hevents]
        intro e he
        simp only [HumanAction.events, List.mem_cons, List.not_mem_nil, or_false] at he
        rcases he with rfl | rfl <;> simp [RunEvent.resolves, hne]
  | reconcile now caller =>
      cases caller with
      | action =>
          rw [htx] at hrun
          obtain ⟨m, hm, hsame⟩ := hrows.row
          have hid : m.nodeId = n.nodeId := Table.key_of_find? hm
          have hparked : m.Parked := by
            rcases hsame with rfl | hterminal
            · exact hn
            · exact .inl hterminal
          have hspares : Spares m { p.view.rows db with } :=
            .start hrows.nodup (hid ▸ hm) (hid ▸ hrows.tasks) rfl
          have hsession := (reconcileOn_spares hparked hspares
            fun ts hts ↦ hid ▸ h.tasks ts hts).of_ok hrun
          refine writeBack_untouched now hwrite ?_
            (reconcileOn_taken (fun hlocked ↦ h.cancels now htx hlocked db) hrun)
            (hid ▸ hsession.tasks) (hid ▸ hsession.events)
          exact (hid ▸ hsession.row).trans hm.symm
      | worker | other =>
          rw [htx] at hkind
          cases hkind
  | _ =>
      rw [htx] at hkind
      cases hkind

/-- The commit of an action on the NodeRun. -/
structure ActionCommitted (now : Time) (action : HumanAction) (n : NodeRun)
    (db db' : RunRecord) : Prop where
  waiting : findNodeRun db.nodeRuns n.nodeId = some n
  nodeIds : db'.nodeRuns.map NodeRun.nodeId = db.nodeRuns.map NodeRun.nodeId
  row : findNodeRun db'.nodeRuns n.nodeId = some (action.write now n)
  tasks : TasksEnded n.nodeId db.tasks → TasksEnded n.nodeId db'.tasks
  events : db'.events.filter (·.resolves n.nodeId) =
    db.events.filter (·.resolves n.nodeId) ++ action.events n.nodeId

theorem Standing.eq_of_waiting (h : Standing n db)
    (hwaiting : statusOf db.nodeRuns n.nodeId = some .waiting) :
    findNodeRun db.nodeRuns n.nodeId = some n := by
  obtain ⟨m, hm, rfl | hterminal⟩ := h.row
  · exact hm
  · rw [statusOf, hm, Option.map_some, Option.some.injEq] at hwaiting
    rw [hwaiting] at hterminal
    cases hterminal

theorem Sitting.Acts.commit_accepted (h : p.Acts env n db) (hrest : p.rest = [])
    (htx : p.tx = .human now n.nodeId action) (hdb : Standing n db)
    (hcommit : p.tx.commit env p.view db = .ok db') : ActionCommitted now action n db db' := by
  obtain ⟨session, hrun, hwrite⟩ := Transaction.commit_ok hcommit
  obtain ⟨hrows, hbase⟩ := h.standing hrest
  rw [htx] at hrun
  obtain ⟨hsession, hadded⟩ := HumanAction.run_ok hrun
  have hread : findNodeRun (Transaction.base p.view db).nodeRuns n.nodeId = some n :=
    hbase.eq_of_waiting hsession.waiting
  have hfresh : findNodeRun db.nodeRuns n.nodeId = some n := by
    apply hdb.eq_of_waiting
    obtain ⟨sn, hsn⟩ := h.exists_snapshot hrest
    rcases h.current now action htx with hmem | ⟨-, hcurrent⟩
    · simp [hrest] at hmem
    · apply hcurrent sn hsn
      rw [← hsession.waiting]
      simp [Transaction.base, View.rows, hsn]
  constructor
  · exact hfresh
  · rw [writeBack_nodeRuns hwrite]
    exact Merge.map_rows NodeRun.nodeId fun _ _ _ ↦ rfl
  · have hwritten : findNodeRun session.nodeRuns n.nodeId = some (action.write now n) := by
      rw [hsession.nodeRuns, HumanAction.find?_write, if_pos rfl, hread, Option.map_some]
    have hmerged : NodeRun.merge n (action.write now n) n = action.write now n := by
      simp [NodeRun.merge, HumanAction.write]
    have hkey : ∀ b m row, (NodeRun.merge b m row).nodeId = row.nodeId := fun _ _ _ ↦ rfl
    rw [writeBack_nodeRuns hwrite, findNodeRun, Merge.find?_rows hkey]
    unfold findNodeRun at hfresh hread hwritten
    rw [hfresh, hread, hwritten, Option.map_some]
    exact congrArg some hmerged
  · refine writeBack_tasksEnded now hwrite (.inl ?_) ?_
    · rw [hsession.tasks, List.take_length]
    · rw [hsession.tasks, hadded, List.append_nil]
      exact hbase.tasks
  · have hevents : session.events = action.events n.nodeId := hsession.events
    rw [writeBack_events hwrite, hevents, List.filter_append]
    congr 1
    cases action <;> simp [HumanAction.events, RunEvent.resolves, HumanAction.result, approval,
      rejection, submission]

/-! ## Runs -/

theorem Transaction.human_of_actionOn {tx : Transaction} (h : tx.actionOn id ≠ []) :
    ∃ now action, tx = .human now id action ∧ tx.actionOn id = [(now, action)] := by
  cases tx with
  | human now id' action =>
      by_cases heq : id' = id
      · subst heq
        exact ⟨now, action, rfl, if_pos rfl⟩
      · exact absurd (if_neg heq) h
  | _ => exact absurd rfl h

/-- A step commits one session, or leaves the rows as they are. -/
theorem LockStep.commits_or_not (env : Env) (id : NodeId) (step : LockStep) (s : LockWorld) :
    (step.accepted env id s = [] ∧ (step.exec env s).db = s.db) ∨
      ∃ sid p db', s.sittings sid = some p ∧ p.rest = [] ∧
        p.tx.commit env p.view s.db = .ok db' ∧ step.accepted env id s = p.tx.actionOn id ∧
          step.exec env s = ({ s with db := db' } : LockWorld).set sid none := by
  cases step with
  | begin | abort => exact .inl ⟨rfl, rfl⟩
  | next sid =>
      refine .inl ⟨rfl, ?_⟩
      unfold LockStep.exec
      dsimp only
      repeat' split
      all_goals rfl
  | commit sid =>
      unfold LockStep.exec LockStep.accepted
      dsimp only
      cases hp : s.sittings sid with
      | none => exact .inl ⟨rfl, rfl⟩
      | some p =>
          dsimp only
          cases hrest : p.rest with
          | cons stmt rest => exact .inl ⟨rfl, rfl⟩
          | nil =>
              cases hcommit : p.tx.commit env p.view s.db with
              | error e => exact .inl ⟨rfl, rfl⟩
              | ok db' => exact .inr ⟨sid, p, db', hp, hrest, hcommit, rfl, rfl⟩

/-- After the steps, the NodeRun has been written by the accepted actions alone. -/
structure ActionsApplied (env : Env) (db : RunRecord) (n : NodeRun)
    (actions : List (Time × HumanAction)) (s : LockWorld) : Prop where
  wellLocked : s.WellLocked
  sittings : s.All (Sitting.Acts env n)
  single : actions.length ≤ 1
  nodup : (s.db.nodeRuns.map NodeRun.nodeId).Nodup
  row : findNodeRun s.db.nodeRuns n.nodeId = some (writtenBy actions n)
  tasks : TasksEnded n.nodeId s.db.tasks
  events : s.db.events.filter (·.resolves n.nodeId) =
    db.events.filter (·.resolves n.nodeId) ++ actions.flatMap fun a ↦ a.2.events n.nodeId

theorem LockStep.Effect.acts (hw : s.WellLocked) (h : s.All (Sitting.Acts env n))
    (hdb : Standing n s.db) (hstep : ActionCurrent n.nodeId s step)
    (heffect : step.Effect env s s') : s'.All (Sitting.Acts env n) := by
  refine LockWorld.All.effect hw h heffect ?_ ?_ ?_
  · rintro tx rfl
    exact .start s.db hstep.1
  · rintro sid p stmt rest rfl hp hrest hacts
    refine hacts.advance hrest hdb fun hstmt now action sn htx hsn hwaiting ↦ ?_
    exact hstep.2 p now action sn hp htx (by rw [hrest, hstmt]; rfl) hsn hwaiting
  · rintro sid p db rfl - hrest - hacts q hdisjoint hq
    exact hacts.other hrest hdisjoint hq

namespace ActionsApplied

variable {actions : List (Time × HumanAction)}

theorem eq_nil_or_singleton (h : ActionsApplied env db n actions s) :
    actions = [] ∨ ∃ a, actions = [a] := by
  cases actions with
  | nil => exact .inl rfl
  | cons a rest =>
      have hnil : rest = [] := List.eq_nil_of_length_eq_zero (by simpa using h.single)
      exact .inr ⟨a, by rw [hnil]⟩

theorem standing (h : ActionsApplied env db n actions s) : Standing n s.db := by
  refine ⟨h.nodup, ⟨writtenBy actions n, h.row, ?_⟩, h.tasks⟩
  rcases h.eq_nil_or_singleton with rfl | ⟨a, rfl⟩
  · exact .inl rfl
  · exact .inr (a.2.write_terminal a.1 n)

/-- Rows that a commit does not touch. -/
theorem untouched (h : ActionsApplied env db n actions s) (hw : s'.WellLocked)
    (hacts : s'.All (Sitting.Acts env n)) (hkept : Untouched n.nodeId s.db s'.db) :
    ActionsApplied env db n actions s' where
  wellLocked := hw
  sittings := hacts
  single := h.single
  nodup := hkept.nodeIds ▸ h.nodup
  row := hkept.row.trans h.row
  tasks := hkept.tasks h.tasks
  events := hkept.events.trans h.events

theorem exec (h : ActionsApplied env db n actions s) (hn : n.AwaitsHuman)
    (hstep : ActionCurrent n.nodeId s step) :
    ActionsApplied env db n (actions ++ step.accepted env n.nodeId s) (step.exec env s) := by
  have heffect := step.exec_effect env s
  have hw := h.wellLocked.effect heffect
  have hacts := heffect.acts h.wellLocked h.sittings h.standing hstep
  rcases step.commits_or_not env n.nodeId s with ⟨hnone, hsame⟩ |
    ⟨sid, p, db', hp, hrest, hcommit, haccepted, hexec⟩
  · rw [hnone, List.append_nil]
    refine h.untouched hw hacts ?_
    rw [hsame]
    exact ⟨rfl, rfl, fun htasks ↦ htasks, rfl⟩
  · have hsitting := h.sittings sid p hp
    have hdb : (step.exec env s).db = db' := by
      rw [hexec]
      rfl
    by_cases hother : p.tx.actionOn n.nodeId = []
    · rw [haccepted, hother, List.append_nil]
      refine h.untouched hw hacts ?_
      rw [hdb]
      exact hsitting.commit_untouched hrest (.inr hn) hother hcommit
    · obtain ⟨now, action, htx, hon⟩ := Transaction.human_of_actionOn hother
      have hcommitted := hsitting.commit_accepted hrest htx h.standing hcommit
      have hfirst : actions = [] := by
        rcases h.eq_nil_or_singleton with hnil | ⟨a, rfl⟩
        · exact hnil
        · have hsame := h.row.symm.trans hcommitted.waiting
          have hterminal := a.2.write_terminal a.1 n
          rw [show a.2.write a.1 n = n from Option.some.inj hsame, hn.status] at hterminal
          cases hterminal
      subst hfirst
      rw [haccepted, hon]
      have hevents := h.events
      constructor
      · exact hw
      · exact hacts
      · exact Nat.le_refl 1
      · rw [hdb, hcommitted.nodeIds]
        exact h.nodup
      · rw [hdb]
        exact hcommitted.row
      · rw [hdb]
        exact hcommitted.tasks h.tasks
      · rw [hdb, hcommitted.events, hevents]
        simp

theorem execAll (steps : List LockStep) (h : ActionsApplied env db n actions s) (hn : n.AwaitsHuman)
    (hsteps : LockStep.AllAllowed env (ActionCurrent n.nodeId) steps s) :
    ActionsApplied env db n (actions ++ acceptedActions env n.nodeId steps s)
      (LockStep.execAll env steps s) := by
  induction steps generalizing actions s with
  | nil =>
      rw [acceptedActions, List.append_nil]
      exact h
  | cons step steps ih =>
      rw [acceptedActions, ← List.append_assoc]
      exact ih (h.exec hn hsteps.1) hsteps.2

theorem start (hdb : Reachable env db) (hn : n ∈ db.nodeRuns) (hawaits : n.AwaitsHuman) :
    ActionsApplied env db n [] { db := db } := by
  have hc := hdb.coupled
  have hfind := hc.findNodeRun_eq_some_iff.mpr ⟨hn, rfl⟩
  obtain ⟨t, ht, hcompleted⟩ := hc.waiting_task hfind hawaits.status
  refine ⟨LockWorld.wellLocked_start db, LockWorld.all_start _ db, Nat.zero_le 1, hc.nodeIds_nodup,
    hfind, fun u hu hid ↦ ?_, by simp⟩
  cases ht.symm.trans (hc.taskOfNode_eq_some_iff.mpr ⟨hu, hid⟩)
  rw [hcompleted]
  rfl

/-- A request that holds the lock on the NodeRun after an action has been committed. -/
theorem refused (h : ActionsApplied env db n actions s) (hactions : actions ≠ []) {sid : ℕ}
    (hp : s.sittings sid = some p) (htx : p.tx = .human now n.nodeId action) (hrest : p.rest = []) :
    (∃ e, p.tx.commit env p.view s.db = .error (.relayvia e) ∧ e.code = "NODE_RUN_NOT_WAITING") ∧
      ((LockStep.commit sid).exec env s).db = s.db := by
  have hsitting := h.sittings sid p hp
  obtain ⟨a, rfl⟩ := h.eq_nil_or_singleton.resolve_left hactions
  obtain ⟨m, hm, -⟩ := (hsitting.standing hrest).2.row
  have hstatus : m.status ≠ .waiting := by
    intro hwaiting
    obtain ⟨sn, hsn⟩ := hsitting.exists_snapshot hrest
    have hread : statusOf sn.nodeRuns n.nodeId = some .waiting := by
      have hbase : (Transaction.base p.view s.db).nodeRuns = sn.nodeRuns := by
        simp [Transaction.base, View.rows, hsn]
      rw [statusOf, ← hbase, hm, Option.map_some, hwaiting]
    rcases hsitting.current now action htx with hmem | ⟨-, hcurrent⟩
    · simp [hrest] at hmem
    · have hcommitted := hcurrent sn hsn hread
      have hterminal := a.2.write_terminal a.1 n
      rw [statusOf, h.row, Option.map_some, Option.some.injEq] at hcommitted
      rw [show (a.2.write a.1 n).status = .waiting from hcommitted] at hterminal
      cases hterminal
  obtain ⟨e, he, hcode⟩ := action.apply_refused env now hm hstatus
  have hcommit : p.tx.commit env p.view s.db = .error (.relayvia e) := by
    have hrun : p.tx.run env p.view s.db = .error (.relayvia e) := by
      rw [htx]
      exact Outcome.map_eq_error_iff.mpr he
    rw [Transaction.commit, hrun]
    rfl
  refine ⟨⟨e, hcommit, hcode⟩, ?_⟩
  unfold LockStep.exec
  simp only [hp, hrest, hcommit]
  rfl

end ActionsApplied

/-- In every run of requests in which each action finds the NodeRun WAITING that it has
loaded as WAITING, at most one action takes effect, and the later ones fail. -/
theorem one_action_wins (hdb : Reachable env db) (hn : n ∈ db.nodeRuns) (hawaits : n.AwaitsHuman)
    (steps : List LockStep)
    (hsteps : LockStep.AllAllowed env (ActionCurrent n.nodeId) steps { db := db }) :
    OneActionWins env db n (acceptedActions env n.nodeId steps { db := db })
      (LockStep.execAll env steps { db := db }) := by
  have h := (ActionsApplied.start hdb hn hawaits).execAll steps hawaits hsteps
  rw [List.nil_append] at h
  constructor
  · exact h.single
  · exact h.row
  · exact h.events
  · intro hactions sid p now action hp htx hrest
    exact h.refused hactions hp htx hrest

/-- The run of the approval, which waits. -/
def waitingRun : RunRecord :=
  match execAll plainEnv approvalOps approvalRun with
  | .ok db => db
  | .error _ => approvalRun

theorem reachable_waitingRun : Reachable plainEnv waitingRun := by
  have hexec : execAll plainEnv approvalOps approvalRun = .ok waitingRun := rfl
  exact .execAll (fun _ _ _ ↦ trivial) (.created createRun_approvalRun) hexec

theorem exists_waiting : ∃ n ∈ waitingRun.nodeRuns, n.nodeId = "ask" ∧ n.AwaitsHuman :=
  ⟨_, List.mem_cons_of_mem _ List.mem_cons_self, rfl, rfl, rfl, by decide⟩

/-- The rejection comes after the approval. -/
def approveThenReject : List LockStep :=
  [.begin (.human 0 "ask" .approve), .next 0, .next 0, .next 0, .commit 0,
    .begin (.human 1 "ask" .reject), .next 1, .next 1, .next 1, .commit 1]

theorem one_action_wins_waitingRun : ∃ n ∈ waitingRun.nodeRuns, n.AwaitsHuman ∧
    OneActionWins plainEnv waitingRun n
      (acceptedActions plainEnv n.nodeId approveThenReject { db := waitingRun })
      (LockStep.execAll plainEnv approveThenReject { db := waitingRun }) := by
  obtain ⟨n, hn, hid, hawaits⟩ := exists_waiting
  have hsteps : LockStep.AllAllowed plainEnv (ActionCurrent n.nodeId) approveThenReject
      { db := waitingRun } := by
    rw [hid]
    refine ⟨⟨rfl, trivial⟩, ⟨trivial, ?_⟩, ⟨trivial, ?_⟩, ⟨trivial, ?_⟩, ⟨trivial, trivial⟩,
      ⟨rfl, trivial⟩, ⟨trivial, ?_⟩, ⟨trivial, ?_⟩, ⟨trivial, ?_⟩, ⟨trivial, trivial⟩, trivial⟩
    all_goals
      intro p now action sn hp htx hhead hsn hwaiting
      cases hp
    · cases hhead
    · cases hhead
    · rfl
    · cases hhead
    · cases hhead
    · cases hsn
      cases hwaiting
  exact ⟨n, hn, hawaits, one_action_wins reachable_waitingRun hn hawaits approveThenReject hsteps⟩

/-- Both requests load the NodeRun before the approval commits. -/
def approveAndReject : List LockStep :=
  [.begin (.human 0 "ask" .approve), .begin (.human 1 "ask" .reject), .next 0, .next 1,
    .next 0, .next 0, .commit 0, .next 1, .next 1, .commit 1]

/-- Both are accepted. -/
theorem not_one_action_wins : ∃ db n steps, Reachable plainEnv db ∧ n ∈ db.nodeRuns ∧
    n.AwaitsHuman ∧ LockStep.AllAllowed plainEnv LockStep.OfActions steps { db := db } ∧
      ¬OneActionWins plainEnv db n (acceptedActions plainEnv n.nodeId steps { db := db })
        (LockStep.execAll plainEnv steps { db := db }) := by
  obtain ⟨n, hn, hid, hawaits⟩ := exists_waiting
  have hrequests : LockStep.AllAllowed plainEnv LockStep.OfActions approveAndReject
      { db := waitingRun } :=
    ⟨rfl, rfl, trivial, trivial, trivial, trivial, trivial, trivial, trivial, trivial, trivial⟩
  have htwo : (acceptedActions plainEnv "ask" approveAndReject { db := waitingRun }).length = 2 := rfl
  refine ⟨waitingRun, n, approveAndReject, reachable_waitingRun, hn, hawaits, hrequests, fun h ↦ ?_⟩
  have hone := h.single
  rw [hid, htwo] at hone
  omega

end Relayvia
