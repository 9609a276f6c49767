import Relayvia.Concurrency.Updates
import Relayvia.Library.Schedule
import Relayvia.Library.WaitFor

/-!
# The order of the row locks

Each transaction on one run as the sequence of the row locks that it requests: its
locking reads, and what its flushes write.  The INSERT of an event, a task or a workspace
takes a shared lock on the rows of the run and of the node that it refers to.
-/

namespace Relayvia

open WaitFor (Request)

variable {env : Env} {view : View} {db : RunRecord} {tx : Transaction}

/-! ## Flushes -/

def exclusive (row : RowLock) : Request RowLock where
  row := row
  mode := .exclusive

/-- The foreign keys of an inserted row. -/
def parents (node : Option NodeId) : List (Request RowLock) :=
  { row := .run, mode := .shared } ::
    (node.map fun id ↦ { row := .node id, mode := .shared }).toList

/-- The columns of the run that a session may write. -/
def runColumns (run : WorkflowRun) :=
  (run.status, run.waitingReason, run.startedAt, run.finishedAt, run.pausedAt, run.cancelledAt)

/-- `UPDATE execution_tasks`. -/
def taskUpdates (base : RunRecord) (s : Session) : List (Request RowLock) :=
  ((base.tasks.zip s.tasks).filter fun (old, new) ↦ old ≠ new).map fun (old, _) ↦
    exclusive (.task old.id)

/-- The other statements of a flush, in their order. -/
def flushWrites (base : RunRecord) (s : Session) : List (Request RowLock) :=
  (insertedTasks base s).flatMap (fun task ↦ parents (some task.nodeRunId)) ++
    s.events.flatMap (fun event ↦ parents event.nodeRunId) ++
    (if runColumns s.run = runColumns base.run then [] else [exclusive .run]) ++
    s.workspaces.flatMap (fun workspace ↦ parents (some workspace.nodeRunId)) ++
    ((base.nodeRuns.zip s.nodeRuns).filter fun (old, new) ↦ old ≠ new).map fun (old, _) ↦
      exclusive (.node old.nodeId)

/-- The sessions that `create_workspace` flushes while the loop schedules. -/
def workspaceFlushes (env : Env) (now : Time) : Session → List NodeId → List Session
  | _, [] => []
  | s, id :: ids =>
      match scheduleNode env now s id with
      | .ok (some s') =>
          let input := ((findNodeRun s'.nodeRuns id).map NodeRun.input).getD []
          let flushed :=
            if s.workspaces.length < s'.workspaces.length then
              [{ s with
                workspaces := s'.workspaces
                nodeRuns := Table.modify NodeRun.nodeId id (fun r ↦ { r with input }) s.nodeRuns }]
            else []
          flushed ++ workspaceFlushes env now s' ids
      | .ok none => workspaceFlushes env now s ids
      | .error _ => []

/-- The sessions that `schedule_ready_nodes` flushes in a RUNNING run. -/
def schedulingFlushes (env : Env) (now : Time) (s : Session) : List Session :=
  let s := skipInactive now s
  workspaceFlushes env now s (findReadyNodes s.run.graph.toWorkflowGraph s.nodeRuns)

/-- The flushes of a reconciliation before it derives the status. -/
def reconcileFlushes (env : Env) (now : Time) (rows : RunRecord) : List Session :=
  match rows.run.status, promoteDueWaits env now { rows with } with
  | .running, .ok s => schedulingFlushes env now s
  | _, _ => []

/-- Its flushes after it has derived RUNNING. -/
def finishFlushes (env : Env) (now : Time) (rows : RunRecord) : List Session :=
  match rows.run.status with
  | .cancelled | .completed | .failed | .paused => []
  | current =>
      match reconcileDerive env now { rows with } with
      | .ok (.running, s) => schedulingFlushes env now (recordDerived now current .running s)
      | _ => []

/-! ## Transactions -/

namespace Transaction

/-- The requests that fight for the rows of a run under way. -/
def competes : Transaction → Bool
  | claim .. | start .. | complete .. | fail .. | waitNode .. | scheduleRetry ..
  | renewLease .. | runnerClaim .. | runnerTaskHeartbeat .. | runnerSubmit .. | cancelRun ..
  | reconcile .. | human .. => true
  | _ => false

/-- `FOR UPDATE SKIP LOCKED`. -/
def skipsLocked : Transaction → Bool
  | claim .. | runnerClaim .. => true
  | _ => false

/-- What the flushes of `create_workspace` request.  A later one requests the rows of the
earlier ones again, which the transaction holds by then. -/
def flushRequests (view : View) (db : RunRecord) (flushes : List Session) :
    List (Request RowLock) :=
  flushes.flatMap (flushWrites (base view db))

/-- The requests of a statement of the script, and of the flushes before it. -/
def requests (env : Env) (view : View) (db : RunRecord) (tx : Transaction) (stmt : Statement) :
    List (Request RowLock) :=
  match stmt with
  | .lockTask id => [{ row := .task id, mode := .exclusive, skips := tx.skipsLocked }]
  | .lockTasksOfFailed now =>
      flushRequests view db (reconcileFlushes env now (view.rows db)) ++
        (stmt.locks env view db).map exclusive
  | _ => (stmt.locks env view db).map exclusive

/-- The sessions that it flushes between its last statement and the commit. -/
def lateFlushes (env : Env) (view : View) (db : RunRecord) : Transaction → List Session
  | .reconcile now _ => finishFlushes env now (view.rows db)
  | _ => []

/-- The commit updates the changed tasks first; an exception rolls the session back. -/
def updates (env : Env) (view : View) (db : RunRecord) (tx : Transaction) :
    List (Request RowLock) :=
  match tx.run env view db with
  | .ok s => taskUpdates (base view db) s
  | .error _ => []

def writes (env : Env) (view : View) (db : RunRecord) (tx : Transaction) :
    List (Request RowLock) :=
  match tx.run env view db with
  | .ok s => flushWrites (base view db) s
  | .error _ => []

/-- The requests after the last statement. -/
def closing (env : Env) (view : View) (db : RunRecord) (tx : Transaction) :
    List (Request RowLock) :=
  flushRequests view db (tx.lateFlushes env view db) ++ tx.updates env view db ++
    tx.writes env view db

/-- The requests of the statements `script` and of the commit.  `rows n` are the rows
committed when statement `n` is executed. -/
def acquire (env : Env) (tx : Transaction) :
    View → List Statement → (ℕ → RunRecord) → List (Request RowLock)
  | view, [], rows => tx.closing env view (rows 0)
  | view, stmt :: script, rows =>
      tx.requests env view (rows 0) stmt ++
        acquire env tx (stmt.read env view (rows 0)) script fun n ↦ rows (n + 1)

def acquisitions (env : Env) (rows : ℕ → RunRecord) (tx : Transaction) :
    List (Request RowLock) :=
  tx.acquire env {} tx.script rows

end Transaction

/-! ## The order -/

/-- `WorkflowRun → ExecutionTask → NodeRun`. -/
def RowLock.level : RowLock → ℕ
  | .run => 0
  | .task _ => 1
  | .node _ => 2

/-- A row that is locked for the first time is of no earlier table than those before it. -/
def LockOrdered (rows : List RowLock) : Prop :=
  ∀ before row after, rows = before ++ row :: after →
    row ∈ before ∨ ∀ row' ∈ before, row'.level ≤ row.level

/-- The lease on the task is alive, the task may become `target`, and its node is in order. -/
def Accepts (db : RunRecord) (now : Time) (task : TaskId) (workerId leaseToken : String)
    (target : ExecutionTaskStatus) (legal : NodeId → Prop) : Prop :=
  ∃ t, findTask db.tasks task = some t ∧ owns now workerId leaseToken t = true ∧
    target ∈ t.status.transitions ∧ legal t.nodeRunId

/-- A report that locks only its task is accepted: its lease is alive, and the task and
its node may take the new status. -/
def Transaction.Reports (rows : ℕ → RunRecord) : Transaction → Prop
  | .complete now task workerId leaseToken .. =>
      Accepts (rows 0) now task workerId leaseToken .completed fun id ↦
        ∀ n, findNodeRun (rows 1).nodeRuns id = some n → .completed ∈ n.status.transitions
  | .fail now task workerId leaseToken .. =>
      Accepts (rows 0) now task workerId leaseToken .failed fun id ↦
        ∀ n, findNodeRun (rows 1).nodeRuns id = some n →
          n.status.isTerminal = true ∨ .failed ∈ n.status.transitions
  | .waitNode now task workerId leaseToken _ waitingMetadata =>
      Accepts (rows 0) now task workerId leaseToken .completed fun id ↦
        (∀ n, findNodeRun (rows 1).nodeRuns id = some n → .waiting ∈ n.status.transitions) ∧
          ¬waitingMetadata.any (·.1 ∈ reservedTraceKeywords)
  | .scheduleRetry now task workerId leaseToken _ =>
      Accepts (rows 0) now task workerId leaseToken .retryWait fun id ↦
        ∀ n, findNodeRun (rows 1).nodeRuns id = some n →
          n.status = .retrying ∨ .retrying ∈ n.status.transitions
  | _ => False

/-- The rows that a reconciliation works on. -/
def Caller.reads (rows : ℕ → RunRecord) (caller : Caller) : RunRecord :=
  let (run, snapshot) :=
    match caller with
    | .worker => ((rows 0).run, rows 2)
    | .action => ((rows 0).run, rows 0)
    | .other => ((rows 1).run, rows 0)
  { run := run, nodeRuns := snapshot.nodeRuns, tasks := snapshot.tasks }

/-- The tasks that it finds when it locks them. -/
def Caller.tasksLocked (rows : ℕ → RunRecord) : Caller → List ExecutionTask
  | .worker => (rows 3).tasks
  | .action | .other => (rows 4).tasks

/-- A reconciliation creates a workspace, derives FAILED and finds tasks. -/
def Transaction.LocksTasksLate (env : Env) (rows : ℕ → RunRecord) : Transaction → Prop
  | .reconcile now caller =>
      reconcileFlushes env now (caller.reads rows) ≠ [] ∧
        derivesFailed env now (caller.reads rows) = true ∧ caller.tasksLocked rows ≠ []
  | _ => False

/-! ## Ordered sequences -/

theorem LockOrdered.of_tasks {rows : List RowLock} (h : ∀ row ∈ rows, row.level = 1) :
    LockOrdered rows := by
  rintro before row after rfl
  right
  intro row' hrow'
  have hlevel := h row' (List.mem_append_left _ hrow')
  have hlevel' := h row (List.mem_append_right _ List.mem_cons_self)
  omega

/-- The run, tasks, and then rows of the run and of nodes. -/
theorem LockOrdered.of_run {tasks rows : List RowLock} (htasks : ∀ row ∈ tasks, row.level = 1)
    (hrows : ∀ row ∈ rows, row.level ≠ 1) : LockOrdered (.run :: (tasks ++ rows)) := by
  intro before row after heq
  cases before with
  | nil =>
      right
      intro row' hrow'
      cases hrow'
  | cons first before =>
      obtain ⟨rfl, hrest⟩ := List.cons.inj heq
      cases hlevel : row with
      | run => exact .inl List.mem_cons_self
      | node id =>
          right
          intro row' _
          cases row' with
          | run | task | node => simp [RowLock.level]
      | task id =>
          right
          intro row' hrow'
          rcases List.mem_cons.mp hrow' with rfl | hrow'
          · exact Nat.zero_le _
          · have hbefore : row' ∈ tasks := by
              rcases List.append_eq_append_iff.mp hrest with ⟨mid, hmid, hrest⟩ | ⟨mid, hmid, hrest⟩
              · cases mid with
                | nil =>
                    rw [hmid, List.append_nil] at hrow'
                    exact hrow'
                | cons q mid =>
                    have hmem : row ∈ rows := by
                      rw [hrest]
                      simp
                    exact absurd (by rw [hlevel]; rfl) (hrows row hmem)
              · rw [hmid]
                exact List.mem_append_left _ hrow'
            rw [htasks row' hbefore]
            exact Nat.le_refl _

/-- A row of an earlier table comes first after one of a later table. -/
theorem LockOrdered.not_of_late {rows before after : List RowLock} {early late : RowLock}
    (hrows : rows = before ++ early :: after) (hnew : early ∉ before) (hlate : late ∈ before)
    (hlevel : early.level < late.level) : ¬LockOrdered rows := by
  intro hordered
  rcases hordered before early after hrows with hmem | hall
  · exact hnew hmem
  · have hle := hall late hlate
    omega

theorem not_ordered_of_split {rows first second : List RowLock} {n : ℕ} {late : RowLock}
    (hrows : rows = first ++ second) (hfirst : ∀ row ∈ first, row.level ≠ n) (hlate : late ∈ first)
    (hn : n < late.level) (hsecond : ∃ row ∈ second, row.level = n) : ¬LockOrdered rows := by
  induction second generalizing first with
  | nil =>
      obtain ⟨row, hrow, -⟩ := hsecond
      cases hrow
  | cons row second ih =>
      by_cases hrow : row.level = n
      · apply LockOrdered.not_of_late hrows _ hlate (by omega)
        intro hmem
        exact hfirst row hmem hrow
      · apply @ih (first ++ [row])
        · rw [hrows, List.append_assoc]
          rfl
        · intro row' hrow'
          rcases List.mem_append.mp hrow' with hmem | hmem
          · exact hfirst row' hmem
          · rwa [List.mem_singleton.mp hmem]
        · exact List.mem_append_left _ hlate
        · obtain ⟨row', hrow', hlevel⟩ := hsecond
          rcases List.mem_cons.mp hrow' with rfl | hmem
          · exact absurd hlevel hrow
          · exact ⟨row', hmem, hlevel⟩

/-! ## The rows of a flush -/

variable {base rows : RunRecord} {s s' : Session} {now : Time}

theorem level_parents {node : Option NodeId} : ∀ r ∈ parents node, r.row.level ≠ 1 := by
  intro r hr
  rcases List.mem_cons.mp hr with rfl | hr
  · exact Nat.zero_ne_one
  · obtain ⟨id, -, rfl⟩ := Option.map_eq_some_iff.mp (Option.mem_toList.mp hr)
    exact Nat.succ_ne_self 1

theorem level_flushWrites : ∀ r ∈ flushWrites base s, r.row.level ≠ 1 := by
  intro r hr
  simp only [flushWrites, List.mem_append, List.mem_flatMap, List.mem_map] at hr
  rcases hr with (((⟨_, -, hr⟩ | ⟨_, -, hr⟩) | hr) | ⟨_, -, hr⟩) | ⟨p, -, rfl⟩
  · exact level_parents r hr
  · exact level_parents r hr
  · split at hr
    · cases hr
    · rw [List.mem_singleton.mp hr]
      exact Nat.zero_ne_one
  · exact level_parents r hr
  · exact Nat.succ_ne_self 1

theorem level_taskUpdates : ∀ r ∈ taskUpdates base s, r.row.level = 1 := by
  intro r hr
  obtain ⟨p, -, rfl⟩ := List.mem_map.mp hr
  rfl

theorem zip_map_self {α β : Type} (xs : List α) (g : α → β) :
    xs.zip (xs.map g) = xs.map fun x ↦ (x, g x) := by
  rw [List.zip, List.zipWith_map_right, List.zipWith_self]

theorem zip_self {α : Type} (xs : List α) : xs.zip xs = xs.map fun x ↦ (x, x) := by
  have h := zip_map_self xs fun x ↦ x
  rwa [List.map_id'] at h

/-- A session that only adds tasks updates none. -/
theorem taskUpdates_of_kept (h : s.tasks.take base.tasks.length = base.tasks) :
    taskUpdates base s = [] := by
  have hzip : base.tasks.zip s.tasks = base.tasks.zip base.tasks := by
    conv_lhs => rw [← List.take_append_drop base.tasks.length s.tasks, h]
    rw [← List.append_nil base.tasks, List.zip_append (by simp), List.zip_nil_left]
    simp
  simp [taskUpdates, hzip, zip_self]

theorem taskUpdates_modify {id : TaskId} {f : ExecutionTask → ExecutionTask}
    (h : s.tasks = Table.modify ExecutionTask.id id f base.tasks) :
    ∀ r ∈ taskUpdates base s, r = exclusive (.task id) := by
  intro r hr
  rw [taskUpdates, h, Table.modify, zip_map_self, List.filter_map, List.map_map] at hr
  obtain ⟨t, ht, rfl⟩ := List.mem_map.mp hr
  have hne := (List.mem_filter.mp ht).2
  by_cases heq : t.id = id
  · simp [heq]
  · simp [heq] at hne

/-- Only the tasks have changed. -/
theorem flushWrites_of_kept (hlength : s.tasks.length = base.tasks.length) (hadded : s.added = [])
    (hevents : s.events = []) (hrun : s.run = base.run) (hworkspaces : s.workspaces = [])
    (hnodes : s.nodeRuns = base.nodeRuns) : flushWrites base s = [] := by
  simp [flushWrites, insertedTasks, ← hlength, hadded, hevents, hrun, hworkspaces, hnodes, zip_self]

theorem run_mem_flushWrites (h : s.events ≠ []) : ∃ r ∈ flushWrites base s, r.row = .run := by
  obtain ⟨event, events, hcons⟩ := List.exists_cons_of_ne_nil h
  exact ⟨{ row := .run, mode := .shared }, by simp [flushWrites, hcons, parents], rfl⟩

theorem level_of_workspace (h : s.workspaces ≠ []) :
    ∃ r ∈ flushWrites base s, r.row.level = 2 := by
  obtain ⟨workspace, workspaces, hcons⟩ := List.exists_cons_of_ne_nil h
  exact ⟨{ row := .node workspace.nodeRunId, mode := .shared },
    by simp [flushWrites, hcons, parents], rfl⟩

theorem workspaces_of_flush {ids : List NodeId} :
    ∀ flushed ∈ workspaceFlushes env now s ids, flushed.workspaces ≠ [] := by
  induction ids generalizing s with
  | nil =>
      intro flushed hmem
      cases hmem
  | cons id ids ih =>
      intro flushed hmem
      rw [workspaceFlushes] at hmem
      split at hmem
      · rcases List.mem_append.mp hmem with hfirst | hrest
        · split at hfirst
          · next hlt =>
            rw [List.mem_singleton.mp hfirst]
            exact List.ne_nil_of_length_pos (Nat.zero_lt_of_lt hlt)
          · cases hfirst
        · exact ih flushed hrest
      · exact ih flushed hmem
      · cases hmem

theorem workspaces_of_reconcileFlush :
    ∀ flushed ∈ reconcileFlushes env now rows, flushed.workspaces ≠ [] := by
  intro flushed hmem
  unfold reconcileFlushes at hmem
  split at hmem
  · exact workspaces_of_flush flushed hmem
  · cases hmem

namespace Transaction

theorem level_flushRequests {flushes : List Session} :
    ∀ r ∈ flushRequests view db flushes, r.row.level ≠ 1 := by
  intro r hr
  obtain ⟨flushed, -, hr⟩ := List.mem_flatMap.mp hr
  exact level_flushWrites r hr

theorem level_updates : ∀ r ∈ tx.updates env view db, r.row.level = 1 := by
  intro r hr
  unfold updates at hr
  split at hr
  · exact level_taskUpdates r hr
  · cases hr

theorem level_writes : ∀ r ∈ tx.writes env view db, r.row.level ≠ 1 := by
  intro r hr
  unfold writes at hr
  split at hr
  · exact level_flushWrites r hr
  · cases hr

end Transaction

end Relayvia
