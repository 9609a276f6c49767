import Relayvia.Library.Locking
import Relayvia.Library.Merge
import Relayvia.Runners

/-!
# Interleaved transactions

The transactions on one run by their reads, row locks and commits, under REPEATABLE READ:
the snapshot of a session is fixed at its first non-locking read, and later ones see it;
a locking read sees the rows committed last, but an object that the session has loaded
keeps its attributes.  Locks are held to the commit, which writes the changed columns.
-/

namespace Relayvia

inductive RowLock where
  | run
  | node (id : NodeId)
  | task (id : TaskId)
  deriving DecidableEq

/-- What a session has read. -/
structure View where
  /-- the rows committed at the first non-locking read -/
  snapshot : Option RunRecord := none
  /-- the WorkflowRun in the identity map -/
  run : Option WorkflowRun := none
  /-- the ExecutionTasks that a locking read has returned -/
  tasks : Option (List ExecutionTask) := none

namespace View

def pin (db : RunRecord) (view : View) : View :=
  { view with snapshot := view.snapshot.or (some db) }

/-- The rows that the session works on. -/
def rows (view : View) (db : RunRecord) : RunRecord :=
  let snapshot := view.snapshot.getD db
  { run := view.run.getD snapshot.run
    nodeRuns := snapshot.nodeRuns
    tasks := snapshot.tasks }

/-- `rows` with the tasks of the locking read; those after the first `n` are flushed by
the session itself. -/
def relock (view : View) (n : ℕ) (s : Session) : Session :=
  { s with tasks := view.tasks.getD (s.tasks.take n) ++ s.tasks.drop n }

end View

/-! ## Statements -/

inductive Statement where
  /-- a non-locking SELECT -/
  | select
  /-- `run.id`, which loads the row again after a commit -/
  | loadRun
  | lockRun
  | lockNode (id : NodeId)
  | lockTask (id : TaskId)
  /-- a locking read of a task that the session has loaded -/
  | lockLoadedTask (id : TaskId)
  /-- `FOR UPDATE SKIP LOCKED`, which returns the tasks `ids` -/
  | lockSomeTasks (ids : List TaskId)
  | lockTasks
  /-- `cancel_run_tasks` of a reconciliation of a CANCELLED run -/
  | lockTasksOfCancelled
  /-- `cancel_run_tasks` of a reconciliation that derives FAILED -/
  | lockTasksOfFailed (now : Time)
  deriving DecidableEq

/-- The reconciliation has derived FAILED. -/
def derivesFailed (env : Env) (now : Time) (rows : RunRecord) : Bool :=
  match rows.run.status with
  | .cancelled | .completed | .failed | .paused => false
  | _ =>
      match reconcileDerive env now { rows with } with
      | .ok (derived, _) => derived = .failed
      | .error _ => false

namespace Statement

/-- The statement locks all tasks of the run. -/
def locksTasks (env : Env) (view : View) (db : RunRecord) : Statement → Bool
  | lockTasks => true
  | lockTasksOfCancelled => (view.rows db).run.status = .cancelled
  | lockTasksOfFailed now => derivesFailed env now (view.rows db)
  | _ => false

def locks (env : Env) (view : View) (db : RunRecord) (stmt : Statement) : List RowLock :=
  match stmt with
  | lockRun => [.run]
  | lockNode id => [.node id]
  | lockTask id | lockLoadedTask id => [.task id]
  | lockSomeTasks ids => ids.map .task
  | _ => if stmt.locksTasks env view db then db.tasks.map fun t ↦ .task t.id else []

/-- What the session has read after the statement. -/
def read (env : Env) (view : View) (db : RunRecord) (stmt : Statement) : View :=
  match stmt with
  | select => view.pin db
  | loadRun =>
      { view.pin db with run := view.run.or ((view.pin db).snapshot.map RunRecord.run) }
  | lockRun => { view with run := view.run.or (some db.run) }
  -- the row is in the identity map
  | lockNode _ | lockLoadedTask _ => view
  | lockTask id => { view with tasks := some (db.tasks.filter (·.id = id)) }
  | lockSomeTasks ids => { view with tasks := some (db.tasks.filter (·.id ∈ ids)) }
  | _ => if stmt.locksTasks env view db then { view with tasks := some db.tasks } else view

end Statement

/-! ## Transactions -/

inductive HumanAction where
  | approve
  | reject
  | submit (input : Dict)

/-- Who calls `reconcile_run`: a Worker in a new session, an action in its second
transaction, or a session that has read other rows before (recovery, `runner_submit`). -/
inductive Caller where
  | worker
  | action
  | other
  deriving DecidableEq

inductive Transaction where
  | startRun (now : Time)
  | scheduleStarted (now : Time)
  | pauseRun (now : Time)
  | resumeRun
  | reconcile (now : Time) (caller : Caller)
  | cancelRun (now : Time)
  | human (now : Time) (id : NodeId) (action : HumanAction)
  | complete (now : Time) (task : TaskId) (workerId leaseToken : String)
      (output executionMetadata : Dict) (artifacts : List Json)
  | fail (now : Time) (task : TaskId) (workerId leaseToken : String)
      (error executionMetadata : Dict) (artifacts : List Json)
  | waitNode (now : Time) (task : TaskId) (workerId leaseToken : String)
      (waitingReason : String) (waitingMetadata : Dict)
  | scheduleRetry (now : Time) (task : TaskId) (workerId leaseToken : String)
      (backoffSeconds : ℕ)
  | claim (now : Time) (workerId leaseToken : String) (leaseSeconds : ℕ)
      (capabilities : Option (List String)) (autoStart : Bool) (task : TaskId)
  | start (now : Time) (task : TaskId) (workerId leaseToken : String)
  | renewLease (now : Time) (task : TaskId) (workerId leaseToken : String) (leaseSeconds : ℕ)
  | recoverExpired (now : Time) (tasks : List TaskId)
  | promoteDueRetries (now : Time) (tasks : List TaskId)
  | runnerClaim (now : Time) (runner : Runner) (leaseToken : String) (leaseSeconds : ℕ)
      (task : TaskId)
  | runnerTaskHeartbeat (now : Time) (runner : Runner) (task : TaskId) (leaseToken : String)
      (leaseSeconds : ℕ)
  | runnerSubmit (now : Time) (runnerId : String) (task : TaskId) (leaseToken : String)
      (result : Dict)

/-- The first transaction of a human action. -/
def HumanAction.apply (env : Env) (now : Time) (id : NodeId) (action : HumanAction)
    (db : RunRecord) : Except Raised RunRecord :=
  match action with
  | .approve => approveNodeRun now id db
  | .reject => rejectNodeRun now id db
  | .submit input => submitNodeRun env now id input db

/-- `reconcile_run` on the rows of its session. -/
def reconcileOn (env : Env) (now : Time) (view : View) (rows : RunRecord) :
    Except Raised Session :=
  let relock := view.relock rows.tasks.length
  match rows.run.status with
  | .cancelled => return cancelRunTasks now (relock { rows with })
  | .completed | .failed | .paused => return { rows with }
  | current => do
      let (derived, s) ← reconcileDerive env now { rows with }
      reconcileFinish env now current derived (if derived = .failed then relock s else s)

namespace Transaction

def script : Transaction → List Statement
  | startRun _ | pauseRun _ | resumeRun => [.lockRun]
  | scheduleStarted _ => [.loadRun, .lockRun, .select]
  | reconcile now caller =>
      let first : List Statement :=
        match caller with
        | .worker => []
        | .action => [.loadRun]
        | .other => [.select]
      first ++ [.lockRun, .lockTasksOfCancelled, .select, .lockTasksOfFailed now]
  | cancelRun _ => [.lockRun, .select, .lockTasks]
  | human _ id _ => [.select, .lockRun, .lockNode id]
  | complete _ task .. | fail _ task .. | waitNode _ task .. | scheduleRetry _ task .. =>
      [.lockTask task, .select]
  | claim _ _ _ _ _ _ task | runnerClaim _ _ _ _ task | runnerSubmit _ _ task .. =>
      [.select, .lockRun, .lockTask task]
  | start _ task .. | runnerTaskHeartbeat _ _ task .. =>
      [.select, .lockRun, .lockLoadedTask task]
  | renewLease _ task .. => [.lockTask task]
  | recoverExpired _ tasks => [.lockSomeTasks tasks]
  | promoteDueRetries _ tasks => [.lockSomeTasks tasks, .select]

/-- The rows as the session has loaded them, before it changes any. -/
def base (view : View) (db : RunRecord) : RunRecord :=
  { view.rows db with tasks := view.tasks.getD (view.rows db).tasks }

/-- The session before its commit. -/
def run (env : Env) (view : View) (db : RunRecord) (tx : Transaction) : Except Raised Session :=
  let base := base view db
  let session (x : Except Raised RunRecord) : Except Raised Session := x.map fun rows ↦ { rows with }
  let reported (x : Except Raised (Bool × RunRecord)) : Except Raised Session :=
    x.map fun (_, rows) ↦ { rows with }
  match tx with
  | startRun now => session (Relayvia.startRun now base)
  | scheduleStarted now => scheduleReadyNodes env now { base with }
  | pauseRun now => session (Relayvia.pauseRun now base)
  | resumeRun => session (Relayvia.resumeRun base)
  | reconcile now _ => reconcileOn env now view (view.rows db)
  | cancelRun now => do
      let rows ← cancelRunStatus now base
      return cancelRunTasks now { cancelOpenNodes now rows with }
  | human now id action => session (action.apply env now id base)
  | complete now task workerId leaseToken output executionMetadata artifacts =>
      reported (Relayvia.complete now task workerId leaseToken output executionMetadata artifacts base)
  | fail now task workerId leaseToken error executionMetadata artifacts =>
      reported (Relayvia.fail now task workerId leaseToken error executionMetadata artifacts base)
  | waitNode now task workerId leaseToken waitingReason waitingMetadata =>
      reported (Relayvia.waitNode now task workerId leaseToken waitingReason waitingMetadata base)
  | scheduleRetry now task workerId leaseToken backoffSeconds =>
      reported (Relayvia.scheduleRetry now task workerId leaseToken backoffSeconds base)
  | claim now workerId leaseToken leaseSeconds capabilities autoStart task =>
      reported (Relayvia.claim now workerId leaseToken leaseSeconds capabilities autoStart task base)
  | start now task workerId leaseToken =>
      reported (Relayvia.start now task workerId leaseToken base)
  | renewLease now task workerId leaseToken leaseSeconds =>
      reported (Relayvia.renewLease now task workerId leaseToken leaseSeconds base)
  | recoverExpired now _ => return { Relayvia.recoverExpired now base with }
  | promoteDueRetries now _ => session (Relayvia.promoteDueRetries now base)
  | runnerClaim now runner leaseToken leaseSeconds task =>
      reported (Relayvia.runnerClaim now runner leaseToken leaseSeconds task base)
  | runnerTaskHeartbeat now runner task leaseToken leaseSeconds =>
      reported (Relayvia.runnerTaskHeartbeat now runner task leaseToken leaseSeconds base)
  | runnerSubmit now runnerId task leaseToken result =>
      reported (Relayvia.runnerSubmit env now runnerId task leaseToken result base)

end Transaction

/-! ## Commits -/

/-- `UPDATE workflow_runs` with the changed columns. -/
def WorkflowRun.merge (base new row : WorkflowRun) : WorkflowRun :=
  { row with
    status := Merge.column base.status new.status row.status
    waitingReason := Merge.column base.waitingReason new.waitingReason row.waitingReason
    startedAt := Merge.column base.startedAt new.startedAt row.startedAt
    finishedAt := Merge.column base.finishedAt new.finishedAt row.finishedAt
    pausedAt := Merge.column base.pausedAt new.pausedAt row.pausedAt
    cancelledAt := Merge.column base.cancelledAt new.cancelledAt row.cancelledAt }

/-- `UPDATE node_runs` with the changed columns. -/
def NodeRun.merge (base new row : NodeRun) : NodeRun :=
  { row with
    status := Merge.column base.status new.status row.status
    input := Merge.column base.input new.input row.input
    output := Merge.column base.output new.output row.output
    error := Merge.column base.error new.error row.error
    executionMetadata :=
      Merge.column base.executionMetadata new.executionMetadata row.executionMetadata
    artifactRefs := Merge.column base.artifactRefs new.artifactRefs row.artifactRefs
    attempt := Merge.column base.attempt new.attempt row.attempt
    waitingReason := Merge.column base.waitingReason new.waitingReason row.waitingReason
    waitingMetadata := Merge.column base.waitingMetadata new.waitingMetadata row.waitingMetadata
    startedAt := Merge.column base.startedAt new.startedAt row.startedAt
    finishedAt := Merge.column base.finishedAt new.finishedAt row.finishedAt }

/-- `UPDATE execution_tasks` with the changed columns. -/
def ExecutionTask.merge (base new row : ExecutionTask) : ExecutionTask :=
  { row with
    status := Merge.column base.status new.status row.status
    attempt := Merge.column base.attempt new.attempt row.attempt
    availableAt := Merge.column base.availableAt new.availableAt row.availableAt
    lockedBy := Merge.column base.lockedBy new.lockedBy row.lockedBy
    leaseToken := Merge.column base.leaseToken new.leaseToken row.leaseToken
    lockedAt := Merge.column base.lockedAt new.lockedAt row.lockedAt
    leaseExpiresAt := Merge.column base.leaseExpiresAt new.leaseExpiresAt row.leaseExpiresAt
    lastError := Merge.column base.lastError new.lastError row.lastError
    startedAt := Merge.column base.startedAt new.startedAt row.startedAt
    finishedAt := Merge.column base.finishedAt new.finishedAt row.finishedAt }

/-- The tasks that the session has inserted. -/
def insertedTasks (base : RunRecord) (s : Session) : List ExecutionTask :=
  s.tasks.drop base.tasks.length ++ s.added

/-- Write the session back; its inserts are checked against the rows in the database. -/
def writeBack (base : RunRecord) (s : Session) (db : RunRecord) : Except Raised RunRecord := do
  let tasks := Merge.rows ExecutionTask.id ExecutionTask.merge base.tasks
    (s.tasks.take base.tasks.length) db.tasks
  let tasks ← Session.insertTasks tasks (insertedTasks base s)
  return {
    run := base.run.merge s.run db.run
    nodeRuns := Merge.rows NodeRun.nodeId NodeRun.merge base.nodeRuns s.nodeRuns db.nodeRuns
    tasks := tasks
    workspaces := db.workspaces ++ s.workspaces
    events := db.events ++ s.events }

def Transaction.commit (env : Env) (view : View) (db : RunRecord) (tx : Transaction) :
    Except Raised RunRecord := do
  writeBack (base view db) (← tx.run env view db) db

/-! ## Sessions -/

/-- One transaction under way.  `locked` are the committed rows at the first moment at
which it holds the lock on the run and has its snapshot. -/
structure Sitting where
  tx : Transaction
  rest : List Statement
  view : View := {}
  locks : List RowLock := []
  locked : Option RunRecord := none

structure LockWorld where
  db : RunRecord
  sittings : ℕ → Option Sitting := fun _ ↦ none
  /-- the number of the next session -/
  next : ℕ := 0

namespace LockWorld

def set (sid : ℕ) (p : Option Sitting) (s : LockWorld) : LockWorld :=
  { s with sittings := Function.update s.sittings sid p }

theorem set_sittings (sid sid' : ℕ) (p : Option Sitting) (s : LockWorld) :
    (s.set sid p).sittings sid' = if sid' = sid then p else s.sittings sid' :=
  Function.update_apply s.sittings sid p sid'

/-- No other session holds one of the locks. -/
def free (s : LockWorld) (sid : ℕ) (ls : List RowLock) : Bool :=
  (List.range s.next).all fun sid' ↦
    sid' = sid ∨ (s.sittings sid').all fun p ↦ ls.all (· ∉ p.locks)

end LockWorld

/-- The next statement of a session whose locks are granted. -/
def Sitting.advance (env : Env) (db : RunRecord) (stmt : Statement) (rest : List Statement)
    (p : Sitting) : Sitting :=
  let view := stmt.read env p.view db
  let locks := p.locks ++ stmt.locks env p.view db
  { p with
    rest := rest
    view := view
    locks := locks
    locked := if .run ∈ locks ∧ view.snapshot.isSome then p.locked.or (some db) else none }

inductive LockStep where
  | begin (tx : Transaction)
  | next (sid : ℕ)
  | commit (sid : ℕ)
  /-- the process ends, or the database rolls back -/
  | abort (sid : ℕ)

namespace LockStep

/-- One step; a statement that waits for a lock and a step that is not possible change
nothing. -/
def exec (env : Env) (step : LockStep) (s : LockWorld) : LockWorld :=
  match step with
  | .begin tx =>
      { s with next := s.next + 1 }.set s.next (some { tx := tx, rest := tx.script })
  | .next sid =>
      match s.sittings sid with
      | some p =>
          match p.rest with
          | stmt :: rest =>
              if s.free sid (stmt.locks env p.view s.db) then
                s.set sid (some (p.advance env s.db stmt rest))
              else s
          | [] => s
      | none => s
  | .commit sid =>
      match s.sittings sid with
      | some p =>
          match p.rest, p.tx.commit env p.view s.db with
          | [], .ok db => { s with db := db }.set sid none
          -- the exception leaves the session, which rolls back
          | [], .error _ => s.set sid none
          | _ :: _, _ => s
      | none => s
  | .abort sid => s.set sid none

/-- Run steps one after the other. -/
def execAll (env : Env) : List LockStep → LockWorld → LockWorld
  | [], s => s
  | step :: steps, s => execAll env steps (step.exec env s)

end LockStep

/-- `s'` comes from `s` by steps that all satisfy `allowed`. -/
inductive LockWorld.Steps (env : Env) (allowed : LockWorld → LockStep → Prop) (s : LockWorld) :
    LockWorld → Prop
  | refl : Steps env allowed s s
  | step {s' : LockWorld} (step : LockStep) (h : Steps env allowed s s') (hstep : allowed s' step) :
      Steps env allowed s (step.exec env s')

end Relayvia
