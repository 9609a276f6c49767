import Relayvia.Runs

/-!
# Runner service

Claim, task heartbeat and result submission of the pull-based Runners.
-/

namespace Relayvia

structure Runner where
  id : String
  name : String
  capabilities : List String
  deriving DecidableEq

/-- The workspace that the payload of a task names. -/
def workspaceOf (task : ExecutionTask) : Option String :=
  match Dict.get? task.payload "workspace" with
  | some (.obj reference) => ((Dict.get? reference "id").bind Json.str?).filter (· ≠ "")
  | _ => none

/-- Start the NodeRun of a claimed task: any status but RUNNING is checked. -/
def startNodeOnRunner (now : Time) (attempt : ℕ) (db : RunRecord) (id : NodeId) :
    Except Raised RunRecord := do
  let db ← nodeStatus db id .running
  return db.modifyNode id fun r ↦
    { r with attempt := attempt, startedAt := r.startedAt.or (some now) }

/-- `runner_claim` of the candidate `taskId`. -/
def runnerClaim (now : Time) (runner : Runner) (leaseToken : String) (leaseSeconds : ℕ)
    (taskId : TaskId) (db : RunRecord) : Except Raised (Bool × RunRecord) :=
  match findTask db.tasks taskId with
  | some task => do
      if ¬isCandidate now runner.id (some runner.capabilities) db task then return (false, db)
      let db := db.modifyTask taskId (grantLease now runner.id leaseToken leaseSeconds)
      transitionExecutionTask .claimed .running
      let db := db.modifyTask taskId fun t ↦
        { t with status := .running, attempt := t.attempt + 1, startedAt := some now }
      let db ← startNodeOnRunner now (task.attempt + 1) db task.nodeRunId
      let db :=
        match workspaceOf task with
        | some id => db.modifyWorkspace id fun w ↦
            { w with runnerId := some runner.id, status := .inUse }
        | none => db
      let attempt := toString (task.attempt + 1)
      return (true, db.recordEvent
        (traceEvent task .nodeStarted
          ("Node started on Runner " ++ runner.name ++ " (attempt " ++ attempt ++ ")")
          [("runner_id", .str runner.id), ("attempt", .int (task.attempt + 1))]))
  | none => return (false, db)

def runnerTaskStale : RelayviaError where
  code := "RUNNER_TASK_STALE"
  message := "Runner task is no longer owned by this Runner"
  statusCode := 409

/-- Renew the lease of a running task; the result is the cancel signal. -/
def runnerTaskHeartbeat (now : Time) (runner : Runner) (taskId : TaskId) (leaseToken : String)
    (leaseSeconds : ℕ) (db : RunRecord) : Except Raised (Bool × RunRecord) :=
  match findTask db.tasks taskId with
  | some task =>
      if task.lockedBy ≠ some runner.id ∨ task.leaseToken ≠ some leaseToken then
        .error (.relayvia runnerTaskStale)
      else if task.status ≠ .running ∨ db.run.status.isTerminal then return (true, db)
      else
        return (false, db.modifyTask taskId fun t ↦
          { t with leaseExpiresAt := some (now + seconds leaseSeconds) })
  | none => .error (.relayvia runnerTaskStale)

/-! ## Submission -/

def defaultRunnerError : Dict :=
  [("code", .str "RUNNER_EXECUTION_FAILED"), ("message", .str "Runner execution failed"),
    ("retryable", .bool false), ("details", .obj [])]

/-- The sanitized error of a result. -/
def submittedError (env : Env) (result : Dict) : Dict :=
  match (Dict.get? result "error").filter Json.truthy with
  | none => env.sanitizeError defaultRunnerError
  | some (.obj error) => env.sanitizeError error
  | some _ =>
      env.sanitizeError
        [("code", .str "RUNNER_EXECUTION_FAILED"), ("message", .str "Runner execution failed")]

def shouldRetry (env : Env) (task : ExecutionTask) (result : Dict) : Bool :=
  ¬Dict.truthyAt result "ok" ∧ Dict.truthyAt (submittedError env result) "retryable" ∧
    (task.attempt : ℤ) < task.maxAttempts

/-- The value under `key`, or `{}` when it is missing or false. -/
def valueOrEmpty (result : Dict) (key : String) : Json :=
  ((Dict.get? result key).filter Json.truthy).getD (.obj [])

def retryBackoffSeconds (env : Env) (payload : Dict) : ℤ :=
  boundedInt env (Dict.get? payload "retry_backoff_seconds") 5 86400

/-- A non-empty text becomes one NODE_LOG event. -/
def logEvents (task : ExecutionTask) (runnerId stream : String) (text : Option Json) :
    List RunEvent :=
  match text.bind Json.str? with
  | some message =>
      if message = "" then []
      else
        [{ nodeRunId := some task.nodeRunId
           eventType := .nodeLog
           message := some message
           payload := [("stream", .str stream), ("runner_id", .str runnerId)] }]
  | none => []

/-- `_sync_workspace_result` on the Workspace row. -/
def syncWorkspace (env : Env) (now : Time) (result : Dict) (workspace : Workspace) : Workspace :=
  let metadata : Dict := match valueOrEmpty result "metadata" with | .obj m => m | _ => []
  let textOf (key : String) := ((Dict.get? metadata key).filter Json.truthy).map env.str
  let path := (textOf "workspace_path").or workspace.path
  let workspace := { workspace with path, branch := (textOf "workspace_branch").or workspace.branch }
  if path.getD "" = "" ∨ ¬Dict.truthyAt result "ok" then { workspace with status := .failed }
  else if workspace.workspaceType = "local" ∨ workspace.workspaceType = "local_repository" then
    { workspace with status := .released }
  else
    { workspace with
      status := .releasing
      metadata := Dict.merge workspace.metadata
        [("cleanup_requested_at", .str (env.isoformat now))] }

/-- The three outcomes of a submission, on the task and its NodeRun. -/
def applySubmission (env : Env) (now : Time) (runnerId : String) (task : ExecutionTask)
    (result output metadata : Dict) (references : List Json) (db : RunRecord) :
    Except Raised RunRecord :=
  let error := submittedError env result
  if Dict.truthyAt result "ok" then do
    transitionExecutionTask task.status .completed
    let db := db.modifyTask task.id fun t ↦
      { t with status := .completed, finishedAt := some now, lastError := none }
    let db ← nodeCompleted now db task.nodeRunId output metadata references
    return db.recordEvent (traceEvent task .nodeCompleted "Node completed on Runner"
      [("runner_id", .str runnerId)])
  else if shouldRetry env task result then do
    let backoffSeconds := retryBackoffSeconds env task.payload
    transitionExecutionTask task.status .retryWait
    let db := db.modifyTask task.id fun t ↦
      { clearLease t with
        status := .retryWait, availableAt := now + seconds backoffSeconds.toNat,
        lastError := some error }
    let db ← nodeStatus db task.nodeRunId .retrying
    return db.recordEvent (traceEvent task .nodeRetrying
      ("Runner execution retrying in " ++ toString backoffSeconds ++ "s")
      [("runner_id", .str runnerId), ("attempt", .int task.attempt),
        ("backoff_seconds", .int backoffSeconds)])
  else do
    transitionExecutionTask task.status .failed
    let db := db.modifyTask task.id fun t ↦
      { t with status := .failed, finishedAt := some now, lastError := some error }
    let db ←
      if statusOf db.nodeRuns task.nodeRunId = some .failed then pure db
      else
        advanceNode db task.nodeRunId .failed fun r ↦
          { r with
            error := some error, executionMetadata := metadata,
            artifactRefs := env.sanitizeArtifacts references, finishedAt := some now }
    return db.recordEvent (traceEvent task .nodeFailed (errorText error "message")
      [("runner_id", .str runnerId), ("error_code", (Dict.get? error "code").getD .null)])

/-- The references and output keys of the submitted artifacts.  A retry has not
produced a durable result yet and registers none. -/
def submittedArtifacts (env : Env) (result : Dict) (retry : Bool) :
    Except Raised (List Json × Dict) :=
  match (Dict.get? result "artifacts").filter Json.truthy with
  | some artifacts =>
      if retry then .ok ([], []) else (env.registerArtifacts artifacts).mapError .artifactError
  | none => .ok ([], [])

/-- The first transaction of `runner_submit`; unless it retries, the service
reconciles the run in a second one. -/
def runnerSubmit (env : Env) (now : Time) (runnerId : String) (taskId : TaskId)
    (leaseToken : String) (result : Dict) (db : RunRecord) : Except Raised (Bool × RunRecord) :=
  match findTask db.tasks taskId with
  | some task => do
      if db.run.status.isTerminal then return (false, db)
      if ¬owns now runnerId leaseToken task then return (false, db)
      let retry := shouldRetry env task result
      let (references, outputMap) ← submittedArtifacts env result retry
      let output := Dict.merge (env.sanitizeOutput (valueOrEmpty result "output")) outputMap
      let metadata := env.sanitizeMetadata (valueOrEmpty result "metadata")
      let logs :=
        logEvents task runnerId "stdout" (Dict.get? output "stdout") ++
          logEvents task runnerId "stderr" (Dict.get? metadata "stderr")
      let db : RunRecord := { db with events := db.events ++ logs }
      let db ← applySubmission env now runnerId task result output metadata references db
      match workspaceOf task with
      | some id =>
          if retry then return (true, db)
          else return (true, db.modifyWorkspace id (syncWorkspace env now result))
      | none => return (true, db)
  | none => return (false, db)

end Relayvia
