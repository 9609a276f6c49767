import Relayvia.Scheduler

/-!
# MySQLExecutionBackend

The transactions of the execution queue on the rows of one run.  Each returns
what the method returns, with the rows as they are after the commit.
-/

namespace Relayvia

/-- The lease of `task` belongs to this worker and token and has not expired. -/
def owns (now : Time) (workerId leaseToken : String) (task : ExecutionTask) : Bool :=
  ¬task.status.isTerminal ∧ task.lockedBy = some workerId ∧ task.leaseToken = some leaseToken ∧
    task.leaseExpiresAt.any (now < ·)

/-- The event of `_trace`. -/
def traceEvent (task : ExecutionTask) (eventType : RunEventType) (message : Option String)
    (payload : Dict) : RunEvent where
  nodeRunId := some task.nodeRunId
  eventType := eventType
  message := message
  payload := Dict.merge [("node_id", (Dict.get? task.payload "node_id").getD .null)] payload

def clearLease (task : ExecutionTask) : ExecutionTask :=
  { task with lockedBy := none, leaseToken := none, lockedAt := none, leaseExpiresAt := none }

/-! ## NodeRun helpers -/

/-- Look the NodeRun up, check the transition and apply `f`; a missing row is
ignored. -/
def advanceNode (db : RunRecord) (id : NodeId) (target : NodeRunStatus)
    (f : NodeRun → NodeRun) : Except Raised RunRecord :=
  match findNodeRun db.nodeRuns id with
  | some nodeRun => do
      transitionNodeRun nodeRun.status target
      return db.modifyNode id fun r ↦ { f r with status := target }
  | none => return db

/-- `_node_status` with `allow_same`. -/
def nodeStatus (db : RunRecord) (id : NodeId) (target : NodeRunStatus) :
    Except Raised RunRecord :=
  if statusOf db.nodeRuns id = some target then return db else advanceNode db id target fun r ↦ r

/-- The shape of `_node_failed` and `_node_cancelled`: a terminal row stays. -/
def advanceOpenNode (db : RunRecord) (id : NodeId) (target : NodeRunStatus)
    (f : NodeRun → NodeRun) : Except Raised RunRecord :=
  if (statusOf db.nodeRuns id).any NodeRunStatus.isTerminal then return db
  else advanceNode db id target f

def nodeCompleted (now : Time) (db : RunRecord) (id : NodeId) (output executionMetadata : Dict)
    (artifacts : List Json) : Except Raised RunRecord :=
  advanceNode db id .completed fun r ↦
    { r with
      output := some output, executionMetadata := executionMetadata, artifactRefs := artifacts,
      finishedAt := some now }

def nodeFailed (now : Time) (db : RunRecord) (id : NodeId) (error executionMetadata : Dict)
    (artifacts : List Json) : Except Raised RunRecord :=
  advanceOpenNode db id .failed fun r ↦
    { r with
      error := some error, executionMetadata := executionMetadata, artifactRefs := artifacts,
      finishedAt := some now }

def nodeCancelled (now : Time) (db : RunRecord) (id : NodeId) : Except Raised RunRecord :=
  advanceOpenNode db id .cancelled fun r ↦ { r with finishedAt := some now }

/-! ## Claim and start -/

/-- The server Worker claims tasks without a required capability, a Runner those
with one of its capabilities that are not reserved for another Runner. -/
def capabilityMatches (workerId : String) (task : ExecutionTask) : Option (List String) → Bool
  | none => task.requiredCapability = none
  | some capabilities =>
      task.requiredCapability.any (· ∈ capabilities) ∧
        (task.runnerId = none ∨ task.runnerId = some workerId)

/-- The claim query: a due PENDING task of a RUNNING run. -/
def claimable (now : Time) (workerId : String) (capabilities : Option (List String))
    (db : RunRecord) (task : ExecutionTask) : Bool :=
  task.status = .pending ∧ task.availableAt ≤ now ∧ db.run.status = .running ∧
    capabilityMatches workerId task capabilities

/-- `a` comes strictly before `b` in the order of the claim query. -/
def claimsBefore (a b : ExecutionTask) : Bool :=
  b.priority < a.priority ∨
    a.priority = b.priority ∧
      (a.availableAt < b.availableAt ∨
        a.availableAt = b.availableAt ∧ a.createdAt < b.createdAt)

/-- `task` may be the candidate: the database picks any first row. -/
def isCandidate (now : Time) (workerId : String) (capabilities : Option (List String))
    (db : RunRecord) (task : ExecutionTask) : Bool :=
  claimable now workerId capabilities db task ∧
    ∀ other ∈ db.tasks, claimable now workerId capabilities db other →
      ¬claimsBefore other task

def grantLease (now : Time) (workerId leaseToken : String) (leaseSeconds : ℕ)
    (task : ExecutionTask) : ExecutionTask :=
  { task with
    status := .claimed, lockedBy := some workerId, leaseToken := some leaseToken,
    lockedAt := some now, leaseExpiresAt := some (now + seconds leaseSeconds) }

/-- `claim` of the candidate `taskId`. -/
def claim (now : Time) (workerId leaseToken : String) (leaseSeconds : ℕ)
    (capabilities : Option (List String)) (autoStart : Bool) (taskId : TaskId)
    (db : RunRecord) : Except Raised (Bool × RunRecord) :=
  match findTask db.tasks taskId with
  | some task => do
      if ¬isCandidate now workerId capabilities db task then return (false, db)
      let granted := db.modifyTask taskId (grantLease now workerId leaseToken leaseSeconds)
      if ¬autoStart then return (true, granted)
      transitionExecutionTask .claimed .running
      let started := granted.modifyTask taskId fun t ↦
        { t with status := .running, attempt := t.attempt + 1, startedAt := some now }
      let started ← nodeStatus started task.nodeRunId .running
      let attempt := toString (task.attempt + 1)
      return (true, started.recordEvent
        (traceEvent task .nodeStarted ("Node started on Runner (attempt " ++ attempt ++ ")")
          [("attempt", .int (task.attempt + 1))]))
  | none => return (false, db)

/-- `_release_or_cancel_for_run_state`: PAUSED and WAITING runs keep their queued
work, any other run that is not RUNNING cancels it. -/
def releaseOrCancelForRunState (now : Time) (db : RunRecord) (task : ExecutionTask) :
    Except Raised RunRecord := do
  if db.run.status = .paused ∨ db.run.status = .waiting then
    transitionExecutionTask task.status .pending
    return db.modifyTask task.id fun t ↦ { clearLease t with status := .pending }
  transitionExecutionTask task.status .cancelled
  let cancelled := db.modifyTask task.id fun t ↦
    { t with status := .cancelled, finishedAt := some now }
  nodeCancelled now cancelled task.nodeRunId

def start (now : Time) (taskId : TaskId) (workerId leaseToken : String) (db : RunRecord) :
    Except Raised (Bool × RunRecord) :=
  match findTask db.tasks taskId with
  | some task => do
      if ¬owns now workerId leaseToken task then return (false, db)
      if db.run.status ≠ .running then
        return (false, ← releaseOrCancelForRunState now db task)
      transitionExecutionTask task.status .running
      let started := db.modifyTask taskId fun t ↦
        { t with status := .running, attempt := t.attempt + 1, startedAt := some now }
      let started ← nodeStatus started task.nodeRunId .running
      let attempt := toString (task.attempt + 1)
      return (true, started.recordEvent
        (traceEvent task .nodeStarted ("Node started (attempt " ++ attempt ++ ")")
          [("attempt", .int (task.attempt + 1))]))
  | none => return (false, db)

/-! ## Results -/

/-- The shape shared by the fenced writes: without the current lease nothing
happens, with it the body runs. -/
def withLease (now : Time) (taskId : TaskId) (workerId leaseToken : String) (db : RunRecord)
    (body : ExecutionTask → Except Raised RunRecord) : Except Raised (Bool × RunRecord) :=
  match findTask db.tasks taskId with
  | some task => do
      if ¬owns now workerId leaseToken task then return (false, db)
      return (true, ← body task)
  | none => return (false, db)

def complete (now : Time) (taskId : TaskId) (workerId leaseToken : String) (output : Dict)
    (executionMetadata : Dict) (artifacts : List Json) (db : RunRecord) :
    Except Raised (Bool × RunRecord) :=
  withLease now taskId workerId leaseToken db fun task ↦ do
    transitionExecutionTask task.status .completed
    let db := db.modifyTask taskId fun t ↦
      { t with status := .completed, finishedAt := some now, lastError := none }
    let db ← nodeCompleted now db task.nodeRunId output executionMetadata artifacts
    let payload := ((Dict.get? output "selected_branch").map ("selected_branch", ·)).toList
    return db.recordEvent (traceEvent task .nodeCompleted "Node completed" payload)

/-- `error.get(key)` where the value is used as a text. -/
def errorText (error : Dict) (key : String) : Option String :=
  (Dict.get? error key).bind Json.str?

def fail (now : Time) (taskId : TaskId) (workerId leaseToken : String) (error : Dict)
    (executionMetadata : Dict) (artifacts : List Json) (db : RunRecord) :
    Except Raised (Bool × RunRecord) :=
  withLease now taskId workerId leaseToken db fun task ↦ do
    transitionExecutionTask task.status .failed
    let db := db.modifyTask taskId fun t ↦
      { t with status := .failed, finishedAt := some now, lastError := some error }
    let db ← nodeFailed now db task.nodeRunId error executionMetadata artifacts
    return db.recordEvent (traceEvent task .nodeFailed (errorText error "message")
      [("error_code", (Dict.get? error "code").getD .null)])

/-- The keywords that `_trace` already receives; `**waiting_metadata` may not
repeat them. -/
def reservedTraceKeywords : List String :=
  ["db", "task", "event_type", "message", "reason"]

/-- A waiting node finishes its task and parks the NodeRun. -/
def waitNode (now : Time) (taskId : TaskId) (workerId leaseToken : String)
    (waitingReason : String) (waitingMetadata : Dict) (db : RunRecord) :
    Except Raised (Bool × RunRecord) :=
  withLease now taskId workerId leaseToken db fun task ↦ do
    transitionExecutionTask task.status .completed
    let db := db.modifyTask taskId fun t ↦
      { t with status := .completed, finishedAt := some now }
    let db ← advanceNode db task.nodeRunId .waiting fun r ↦
      { r with waitingReason := some waitingReason, waitingMetadata := waitingMetadata }
    if waitingMetadata.any (·.1 ∈ reservedTraceKeywords) then throw .typeError
    return db.recordEvent (traceEvent task .nodeWaiting ("Node waiting (" ++ waitingReason ++ ")")
      (("reason", .str waitingReason) :: waitingMetadata))

def scheduleRetry (now : Time) (taskId : TaskId) (workerId leaseToken : String)
    (backoffSeconds : ℕ) (db : RunRecord) : Except Raised (Bool × RunRecord) :=
  withLease now taskId workerId leaseToken db fun task ↦ do
    transitionExecutionTask task.status .retryWait
    let db := db.modifyTask taskId fun t ↦
      { clearLease t with status := .retryWait, availableAt := now + seconds backoffSeconds }
    let db ← nodeStatus db task.nodeRunId .retrying
    return db.recordEvent (traceEvent task .nodeRetrying
      ("Node retrying in " ++ toString backoffSeconds ++ "s")
      [("attempt", .int task.attempt), ("backoff_seconds", .int backoffSeconds)])

def renewLease (now : Time) (taskId : TaskId) (workerId leaseToken : String) (leaseSeconds : ℕ)
    (db : RunRecord) : Except Raised (Bool × RunRecord) :=
  withLease now taskId workerId leaseToken db fun _ ↦
    return db.modifyTask taskId fun t ↦
      { t with leaseExpiresAt := some (now + seconds leaseSeconds) }

/-! ## Recovery -/

/-- CLAIMED or RUNNING past its lease. -/
def leaseExpired (now : Time) (task : ExecutionTask) : Bool :=
  (task.status = .claimed ∨ task.status = .running) ∧ task.leaseExpiresAt.any (· < now)

/-- Expired leases go back to the queue.  Both transitions to PENDING are legal. -/
def recoverExpired (now : Time) (db : RunRecord) : RunRecord :=
  { db with
    tasks := db.tasks.map fun t ↦
      if leaseExpired now t then { clearLease t with status := .pending } else t }

def retryDue (now : Time) (task : ExecutionTask) : Bool :=
  task.status = .retryWait ∧ task.availableAt ≤ now

/-- One due retry: the task to PENDING, its NodeRun to QUEUED. -/
def promoteRetry (db : RunRecord) (task : ExecutionTask) : Except Raised RunRecord := do
  let db := db.modifyTask task.id fun t ↦ { t with status := .pending }
  let db ← nodeStatus db task.nodeRunId .queued
  return db.recordEvent (traceEvent task .nodeQueued "Node requeued after retry delay" [])

def promoteDueRetries (now : Time) (db : RunRecord) : Except Raised RunRecord :=
  (db.tasks.filter (retryDue now)).foldlM promoteRetry db

end Relayvia
