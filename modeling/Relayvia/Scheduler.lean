import Relayvia.Models

/-!
# WorkflowScheduler

Readiness, skip propagation, derivation of the run status, and the scheduling
and reconciliation of one run inside the caller's transaction.
-/

namespace Relayvia

/-! ## Readiness and derivation -/

def statusOf (nodeRuns : List NodeRun) (id : NodeId) : Option NodeRunStatus :=
  (findNodeRun nodeRuns id).map NodeRun.status

/-- A Condition that completed keeps only the edge of its selected handle active;
a skipped source makes every edge inactive. -/
def edgeIsActive (g : WorkflowGraph) (nodeRuns : List NodeRun) (e : WorkflowEdge) : Bool :=
  if statusOf nodeRuns e.source = some .skipped then false
  else if (g.node? e.source).any WorkflowNode.isCondition = false then true
  else if statusOf nodeRuns e.source ≠ some .completed then true
  else
    match (findNodeRun nodeRuns e.source).bind NodeRun.selectedBranch with
    | some selected => ¬(selected = "true" ∨ selected = "false") ∨ e.sourceHandle = some selected
    | none => true

def activeEdges (g : WorkflowGraph) (nodeRuns : List NodeRun) (id : NodeId) :
    List WorkflowEdge :=
  (g.incomingEdges id).filter (edgeIsActive g nodeRuns)

/-- A PENDING node with at least one active incoming edge, all of whose sources
completed. -/
def isReady (g : WorkflowGraph) (nodeRuns : List NodeRun) (id : NodeId) : Bool :=
  statusOf nodeRuns id = some .pending ∧ activeEdges g nodeRuns id ≠ [] ∧
    ∀ e ∈ activeEdges g nodeRuns id, statusOf nodeRuns e.source = some .completed

def findReadyNodes (g : WorkflowGraph) (nodeRuns : List NodeRun) : List NodeId :=
  g.nodeIds.filter (isReady g nodeRuns)

/-- A PENDING node whose incoming edges are all inactive. -/
def isUnreachable (g : WorkflowGraph) (nodeRuns : List NodeRun) (nodeRun : NodeRun) : Bool :=
  nodeRun.nodeId ∈ g.nodeIds ∧ nodeRun.status = .pending ∧
    g.incomingEdges nodeRun.nodeId ≠ [] ∧ activeEdges g nodeRuns nodeRun.nodeId = []

/-- One pass of the loop: every decision reads the statuses at its start. -/
def skipPass (g : WorkflowGraph) (now : Time) (nodeRuns : List NodeRun) : List NodeRun :=
  nodeRuns.map fun nodeRun ↦
    if isUnreachable g nodeRuns nodeRun then
      { nodeRun with status := .skipped, finishedAt := some now }
    else nodeRun

/-- `while changed`: a pass that changes something skips a node, so one turn for
every node and a last one are enough. -/
def skipLoop (g : WorkflowGraph) (now : Time) : ℕ → List NodeRun → List NodeRun
  | 0, nodeRuns => nodeRuns
  | n + 1, nodeRuns =>
      if nodeRuns.any (isUnreachable g nodeRuns) then skipLoop g now n (skipPass g now nodeRuns)
      else nodeRuns

def markUnreachableConditionNodes (g : WorkflowGraph) (now : Time) (nodeRuns : List NodeRun) :
    List NodeRun :=
  skipLoop g now (nodeRuns.length + 1) nodeRuns

def NodeRunStatus.inFlight : NodeRunStatus → Bool
  | .queued | .running | .retrying => true
  | _ => false

/-- Derive the WorkflowRun status from the NodeRun states. -/
def deriveWorkflowState (g : WorkflowGraph) (nodeRuns : List NodeRun) : WorkflowRunStatus :=
  if nodeRuns.any (·.status = .failed) then .failed
  else if nodeRuns ≠ [] ∧ nodeRuns.all (·.status.isTerminal) then .completed
  else if nodeRuns.any (·.status = .waiting) then
    if nodeRuns.any (·.status.inFlight) then .running
    else if findReadyNodes g nodeRuns ≠ [] then .running
    else .waiting
  else .running

/-! ## Payloads -/

def defaultPriority : ℤ := 0

def defaultBackoffSeconds : ℤ := 5

def boundedInt (env : Env) (value : Option Json) (default maximum : ℤ) : ℤ :=
  match value.bind env.pyInt with
  | some i => max 0 (min i maximum)
  | none => default

/-- The retry policy of the ServiceAction that a Service node refers to. -/
def servicePolicy (run : WorkflowRun) (node : WorkflowNode) : Option Dict :=
  match Dict.get? run.executionSnapshot "service_actions",
      Dict.get? node.config "service_action_id" with
  | some (.obj actions), some (.str actionId) =>
      match Dict.get? actions actionId with
      | some (.obj action) =>
          match Dict.get? action "retry_policy" with
          | some (.obj policy) => some policy
          | _ => none
      | _ => none
  | _, _ => none

def isServiceHttp (node : WorkflowNode) : Bool :=
  node.type = .service ∧ node.subtype = "http"

def serviceBackoffSeconds (env : Env) (run : WorkflowRun) (node : WorkflowNode) (default : ℤ) :
    ℤ :=
  if isServiceHttp node then
    boundedInt env ((servicePolicy run node).bind (Dict.get? · "backoff_seconds")) default 86400
  else default

/-- Attempts and backoff: an explicit graph setting, else the policy of the
ServiceAction, else one attempt. -/
def retrySettingsForNode (env : Env) (run : WorkflowRun) (node : WorkflowNode) : ℤ × ℤ :=
  let inherited : ℤ × ℤ :=
    if isServiceHttp node then
      match servicePolicy run node with
      | some policy =>
          (boundedInt env (Dict.get? policy "max_retries") 0 10 + 1,
            boundedInt env (Dict.get? policy "backoff_seconds") 5 86400)
      | none => (1, 0)
    else (1, 0)
  match Dict.get? node.config "retry" with
  | some (.obj retry) =>
      match Dict.get? retry "max_retries" with
      | some maxRetries =>
          (boundedInt env (some maxRetries) 0 10 + 1,
            serviceBackoffSeconds env run node defaultBackoffSeconds)
      | none => inherited
  | _ => inherited

/-- `_context_resolver(run, node_runs)`. -/
def contextResolver (env : Env) (db : RunRecord) : ContextResolver where
  workflowInput := db.run.input
  workflowVariables := db.run.workflowVariables
  nodeOutputs := db.nodeRuns.filterMap fun nodeRun ↦
    nodeRun.output.map fun output ↦ (nodeRun.nodeId, .obj output)
  run :=
    [("id", .str db.run.id), ("status", .str db.run.status.value),
      ("created_at", .str (env.isoformat db.run.createdAt))]
  pyStr := env.pyStr

def timeoutSeconds (env : Env) (resolved : Dict) (default : ℤ) : ℤ :=
  match Dict.get? resolved "timeout_seconds" with
  | some value =>
      if value.truthy then ((env.pyInt value).map (max · 1)).getD default else default
  | none => default

/-- A text value that is not blank. -/
def textAt (resolved : Dict) (key : String) : Option String :=
  ((Dict.get? resolved key).bind Json.str?).filter fun text ↦ ¬Python.isBlank text

/-- What a Runner needs to execute a node. -/
structure RunnerDispatch where
  config : Dict
  executionType : String
  capability : String
  runnerId : Option String
  deriving DecidableEq

def resolveConfig (env : Env) (db : RunRecord) (node : WorkflowNode) : Option Dict :=
  ((contextResolver env db).resolveFields node.config).toOption

/-- `_resolve_tool_config` with the `runner_id` already popped. -/
def resolveToolConfig (env : Env) (db : RunRecord) (node : WorkflowNode) :
    Option RunnerDispatch := do
  let resolved ← resolveConfig env db node
  let command ← textAt resolved "command"
  let workingDirectory := (Dict.get? resolved "working_directory").bind Json.str?
  return {
    config :=
      [("command", .str command), ("working_directory", (workingDirectory.map .str).getD .null),
        ("timeout_seconds", .int (timeoutSeconds env resolved 60))]
    executionType := "shell"
    capability := "shell"
    runnerId := (Dict.get? resolved "runner_id").bind Json.str? }

/-- `CodexConnector.build_command`. -/
def codexCommand (env : Env) (task : String) (executable : Option String) : String :=
  env.shlexQuote ((executable.filter (· ≠ "")).getD "codex") ++
    " exec --json --sandbox workspace-write " ++ env.shlexQuote task

/-- `_coding_agent_payload`: only a Codex agent whose task resolves is sent to a
Runner. -/
def codingAgentPayload (env : Env) (db : RunRecord) (node : WorkflowNode) :
    Option RunnerDispatch :=
  match Dict.get? db.run.executionSnapshot "agents",
      (Dict.get? node.config "agent_id").bind Json.str? with
  | some (.obj agents), some agentId =>
      match Dict.get? agents agentId with
      | some (.obj agent) => do
          if Dict.get? agent "connector_type" ≠ some (.str "codex") then none
          let resolved ← resolveConfig env db node
          let task ← textAt resolved "task_template"
          let executable := (Dict.get? agent "executable").bind Json.str?
          return {
            config :=
              [("command", .str (codexCommand env task executable)),
                ("working_directory", .null),
                ("timeout_seconds", .int (timeoutSeconds env resolved 600))]
            executionType := "coding_agent"
            capability := "codex"
            runnerId := (Dict.get? agent "runner_id").bind Json.str? }
      | _ => none
  | _, _ => none

/-- How the scheduler hands a ready node over. -/
inductive Dispatch where
  /-- the loop's `continue`: the node stays PENDING -/
  | unresolved
  | worker
  | runner (target : RunnerDispatch) (input : Dict)
  deriving DecidableEq

def dispatchRunner (env : Env) (db : RunRecord) (node : WorkflowNode) (target : RunnerDispatch) :
    Dispatch :=
  match (contextResolver env db).resolveFields node.inputMapping with
  | .ok input => .runner target input
  | .error _ => .unresolved

def dispatch (env : Env) (db : RunRecord) (node : WorkflowNode) : Dispatch :=
  match node.type with
  | .tool =>
      match resolveToolConfig env db node with
      | some target => dispatchRunner env db node target
      | none => .unresolved
  | .agent =>
      match codingAgentPayload env db node with
      | some target => dispatchRunner env db node target
      | none => .worker
  | _ => .worker

/-! ## Scheduling -/

/-- The `uuid4` of the Workspace row of a node: one for each NodeRun, never empty. -/
def workspaceId (nodeRunId : NodeId) : String :=
  "workspace-" ++ nodeRunId

/-- `_attach_workspace`: insert the Workspace row, which flushes the session, and
describe it in the payload. -/
def attachWorkspace (env : Env) (s : Session) (node : WorkflowNode) (payload : Dict)
    (runnerId : Option String) : Except Raised (Session × Dict) :=
  match Dict.get? node.config "workspace" with
  | some (.obj config) =>
      match Dict.get? config "repository" with
      | some repository => do
          if ¬repository.truthy then return (s, payload)
          let strategy := ((Dict.get? config "strategy").filter Json.truthy).getD (.str "worktree")
          let baseBranch := Dict.get? config "base_branch"
          let workspace : Workspace :=
            { id := workspaceId node.id
              nodeRunId := node.id
              name := String.ofList (s.run.id.toList.take 8) ++ "-" ++ node.id
              runnerId := runnerId
              repository := env.str repository
              branch := some ("relayvia/" ++ String.ofList (s.run.id.toList.take 12) ++ "/" ++ node.id)
              baseBranch := baseBranch
              workspaceType := env.str strategy }
          let s ← { s with workspaces := s.workspaces ++ [workspace] : Session }.flush
          let reference : Dict :=
            [("id", .str workspace.id), ("repository", .str workspace.repository),
              ("strategy", .str workspace.workspaceType), ("base_branch", baseBranch.getD .null),
              ("branch", (workspace.branch.map .str).getD .null)]
          return (s, payload ++ [("workspace", .obj reference)])
      | none => return (s, payload)
  | _ => return (s, payload)

/-- Queue the NodeRun and add its ExecutionTask. -/
def enqueue (env : Env) (now : Time) (s : Session) (nodeRun : NodeRun) (node : WorkflowNode)
    (payload : Dict) (requiredCapability runnerId : Option String) : Except Raised Session := do
  transitionNodeRun nodeRun.status .queued
  let db' := s.toRunRecord.modifyNode node.id fun r ↦ { r with status := .queued }
  let db' := db'.recordEvent
    { nodeRunId := some node.id
      eventType := .nodeQueued
      message := some ("Node " ++ node.id ++ " queued")
      payload := [("node_id", .str node.id), ("node_type", .str node.type.value)] }
  let task : ExecutionTask :=
    { nodeRunId := node.id
      payload := payload
      priority := defaultPriority
      maxAttempts := (retrySettingsForNode env s.run node).1
      availableAt := now
      createdAt := now
      runnerId := runnerId
      requiredCapability := requiredCapability
      executionKey := some (s.run.id ++ ":" ++ node.id) }
  return { db' with added := s.added ++ [task] }

/-- One turn of the scheduling loop, `none` where the source says `continue`. -/
def scheduleNode (env : Env) (now : Time) (s : Session) (nodeId : NodeId) :
    Except Raised (Option Session) :=
  match findNodeRun s.nodeRuns nodeId, s.run.graph.node? nodeId with
  | some nodeRun, some node => do
      if (taskOfNode s.tasks nodeId).isSome then return none
      let payload : Dict :=
        [("workflow_run_id", .str s.run.id), ("node_run_id", .str nodeId),
          ("node_id", .str nodeId),
          ("retry_backoff_seconds", .int (retrySettingsForNode env s.run node).2)]
      match dispatch env s.toRunRecord node with
      | .unresolved => return none
      | .worker => return some (← enqueue env now s nodeRun node payload none none)
      | .runner target input =>
          let db' := s.toRunRecord.modifyNode nodeId fun r ↦
            { r with input := env.sanitizeOutput (.obj input) }
          let payload := payload ++
            [("config", .obj target.config), ("execution_type", .str target.executionType)]
          let (s, payload) ← attachWorkspace env { db' with added := s.added } node payload
            target.runnerId
          return some (← enqueue env now s nodeRun node payload (some target.capability)
            target.runnerId)
  | _, _ => return none

def scheduleLoop (env : Env) (now : Time) : Session → List NodeId → Except Raised Session
  | s, [] => return s
  | s, id :: ids => do
      match ← scheduleNode env now s id with
      | some s' => scheduleLoop env now s' ids
      | none => scheduleLoop env now s ids

/-- Mark the inactive branches and record their events. -/
def skipInactive (now : Time) (s : Session) : Session :=
  let nodeRuns := markUnreachableConditionNodes s.run.graph.toWorkflowGraph now s.nodeRuns
  let skipped := nodeRuns.filter fun nodeRun ↦
    statusOf s.nodeRuns nodeRun.nodeId = some .pending ∧ nodeRun.status = .skipped
  { s with
    nodeRuns := nodeRuns
    events := s.events ++ skipped.map fun nodeRun ↦
      { nodeRunId := some nodeRun.nodeId
        eventType := .nodeSkipped
        message := some ("Node " ++ nodeRun.nodeId ++ " skipped (inactive branch)")
        payload := [("node_id", .str nodeRun.nodeId)] } }

/-- Submit ExecutionTasks for every ready node of a RUNNING run. -/
def scheduleReadyNodes (env : Env) (now : Time) (s : Session) : Except Raised Session :=
  if s.run.status ≠ .running then return s
  else
    let s := skipInactive now s
    scheduleLoop env now s (findReadyNodes s.run.graph.toWorkflowGraph s.nodeRuns)

/-! ## Reconciliation -/

/-- The `resume_at` of a node that is WAITING on a timer. -/
def resumeInstant (env : Env) (nodeRun : NodeRun) : Option IsoInstant :=
  if nodeRun.status = .waiting ∧ nodeRun.waitingReason = some "WAIT_TIMER" then
    ((Dict.get? nodeRun.waitingMetadata "resume_at").bind Json.str?).map env.fromisoformat
  else none

def waitElapsed (env : Env) (now : Time) (nodeRun : NodeRun) : Bool :=
  match resumeInstant env nodeRun with
  | some (.aware due) => due ≤ now
  | _ => false

/-- Comparing a naive `resume_at` with `utc_now()` raises. -/
def waitUncomparable (env : Env) (nodeRun : NodeRun) : Bool :=
  resumeInstant env nodeRun = some .naive

def promoteWait (env : Env) (now : Time) (nodeRun : NodeRun) : NodeRun :=
  if waitElapsed env now nodeRun then
    { nodeRun with
      status := .completed, output := some nodeRun.waitingMetadata, finishedAt := some now }
  else nodeRun

def promoteEvents (env : Env) (now : Time) (nodeRun : NodeRun) : List RunEvent :=
  if waitElapsed env now nodeRun then
    [{ nodeRunId := some nodeRun.nodeId
       eventType := .nodeResumed
       message := some "Wait timer elapsed"
       payload := [("node_id", .str nodeRun.nodeId), ("action", .str "wait")] },
      { nodeRunId := some nodeRun.nodeId
        eventType := .nodeCompleted
        message := some "Node completed after wait"
        payload := [("node_id", .str nodeRun.nodeId)] }]
  else []

/-- Complete WAIT_TIMER NodeRuns whose `resume_at` has passed. -/
def promoteDueWaits (env : Env) (now : Time) (s : Session) : Except Raised Session :=
  if s.nodeRuns.any (waitUncomparable env) then .error .typeError
  else
    return { s with
      nodeRuns := s.nodeRuns.map (promoteWait env now)
      events := s.events ++ s.nodeRuns.flatMap (promoteEvents env now) }

def cancelTask (now : Time) (task : ExecutionTask) : ExecutionTask :=
  if task.status.isTerminal then task
  else { task with status := .cancelled, finishedAt := some now }

/-- The fate of a NodeRun in `cancel_run_tasks`: cancelled when one of its tasks
is, or when it is still PENDING. -/
def cancelNode (now : Time) (tasks : List ExecutionTask) (nodeRun : NodeRun) : NodeRun :=
  if ¬nodeRun.status.isTerminal ∧
      (nodeRun.status = .pending ∨
        ∃ task ∈ tasks, task.nodeRunId = nodeRun.nodeId ∧ ¬task.status.isTerminal) then
    { nodeRun with status := .cancelled, finishedAt := some now }
  else nodeRun

/-- Cancel every non-terminal ExecutionTask that the query returns and its
NodeRun, then the PENDING NodeRuns.  Each of these transitions is legal. -/
def cancelRunTasks (now : Time) (s : Session) : Session :=
  let cancelled := s.tasks.filter fun task ↦ ¬task.status.isTerminal
  { s with
    tasks := s.tasks.map (cancelTask now)
    nodeRuns := s.nodeRuns.map (cancelNode now s.tasks)
    events := s.events ++ cancelled.map fun task ↦
      { nodeRunId := some task.nodeRunId
        eventType := .nodeCancelled
        message := some "Node cancelled"
        payload := [("node_id", (Dict.get? task.payload "node_id").getD .null)] } }

def waitingReason (nodeRuns : List NodeRun) : Option String :=
  nodeRuns.findSome? fun nodeRun ↦
    if nodeRun.status = .waiting then nodeRun.waitingReason.filter (· ≠ "") else none

def workflowEventType : WorkflowRunStatus → Option RunEventType
  | .waiting => some .workflowWaiting
  | .running => some .workflowResumed
  | .completed => some .workflowCompleted
  | .failed => some .workflowFailed
  | .cancelled => some .workflowCancelled
  | .created | .paused => none

def workflowEvent (s : Session) (derived : WorkflowRunStatus) (reason : Option String) :
    Session :=
  match workflowEventType derived with
  | some eventType =>
      { s with
        toRunRecord := s.toRunRecord.recordEvent
          { eventType := eventType
            message := some ("Workflow " ++ derived.value)
            payload := (reason.map fun r ↦ ("reason", Json.str r)).toList } }
  | none => s

/-- The first half of `reconcile_run`: promote, schedule, derive, and write the
derived status. -/
def reconcileDerive (env : Env) (now : Time) (s : Session) :
    Except Raised (WorkflowRunStatus × Session) := do
  let s ← promoteDueWaits env now s
  let s ← scheduleReadyNodes env now s
  let derived := deriveWorkflowState s.run.graph.toWorkflowGraph s.nodeRuns
  if derived = s.run.status then return (derived, s)
  transitionWorkflowRun s.run.status derived
  let finishedAt := if derived.isTerminal then some now else s.run.finishedAt
  return (derived,
    { s with run := { s.run with status := derived, finishedAt := finishedAt } })

/-- Fail fast and record the event when the derived status is new. -/
def recordDerived (now : Time) (current derived : WorkflowRunStatus) (s : Session) : Session :=
  if derived = current then s
  else
    let s := if derived = .failed then cancelRunTasks now s else s
    workflowEvent s derived (waitingReason s.nodeRuns)

/-- The second half: schedule what became ready and write the waiting reason.
`current` is the status before the first half. -/
def reconcileFinish (env : Env) (now : Time) (current derived : WorkflowRunStatus) (s : Session) :
    Except Raised Session := do
  let s := recordDerived now current derived s
  let s ← if derived = .running then scheduleReadyNodes env now s else pure s
  let reason := if derived = .waiting then waitingReason s.nodeRuns else none
  return { s with run := { s.run with waitingReason := reason } }

/-- Idempotent reconciliation of one run inside the caller's transaction. -/
def reconcileRun (env : Env) (now : Time) (s : Session) :
    Except Raised (WorkflowRunStatus × Session) :=
  match s.run.status with
  | .cancelled => return (.cancelled, cancelRunTasks now s)
  | .completed => return (.completed, s)
  | .failed => return (.failed, s)
  | .paused => return (.paused, s)
  | current => do
      let (derived, s) ← reconcileDerive env now s
      return (derived, ← reconcileFinish env now current derived s)

end Relayvia
