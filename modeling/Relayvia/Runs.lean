import Relayvia.ExecutionBackend

/-!
# Workflow Run service

Creation of a run, and the transactions of its lifecycle and of the human
actions.  A method with two commits is two transactions here: the second one
of `start_run` schedules, that of the others reconciles.
-/

namespace Relayvia

/-! ## Creation -/

def initializeVariables (g : WorkflowGraph) : Dict :=
  g.vars.map fun (name, declared) ↦ (name, declared.default)

/-- The NodeRun that `_create_node_runs` makes for a node: the Data Input is born
COMPLETED with the run input as its output. -/
def createNodeRun (input : Dict) (node : WorkflowNode) : NodeRun where
  nodeId := node.id
  nodeType := node.type
  nodeSubtype := node.subtype
  status := if node.isInput then .completed else .pending
  output := if node.isInput then some input else none

def validateRunInput (env : Env) (g : WorkflowGraph) (input : Dict) :
    Except RelayviaError Unit :=
  match g.nodes.find? WorkflowNode.isInput with
  | some entry =>
      match Dict.get? entry.config "schema" with
      | some (.obj schema) =>
          if Dict.get? schema "type" ≠ some (.str "object") then return ()
          else if ¬env.schemaValid schema then return ()
          else if env.schemaErrors schema input ≠ [] then
            throw
              { code := "INVALID_WORKFLOW_INPUT"
                message := "Workflow input does not match the Data Input schema"
                statusCode := 422
                details := [("errors", .arr ((env.schemaErrors schema input).map .str))] }
          else return ()
      | _ => return ()
  | none => return ()

/-- `create_run` on a version whose registry references are ready. -/
def createRun (env : Env) (now : Time) (id : String) (graph : ParsedGraph)
    (executionSnapshot input : Dict) : Except Raised RunRecord := do
  validateRunInput env graph.toWorkflowGraph input
  return {
    run :=
      { id := id
        graph := graph
        executionSnapshot := executionSnapshot
        input := input
        workflowVariables := initializeVariables graph.toWorkflowGraph
        createdAt := now }
    nodeRuns := graph.nodes.map (createNodeRun input) }

/-! ## Lifecycle -/

/-- Check the transition of the run and apply `f`. -/
def advanceRun (db : RunRecord) (target : WorkflowRunStatus) (f : WorkflowRun → WorkflowRun) :
    Except Raised RunRecord := do
  transitionWorkflowRun db.run.status target
  return db.modifyRun fun run ↦ { f run with status := target }

/-- The first transaction of `start_run`. -/
def startRun (now : Time) (db : RunRecord) : Except Raised RunRecord := do
  let db ← advanceRun db .running fun run ↦
    { run with startedAt := run.startedAt.or (some now) }
  return db.recordEvent { eventType := .workflowStarted, message := some "Workflow started" }

/-- `schedule_ready_nodes` in a transaction of its own. -/
def scheduleRun (env : Env) (now : Time) (db : RunRecord) : Except Raised RunRecord := do
  (← scheduleReadyNodes env now { db with }).commit

/-- `reconcile_run` in a transaction of its own. -/
def reconcile (env : Env) (now : Time) (db : RunRecord) : Except Raised RunRecord := do
  (← reconcileRun env now { db with }).2.commit

def pauseRun (now : Time) (db : RunRecord) : Except Raised RunRecord :=
  advanceRun db .paused fun run ↦ { run with pausedAt := some now }

/-- The first transaction of `resume_run`. -/
def resumeRun (db : RunRecord) : Except Raised RunRecord :=
  advanceRun db .running fun run ↦ { run with pausedAt := none }

/-- `cancel_run` up to the status of the run. -/
def cancelRunStatus (now : Time) (db : RunRecord) : Except Raised RunRecord := do
  if db.run.status.isTerminal then
    throw (.relayvia
      { code := "RUN_ALREADY_TERMINAL"
        message := "Workflow Run is already in a terminal state"
        statusCode := 409
        details := [("status", .str db.run.status.value)] })
  let db ← advanceRun db .cancelled fun run ↦
    { run with cancelledAt := some now, finishedAt := some now }
  return db.recordEvent { eventType := .workflowCancelled, message := some "Workflow cancelled" }

def cancelOpenNode (now : Time) (nodeRun : NodeRun) : NodeRun :=
  if nodeRun.status.isTerminal then nodeRun
  else { nodeRun with status := .cancelled, finishedAt := nodeRun.finishedAt.or (some now) }

/-- The loop of `cancel_run` over the NodeRuns.  Every non-terminal status may go
to CANCELLED. -/
def cancelOpenNodes (now : Time) (db : RunRecord) : RunRecord :=
  { db with nodeRuns := db.nodeRuns.map (cancelOpenNode now) }

def cancelRun (now : Time) (db : RunRecord) : Except Raised RunRecord := do
  let db ← cancelRunStatus now db
  (cancelRunTasks now { cancelOpenNodes now db with }).commit

/-! ## Human actions -/

def lockNodeRun (db : RunRecord) (nodeRunId : NodeId) : Except RelayviaError NodeRun :=
  match findNodeRun db.nodeRuns nodeRunId with
  | some nodeRun => return nodeRun
  | none =>
      throw { code := "NODE_RUN_NOT_FOUND", message := "Node Run not found", statusCode := 404 }

def requireWaiting (nodeRun : NodeRun) : Except RelayviaError Unit :=
  if nodeRun.status = .waiting then return ()
  else
    throw
      { code := "NODE_RUN_NOT_WAITING"
        message := "Node Run is not in a waiting state"
        statusCode := 409
        details := [("status", .str nodeRun.status.value)] }

/-- The run must be running or waiting, and the node must wait for this action. -/
def waitingNode (run : WorkflowRun) (nodeRun : NodeRun) (subtype reason : String) :
    Except RelayviaError WorkflowNode :=
  if run.status ≠ .running ∧ run.status ≠ .waiting then
    throw
      { code := "WORKFLOW_RUN_NOT_ACTIONABLE"
        message := "Workflow Run must be running or waiting before this action can be applied"
        statusCode := 409
        details := [("status", .str run.status.value)] }
  else if nodeRun.nodeType ≠ .human ∨ nodeRun.nodeSubtype ≠ subtype ∨
      nodeRun.waitingReason ≠ some reason then
    throw
      { code := "NODE_RUN_ACTION_NOT_ALLOWED"
        message := "This action is not allowed for the waiting Node Run"
        statusCode := 409
        details :=
          [("node_type", .str nodeRun.nodeType.value), ("node_subtype", .str nodeRun.nodeSubtype),
            ("waiting_reason", (nodeRun.waitingReason.map .str).getD .null)] }
  else
    match run.graph.nodes.find? (·.id = nodeRun.nodeId) with
    | some node => return node
    | none =>
        throw
          { code := "NODE_SNAPSHOT_MISSING"
            message := "Node is missing from the Workflow Run snapshot"
            statusCode := 409 }

/-- What one human action writes. -/
structure HumanResult where
  target : NodeRunStatus
  output : Option Dict := none
  error : Option Dict := none
  action : String
  resumedMessage : String
  finishedType : RunEventType
  finishedMessage : String
  finishedPayload : Dict := []
  deriving DecidableEq

/-- The end of the three actions: the status, the value and the two events. -/
def applyHumanResult (now : Time) (db : RunRecord) (id : NodeId) (result : HumanResult) :
    Except Raised RunRecord := do
  transitionNodeRun .waiting result.target
  let db := db.modifyNode id fun r ↦
    { r with
      status := result.target, output := result.output.or r.output,
      error := result.error.or r.error, finishedAt := some now }
  let db := db.recordEvent
    { nodeRunId := some id
      eventType := .nodeResumed
      message := some result.resumedMessage
      payload := [("node_id", .str id), ("action", .str result.action)] }
  return db.recordEvent
    { nodeRunId := some id
      eventType := result.finishedType
      message := some result.finishedMessage
      payload := ("node_id", .str id) :: result.finishedPayload }

def approval : HumanResult where
  target := .completed
  output := some [("approved", .bool true)]
  action := "approve"
  resumedMessage := "Approval approved"
  finishedType := .nodeCompleted
  finishedMessage := "Node completed after approval"

def rejection : HumanResult where
  target := .failed
  error := some
    [("code", .str "REJECTED"), ("message", .str "Approval was rejected"),
      ("retryable", .bool false), ("details", .obj [])]
  action := "reject"
  resumedMessage := "Approval rejected"
  finishedType := .nodeFailed
  finishedMessage := "Node failed after rejection"
  finishedPayload := [("error_code", .str "REJECTED")]

def submission (input : Dict) : HumanResult where
  target := .completed
  output := some input
  action := "submit"
  resumedMessage := "Human input submitted"
  finishedType := .nodeCompleted
  finishedMessage := "Node completed after human input"

/-- The first transaction of `approve_node_run`. -/
def approveNodeRun (now : Time) (id : NodeId) (db : RunRecord) : Except Raised RunRecord := do
  let nodeRun ← lockNodeRun db id
  requireWaiting nodeRun
  let _ ← waitingNode db.run nodeRun "approval" "HUMAN_APPROVAL"
  applyHumanResult now db id approval

/-- The first transaction of `reject_node_run`. -/
def rejectNodeRun (now : Time) (id : NodeId) (db : RunRecord) : Except Raised RunRecord := do
  let nodeRun ← lockNodeRun db id
  requireWaiting nodeRun
  let node ← waitingNode db.run nodeRun "approval" "HUMAN_APPROVAL"
  if ¬((Dict.get? node.config "allow_reject").getD (.bool true)).truthy then
    throw (.relayvia
      { code := "HUMAN_REJECTION_DISABLED"
        message := "This approval does not allow rejection"
        statusCode := 409 })
  applyHumanResult now db id rejection

/-- The submitted data against the form schema of the node. -/
def checkHumanInput (env : Env) (node : WorkflowNode) (input : Dict) :
    Except RelayviaError Unit :=
  match Dict.get? node.config "form_schema" with
  | some (.obj schema) =>
      if schema = [] then return ()
      else if ¬env.schemaValid schema then
        throw
          { code := "INVALID_HUMAN_INPUT_SCHEMA"
            message := "Human Input schema is invalid"
            statusCode := 409 }
      else if env.schemaErrors schema input ≠ [] then
        throw
          { code := "INVALID_HUMAN_INPUT"
            message := "Submitted input does not match the Human Input schema"
            statusCode := 422
            details := [("errors", .arr ((env.schemaErrors schema input).map .str))] }
      else return ()
  | _ => return ()

/-- The first transaction of `submit_node_run`. -/
def submitNodeRun (env : Env) (now : Time) (id : NodeId) (input : Dict) (db : RunRecord) :
    Except Raised RunRecord := do
  let nodeRun ← lockNodeRun db id
  requireWaiting nodeRun
  let node ← waitingNode db.run nodeRun "input" "HUMAN_INPUT"
  checkHumanInput env node input
  applyHumanResult now db id (submission input)

end Relayvia
