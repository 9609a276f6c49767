import Relayvia.Json

/-!
# Status machines

The transition tables of WorkflowRun, NodeRun and ExecutionTask, and the
checked transitions that every status change goes through.
-/

namespace Relayvia

/-- A safe, structured error intended for the public API. -/
structure RelayviaError where
  code : String
  message : String
  statusCode : ℕ := 400
  details : List (String × Json) := []
  deriving DecidableEq

inductive WorkflowRunStatus where
  | created | running | waiting | paused | completed | failed | cancelled
  deriving DecidableEq, Repr

inductive NodeRunStatus where
  | pending | queued | running | waiting | retrying | completed | failed | skipped | cancelled
  deriving DecidableEq, Repr

inductive ExecutionTaskStatus where
  | pending | claimed | running | retryWait | completed | failed | cancelled
  deriving DecidableEq, Repr

namespace WorkflowRunStatus

def value : WorkflowRunStatus → String
  | created => "created"
  | running => "running"
  | waiting => "waiting"
  | paused => "paused"
  | completed => "completed"
  | failed => "failed"
  | cancelled => "cancelled"

def transitions : WorkflowRunStatus → List WorkflowRunStatus
  | created => [running, cancelled]
  | running => [waiting, paused, completed, failed, cancelled]
  | waiting => [running, paused, failed, cancelled]
  | paused => [running, cancelled]
  | completed | failed | cancelled => []

def isTerminal : WorkflowRunStatus → Bool
  | completed | failed | cancelled => true
  | _ => false

end WorkflowRunStatus

namespace NodeRunStatus

def value : NodeRunStatus → String
  | pending => "pending"
  | queued => "queued"
  | running => "running"
  | waiting => "waiting"
  | retrying => "retrying"
  | completed => "completed"
  | failed => "failed"
  | skipped => "skipped"
  | cancelled => "cancelled"

def transitions : NodeRunStatus → List NodeRunStatus
  | pending => [queued, skipped, cancelled]
  | queued => [running, cancelled]
  | running => [completed, failed, waiting, retrying, cancelled]
  | waiting => [running, completed, failed, cancelled]
  | retrying => [queued, failed, cancelled]
  | completed | failed | skipped | cancelled => []

def isTerminal : NodeRunStatus → Bool
  | completed | failed | skipped | cancelled => true
  | _ => false

end NodeRunStatus

namespace ExecutionTaskStatus

def value : ExecutionTaskStatus → String
  | pending => "pending"
  | claimed => "claimed"
  | running => "running"
  | retryWait => "retry_wait"
  | completed => "completed"
  | failed => "failed"
  | cancelled => "cancelled"

def transitions : ExecutionTaskStatus → List ExecutionTaskStatus
  | pending => [claimed, cancelled]
  | claimed => [running, pending, cancelled]
  | running => [completed, retryWait, failed, cancelled, pending]
  | retryWait => [pending, failed, cancelled]
  | completed | failed | cancelled => []

def isTerminal : ExecutionTaskStatus → Bool
  | completed | failed | cancelled => true
  | _ => false

end ExecutionTaskStatus

/-- The error of the three `transition_*` functions. -/
def invalidTransition (code what current target : String) : RelayviaError where
  code := code
  message := what ++ " cannot transition from '" ++ current ++ "' to '" ++ target ++ "'"
  statusCode := 409
  details := [("current", .str current), ("target", .str target)]

/-- One check for the three tables: raise unless `target` is listed. -/
def checkTransition {S : Type} [DecidableEq S] (table : S → List S) (value : S → String)
    (code what : String) (current target : S) : Except RelayviaError Unit :=
  if target ∈ table current then .ok ()
  else .error (invalidTransition code what (value current) (value target))

def transitionWorkflowRun (current target : WorkflowRunStatus) : Except RelayviaError Unit :=
  checkTransition WorkflowRunStatus.transitions WorkflowRunStatus.value
    "INVALID_WORKFLOW_RUN_TRANSITION" "Workflow Run" current target

def transitionNodeRun (current target : NodeRunStatus) : Except RelayviaError Unit :=
  checkTransition NodeRunStatus.transitions NodeRunStatus.value
    "INVALID_NODE_RUN_TRANSITION" "Node Run" current target

def transitionExecutionTask (current target : ExecutionTaskStatus) : Except RelayviaError Unit :=
  checkTransition ExecutionTaskStatus.transitions ExecutionTaskStatus.value
    "INVALID_EXECUTION_TASK_TRANSITION" "Execution Task" current target

theorem checkTransition_ok_iff {S : Type} [DecidableEq S] {table : S → List S}
    {value : S → String} {code what : String} {current target : S} :
    checkTransition table value code what current target = .ok () ↔ target ∈ table current := by
  unfold checkTransition
  split <;> simp_all

theorem transitionWorkflowRun_ok_iff {current target : WorkflowRunStatus} :
    transitionWorkflowRun current target = .ok () ↔ target ∈ current.transitions :=
  checkTransition_ok_iff

theorem transitionNodeRun_ok_iff {current target : NodeRunStatus} :
    transitionNodeRun current target = .ok () ↔ target ∈ current.transitions :=
  checkTransition_ok_iff

theorem transitionExecutionTask_ok_iff {current target : ExecutionTaskStatus} :
    transitionExecutionTask current target = .ok () ↔ target ∈ current.transitions :=
  checkTransition_ok_iff

/-- A terminal status has no way out, in each of the three machines. -/
theorem WorkflowRunStatus.transitions_eq_nil_iff {s : WorkflowRunStatus} :
    s.transitions = [] ↔ s.isTerminal = true := by
  cases s <;> decide

theorem NodeRunStatus.transitions_eq_nil_iff {s : NodeRunStatus} :
    s.transitions = [] ↔ s.isTerminal = true := by
  cases s <;> decide

theorem ExecutionTaskStatus.transitions_eq_nil_iff {s : ExecutionTaskStatus} :
    s.transitions = [] ↔ s.isTerminal = true := by
  cases s <;> decide

end Relayvia
