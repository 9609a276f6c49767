import Relayvia.Models

/-!
# Validation issues

The issues that the rules of the validation engine report, the registry
snapshots that they read, and the helpers that all rules share.
-/

namespace Relayvia

inductive ValidationCode where
  | graphEmpty | duplicateNodeId | duplicateEdgeId | invalidEdgeSource | invalidEdgeTarget
  | selfConnection | duplicateConnection
  | missingInputNode | multipleInputNodes | missingOutputNode | invalidInputNodeEdge
  | invalidOutputNodeEdge | unsupportedCycle | unreachableNode | deadEndBranch | invalidParallel
  | invalidMerge | invalidParallelMergeStructure
  | missingAgentReference | agentNotFound | agentDisabled | agentUnhealthy
  | unsupportedAgentConnector | missingServiceReference | serviceNotFound | serviceDisabled
  | serviceUnhealthy | missingServiceActionReference | serviceActionNotFound
  | serviceActionDisabled | serviceActionMismatch
  | missingRequiredConfig | invalidCondition | invalidConditionOperator | invalidConditionBranch
  | invalidWaitConfig | unsupportedWaitMode | invalidHumanConfig | invalidDataInput
  | invalidDataOutput | invalidTransformConfig | unsupportedNodeExecution
  | invalidContextReference | unknownContextNode | unknownVariable | invalidOutputReference
  | unknownWorkflowInput | invalidDataDependency | invalidParallelDataDependency
  | unknownInputField | missingRequiredInput | schemaTypeMismatch
  deriving DecidableEq, Repr

def ValidationCode.value : ValidationCode → String
  | graphEmpty => "GRAPH_EMPTY"
  | duplicateNodeId => "DUPLICATE_NODE_ID"
  | duplicateEdgeId => "DUPLICATE_EDGE_ID"
  | invalidEdgeSource => "INVALID_EDGE_SOURCE"
  | invalidEdgeTarget => "INVALID_EDGE_TARGET"
  | selfConnection => "SELF_CONNECTION"
  | duplicateConnection => "DUPLICATE_CONNECTION"
  | missingInputNode => "MISSING_INPUT_NODE"
  | multipleInputNodes => "MULTIPLE_INPUT_NODES"
  | missingOutputNode => "MISSING_OUTPUT_NODE"
  | invalidInputNodeEdge => "INVALID_INPUT_NODE_EDGE"
  | invalidOutputNodeEdge => "INVALID_OUTPUT_NODE_EDGE"
  | unsupportedCycle => "UNSUPPORTED_CYCLE"
  | unreachableNode => "UNREACHABLE_NODE"
  | deadEndBranch => "DEAD_END_BRANCH"
  | invalidParallel => "INVALID_PARALLEL"
  | invalidMerge => "INVALID_MERGE"
  | invalidParallelMergeStructure => "INVALID_PARALLEL_MERGE_STRUCTURE"
  | missingAgentReference => "MISSING_AGENT_REFERENCE"
  | agentNotFound => "AGENT_NOT_FOUND"
  | agentDisabled => "AGENT_DISABLED"
  | agentUnhealthy => "AGENT_UNHEALTHY"
  | unsupportedAgentConnector => "UNSUPPORTED_AGENT_CONNECTOR"
  | missingServiceReference => "MISSING_SERVICE_REFERENCE"
  | serviceNotFound => "SERVICE_NOT_FOUND"
  | serviceDisabled => "SERVICE_DISABLED"
  | serviceUnhealthy => "SERVICE_UNHEALTHY"
  | missingServiceActionReference => "MISSING_SERVICE_ACTION_REFERENCE"
  | serviceActionNotFound => "SERVICE_ACTION_NOT_FOUND"
  | serviceActionDisabled => "SERVICE_ACTION_DISABLED"
  | serviceActionMismatch => "SERVICE_ACTION_MISMATCH"
  | missingRequiredConfig => "MISSING_REQUIRED_CONFIG"
  | invalidCondition => "INVALID_CONDITION"
  | invalidConditionOperator => "INVALID_CONDITION_OPERATOR"
  | invalidConditionBranch => "INVALID_CONDITION_BRANCH"
  | invalidWaitConfig => "INVALID_WAIT_CONFIG"
  | unsupportedWaitMode => "UNSUPPORTED_WAIT_MODE"
  | invalidHumanConfig => "INVALID_HUMAN_CONFIG"
  | invalidDataInput => "INVALID_DATA_INPUT"
  | invalidDataOutput => "INVALID_DATA_OUTPUT"
  | invalidTransformConfig => "INVALID_TRANSFORM_CONFIG"
  | unsupportedNodeExecution => "UNSUPPORTED_NODE_EXECUTION"
  | invalidContextReference => "INVALID_CONTEXT_REFERENCE"
  | unknownContextNode => "UNKNOWN_CONTEXT_NODE"
  | unknownVariable => "UNKNOWN_VARIABLE"
  | invalidOutputReference => "INVALID_OUTPUT_REFERENCE"
  | unknownWorkflowInput => "UNKNOWN_WORKFLOW_INPUT"
  | invalidDataDependency => "INVALID_DATA_DEPENDENCY"
  | invalidParallelDataDependency => "INVALID_PARALLEL_DATA_DEPENDENCY"
  | unknownInputField => "UNKNOWN_INPUT_FIELD"
  | missingRequiredInput => "MISSING_REQUIRED_INPUT"
  | schemaTypeMismatch => "SCHEMA_TYPE_MISMATCH"

inductive Severity where
  | error | warning
  deriving DecidableEq, Repr

structure ValidationIssue where
  code : ValidationCode
  severity : Severity := .error
  message : String
  nodeId : Option NodeId := none
  edgeId : Option String := none
  field : Option String := none
  details : Dict := []
  deriving DecidableEq

structure ValidationResult where
  valid : Bool
  errors : List ValidationIssue := []
  warnings : List ValidationIssue := []
  deriving DecidableEq

/-- `ValidationResult.from_issues`. -/
def ValidationResult.fromIssues (issues : List ValidationIssue) : ValidationResult where
  valid := ¬issues.any (·.severity = .error)
  errors := issues.filter (·.severity = .error)
  warnings := issues.filter (·.severity = .warning)

/-! ## Registry snapshots -/

structure RegistryAgent where
  id : String
  name : String
  enabled : Bool
  connectorType : String := "http"
  status : String := "unknown"
  inputSchema : Dict := []
  outputSchema : Dict := []

structure RegistryService where
  id : String
  name : String
  enabled : Bool
  status : String := "unknown"

structure RegistryServiceAction where
  id : String
  serviceId : String
  name : String
  enabled : Bool
  querySchema : Dict := []
  pathSchema : Dict := []
  inputSchema : Dict := []
  outputSchema : Dict := []

structure ValidationContext where
  agents : List (String × RegistryAgent) := []
  services : List (String × RegistryService) := []
  serviceActions : List (String × RegistryServiceAction) := []

/-! ## Helpers -/

/-- `repr(value)`. -/
def Env.repr (env : Env) : Json → String
  | .str s => Python.repr s
  | value => env.pyStr value

/-- `table.get(key)` for a key from a JSON document: a list or a dict cannot be
hashed, and only a string can equal a key of the table. -/
def getKey {α : Type} (table : List (String × α)) : Json → Except Raised (Option α)
  | .str key => .ok (table.lookup key)
  | .arr _ | .obj _ => .error .typeError
  | _ => .ok none

/-- `key in table` for such a key. -/
def hasKey {α : Type} (table : List (String × α)) (key : Json) : Except Raised Bool :=
  (getKey table key).map Option.isSome

/-- `config.get(key)`, where a missing key gives `None`. -/
def WorkflowNode.configValue (node : WorkflowNode) (key : String) : Json :=
  (Dict.get? node.config key).getD .null

def WorkflowNode.isLogic (node : WorkflowNode) (subtype : String) : Bool :=
  node.type = .logic ∧ node.subtype = subtype

/-- The issue when the condition holds. -/
def issueIf (c : Prop) [Decidable c] (issue : ValidationIssue) : List ValidationIssue :=
  if c then [issue] else []

/-- No issue of the list is an error. -/
def Clean (issues : List ValidationIssue) : Prop :=
  ∀ issue ∈ issues, issue.severity ≠ .error

@[simp] theorem clean_nil : Clean [] := by
  simp [Clean]

@[simp] theorem clean_append {a b : List ValidationIssue} :
    Clean (a ++ b) ↔ Clean a ∧ Clean b := by
  simp [Clean, or_imp, forall_and]

@[simp] theorem clean_issueIf {c : Prop} [Decidable c] {issue : ValidationIssue} :
    Clean (issueIf c issue) ↔ (c → issue.severity ≠ .error) := by
  unfold issueIf
  split <;> simp_all [Clean]

theorem eq_of_mem_issueIf {c : Prop} [Decidable c] {issue issue' : ValidationIssue}
    (h : issue' ∈ issueIf c issue) : issue' = issue := by
  unfold issueIf at h
  split at h
  · exact List.mem_singleton.mp h
  · cases h

@[simp] theorem clean_flatMap {α : Type} {xs : List α} {f : α → List ValidationIssue} :
    Clean (xs.flatMap f) ↔ ∀ x ∈ xs, Clean (f x) := by
  simp only [Clean, List.mem_flatMap]
  exact ⟨fun h x hx i hi ↦ h i ⟨x, hx, hi⟩, fun h i ⟨x, hx, hi⟩ ↦ h x hx i hi⟩

@[simp] theorem clean_map {α : Type} {xs : List α} {f : α → ValidationIssue} :
    Clean (xs.map f) ↔ ∀ x ∈ xs, (f x).severity ≠ .error := by
  simp [Clean]

@[simp] theorem ValidationResult.valid_fromIssues {issues : List ValidationIssue} :
    (ValidationResult.fromIssues issues).valid = true ↔ Clean issues := by
  simp [ValidationResult.fromIssues, Clean]

end Relayvia
