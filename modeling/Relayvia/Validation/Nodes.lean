import Relayvia.Validation.Result

/-!
# Registry references and node configuration

The third and fourth pass of the validation engine: the Agents, Services and
Actions that nodes refer to, and the configuration of the other node types.
-/

namespace Relayvia

/-! ## Registry references -/

/-- An error or warning about one field of the configuration of a node. -/
def configIssue (node : WorkflowNode) (field : String) (code : ValidationCode)
    (message : String) : ValidationIssue where
  code := code
  message := message
  nodeId := some node.id
  field := some ("config." ++ field)

def supportedConnectors : List String :=
  ["http", "codex"]

def agentIssues (env : Env) (context : ValidationContext) (node : WorkflowNode) :
    Except Raised (List ValidationIssue) := do
  let issue := configIssue node "agent_id"
  let agentId := node.configValue "agent_id"
  if ¬agentId.truthy then
    return [issue .missingAgentReference "Agent node does not reference an existing agent"]
  match ← getKey context.agents agentId with
  | none => return [issue .agentNotFound ("Agent " ++ env.repr agentId ++ " is not registered")]
  | some agent =>
      let name := Python.repr agent.name
      return issueIf (agent.enabled = false)
          (issue .agentDisabled ("Agent " ++ name ++ " is disabled")) ++
        if agent.connectorType ∉ supportedConnectors then
          [{ issue .unsupportedAgentConnector
              ("Agent connector " ++ Python.repr agent.connectorType ++
                " cannot be published because no Execution Unit is installed") with
            details :=
              [("connector_type", .str agent.connectorType),
                ("supported", .arr (supportedConnectors.map .str))] }]
        else
          issueIf (agent.status = "unhealthy")
            { issue .agentUnhealthy ("Agent " ++ name ++ " is currently unhealthy") with
              severity := .warning }

def serviceReferenceIssues (env : Env) (context : ValidationContext) (node : WorkflowNode)
    (serviceId : Json) : Except Raised (List ValidationIssue) := do
  let issue := configIssue node "service_id"
  if ¬serviceId.truthy then
    return [issue .missingServiceReference "Service node does not reference a service"]
  match ← getKey context.services serviceId with
  | none =>
      return [issue .serviceNotFound ("Service " ++ env.repr serviceId ++ " is not registered")]
  | some service =>
      let name := Python.repr service.name
      if ¬service.enabled then
        return [issue .serviceDisabled ("Service " ++ name ++ " is disabled")]
      else
        return issueIf (service.status = "unhealthy")
          { issue .serviceUnhealthy ("Service " ++ name ++ " is currently unhealthy") with
            severity := .warning }

def actionReferenceIssues (env : Env) (context : ValidationContext) (node : WorkflowNode)
    (serviceId actionId : Json) : Except Raised (List ValidationIssue) := do
  let issue := configIssue node "service_action_id"
  if ¬actionId.truthy then
    return [issue .missingServiceActionReference "Service node does not reference a service action"]
  match ← getKey context.serviceActions actionId with
  | none =>
      return [issue .serviceActionNotFound
        ("Service action " ++ env.repr actionId ++ " is not registered")]
  | some action =>
      if serviceId.truthy ∧ Json.str action.serviceId ≠ serviceId then
        return [issue .serviceActionMismatch
          "Service action does not belong to the referenced service"]
      else
        return issueIf (action.enabled = false)
          (issue .serviceActionDisabled
            ("Service action " ++ Python.repr action.name ++ " is disabled"))

def serviceIssues (env : Env) (context : ValidationContext) (node : WorkflowNode) :
    Except Raised (List ValidationIssue) := do
  let serviceId := node.configValue "service_id"
  let actionId := node.configValue "service_action_id"
  return (← serviceReferenceIssues env context node serviceId) ++
    (← actionReferenceIssues env context node serviceId actionId)

/-- The issues of the nodes one after the other. -/
def forNodes (g : WorkflowGraph) (rule : WorkflowNode → Except Raised (List ValidationIssue)) :
    Except Raised (List ValidationIssue) := do
  return (← g.nodes.mapM rule).flatten

def validateReferences (env : Env) (context : ValidationContext) (g : WorkflowGraph) :
    Except Raised (List ValidationIssue) :=
  forNodes g fun node ↦
    match node.type with
    | .agent => agentIssues env context node
    | .service => serviceIssues env context node
    | _ => .ok []

/-! ## Conditions -/

def conditionOperators : List String :=
  ["==", "!=", ">", ">=", "<", "<=", "contains", "not_contains", "is_empty", "is_not_empty"]

def conditionHandles : List String :=
  ["true", "false"]

/-- `operator not in CONDITION_OPERATORS`. -/
def unsupportedOperator (operator : Json) : Except Raised Bool :=
  (hasKey (conditionOperators.map (·, ())) operator).map (!·)

def comparisonIssues (env : Env) (node : WorkflowNode) (fields : Dict) :
    Except Raised (List ValidationIssue) := do
  let left := (Dict.get? fields "left").getD .null
  let operator := (Dict.get? fields "operator").getD .null
  let unsupported ← unsupportedOperator operator
  return issueIf (left = .null ∨ left = .str "")
      (configIssue node "expression.left" .invalidCondition "Condition left value is required") ++
    issueIf (unsupported = true)
      (configIssue node "expression.operator" .invalidConditionOperator
        ("Condition operator " ++ env.repr operator ++ " is not supported"))

def expressionIssue (node : WorkflowNode) (message : String) : ValidationIssue :=
  configIssue node "expression" .invalidCondition message

mutual

/-- `_validate_expression` where the clause is a dict: a comparison, or an AND/OR
of clauses. -/
def validateClause (env : Env) (node : WorkflowNode) : Json → Except Raised (List ValidationIssue)
  | .obj fields =>
      match clausesAt env node "and" fields, clausesAt env node "or" fields with
      | some _, some _ =>
          .ok [expressionIssue node "Condition expression cannot combine 'and' and 'or'"]
      | some issues, none | none, some issues => issues
      | none, none => comparisonIssues env node fields
  | _ => .ok [expressionIssue node "Condition clauses must be structured expressions"]

/-- The issues of the clauses under `key`, when the expression has that key. -/
def clausesAt (env : Env) (node : WorkflowNode) (key : String) :
    List (String × Json) → Option (Except Raised (List ValidationIssue))
  | [] => none
  | (k, value) :: fields =>
      if k = key then some (validateClauses env node value) else clausesAt env node key fields

def validateClauses (env : Env) (node : WorkflowNode) :
    Json → Except Raised (List ValidationIssue)
  | .arr (clause :: clauses) => do
      return (← validateClause env node clause) ++ (← validateClauseItems env node clauses)
  | _ =>
      .ok [expressionIssue node "Condition 'and'/'or' requires a non-empty clause list"]

def validateClauseItems (env : Env) (node : WorkflowNode) :
    List Json → Except Raised (List ValidationIssue)
  | [] => .ok []
  | clause :: clauses => do
      return (← validateClause env node clause) ++ (← validateClauseItems env node clauses)

end

/-- The branches of a Condition: every edge leaves by a handle, and each handle
has exactly one edge. -/
def branchIssues (g : WorkflowGraph) (node : WorkflowNode) : List ValidationIssue :=
  let outgoing := g.outgoingEdges node.id
  (outgoing.flatMap fun e ↦
      issueIf (e.sourceHandle ≠ some "true" ∧ e.sourceHandle ≠ some "false")
        { code := .invalidConditionBranch
          message := "Condition output edges must use the true/false source handle"
          edgeId := some e.id
          nodeId := some node.id
          field := some "edges[].source_handle" }) ++
    conditionHandles.flatMap fun handle ↦
      let edges := outgoing.filter (·.sourceHandle = some handle)
      issueIf (edges.length = 0)
          { code := .invalidConditionBranch
            message := "Condition requires exactly one " ++ Python.repr handle ++ " branch"
            nodeId := some node.id
            field := some "edges[]"
            details := [("branch", .str handle)] } ++
        issueIf (1 < edges.length)
          { code := .invalidConditionBranch
            message := "Condition must have a single " ++ Python.repr handle ++ " branch"
            nodeId := some node.id
            field := some "edges[]"
            details :=
              [("branch", .str handle), ("edge_ids", .arr (edges.map fun e ↦ .str e.id))] }

def conditionIssues (env : Env) (g : WorkflowGraph) (node : WorkflowNode) :
    Except Raised (List ValidationIssue) :=
  match node.configValue "expression" with
  | .obj expression => do
      return (← validateClause env node (.obj expression)) ++ branchIssues g node
  | _ => .ok [expressionIssue node "Condition requires a structured expression"]

/-! ## The other node types -/

/-- `not isinstance(duration, int) or duration <= 0`; a bool is an int. -/
def invalidDuration : Json → Bool
  | .int i => i ≤ 0
  | .bool b => !b
  | _ => true

def waitIssues (env : Env) (node : WorkflowNode) : List ValidationIssue :=
  issueIf (node.configValue "mode" ≠ .str "duration")
      (configIssue node "mode" .unsupportedWaitMode
        ("Wait mode " ++ env.repr (node.configValue "mode") ++ " is not supported in V1")) ++
    issueIf (invalidDuration (node.configValue "duration_seconds") = true)
      (configIssue node "duration_seconds" .invalidWaitConfig
        "Wait duration must be greater than 0")

def logicIssues (env : Env) (g : WorkflowGraph) (node : WorkflowNode) :
    Except Raised (List ValidationIssue) :=
  match node.subtype with
  | "condition" => conditionIssues env g node
  | "wait" => .ok (waitIssues env node)
  | "router" =>
      .ok
        [{ code := .unsupportedNodeExecution
           message := "Router nodes cannot be published because Router execution semantics " ++
            "are not implemented"
           nodeId := some node.id
           field := some "type" }]
  | _ => .ok []

/-- A value that is not a JSON Schema of type object. -/
def notObjectSchema (schema : Json) : Bool :=
  schema.get? "type" ≠ some (.str "object")

def humanIssues (node : WorkflowNode) : List ValidationIssue :=
  match node.subtype with
  | "approval" =>
      issueIf ((node.configValue "title").truthy = false)
        (configIssue node "title" .missingRequiredConfig "Approval title is required")
  | "input" =>
      issueIf (notObjectSchema (node.configValue "form_schema") = true)
        (configIssue node "form_schema" .invalidHumanConfig
          "Human Input form schema must be a JSON Schema object")
  | _ => []

def dataIssues (node : WorkflowNode) : List ValidationIssue :=
  match node.subtype with
  | "input" =>
      issueIf (notObjectSchema (node.configValue "schema") = true)
        (configIssue node "schema" .invalidDataInput
          "Data Input schema must declare type 'object'")
  | "transform" =>
      issueIf ((node.configValue "mappings").isDict = false)
        (configIssue node "mappings" .invalidTransformConfig
          "Transform mappings must be an object")
  | "output" =>
      issueIf ((node.configValue "output_mapping").isDict = false)
        (configIssue node "output_mapping" .invalidDataOutput
          "Data Output mapping must be an object")
  | _ => []

def toolIssues (node : WorkflowNode) : List ValidationIssue :=
  issueIf ((node.configValue "command").truthy = false)
    (configIssue node "command" .missingRequiredConfig "Tool command is required")

def validateNodes (env : Env) (g : WorkflowGraph) : Except Raised (List ValidationIssue) :=
  forNodes g fun node ↦
    match node.type with
    | .agent | .service => .ok []
    | .tool => .ok (toolIssues node)
    | .logic => logicIssues env g node
    | .human => .ok (humanIssues node)
    | .data => .ok (dataIssues node)

end Relayvia
