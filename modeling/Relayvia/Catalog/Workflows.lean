import Relayvia.Catalog.Resources
import Relayvia.Validation.Totality

/-!
# Workflows and the resources that they use

The drafts and the published versions, the scan of them that protects a resource, and the
operations on the whole catalog.
-/

namespace Relayvia

inductive WorkflowStatus where
  | draft | active | archived
  deriving DecidableEq

structure WorkflowRow where
  id : String
  name : String
  status : WorkflowStatus := .draft
  /-- `parse_workflow_graph(draft_graph_json)` -/
  draft : ContractGraph
  currentVersion : Option ℕ := none

structure WorkflowVersionRow where
  workflowId : String
  version : ℕ
  /-- `parse_workflow_graph(graph_json)` -/
  graph : ContractGraph

/-- The tables of the registry and of the workflows. -/
structure Catalog where
  agents : List CatalogAgent := []
  services : List CatalogService := []
  actions : List CatalogAction := []
  workflows : List WorkflowRow := []
  versions : List WorkflowVersionRow := []

/-! ## Lookups -/

/-- `db.get(Model, key)`: the primary key is compared with a text. -/
def getRow {R : Type} (key : R → String) (rows : List R) : Json → Option R
  | .str id => Table.find? key id rows
  | _ => none

def Catalog.agent? (db : Catalog) (id : String) : Option CatalogAgent :=
  Table.find? (·.id) id db.agents

def Catalog.service? (db : Catalog) (id : String) : Option CatalogService :=
  Table.find? (·.id) id db.services

def Catalog.workflow? (db : Catalog) (id : String) : Option WorkflowRow :=
  Table.find? WorkflowRow.id id db.workflows

/-- `_get_action`: the action of this Service. -/
def Catalog.action? (db : Catalog) (serviceId actionId : String) : Option CatalogAction :=
  db.actions.find? fun action ↦ action.id = actionId ∧ action.serviceId = serviceId

/-- The rows in the validation engine. -/
def Catalog.registry (db : Catalog) : Registry where
  agents := db.agents.map fun agent ↦ agent.toAgentRow
  services := db.services.map fun service ↦ service.toServiceRow
  actions := db.actions.map fun action ↦ action.toServiceActionRow

def notFound (code message : String) : RelayviaError where
  code := code
  message := message
  statusCode := 404

def required {α : Type} (code message : String) : Option α → Except RelayviaError α
  | some row => return row
  | none => throw (notFound code message)

/-! ## Stored graphs -/

/-- A node of `graph.model_dump(mode="json")`, with the members that a scan may read. -/
def nodeJson (node : WorkflowNode) : Json :=
  .obj
    [("id", .str node.id), ("type", .str node.type.value), ("subtype", .str node.subtype),
      ("name", .str node.name), ("config", .obj node.config),
      ("input_mapping", .obj node.inputMapping)]

/-- `_graph_json`: the members that a scan may read. -/
def graphJson (g : WorkflowGraph) : Json :=
  .obj [("schema_version", .str "1.0"), ("nodes", .arr (g.nodes.map nodeJson))]

inductive ResourceType where
  | agent | service | serviceAction
  deriving DecidableEq

def ResourceType.value : ResourceType → String
  | .agent => "agent"
  | .service => "service"
  | .serviceAction => "service_action"

/-- The node type and the config key under which a resource is used. -/
def ResourceType.usage : ResourceType → String × String
  | .agent => ("agent", "agent_id")
  | .service => ("service", "service_id")
  | .serviceAction => ("service", "service_action_id")

/-- `_nodes`. -/
def storedNodes : Json → List Dict
  | .obj fields =>
      match (Dict.get? fields "nodes").getD (.arr []) with
      | .arr items =>
          items.filterMap fun item ↦
            match item with
            | .obj node => some node
            | _ => none
      | _ => []
  | _ => []

/-- `_node_references`. -/
def nodeReferences (node : Dict) (resourceType : ResourceType) (resourceId : String) : Bool :=
  match Dict.get? node "config" with
  | some (.obj config) =>
      Dict.get? node "type" = some (.str resourceType.usage.1) ∧
        Dict.get? config resourceType.usage.2 = some (.str resourceId)
  | _ => false

def Catalog.storedGraphs (db : Catalog) : List ContractGraph :=
  db.workflows.map WorkflowRow.draft ++ db.versions.map WorkflowVersionRow.graph

/-- `is_resource_referenced`: all drafts, then all versions. -/
def isResourceReferenced (db : Catalog) (resourceType : ResourceType) (resourceId : String) :
    Bool :=
  db.storedGraphs.any fun g ↦
    (storedNodes (graphJson g.toWorkflowGraph)).any (nodeReferences · resourceType resourceId)

def ensureResourceNotReferenced (db : Catalog) (resourceType : ResourceType)
    (resourceId : String) : Except RelayviaError Unit :=
  if isResourceReferenced db resourceType resourceId then
    throw
      { code := "RESOURCE_IN_USE"
        message := "Resource is referenced by a Workflow and cannot be deleted"
        statusCode := 409
        details :=
          [("resource_type", .str resourceType.value), ("resource_id", .str resourceId)] }
  else return ()

/-! ## References of a graph -/

structure GraphWarning where
  code : String
  message : String
  details : Dict := []
  deriving DecidableEq

def warningIf (disabled : Bool) (code message : String) (details : Dict) : List GraphWarning :=
  if disabled then [{ code := code, message := message, details := details }] else []

def invalidReference (code message : String) (details : Dict) : RelayviaError where
  code := code
  message := message
  details := details

/-- The turn of `_validate_registry_references` for an Agent node. -/
def agentReferenceWarnings (db : Catalog) (node : WorkflowNode) :
    Except RelayviaError (List GraphWarning) :=
  let agentId := node.configValue "agent_id"
  let details : Dict := [("node_id", .str node.id), ("agent_id", agentId)]
  match getRow (·.id) db.agents agentId with
  | none =>
      throw (invalidReference "INVALID_AGENT_REFERENCE"
        "Agent Node references an Agent that does not exist" details)
  | some agent =>
      return warningIf (¬agent.enabled) "DISABLED_AGENT_REFERENCE" "Referenced Agent is disabled"
        details

/-- The turn of `_validate_registry_references` for a Service node. -/
def serviceReferenceWarnings (db : Catalog) (node : WorkflowNode) :
    Except RelayviaError (List GraphWarning) :=
  let serviceId := node.configValue "service_id"
  let actionId := node.configValue "service_action_id"
  let serviceDetails : Dict := [("node_id", .str node.id), ("service_id", serviceId)]
  let actionDetails : Dict := [("node_id", .str node.id), ("service_action_id", actionId)]
  match getRow (·.id) db.services serviceId with
  | none =>
      throw (invalidReference "INVALID_SERVICE_REFERENCE"
        "Service Node references a Service that does not exist" serviceDetails)
  | some service =>
      match getRow (·.id) db.actions actionId with
      | none =>
          throw (invalidReference "INVALID_SERVICE_ACTION_REFERENCE"
            "Service Node references a Service Action that does not exist" actionDetails)
      | some action =>
          if serviceId ≠ .str action.serviceId then
            throw (invalidReference "INVALID_SERVICE_ACTION_REFERENCE"
              "Service Action does not belong to the referenced Service"
              (serviceDetails ++ [("service_action_id", actionId)]))
          else
            return warningIf (¬service.enabled) "DISABLED_SERVICE_REFERENCE"
                "Referenced Service is disabled" serviceDetails ++
              warningIf (¬action.enabled) "DISABLED_SERVICE_ACTION_REFERENCE"
                "Referenced Service Action is disabled" actionDetails

def referenceWarnings (db : Catalog) (node : WorkflowNode) :
    Except RelayviaError (List GraphWarning) :=
  match node.type with
  | .agent => agentReferenceWarnings db node
  | .service => serviceReferenceWarnings db node
  | _ => return []

/-- `_validate_registry_references`. -/
def validateRegistryReferences (db : Catalog) (g : WorkflowGraph) :
    Except RelayviaError (List GraphWarning) := do
  return (← g.nodes.mapM (referenceWarnings db)).flatten

/-! ## Operations -/

/-- The operations of the registry and the workflow API, with what their callers choose and
the ids that `uuid4` gives the new rows. -/
inductive CatalogOp where
  | createAgent (around : Surroundings) (id : String) (payload : AgentCreate)
  | updateAgent (around : Surroundings) (id : String) (changes : AgentUpdate)
  | deleteAgent (id : String)
  | createService (around : Surroundings) (id : String) (payload : ServiceCreate)
  | updateService (around : Surroundings) (id : String) (changes : ServiceUpdate)
  | deleteService (id : String)
  | createAction (id serviceId : String) (payload : ServiceActionCreate)
  | updateAction (serviceId id : String) (changes : ServiceActionUpdate)
  | deleteAction (serviceId id : String)
  | createWorkflow (id name : String) (graph : Option ContractGraph)
  | updateWorkflow (id : String) (name : Option String) (status : Option WorkflowStatus)
  | deleteWorkflow (id : String)
  | updateDraftGraph (id : String) (graph : ContractGraph)
  | createVersion (id : String)

def emptyWorkflowGraph : ContractGraph where
  nodes := []
  edges := []
  nodeIds_nodup := by decide
  edges_closed := by decide
  configs := by simp

def workflowNames (workflows : List WorkflowRow) : List (String × String) :=
  workflows.map fun workflow ↦ (workflow.id, workflow.name)

def workflowNameTaken : String := "Workflow name is already in use"

def deleteAgent (db : Catalog) (id : String) : Except RelayviaError Catalog := do
  let agent ← required "AGENT_NOT_FOUND" "Agent not found" (db.agent? id)
  ensureResourceNotReferenced db .agent agent.id
  return { db with agents := db.agents.filter (·.id ≠ agent.id) }

/-- `delete_service`, with its cascade to the actions. -/
def deleteService (db : Catalog) (id : String) : Except RelayviaError Catalog := do
  let service ← required "SERVICE_NOT_FOUND" "Service not found" (db.service? id)
  ensureResourceNotReferenced db .service service.id
  return {
    db with
    services := db.services.filter (·.id ≠ service.id)
    actions := db.actions.filter (·.serviceId ≠ service.id) }

def deleteAction (db : Catalog) (serviceId id : String) : Except RelayviaError Catalog := do
  let action ← required "SERVICE_ACTION_NOT_FOUND" "Service action not found"
    (db.action? serviceId id)
  ensureResourceNotReferenced db .serviceAction action.id
  return { db with actions := db.actions.filter (·.id ≠ action.id) }

def createWorkflow (env : CatalogEnv) (db : Catalog) (id name : String)
    (graph : Option ContractGraph) : Except RelayviaError Catalog := do
  ensureNameAvailable env (workflowNames db.workflows) name workflowNameTaken none
  let draft := graph.getD emptyWorkflowGraph
  let _ ← validateRegistryReferences db draft.toWorkflowGraph
  return { db with workflows := db.workflows ++ [{ id := id, name := name, draft := draft }] }

def updateWorkflow (env : CatalogEnv) (db : Catalog) (id : String) (name : Option String)
    (status : Option WorkflowStatus) : Except RelayviaError Catalog := do
  let workflow ← required "WORKFLOW_NOT_FOUND" "Workflow not found" (db.workflow? id)
  ifSet name fun name ↦
    ensureNameAvailable env (workflowNames db.workflows) name workflowNameTaken (some workflow.id)
  return {
    db with
    workflows := Table.modify WorkflowRow.id id
      (fun row ↦ { row with name := name.getD row.name, status := status.getD row.status })
      db.workflows }

/-- `delete_workflow`: a workflow with versions is archived. -/
def deleteWorkflow (db : Catalog) (id : String) : Except RelayviaError Catalog := do
  let workflow ← required "WORKFLOW_NOT_FOUND" "Workflow not found" (db.workflow? id)
  if db.versions.any (·.workflowId = workflow.id) then
    return {
      db with
      workflows := Table.modify WorkflowRow.id id (fun row ↦ { row with status := .archived })
        db.workflows }
  return { db with workflows := db.workflows.filter (·.id ≠ workflow.id) }

def updateDraftGraph (db : Catalog) (id : String) (graph : ContractGraph) :
    Except RelayviaError Catalog := do
  let _ ← required "WORKFLOW_NOT_FOUND" "Workflow not found" (db.workflow? id)
  let _ ← validateRegistryReferences db graph.toWorkflowGraph
  return {
    db with
    workflows := Table.modify WorkflowRow.id id
      (fun row ↦
        { row with
          draft := graph
          status := if row.status = .archived then .draft else row.status })
      db.workflows }

def Severity.value : Severity → String
  | .error => "error"
  | .warning => "warning"

/-- `issue.model_dump()`. -/
def issueJson (issue : ValidationIssue) : Json :=
  .obj
    [("code", .str issue.code.value), ("severity", .str issue.severity.value),
      ("message", .str issue.message), ("node_id", optionalText issue.nodeId),
      ("edge_id", optionalText issue.edgeId), ("field", optionalText issue.field),
      ("details", .obj issue.details)]

/-- The number of the next version of a workflow. -/
def nextVersion (db : Catalog) (workflow : WorkflowRow) : ℕ :=
  let versions := (db.versions.filter (·.workflowId = workflow.id)).map (·.version)
  max (versions.foldl max 0) (workflow.currentVersion.getD 0) + 1

def createVersion (env : CatalogEnv) (db : Catalog) (id : String) : Except Raised Catalog := do
  let workflow ← required "WORKFLOW_NOT_FOUND" "Workflow not found" (db.workflow? id)
  let _ ← validateRegistryReferences db workflow.draft.toWorkflowGraph
  let validation ←
    validateGraphWithContext env.toEnv db.registry workflow.draft.toWorkflowGraph
  if ¬validation.valid then
    throw (.relayvia
      { code := "VALIDATION_FAILED"
        message :=
          "Workflow definition does not pass validation; fix errors before creating a Version"
        statusCode := 422
        details := [("errors", .arr (validation.errors.map issueJson))] })
  let version := nextVersion db workflow
  return {
    db with
    workflows := Table.modify WorkflowRow.id id
      (fun row ↦ { row with currentVersion := some version, status := .active }) db.workflows
    versions := db.versions ++
      [{ workflowId := workflow.id, version := version, graph := workflow.draft }] }

/-- Run one operation: the tables after its commit. -/
def CatalogOp.exec (env : CatalogEnv) (db : Catalog) : CatalogOp → Except Raised Catalog
  | .createAgent around id payload => do
      let agent ← Relayvia.createAgent env around db.agents id payload
      return { db with agents := db.agents ++ [agent] }
  | .updateAgent around id changes => do
      let agent ← required "AGENT_NOT_FOUND" "Agent not found" (db.agent? id)
      let agent ← Relayvia.updateAgent env around db.agents changes agent
      return { db with agents := Table.modify (·.id) id (fun _ ↦ agent) db.agents }
  | .deleteAgent id => Relayvia.deleteAgent db id
  | .createService around id payload => do
      let service ← Relayvia.createService env around db.services id payload
      return { db with services := db.services ++ [service] }
  | .updateService around id changes => do
      let service ← required "SERVICE_NOT_FOUND" "Service not found" (db.service? id)
      let service ← Relayvia.updateService env around db.services changes service
      return { db with services := Table.modify (·.id) id (fun _ ↦ service) db.services }
  | .deleteService id => Relayvia.deleteService db id
  | .createAction id serviceId payload => do
      let _ ← required "SERVICE_NOT_FOUND" "Service not found" (db.service? serviceId)
      let action ← Relayvia.createAction env db.actions id serviceId payload
      return { db with actions := db.actions ++ [action] }
  | .updateAction serviceId id changes => do
      let action ← required "SERVICE_ACTION_NOT_FOUND" "Service action not found"
        (db.action? serviceId id)
      let action ← Relayvia.updateAction env db.actions changes action
      return { db with actions := Table.modify (·.id) id (fun _ ↦ action) db.actions }
  | .deleteAction serviceId id => Relayvia.deleteAction db serviceId id
  | .createWorkflow id name graph => Relayvia.createWorkflow env db id name graph
  | .updateWorkflow id name status => Relayvia.updateWorkflow env db id name status
  | .deleteWorkflow id => Relayvia.deleteWorkflow db id
  | .updateDraftGraph id graph => Relayvia.updateDraftGraph db id graph
  | .createVersion id => Relayvia.createVersion env db id

/-- `uuid4` repeats no id. -/
def CatalogOp.Fresh (db : Catalog) : CatalogOp → Prop
  | .createAgent _ id _ => id ∉ db.agents.map (·.id)
  | .createService _ id _ => id ∉ db.services.map (·.id)
  | .createAction id _ _ => id ∉ db.actions.map (·.id)
  | .createWorkflow id _ _ => id ∉ db.workflows.map WorkflowRow.id
  | _ => True

/-- The tables after any finite sequence of operations, from empty ones.  An operation that
raises is rolled back. -/
inductive CatalogReachable (env : CatalogEnv) : Catalog → Prop
  | empty : CatalogReachable env {}
  | step {db db' : Catalog} {op : CatalogOp} (hdb : CatalogReachable env db)
      (hfresh : op.Fresh db) (h : op.exec env db = .ok db') : CatalogReachable env db'

end Relayvia
