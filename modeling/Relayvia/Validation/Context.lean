import Relayvia.Validation.Result

/-!
# Context references and input schemas

The last two passes of the validation engine: the references in the fields that
may hold them, and the compatibility of an input mapping with its JSON Schema.
-/

namespace Relayvia

/-! ## Fields with references -/

/-- The config and mapping fields that may hold Context References. -/
def referenceBearingValues (node : WorkflowNode) : List Json :=
  match node.type with
  | .agent =>
      let template := node.configValue "task_template"
      (if template.truthy then [template] else []) ++ [.obj node.inputMapping]
  | .service | .tool | .human => [.obj node.inputMapping]
  | .logic =>
      if node.subtype = "condition" then
        match node.configValue "expression" with
        | .obj expression =>
            [(Dict.get? expression "left").getD .null, (Dict.get? expression "right").getD .null]
        | _ => []
      else []
  | .data =>
      match node.subtype with
      | "transform" => [node.configValue "mappings"]
      | "output" => [node.configValue "output_mapping"]
      | _ => []

def referenceField (node : WorkflowNode) : String :=
  if node.type = .data ∧ node.subtype = "output" then "config.output_mapping"
  else if node.type = .data ∧ node.subtype = "transform" then "config.mappings"
  else if node.isLogic "condition" then "config.expression"
  else "input_mapping"

/-- The output schema of an Agent or a Service node. -/
def nodeOutputSchema (context : ValidationContext) (g : WorkflowGraph) (id : NodeId) :
    Except Raised (Option Dict) :=
  match g.node? id with
  | some node =>
      match node.type with
      | .agent => do
          return (← getKey context.agents (node.configValue "agent_id")).map
            RegistryAgent.outputSchema
      | .service => do
          return (← getKey context.serviceActions (node.configValue "service_action_id")).map
            RegistryServiceAction.outputSchema
      | _ => .ok none
  | none => .ok none

/-- `field_path.split(".")[0]`. -/
def ContextReference.firstField (r : ContextReference) : String :=
  r.path.headD ""

/-- The first field of the path is missing from an object schema that is closed. -/
def closedObjectMissingField (schema : Dict) (r : ContextReference) : Bool :=
  match Dict.get? schema "additionalProperties", Dict.get? schema "properties" with
  | some (.bool false), some (.obj properties) => (Dict.get? properties r.firstField).isNone
  | _, _ => false

/-! ## References -/

/-- Which nodes have an output that may be referenced. -/
inductive OutputProvider where
  | schema | transform
  deriving DecidableEq

def outputProviderKind (node : WorkflowNode) : Option OutputProvider :=
  if node.type = .agent ∨ node.type = .service then some .schema
  else if node.type = .data ∧ node.subtype = "transform" then some .transform
  else none

def parallelMergeDescendants (g : WorkflowGraph) (id : NodeId) : List NodeId :=
  (g.descendants id).filter fun d ↦ (g.node? d).any (·.isLogic "merge")

/-- Both nodes are below one Parallel, and the target is not behind a Merge of it. -/
def isParallelSibling (g : WorkflowGraph) (id target : NodeId) : Bool :=
  (g.ancestors id).any fun a ↦
    (g.node? a).any (·.isLogic "parallel") && target ∈ g.descendants a &&
      !(parallelMergeDescendants g a).any fun m ↦ target ∈ g.descendants m

/-- The issue of one reference of a node. -/
def referenceIssue (node : WorkflowNode) (code : ValidationCode) (message : String)
    (details : Dict) : ValidationIssue where
  code := code
  message := message
  nodeId := some node.id
  field := some (referenceField node)
  details := details

/-- The schema of the only Data Input. -/
def entrySchema (g : WorkflowGraph) : Option Json :=
  match g.entryNodeIds with
  | [entry] => (g.node? entry).map fun n ↦ n.configValue "schema"
  | _ => none

def workflowInputIssues (g : WorkflowGraph) (node : WorkflowNode) (r : ContextReference) :
    List ValidationIssue :=
  match entrySchema g with
  | some (.obj schema) =>
      issueIf (closedObjectMissingField schema r = true)
        (referenceIssue node .unknownWorkflowInput
          ("Workflow input field " ++ Python.repr r.pathText ++
            " is not declared in the Input schema")
          [("reference", .str r.raw)])
  | _ => []

/-- A reference to the output of the node `target`. -/
def nodeReferenceIssues (context : ValidationContext) (g : WorkflowGraph) (node : WorkflowNode)
    (r : ContextReference) (target : NodeId) : Except Raised (List ValidationIssue) := do
  let reference : Dict := [("reference", .str r.raw)]
  let both := reference ++ [("target_node_id", .str target)]
  match g.node? target with
  | none =>
      return [referenceIssue node .unknownContextNode
        ("Context reference points to unknown node " ++ Python.repr target) reference]
  | some targetNode =>
      if target = node.id then
        return [referenceIssue node .invalidContextReference "Node cannot reference its own output"
          reference]
      match outputProviderKind targetNode with
      | none =>
          return [referenceIssue node .invalidOutputReference
            ("Node " ++ Python.repr target ++ " does not produce a referenceable output") both]
      | some kind =>
          if g.hasCycle = false ∧ target ∉ g.ancestors node.id then
            if isParallelSibling g node.id target then
              return [referenceIssue node .invalidParallelDataDependency
                ("Node references output of parallel sibling " ++ Python.repr target) both]
            else
              return [referenceIssue node .invalidDataDependency
                ("Referenced node " ++ Python.repr target ++
                  " is not an upstream dependency of this node") both]
          else if kind = .transform then
            match targetNode.configValue "mappings" with
            | .obj mappings =>
                return issueIf ((Dict.get? mappings r.firstField).isNone = true)
                  (referenceIssue node .invalidOutputReference
                    ("Data Transform node does not produce field " ++ Python.repr r.pathText) both)
            | _ => return []
          else
            match ← nodeOutputSchema context g target with
            | some schema =>
                return issueIf (closedObjectMissingField schema r = true)
                  (referenceIssue node .invalidOutputReference
                    ("Output field " ++ Python.repr r.pathText ++
                      " is not declared in the output schema of " ++ Python.repr target) both)
            | none => return []

def referenceIssues (context : ValidationContext) (g : WorkflowGraph) (node : WorkflowNode)
    (r : ContextReference) : Except Raised (List ValidationIssue) :=
  if r.scope = "workflow.variables" then
    .ok (issueIf ((g.vars.lookup r.pathText).isNone = true)
      (referenceIssue node .unknownVariable
        ("Workflow variable " ++ Python.repr r.pathText ++ " is not defined")
        [("reference", .str r.raw)]))
  else if r.scope = "workflow.input" then .ok (workflowInputIssues g node r)
  else if r.scope = "run" then .ok []
  else
    match r.nodeId with
    | some target => nodeReferenceIssues context g node r target
    | none =>
        .ok [referenceIssue node .invalidContextReference
          ("Reference " ++ Python.repr r.raw ++ " has an invalid shape") []]

/-- The references of one value; a malformed one ends the value. -/
def valueReferenceIssues (context : ValidationContext) (g : WorkflowGraph) (node : WorkflowNode)
    (value : Json) : Except Raised (List ValidationIssue) :=
  match extractContextReferences value with
  | .error e => .ok [referenceIssue node .invalidContextReference e.message []]
  | .ok references => do
      let node := (g.node? node.id).getD node
      return (← references.mapM (referenceIssues context g node)).flatten

def validateContext (context : ValidationContext) (g : WorkflowGraph) :
    Except Raised (List ValidationIssue) := do
  let issues ← g.nodes.mapM fun node ↦
    (referenceBearingValues node).mapM (valueReferenceIssues context g node)
  return issues.flatten.flatten

/-! ## Input mappings -/

def knownTypes : List String :=
  ["string", "number", "integer", "boolean", "object", "array", "null"]

/-- `_as_pure_reference`: the whole text is one reference. -/
def asPureReference (text : String) : Option ContextReference :=
  if text.toList.take 2 = ['{', '{'] ∧ ['}', '}'].isSuffixOf text.toList ∧
      Python.countPair '{' '{' text.toList = 1 ∧ Python.countPair '}' '}' text.toList = 1 then
    (parseContextReference text).toOption
  else none

/-- The type that the schema of an object gives to the first field of the path. -/
def fieldType (schema : Json) (r : ContextReference) : Option Json := do
  let properties ← schema.get? "properties"
  let child ← properties.get? r.firstField
  let type ← child.get? "type"
  if type = .null then none else some type

def referenceType (context : ValidationContext) (g : WorkflowGraph) (r : ContextReference) :
    Except Raised (Option Json) :=
  if r.scope = "workflow.variables" then
    .ok ((g.vars.lookup r.pathText).map fun declared ↦ .str declared.type.value)
  else if r.scope = "workflow.input" then .ok ((entrySchema g).bind (fieldType · r))
  else if r.scope = "run" then .ok none
  else
    match r.nodeId with
    | some target => do
        return (← nodeOutputSchema context g target).bind fun schema ↦ fieldType (.obj schema) r
    | none => .ok none

/-- The JSON Schema type of a mapping value, when it can be resolved. -/
def mappingSourceType (context : ValidationContext) (g : WorkflowGraph) :
    Json → Except Raised (Option Json)
  | .bool _ => .ok (some (.str "boolean"))
  | .int _ => .ok (some (.str "integer"))
  | .float _ => .ok (some (.str "number"))
  | .obj _ => .ok (some (.str "object"))
  | .arr _ => .ok (some (.str "array"))
  | .null => .ok (some (.str "null"))
  | .str text =>
      match asPureReference text with
      | none => .ok (some (.str "string"))
      | some r => referenceType context g r

/-- The source type may be used for the target type, and whether that narrows it. -/
def checkCompatibility (source target : Json) : Bool × Bool :=
  if source = target then (true, false)
  else if source = .str "integer" ∧ target = .str "number" then (true, false)
  else if source = .str "number" ∧ target = .str "integer" then (true, true)
  else (false, false)

/-- `for required in schema.get("required", [])`: the items of a list, the keys
of a dict, the characters of a string. -/
def requiredFields (schema : Dict) : Except Raised (List Json) :=
  match Dict.get? schema "required" with
  | none => .ok []
  | some (.arr items) => .ok items
  | some (.obj fields) => .ok (fields.map fun (key, _) ↦ .str key)
  | some (.str text) => .ok (text.toList.map fun c ↦ .str (String.singleton c))
  | some _ => .error .typeError

/-- The type of one mapped value against the type of its property. -/
def fieldIssues (env : Env) (context : ValidationContext) (g : WorkflowGraph)
    (node : WorkflowNode) (fieldPrefix : String) (properties : Dict) :
    String × Json → Except Raised (List ValidationIssue)
  | (key, value) => do
      let issue : ValidationIssue :=
        { code := .schemaTypeMismatch
          message := "Input " ++ Python.repr key ++ " is a number mapped to an integer target"
          nodeId := some node.id
          field := some (fieldPrefix ++ "." ++ key) }
      match Dict.get? properties key with
      | some (.obj target) =>
          let targetType := (Dict.get? target "type").getD .null
          if ¬(← hasKey (knownTypes.map (·, ())) targetType) then return []
          match ← mappingSourceType context g value with
          | none => return []
          | some sourceType =>
              let details : Dict := [("source_type", sourceType), ("target_type", targetType)]
              match checkCompatibility sourceType targetType with
              | (false, _) =>
                  return [{ issue with
                    message := "Input " ++ Python.repr key ++ " has type " ++ env.repr sourceType ++
                      " but the target expects " ++ env.repr targetType
                    details := details }]
              | (true, true) => return [{ issue with severity := .warning, details := details }]
              | (true, false) => return []
      | _ => return []

/-- `isinstance(value, dict)`, with `{}` for any other value. -/
def dictOrEmpty : Option Json → Dict
  | some (.obj fields) => fields
  | _ => []

/-- `_validate_mapping` against an object schema. -/
def mappingIssues (env : Env) (context : ValidationContext) (g : WorkflowGraph)
    (node : WorkflowNode) (schema mapping : Dict) (fieldPrefix : String) :
    Except Raised (List ValidationIssue) := do
  if Dict.get? schema "type" ≠ some (.str "object") then return []
  let properties := dictOrEmpty (Dict.get? schema "properties")
  let missing ← (← requiredFields schema).mapM fun required ↦ do
    return issueIf ((← hasKey mapping required) = false)
      { code := .missingRequiredInput
        message := "Required input " ++ env.repr required ++ " is not mapped"
        nodeId := some node.id
        field := some (fieldPrefix ++ "." ++ env.str required) }
  let unknown :=
    if Dict.get? schema "additionalProperties" = some (.bool false) then
      mapping.flatMap fun (key, _) ↦
        issueIf ((Dict.get? properties key).isNone = true)
          { code := .unknownInputField
            message := "Input field " ++ Python.repr key ++ " is not allowed by the target schema"
            nodeId := some node.id
            field := some (fieldPrefix ++ "." ++ key) }
    else []
  let types ← mapping.mapM (fieldIssues env context g node fieldPrefix properties)
  return missing.flatten ++ unknown ++ types.flatten

/-- One location of a Service mapping; `null` stands for the whole mapping. -/
def locationMapping (node : WorkflowNode) (location : String) : Dict :=
  match Dict.get? node.inputMapping location with
  | some .null => node.inputMapping
  | value => dictOrEmpty value

def serviceMappingIssues (env : Env) (context : ValidationContext) (g : WorkflowGraph)
    (node : WorkflowNode) : Except Raised (List ValidationIssue) := do
  match ← getKey context.serviceActions (node.configValue "service_action_id") with
  | none => return []
  | some action =>
      let check (schema : Dict) (location : String) :=
        mappingIssues env context g node schema (locationMapping node location)
          ("input_mapping." ++ location)
      if ["path", "query", "body"].any fun key ↦ (Dict.get? node.inputMapping key).isSome then
        return (← check action.pathSchema "path") ++ (← check action.querySchema "query") ++
          (← check action.inputSchema "body")
      else
        mappingIssues env context g node action.inputSchema node.inputMapping "input_mapping"

def agentMappingIssues (env : Env) (context : ValidationContext) (g : WorkflowGraph)
    (node : WorkflowNode) : Except Raised (List ValidationIssue) := do
  match ← getKey context.agents (node.configValue "agent_id") with
  | none => return []
  | some agent =>
      mappingIssues env context g node agent.inputSchema node.inputMapping "input_mapping"

def validateSchema (env : Env) (context : ValidationContext) (g : WorkflowGraph) :
    Except Raised (List ValidationIssue) := do
  let issues ← g.nodes.mapM fun node ↦
    match node.type with
    | .agent => agentMappingIssues env context g node
    | .service => serviceMappingIssues env context g node
    | _ => .ok []
  return issues.flatten

end Relayvia
