import Relayvia.Conditions.Evaluation
import Relayvia.Executor.Http
import Relayvia.Stream.TextDecoder

/-!
# The default executor

`DefaultNodeExecutor.execute`: HTTP Agents and Services are called as the snapshot of the run
describes them, Conditions and Data nodes are evaluated on their resolved values.
-/

namespace Relayvia

structure NodeExecutionContext where
  workflowRunId : String
  nodeId : NodeId
  node : WorkflowNode
  resolvedConfig : Dict
  resolvedInput : Dict
  executionSnapshot : Dict
  attempt : ℕ

/-- `sensitiveValues` are for the redaction of the result only. -/
structure NodeExecutionResult where
  ok : Bool
  output : Option Dict := none
  retryable : Bool := false
  error : Option ExecutionError := none
  metadata : Dict := []
  sensitiveValues : List String := []

/-- `_failure`. -/
def executorFailure (code message : String) : NodeExecutionResult where
  ok := false
  error := some { code := code, message := message }

/-- `http_invocation_to_execution_result`, then `_execution_result_to_node` up to the check of
the output. -/
def failedInvocation (result : HTTPInvocationResult) (sensitiveValues : List String) :
    NodeExecutionResult where
  ok := false
  retryable := result.retryable
  error := some
    { code := (result.errorCode.filter (· ≠ "")).getD "HTTP_INVOCATION_FAILED"
      message := (result.message.filter (· ≠ "")).getD "HTTP invocation failed"
      retryable := result.retryable }
  metadata := [("status_code", (result.statusCode.map fun status ↦ .int status).getD .null)]
  sensitiveValues := sensitiveValues

/-- `_validate_payload`. -/
def validatePayload (env : Env) (value : Dict) (schema : Option Json) (label : String) :
    Option NodeExecutionResult :=
  match schema with
  | some (.obj schema) =>
      if schema ≠ [] ∧ env.schemaErrors schema value ≠ [] then
        some (executorFailure "EXECUTION_SCHEMA_MISMATCH"
          (label ++ " does not match its declared schema"))
      else none
  | _ => none

/-- `_execution_result_to_node` of what a connector returns. -/
def invocationResult (env : Env) (result : HTTPInvocationResult) (outputSchema : Option Json)
    (label : String) (sensitiveValues : List String) : NodeExecutionResult :=
  if ¬result.ok then failedInvocation result sensitiveValues
  else
    let output := result.output.getD []
    (validatePayload env output outputSchema label).getD
      { ok := true
        output := some output
        metadata := [("status_code", (result.statusCode.map fun status ↦ .int status).getD .null)]
        sensitiveValues := sensitiveValues }

/-- `str(value)` where it may be redacted. -/
def secretText (env : Env) : Json → Option String
  | .str value => some value
  | .int value => some (env.str (.int value))
  | .bool value => some (env.str (.bool value))
  | .float value => some (env.str (.float value))
  | _ => none

/-- `_credential_secret_values`. -/
def credentialSecretValues (env : Env) : Option Credential → List String
  | none => []
  | some credential =>
      match credential.payload with
      | .ok payload => (payload.filterMap fun (_, value) ↦ secretText env value).filter (· ≠ "")
      | .error _ => []

/-- `_string_dict`. -/
def stringDict (env : Env) : Option Json → List (String × String)
  | some (.obj fields) => fields.map fun (key, value) ↦ (key, env.str value)
  | _ => []

/-- `_credential`. -/
def executorCredential (env : ExecutorEnv) (credentialId : Option Json) :
    Except ExecutorException (Option Credential) :=
  match credentialId.filter Json.truthy with
  | none => .ok none
  | some id =>
      match env.credential (env.str id) with
      | some credential => .ok (some credential)
      | none =>
          .error (.executionError
            { code := "CREDENTIAL_UNAVAILABLE"
              message := "Credential referenced by this Run is no longer available" })

/-- `int(value)`. -/
def pyInt (env : ExecutorEnv) (value : Json) : Except ExecutorException ℤ :=
  match env.pyInt value with
  | some i => .ok i
  | none => .error (.other (env.intText value))

/-- `int(config.get("timeout_seconds") or snapshot.get("timeout_seconds") or 30)`. -/
def invocationTimeout (env : ExecutorEnv) (resolvedConfig snapshot : Dict) :
    Except ExecutorException ℤ :=
  let own := (Dict.get? resolvedConfig "timeout_seconds").filter Json.truthy
  let declared := (Dict.get? snapshot "timeout_seconds").filter Json.truthy
  pyInt env ((own.or declared).getD (.int 30))

/-- `config[key]`, a key of a dict. -/
def requiredKey (config : Dict) (key : String) : Except ExecutorException Json :=
  match Dict.get? config key with
  | some value => .ok value
  | none => .error (.other (Python.repr key))

/-- `type(value).__name__`. -/
def Python.typeName : Json → String
  | .null => "NoneType"
  | .bool _ => "bool"
  | .int _ => "int"
  | .float _ => "float"
  | .str _ => "str"
  | .arr _ => "list"
  | .obj _ => "dict"

/-- `snapshot.get(table, {}).get(id)` if it is a dict. -/
def snapshotEntry (snapshot : Dict) (table : String) (id : Json) :
    Except ExecutorException (Option Dict) :=
  match id with
  | .str id =>
      match Dict.get? snapshot table with
      | some (.obj rows) =>
          match Dict.get? rows id with
          | some (.obj entry) => .ok (some entry)
          | _ => .ok none
      | _ => .ok none
  | .arr _ | .obj _ => .error (.other ("unhashable type: '" ++ Python.typeName id ++ "'"))
  | _ => .ok none

/-- `_service_payload`: body, query and path. -/
def servicePayload (value : Dict) : Except ExecutorException (Dict × Dict × Dict) :=
  let part (key : String) : Json := (Dict.get? value key).getD (.obj [])
  let explicit := ["path", "query", "body"].any fun key ↦ (Dict.get? value key).isSome
  let (body, query, path) :=
    if explicit then (part "body", part "query", part "path")
    else (.obj value, .obj [], .obj [])
  match body, query, path with
  | .obj body, .obj query, .obj path => .ok (body, query, path)
  | _, _, _ =>
      .error (.executionError
        { code := "INVALID_SERVICE_INPUT"
          message := "Service path, query, and body inputs must each be objects" })

namespace Python

/-- A byte that `quote` leaves as it is. -/
def isUnreserved (b : UInt8) : Bool :=
  let c := Char.ofNat b.toNat
  b < 128 && (c.isAlphanum || c ∈ ['_', '.', '-', '~'])

def quoteByte (b : UInt8) : List Char :=
  if isUnreserved b then [Char.ofNat b.toNat]
  else ['%', (hexDigit (b.toNat / 16)).toUpper, (hexDigit (b.toNat % 16)).toUpper]

/-- `urllib.parse.quote(text, safe="")`. -/
def quote (text : List Char) : List Char :=
  (utf8Bytes text).flatMap quoteByte

end Python

/-- `_expand_path`. -/
def expandPath (env : Env) (path : String) (values : Dict) : Except ExecutorException String :=
  let expanded := values.foldl (fun expanded (name, value) ↦
    Python.replace ('{' :: name.toList ++ ['}']) (Python.quote (env.str value).toList) expanded)
    path.toList
  if '{' ∈ expanded ∨ '}' ∈ expanded then
    .error (.executionError
      { code := "MISSING_PATH_PARAMETER"
        message := "A required Service path parameter is missing" })
  else .ok (String.ofList expanded)

/-- `combine_service_url`; a RelayviaError shows its message. -/
def combineServiceUrl (env : ExecutorEnv) (baseUrl path : String) :
    Except ExecutorException String :=
  match env.validateHttpUrl baseUrl "base_url" with
  | .error error => .error (.other error.message)
  | .ok base =>
      match env.normalizeActionPath path with
      | .error error => .error (.other error.message)
      | .ok path =>
          let relative := String.ofList (path.toList.dropWhile (· = '/'))
          match env.urljoin (base ++ "/") relative with
          | .ok url => .ok url
          | .error text => .error (.other text)

/-- `{int(status) for status in retry_policy.get("retry_on_status", [..])}`. -/
def retryStatuses (env : ExecutorEnv) (action : Dict) : Except ExecutorException (List ℤ) :=
  match ((Dict.get? action "retry_policy").filter Json.truthy).getD (.obj []) with
  | .obj policy =>
      match Dict.get? policy "retry_on_status" with
      | none => .ok [408, 429, 500, 502, 503, 504]
      | some (.arr statuses) => statuses.mapM (pyInt env)
      | some (.obj statuses) => statuses.mapM fun (key, _) ↦ pyInt env (.str key)
      | some (.str text) => text.toList.mapM fun c ↦ pyInt env (.str (String.ofList [c]))
      | some value => .error (.other ("'" ++ Python.typeName value ++ "' object is not iterable"))
  | value => .error (.other ("'" ++ Python.typeName value ++ "' object has no attribute 'get'"))

/-! ## Nodes -/

/-- A raised ExecutionError is the result of the method that catches it. -/
def orFailure {α : Type} (x : Except ExecutorException α)
    (rest : α → Except ExecutorException NodeExecutionResult) :
    Except ExecutorException NodeExecutionResult :=
  match x with
  | .ok a => rest a
  | .error (.executionError error) => .ok { ok := false, error := some error }
  | .error (.other text) => .error (.other text)

/-- `_execute_agent`. -/
def executeAgent (env : ExecutorEnv) (context : NodeExecutionContext) :
    Except ExecutorException NodeExecutionResult := do
  let agentId ← requiredKey context.node.config "agent_id"
  match ← snapshotEntry context.executionSnapshot "agents" agentId with
  | none =>
      return executorFailure "AGENT_SNAPSHOT_MISSING"
        "Agent invocation metadata is missing from the Run snapshot"
  | some agent =>
      if Dict.get? agent "connector_type" ≠ some (.str "http") then
        return executorFailure "UNSUPPORTED_AGENT_CONNECTOR"
          "Only HTTP Agent execution is supported"
      match ((Dict.get? agent "endpoint").bind Json.str?).filter (· ≠ "") with
      | none =>
          return executorFailure "AGENT_ENDPOINT_MISSING" "HTTP Agent endpoint is not configured"
      | some endpoint =>
          match validatePayload env.toEnv context.resolvedInput (Dict.get? agent "input_schema")
              "Agent input" with
          | some invalid => return invalid
          | none =>
              orFailure (executorCredential env (Dict.get? agent "credential_id"))
                fun credential ↦ do
                  let timeoutSeconds ← invocationTimeout env context.resolvedConfig agent
                  let method :=
                    (((Dict.get? agent "http_method").filter Json.truthy).map env.str).getD "POST"
                  let result ← invokeHttp env
                    { url := endpoint
                      method := method
                      timeoutSeconds := timeoutSeconds
                      headers := stringDict env.toEnv (Dict.get? agent "headers")
                      credential := credential
                      jsonBody := .obj
                        [("input", .obj context.resolvedInput),
                          ("context", .obj
                            [("workflow_run_id", .str context.workflowRunId),
                              ("node_id", .str context.nodeId),
                              ("attempt", .int context.attempt)])] }
                  return invocationResult env.toEnv result (Dict.get? agent "output_schema")
                    "Agent output" (credentialSecretValues env.toEnv credential)

/-- The checks of the path, the query and the body of a Service call. -/
def invalidParts (env : Env) (action body query path : Dict) : Option NodeExecutionResult :=
  ((validatePayload env path (Dict.get? action "path_schema") "Service path parameters").or
    (validatePayload env query (Dict.get? action "query_schema") "Service query parameters")).or
    (validatePayload env body (Dict.get? action "input_schema") "Service body")

/-- The target of a Service call: its parts, its URL and its credential. -/
def serviceTarget (env : ExecutorEnv) (service action : Dict) (resolvedInput : Dict) :
    Except ExecutorException ((Dict × Dict × Dict) × String × Option Credential) := do
  let (body, query, path) ← servicePayload resolvedInput
  let baseUrl ← requiredKey service "base_url"
  let template ← requiredKey action "path"
  let expanded ← expandPath env.toEnv (env.str template) path
  let url ← combineServiceUrl env (env.str baseUrl) expanded
  let credential ← executorCredential env (Dict.get? service "credential_id")
  return ((body, query, path), url, credential)

/-- `_execute_service`. -/
def executeService (env : ExecutorEnv) (context : NodeExecutionContext) :
    Except ExecutorException NodeExecutionResult := do
  let serviceId ← requiredKey context.node.config "service_id"
  let service ← snapshotEntry context.executionSnapshot "services" serviceId
  let actionId ← requiredKey context.node.config "service_action_id"
  let action ← snapshotEntry context.executionSnapshot "service_actions" actionId
  match service, action with
  | some service, some action =>
      orFailure (serviceTarget env service action context.resolvedInput)
        fun ((body, query, path), url, credential) ↦ do
          match invalidParts env.toEnv action body query path with
          | some invalid => return invalid
          | none => do
              let retryOnStatus ← retryStatuses env action
              let method ← requiredKey action "method"
              let timeoutSeconds ← invocationTimeout env context.resolvedConfig action
              let result ← invokeHttp env
                { url := url
                  method := env.str method
                  timeoutSeconds := timeoutSeconds
                  headers := stringDict env.toEnv (Dict.get? action "headers")
                  credential := credential
                  jsonBody := .obj body
                  query := query
                  retryOnStatus := retryOnStatus }
              return invocationResult env.toEnv result (Dict.get? action "output_schema")
                "Service output" (credentialSecretValues env.toEnv credential)
  | _, _ =>
      return executorFailure "SERVICE_SNAPSHOT_MISSING"
        "Service invocation metadata is missing from the Run snapshot"

/-- `dict(config.get(key, {}))`; the parser accepts only a dict there. -/
def configDict (config : Dict) (key : String) : Except ExecutorException Dict :=
  match (Dict.get? config key).getD (.obj []) with
  | .obj fields => .ok fields
  | value => .error (.other ("'" ++ Python.typeName value ++ "' object is not iterable"))

def succeeded (output : Dict) : NodeExecutionResult where
  ok := true
  output := some output

/-- `execute`. -/
def executeNode (env : ExecutorEnv) (context : NodeExecutionContext) :
    Except ExecutorException NodeExecutionResult :=
  match context.node.type, context.node.subtype with
  | .agent, "agent" => executeAgent env context
  | .service, "http" => executeService env context
  | .tool, _ =>
      .ok (executorFailure "RUNNER_REQUIRED"
        ("Tool nodes require a registered Relayvia Runner; " ++
          "server-side execution is disabled"))
  | .logic, "condition" =>
      match executeCondition env.same context.resolvedConfig with
      | .ok output => .ok (succeeded output)
      | .error (code, message) => .ok (executorFailure code message)
  | .logic, "parallel" | .logic, "merge" => .ok (succeeded context.resolvedInput)
  | .data, "transform" => (configDict context.resolvedConfig "mappings").map succeeded
  | .data, "output" => (configDict context.resolvedConfig "output_mapping").map succeeded
  | .data, "input" => .ok (succeeded context.resolvedInput)
  | type, subtype =>
      .ok (executorFailure "UNSUPPORTED_NODE_EXECUTION"
        ("Execution is not implemented for " ++ type.value ++ "." ++ subtype))

/-- What `_process_task` makes of the value or the exception of `execute`. -/
def NodeExecutionResult.ofExecution :
    Except ExecutorException NodeExecutionResult → NodeExecutionResult
  | .ok result => result
  | .error (.executionError error) =>
      { ok := false, retryable := error.retryable, error := some error }
  | .error (.other text) => executorFailure "EXECUTOR_ERROR" text

/-- The result as the Worker reports it. -/
def NodeExecutionResult.toResult (result : NodeExecutionResult) : ExecutionResult where
  ok := result.ok
  output := .obj (result.output.getD [])
  retryable := result.retryable
  error := result.error.map ExecutionError.toDict
  metadata := .obj result.metadata

/-- One execution of a node by the default executor. -/
def executionOf (env : ExecutorEnv) (context : NodeExecutionContext) : ExecutionResult :=
  (NodeExecutionResult.ofExecution (executeNode env context)).toResult

end Relayvia
