import Relayvia.Placement.Targets

/-!
# Agents, Services and Service Actions

The rows of the three registry tables, and the operations that create and update them.  Each
operation is one transaction: it returns the new row or raises.
-/

namespace Relayvia

/-- What the registry services take from outside the model besides `Env`. -/
structure CatalogEnv extends Env where
  /-- `func.lower` of the database -/
  sqlLower : String → String
  /-- `str.lower` -/
  pyLower : String → String
  /-- the value without its last slashes, or the error, for a URL and its field -/
  validateHttpUrl : String → String → Except RelayviaError String
  normalizeActionPath : String → Except RelayviaError String
  validateHeaders : Dict → Except RelayviaError Unit
  validateMetadata : Dict → Except RelayviaError Unit

/-- The ids in the tables that a transaction looks up besides the registry. -/
structure Surroundings where
  credentials : List String := []
  runners : List String := []

structure CatalogAgent extends AgentRecord where
  metadata : Dict := []

structure CatalogService extends ServiceRecord where
  metadata : Dict := []

structure CatalogAction extends ServiceActionRecord where
  metadata : Dict := []

/-! ## Checks -/

def validateJsonSchema (env : CatalogEnv) (value : Dict) (field : String) :
    Except RelayviaError Unit :=
  if env.schemaValid value then return ()
  else
    throw
      { code := "INVALID_SCHEMA"
        message := field ++ " must be a valid JSON Schema"
        details := [("field", .str field)] }

/-- `get_credential_or_none`. -/
def credentialOrNone (around : Surroundings) (id : Option String) : Except RelayviaError Unit :=
  match id with
  | some id =>
      if id ∈ around.credentials then return ()
      else
        throw
          { code := "CREDENTIAL_NOT_FOUND", message := "Credential not found", statusCode := 404 }
  | none => return ()

/-- `if runner_id and db.get(Runner, runner_id) is None: raise`. -/
def requireRunner (around : Surroundings) (id : Option String) : Except RelayviaError Unit :=
  match id.filter (· ≠ "") with
  | some id =>
      if id ∈ around.runners then return ()
      else throw { code := "RUNNER_NOT_FOUND", message := "Runner not found", statusCode := 404 }
  | none => return ()

/-- A name is taken when the name of another row is equal to it up to its case. -/
def ensureNameAvailable (env : CatalogEnv) (rows : List (String × String)) (name message : String)
    (currentId : Option String) : Except RelayviaError Unit :=
  if rows.any fun (id, other) ↦ env.sqlLower other = env.pyLower name ∧ currentId ≠ some id then
    throw { code := "DUPLICATE_NAME", message := message, details := [("name", .str name)] }
  else return ()

/-- A check of a field of an update, if it is set. -/
def ifSet {α : Type} (field : Option α) (check : α → Except RelayviaError Unit) :
    Except RelayviaError Unit :=
  match field with
  | some value => check value
  | none => return ()

def rstripSlash (text : String) : String :=
  String.ofList (text.toList.reverse.dropWhile (· = '/')).reverse

/-- `value.rstrip("/") if value else None`. -/
def trimmedUrl (value : Option String) : Option String :=
  (value.filter (· ≠ "")).map rstripSlash

/-- `executable.strip() if executable else None`. -/
def strippedExecutable (value : Option String) : Option String :=
  (value.filter (· ≠ "")).map fun text ↦
    String.ofList ((text.toList.dropWhile Python.isSpace).reverse.dropWhile Python.isSpace).reverse

/-! ## Agents -/

structure AgentCreate where
  name : String
  connectorType : String := "http"
  endpoint : Option String := none
  httpMethod : String := "POST"
  healthCheckUrl : Option String := none
  headers : Dict := []
  runnerId : Option String := none
  executable : Option String := none
  inputSchema : Dict := []
  outputSchema : Dict := []
  credentialId : Option String := none
  timeoutSeconds : Option ℤ := none
  enabled : Bool := true
  metadata : Dict := []

/-- The fields of an update; where null is a value of its own the outer option says whether
the field is set. -/
structure AgentUpdate where
  name : Option String := none
  connectorType : Option String := none
  endpoint : Option (Option String) := none
  httpMethod : Option String := none
  healthCheckUrl : Option (Option String) := none
  headers : Option Dict := none
  runnerId : Option (Option String) := none
  executable : Option (Option String) := none
  inputSchema : Option Dict := none
  outputSchema : Option Dict := none
  credentialId : Option (Option String) := none
  timeoutSeconds : Option ℤ := none
  enabled : Option Bool := none
  metadata : Option Dict := none

def invalidAgentConfig (field message : String) : RelayviaError where
  code := "INVALID_AGENT_CONFIG"
  message := message
  details := [("field", .str field)]

/-- The URLs that are not empty: an HTTP agent needs an endpoint, and only it has a health
check. -/
def validateAgentUrls (env : CatalogEnv) (connectorType : String)
    (endpoint healthCheckUrl : Option String) : Except RelayviaError Unit :=
  if connectorType = "http" then
    match endpoint with
    | none => throw (invalidAgentConfig "endpoint" "endpoint is required for HTTP agents")
    | some url => do
        let _ ← env.validateHttpUrl url "endpoint"
        ifSet healthCheckUrl fun url ↦ do
          let _ ← env.validateHttpUrl url "health_check_url"
  else if healthCheckUrl.isSome then
    throw (invalidAgentConfig "health_check_url"
      "health_check_url is only supported for HTTP agents")
  else return ()

/-- `_validate_config` of an Agent. -/
def validateAgentConfig (env : CatalogEnv) (connectorType : String)
    (endpoint healthCheckUrl : Option String) (headers : Dict) (runnerId executable : Option String)
    (inputSchema outputSchema metadata : Dict) : Except RelayviaError Unit := do
  validateAgentUrls env connectorType (endpoint.filter (· ≠ "")) (healthCheckUrl.filter (· ≠ ""))
  if connectorType = "codex" ∧ runnerId.filter (· ≠ "") = none then
    throw (invalidAgentConfig "runner_id" "runner_id is required for Codex agents")
  if executable.any fun text ↦
      Python.isBlank text ∨ '\n' ∈ text.toList ∨ '\x0d' ∈ text.toList then
    throw (invalidAgentConfig "executable"
      "executable must be a non-empty command path without line breaks")
  env.validateHeaders headers
  validateJsonSchema env inputSchema "input_schema"
  validateJsonSchema env outputSchema "output_schema"
  env.validateMetadata metadata

def agentNames (agents : List CatalogAgent) : List (String × String) :=
  agents.map fun agent ↦ (agent.id, agent.name)

/-- `create_agent`: the new row, under the id that `uuid4` gives it. -/
def createAgent (env : CatalogEnv) (around : Surroundings) (agents : List CatalogAgent)
    (id : String) (payload : AgentCreate) : Except RelayviaError CatalogAgent := do
  ensureNameAvailable env (agentNames agents) payload.name "Agent name is already in use" none
  validateAgentConfig env payload.connectorType payload.endpoint payload.healthCheckUrl
    payload.headers payload.runnerId payload.executable payload.inputSchema payload.outputSchema
    payload.metadata
  credentialOrNone around payload.credentialId
  requireRunner around payload.runnerId
  return {
    id := id
    name := payload.name
    enabled := payload.enabled
    connectorType := payload.connectorType
    status := "unknown"
    inputSchema := some payload.inputSchema
    outputSchema := some payload.outputSchema
    endpoint := trimmedUrl payload.endpoint
    httpMethod := payload.httpMethod
    headers := some payload.headers
    healthCheckUrl := trimmedUrl payload.healthCheckUrl
    timeoutSeconds := payload.timeoutSeconds
    credentialId := payload.credentialId
    runnerId := payload.runnerId
    executable := strippedExecutable payload.executable
    metadata := payload.metadata }

/-- The assignments of `update_agent`. -/
def AgentUpdate.assign (changes : AgentUpdate) (agent : CatalogAgent) : CatalogAgent :=
  -- a connector that is not HTTP loses the HTTP columns before the other fields are set
  let local_ := changes.connectorType.any (· ≠ "http")
  { agent with
    name := changes.name.getD agent.name
    connectorType := changes.connectorType.getD agent.connectorType
    endpoint :=
      (changes.endpoint.map trimmedUrl).getD (if local_ then none else agent.endpoint)
    httpMethod := changes.httpMethod.getD agent.httpMethod
    healthCheckUrl :=
      (changes.healthCheckUrl.map trimmedUrl).getD (if local_ then none else agent.healthCheckUrl)
    headers := changes.headers.or (if local_ then some [] else agent.headers)
    runnerId := changes.runnerId.getD agent.runnerId
    executable := (changes.executable.map strippedExecutable).getD agent.executable
    inputSchema := changes.inputSchema.or agent.inputSchema
    outputSchema := changes.outputSchema.or agent.outputSchema
    credentialId := changes.credentialId.getD agent.credentialId
    timeoutSeconds := changes.timeoutSeconds.or agent.timeoutSeconds
    enabled := changes.enabled.getD agent.enabled
    metadata := changes.metadata.getD agent.metadata
    status :=
      if changes.connectorType.isSome ∨ changes.endpoint.isSome ∨ changes.healthCheckUrl.isSome ∨
          changes.credentialId.isSome ∨ changes.runnerId.isSome ∨ changes.executable.isSome then
        "unknown"
      else agent.status }

/-- `update_agent` on the row that it loads. -/
def updateAgent (env : CatalogEnv) (around : Surroundings) (agents : List CatalogAgent)
    (changes : AgentUpdate) (agent : CatalogAgent) : Except RelayviaError CatalogAgent := do
  ifSet changes.name fun name ↦
    ensureNameAvailable env (agentNames agents) name "Agent name is already in use"
      (some agent.id)
  requireRunner around (changes.runnerId.getD none)
  credentialOrNone around (changes.credentialId.getD none)
  let agent := changes.assign agent
  validateAgentConfig env agent.connectorType agent.endpoint agent.healthCheckUrl
    (agent.headers.getD []) agent.runnerId agent.executable (agent.inputSchema.getD [])
    (agent.outputSchema.getD []) agent.metadata
  return agent

/-! ## Services -/

structure ServiceCreate where
  name : String
  baseUrl : String
  credentialId : Option String := none
  healthCheckUrl : Option String := none
  enabled : Bool := true
  metadata : Dict := []

structure ServiceUpdate where
  name : Option String := none
  baseUrl : Option (Option String) := none
  credentialId : Option (Option String) := none
  healthCheckUrl : Option (Option String) := none
  enabled : Option Bool := none
  metadata : Option Dict := none

def serviceNames (services : List CatalogService) : List (String × String) :=
  services.map fun service ↦ (service.id, service.name)

/-- `validate_http_url(value, ...) if value else None`. -/
def validatedUrl (env : CatalogEnv) (value : Option String) (field : String) :
    Except RelayviaError (Option String) :=
  match value.filter (· ≠ "") with
  | some url => (env.validateHttpUrl url field).map some
  | none => return none

/-- `create_service`; HTTP is the only service type there is. -/
def createService (env : CatalogEnv) (around : Surroundings) (services : List CatalogService)
    (id : String) (payload : ServiceCreate) : Except RelayviaError CatalogService := do
  ensureNameAvailable env (serviceNames services) payload.name "Service name is already in use"
    none
  let baseUrl ← env.validateHttpUrl payload.baseUrl "base_url"
  let healthCheckUrl ← validatedUrl env payload.healthCheckUrl "health_check_url"
  env.validateMetadata payload.metadata
  credentialOrNone around payload.credentialId
  return {
    id := id
    name := payload.name
    enabled := payload.enabled
    status := "unknown"
    baseUrl := baseUrl
    healthCheckUrl := healthCheckUrl
    credentialId := payload.credentialId
    metadata := payload.metadata }

/-- The `base_url` that an update leaves. -/
def ServiceUpdate.newBaseUrl (env : CatalogEnv) (changes : ServiceUpdate)
    (service : CatalogService) : Except RelayviaError String :=
  match changes.baseUrl with
  | some (some url) => env.validateHttpUrl url "base_url"
  | some none =>
      throw
        { code := "INVALID_URL"
          message := "base_url cannot be null"
          details := [("field", .str "base_url")] }
  | none => return service.baseUrl

def ServiceUpdate.newHealthCheckUrl (env : CatalogEnv) (changes : ServiceUpdate)
    (service : CatalogService) : Except RelayviaError (Option String) :=
  match changes.healthCheckUrl with
  | some url => validatedUrl env url "health_check_url"
  | none => return service.healthCheckUrl

/-- `update_service` on the row that it loads. -/
def updateService (env : CatalogEnv) (around : Surroundings) (services : List CatalogService)
    (changes : ServiceUpdate) (service : CatalogService) : Except RelayviaError CatalogService := do
  ifSet changes.name fun name ↦
    ensureNameAvailable env (serviceNames services) name "Service name is already in use"
      (some service.id)
  let baseUrl ← changes.newBaseUrl env service
  credentialOrNone around (changes.credentialId.getD none)
  let healthCheckUrl ← changes.newHealthCheckUrl env service
  ifSet changes.metadata env.validateMetadata
  return {
    service with
    name := changes.name.getD service.name
    baseUrl := baseUrl
    credentialId := changes.credentialId.getD service.credentialId
    healthCheckUrl := healthCheckUrl
    enabled := changes.enabled.getD service.enabled
    metadata := changes.metadata.getD service.metadata
    status :=
      if changes.baseUrl.isSome ∨ changes.healthCheckUrl.isSome ∨ changes.credentialId.isSome then
        "unknown"
      else service.status }

/-! ## Service Actions -/

structure ServiceActionCreate where
  name : String
  method : String := "POST"
  path : String
  headers : Dict := []
  querySchema : Dict := []
  pathSchema : Dict := []
  inputSchema : Dict := []
  outputSchema : Dict := []
  timeoutSeconds : ℤ := 30
  retryPolicy : Dict := []
  enabled : Bool := true
  metadata : Dict := []

structure ServiceActionUpdate where
  name : Option String := none
  method : Option String := none
  path : Option (Option String) := none
  headers : Option Dict := none
  querySchema : Option Dict := none
  pathSchema : Option Dict := none
  inputSchema : Option Dict := none
  outputSchema : Option Dict := none
  timeoutSeconds : Option ℤ := none
  retryPolicy : Option Dict := none
  enabled : Option Bool := none
  metadata : Option Dict := none

/-- `_validate_action_config`: the normalized path. -/
def validateActionConfig (env : CatalogEnv) (path : String)
    (headers querySchema pathSchema inputSchema outputSchema metadata : Dict) :
    Except RelayviaError String := do
  let normalizedPath ← env.normalizeActionPath path
  env.validateHeaders headers
  validateJsonSchema env querySchema "query_schema"
  validateJsonSchema env pathSchema "path_schema"
  validateJsonSchema env inputSchema "input_schema"
  validateJsonSchema env outputSchema "output_schema"
  env.validateMetadata metadata
  return normalizedPath

/-- The names of the actions of one Service. -/
def actionNames (actions : List CatalogAction) (serviceId : String) : List (String × String) :=
  (actions.filter (·.serviceId = serviceId)).map fun action ↦ (action.id, action.name)

/-- `create_action` of an existing Service. -/
def createAction (env : CatalogEnv) (actions : List CatalogAction) (id serviceId : String)
    (payload : ServiceActionCreate) : Except RelayviaError CatalogAction := do
  ensureNameAvailable env (actionNames actions serviceId) payload.name
    "Service action name is already in use for this service" none
  let path ← validateActionConfig env payload.path payload.headers payload.querySchema
    payload.pathSchema payload.inputSchema payload.outputSchema payload.metadata
  return {
    id := id
    serviceId := serviceId
    name := payload.name
    enabled := payload.enabled
    querySchema := some payload.querySchema
    pathSchema := some payload.pathSchema
    inputSchema := some payload.inputSchema
    outputSchema := some payload.outputSchema
    method := payload.method
    path := path
    headers := some payload.headers
    timeoutSeconds := some payload.timeoutSeconds
    retryPolicy := some payload.retryPolicy
    metadata := payload.metadata }

/-- The path that an update leaves. -/
def ServiceActionUpdate.newPath (env : CatalogEnv) (changes : ServiceActionUpdate)
    (action : CatalogAction) : Except RelayviaError String :=
  match changes.path with
  | some (some path) => env.normalizeActionPath path
  | some none => throw { code := "INVALID_PATH", message := "path cannot be null" }
  | none => return action.path

/-- `update_action` on the row that it loads. -/
def updateAction (env : CatalogEnv) (actions : List CatalogAction)
    (changes : ServiceActionUpdate) (action : CatalogAction) :
    Except RelayviaError CatalogAction := do
  ifSet changes.name fun name ↦
    ensureNameAvailable env (actionNames actions action.serviceId) name
      "Service action name is already in use for this service" (some action.id)
  let path ← changes.newPath env action
  let action : CatalogAction :=
    { action with
      name := changes.name.getD action.name
      method := changes.method.getD action.method
      path := path
      headers := changes.headers.or action.headers
      querySchema := changes.querySchema.or action.querySchema
      pathSchema := changes.pathSchema.or action.pathSchema
      inputSchema := changes.inputSchema.or action.inputSchema
      outputSchema := changes.outputSchema.or action.outputSchema
      timeoutSeconds := changes.timeoutSeconds.or action.timeoutSeconds
      retryPolicy := changes.retryPolicy.or action.retryPolicy
      enabled := changes.enabled.getD action.enabled
      metadata := changes.metadata.getD action.metadata }
  let _ ← validateActionConfig env action.path (action.headers.getD [])
    (action.querySchema.getD []) (action.pathSchema.getD []) (action.inputSchema.getD [])
    (action.outputSchema.getD []) action.metadata
  return action

/-! ## Keys -/

variable {env : CatalogEnv} {around : Surroundings}

/-- An update keeps the key of the row. -/
theorem updateAgent_id {agents : List CatalogAgent} {changes : AgentUpdate}
    {agent agent' : CatalogAgent} (h : updateAgent env around agents changes agent = .ok agent') :
    agent'.id = agent.id := by
  unfold updateAgent at h
  obtain ⟨_, -, h⟩ := Outcome.bind_eq_ok_iff.mp h
  obtain ⟨_, -, h⟩ := Outcome.bind_eq_ok_iff.mp h
  obtain ⟨_, -, h⟩ := Outcome.bind_eq_ok_iff.mp h
  obtain ⟨_, -, h⟩ := Outcome.bind_eq_ok_iff.mp h
  cases h
  rfl

theorem updateService_id {services : List CatalogService} {changes : ServiceUpdate}
    {service service' : CatalogService}
    (h : updateService env around services changes service = .ok service') :
    service'.id = service.id := by
  unfold updateService at h
  obtain ⟨_, -, h⟩ := Outcome.bind_eq_ok_iff.mp h
  obtain ⟨_, -, h⟩ := Outcome.bind_eq_ok_iff.mp h
  obtain ⟨_, -, h⟩ := Outcome.bind_eq_ok_iff.mp h
  obtain ⟨_, -, h⟩ := Outcome.bind_eq_ok_iff.mp h
  obtain ⟨_, -, h⟩ := Outcome.bind_eq_ok_iff.mp h
  cases h
  rfl

theorem createAction_id {actions : List CatalogAction} {id serviceId : String}
    {payload : ServiceActionCreate} {action : CatalogAction}
    (h : createAction env actions id serviceId payload = .ok action) : action.id = id := by
  unfold createAction at h
  obtain ⟨_, -, h⟩ := Outcome.bind_eq_ok_iff.mp h
  obtain ⟨_, -, h⟩ := Outcome.bind_eq_ok_iff.mp h
  cases h
  rfl

/-- An action stays with its Service. -/
theorem updateAction_ids {actions : List CatalogAction} {changes : ServiceActionUpdate}
    {action action' : CatalogAction} (h : updateAction env actions changes action = .ok action') :
    action'.id = action.id ∧ action'.serviceId = action.serviceId := by
  unfold updateAction at h
  obtain ⟨_, -, h⟩ := Outcome.bind_eq_ok_iff.mp h
  obtain ⟨_, -, h⟩ := Outcome.bind_eq_ok_iff.mp h
  obtain ⟨_, -, h⟩ := Outcome.bind_eq_ok_iff.mp h
  cases h
  exact ⟨rfl, rfl⟩

end Relayvia
