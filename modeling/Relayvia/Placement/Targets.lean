import Relayvia.Enrollment.Service
import Relayvia.Runs
import Relayvia.Validation.Registry

/-!
# Runner targets of a run

The checks of `create_run` on the registry, and the snapshot of the rows that the run keeps.
Local work, a Tool or a Codex agent, needs a Runner of its own that is online and has the
capability.
-/

namespace Relayvia

namespace Python

/-- The characters of `str(uuid4())`. -/
def isUuidChar (c : Char) : Bool :=
  c.isDigit || ('a' ≤ c && c ≤ 'f') || c = '-'

/-- A text of the length and the characters of `str(uuid4())`. -/
def isUuid (s : String) : Bool :=
  s.toList.length = 36 && s.toList.all isUuidChar

end Python

/-! ## Rows -/

/-- All columns of `agents` that `create_run` reads. -/
structure AgentRecord extends AgentRow where
  endpoint : Option String := none
  httpMethod : String := "POST"
  headers : Option Dict := none
  healthCheckUrl : Option String := none
  timeoutSeconds : Option ℤ := none
  credentialId : Option String := none
  runnerId : Option String := none
  executable : Option String := none

structure ServiceRecord extends ServiceRow where
  baseUrl : String
  healthCheckUrl : Option String := none
  credentialId : Option String := none

structure ServiceActionRecord extends ServiceActionRow where
  method : String
  path : String
  headers : Option Dict := none
  timeoutSeconds : Option ℤ := none
  retryPolicy : Option Dict := none

/-- The tables that `create_run` reads. -/
structure RunRegistry where
  agents : List AgentRecord := []
  services : List ServiceRecord := []
  actions : List ServiceActionRecord := []
  runners : List RunnerRow := []
  /-- how `IN` compares an id with a bound value -/
  matchesId : String → Json → Bool := fun id value ↦ value = .str id
  /-- the default of the column: no request names the id of a new Runner -/
  runnerIds : ∀ runner ∈ runners, Python.isUuid runner.id = true

/-- The referenced rows under their ids. -/
structure LoadedRecords where
  agents : List (String × AgentRecord)
  services : List (String × ServiceRecord)
  actions : List (String × ServiceActionRecord)

/-- `_load_registry`. -/
def loadRecords (db : RunRegistry) (g : WorkflowGraph) : Except Raised LoadedRecords := do
  let ids ← referencedIds g
  return {
    agents := (db.agents.filter fun agent ↦ ids.agents.any (db.matchesId agent.id)).map
      fun agent ↦ (agent.id, agent)
    services := (db.services.filter fun service ↦ ids.services.any (db.matchesId service.id)).map
      fun service ↦ (service.id, service)
    actions := (db.actions.filter fun action ↦ ids.actions.any (db.matchesId action.id)).map
      fun action ↦ (action.id, action) }

/-- The columns that the validation engine sees. -/
def LoadedRecords.rows (loaded : LoadedRecords) : LoadedRegistry where
  agents := loaded.agents.map fun (id, agent) ↦ (id, agent.toAgentRow)
  services := loaded.services.map fun (id, service) ↦ (id, service.toServiceRow)
  actions := loaded.actions.map fun (id, action) ↦ (id, action.toServiceActionRow)

/-! ## The execution snapshot -/

def optionalText (text : Option String) : Json :=
  (text.map .str).getD .null

def optionalInt (value : Option ℤ) : Json :=
  (value.map .int).getD .null

/-- `_agent`. -/
def snapshotAgent (agent : AgentRecord) : Dict :=
  [("name", .str agent.name), ("connector_type", .str agent.connectorType),
    ("endpoint", optionalText agent.endpoint), ("http_method", .str agent.httpMethod),
    ("headers", .obj (agent.headers.getD [])),
    ("health_check_url", optionalText agent.healthCheckUrl),
    ("timeout_seconds", optionalInt agent.timeoutSeconds),
    ("input_schema", .obj (agent.inputSchema.getD [])),
    ("output_schema", .obj (agent.outputSchema.getD [])),
    ("credential_id", optionalText agent.credentialId),
    ("runner_id", optionalText agent.runnerId), ("executable", optionalText agent.executable)]

/-- `_service`. -/
def snapshotService (service : ServiceRecord) : Dict :=
  [("name", .str service.name), ("base_url", .str service.baseUrl),
    ("health_check_url", optionalText service.healthCheckUrl),
    ("credential_id", optionalText service.credentialId)]

/-- `_action`. -/
def snapshotAction (action : ServiceActionRecord) : Dict :=
  [("service_id", .str action.serviceId), ("name", .str action.name),
    ("method", .str action.method), ("path", .str action.path),
    ("headers", .obj (action.headers.getD [])),
    ("query_schema", .obj (action.querySchema.getD [])),
    ("path_schema", .obj (action.pathSchema.getD [])),
    ("timeout_seconds", optionalInt action.timeoutSeconds),
    ("retry_policy", .obj (action.retryPolicy.getD [])),
    ("input_schema", .obj (action.inputSchema.getD [])),
    ("output_schema", .obj (action.outputSchema.getD []))]

def executionSnapshotVersion : String := "2"

/-- `build_execution_snapshot`. -/
def buildExecutionSnapshot (loaded : LoadedRecords) : Dict :=
  [("schema_version", .str executionSnapshotVersion),
    ("agents", .obj (loaded.agents.map fun (id, agent) ↦ (id, .obj (snapshotAgent agent)))),
    ("services",
      .obj (loaded.services.map fun (id, service) ↦ (id, .obj (snapshotService service)))),
    ("service_actions",
      .obj (loaded.actions.map fun (id, action) ↦ (id, .obj (snapshotAction action))))]

/-! ## The checks -/

/-- `runner_online`. -/
def runnerOnline (now : Time) (offlineAfterSeconds : ℕ) (runner : RunnerRow) : Bool :=
  match runner.status, runner.lastSeenAt with
  | .disabled, _ => false
  | _, none => false
  | _, some lastSeenAt => now < lastSeenAt + seconds offlineAfterSeconds

/-- The capability that a node needs and the Runner that it names; `none` for a node that
does not run locally. -/
def runnerTarget (agents : List (String × AgentRecord)) (node : WorkflowNode) :
    Option (String × Option String) :=
  match node.type with
  | .tool => some ("shell", (Dict.get? node.config "runner_id").bind Json.str?)
  | .agent =>
      match ((Dict.get? node.config "agent_id").bind Json.str?).bind (agents.lookup ·) with
      | some agent =>
          if agent.connectorType = "codex" then some ("codex", agent.runnerId) else none
      | none => none
  | _ => none

/-- `db.get(Runner, runner_id)`. -/
def findRunner (runners : List RunnerRow) (id : String) : Option RunnerRow :=
  Table.find? RunnerRow.id id runners

def runnerTargetError (now : Time) (offlineAfterSeconds : ℕ) (runners : List RunnerRow)
    (nodeId : NodeId) (runnerId capability : String) : Option String :=
  match findRunner runners runnerId with
  | none =>
      some ("Node " ++ nodeId ++ " references Runner " ++ runnerId ++ ", which does not exist")
  | some runner =>
      if ¬runnerOnline now offlineAfterSeconds runner then
        some ("Runner " ++ runner.name ++ " for node " ++ nodeId ++ " is not online")
      else if capability ∉ runner.capabilities then
        some ("Runner " ++ runner.name ++ " for node " ++ nodeId ++ " lacks capability " ++
          capability)
      else none

/-- `_validate_runner_targets`; `checked` holds the targets that were seen. -/
def runnerTargetErrors (now : Time) (offlineAfterSeconds : ℕ) (runners : List RunnerRow)
    (agents : List (String × AgentRecord)) :
    List (NodeId × String × String) → List WorkflowNode → List String
  | _, [] => []
  | checked, node :: nodes =>
      match runnerTarget agents node with
      | none => runnerTargetErrors now offlineAfterSeconds runners agents checked nodes
      | some (capability, target) =>
          match target.filter (· ≠ "") with
          | none =>
              ("Node " ++ node.id ++ " requires an explicitly assigned Runner") ::
                runnerTargetErrors now offlineAfterSeconds runners agents checked nodes
          | some runnerId =>
              if (node.id, runnerId, capability) ∈ checked then
                runnerTargetErrors now offlineAfterSeconds runners agents checked nodes
              else
                (runnerTargetError now offlineAfterSeconds runners node.id runnerId
                    capability).toList ++
                  runnerTargetErrors now offlineAfterSeconds runners agents
                    ((node.id, runnerId, capability) :: checked) nodes

def validateRunnerTargets (now : Time) (offlineAfterSeconds : ℕ) (runners : List RunnerRow)
    (g : WorkflowGraph) (agents : List (String × AgentRecord)) : List String :=
  runnerTargetErrors now offlineAfterSeconds runners agents [] g.nodes

/-- `check_run_readiness`: the messages of the errors and of the warnings. -/
def checkRunReadiness (env : Env) (context : ValidationContext) (g : WorkflowGraph) :
    Except Raised (List String × List String) := do
  let issues ← validateReferences env context g
  return ((issues.filter (·.severity = .error)).map ValidationIssue.message,
    (issues.filter (·.severity = .warning)).map ValidationIssue.message)

/-- `create_run` of the graph of a version, with its checks. -/
def createCheckedRun (env : Env) (now : Time) (offlineAfterSeconds : ℕ) (id : String)
    (db : RunRegistry) (graph : ParsedGraph) (input : Dict) : Except Raised RunRecord := do
  let loaded ← loadRecords db graph.toWorkflowGraph
  let (errors, warnings) ←
    checkRunReadiness env (registryContext loaded.rows) graph.toWorkflowGraph
  let runnerErrors := validateRunnerTargets now offlineAfterSeconds db.runners
    graph.toWorkflowGraph loaded.agents
  if errors ≠ [] ∨ runnerErrors ≠ [] then
    throw (.relayvia
      { code := "RUN_READINESS_FAILED"
        message := "Referenced capabilities are not ready to run"
        statusCode := 409
        details :=
          [("errors", .arr ((errors ++ runnerErrors).map .str)),
            ("warnings", .arr (warnings.map .str))] })
  createRun env now id graph (buildExecutionSnapshot loaded) input

/-! ## What the checks assure -/

/-- Every local node names an existing Runner. -/
def TargetsExist (runners : List RunnerRow) (agents : List (String × AgentRecord))
    (nodes : List WorkflowNode) : Prop :=
  ∀ node ∈ nodes, ∀ capability target, runnerTarget agents node = some (capability, target) →
    ∃ runnerId, target = some runnerId ∧ ∃ runner ∈ runners, runner.id = runnerId

variable {now : Time} {offlineAfterSeconds : ℕ} {runners : List RunnerRow}
  {agents : List (String × AgentRecord)} {nodes : List WorkflowNode}

theorem runnerTargetError_none {nodeId : NodeId} {runnerId capability : String}
    (h : runnerTargetError now offlineAfterSeconds runners nodeId runnerId capability = none) :
    ∃ runner ∈ runners, runner.id = runnerId := by
  unfold runnerTargetError at h
  split at h
  · cases h
  · next runner hrunner =>
    exact ⟨runner, Table.mem_of_find? hrunner, Table.key_of_find? hrunner⟩

/-- A target that was checked belongs to an earlier node. -/
theorem runnerTargetErrors_nil {checked : List (NodeId × String × String)}
    (hnodup : (nodes.map WorkflowNode.id).Nodup)
    (hchecked : ∀ key ∈ checked, key.1 ∉ nodes.map WorkflowNode.id)
    (h : runnerTargetErrors now offlineAfterSeconds runners agents checked nodes = []) :
    TargetsExist runners agents nodes := by
  induction nodes generalizing checked with
  | nil => simp [TargetsExist]
  | cons node nodes ih =>
      rw [List.map_cons, List.nodup_cons] at hnodup
      have hlater : ∀ key ∈ checked, key.1 ∉ nodes.map WorkflowNode.id := by
        intro key hkey hmem
        apply hchecked key hkey
        simp [hmem]
      intro node' hmem capability target htarget
      rw [runnerTargetErrors] at h
      rcases List.mem_cons.mp hmem with rfl | hmem
      · rw [htarget] at h
        dsimp only at h
        split at h
        · cases h
        · next runnerId hrunner =>
          rw [Option.filter_eq_some_iff] at hrunner
          have hnew : (node'.id, runnerId, capability) ∉ checked := by
            intro hkey
            apply hchecked _ hkey
            simp
          rw [if_neg hnew, List.append_eq_nil_iff, Option.toList_eq_nil_iff] at h
          exact ⟨runnerId, hrunner.1, runnerTargetError_none h.1⟩
      · split at h
        · exact ih hnodup.2 hlater h node' hmem capability target htarget
        · split at h
          · cases h
          · split at h
            · exact ih hnodup.2 hlater h node' hmem capability target htarget
            · refine ih hnodup.2 ?_ (List.append_eq_nil_iff.mp h).2 node' hmem capability target
                htarget
              intro key hkey
              rcases List.mem_cons.mp hkey with rfl | hkey
              · exact hnodup.1
              · exact hlater key hkey

variable {env : Env} {id : String} {db : RunRegistry} {graph : ParsedGraph} {input : Dict}
  {created : RunRecord}

/-- The run that `create_run` returns: its graph, its snapshot and its targets. -/
theorem createCheckedRun_ok
    (h : createCheckedRun env now offlineAfterSeconds id db graph input = .ok created) :
    ∃ loaded, created.run.graph = graph ∧
      created.run.executionSnapshot = buildExecutionSnapshot loaded ∧
        TargetsExist db.runners loaded.agents graph.nodes ∧
          createRun env now id graph (buildExecutionSnapshot loaded) input = .ok created := by
  obtain ⟨loaded, -, h⟩ := Outcome.bind_eq_ok_iff.mp h
  obtain ⟨⟨errors, warnings⟩, -, h⟩ := Outcome.bind_eq_ok_iff.mp h
  dsimp only at h
  split at h
  · cases h
  · next hnone =>
    obtain ⟨-, hrunners⟩ := not_or.mp hnone
    have hrunners := not_not.mp hrunners
    have hcreate : createRun env now id graph (buildExecutionSnapshot loaded) input =
        .ok created := h
    obtain ⟨_, -, h⟩ := Outcome.bind_eq_ok_iff.mp hcreate
    cases h
    exact ⟨loaded, rfl, rfl,
      runnerTargetErrors_nil graph.nodeIds_nodup (by simp) hrunners, hcreate⟩

end Relayvia
