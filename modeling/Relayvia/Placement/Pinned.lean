import Relayvia.Placement.Dispatch

/-!
# Local work is pinned to its Runner

The tasks of a run that `create_run` accepted.  A Tool always goes to its own Runner.  A Codex
agent whose task does not resolve is handed to the server Worker instead.
-/

namespace Relayvia

variable {env : Env} {now : Time} {db db' : RunRecord} {run run' : WorkflowRun}
  {node : WorkflowNode} {op : RunOp} {returned : Bool} {log : List Entry}

/-! ## Targets of the run row -/

/-- The snapshot of the Agent that the node refers to. -/
def agentSnapshot (run : WorkflowRun) (node : WorkflowNode) : Option Dict :=
  match Dict.get? run.executionSnapshot "agents",
      (Dict.get? node.config "agent_id").bind Json.str? with
  | some (.obj agents), some agentId =>
      match Dict.get? agents agentId with
      | some (.obj agent) => some agent
      | _ => none
  | _, _ => none

def isCodexAgent (run : WorkflowRun) (node : WorkflowNode) : Bool :=
  node.type = .agent ∧
    (agentSnapshot run node).any fun agent ↦
      Dict.get? agent "connector_type" = some (.str "codex")

/-- The capability that local work of the node needs and the Runner configured for it. -/
def localTarget (run : WorkflowRun) (node : WorkflowNode) : Option (String × Option String) :=
  if node.type = .tool then some ("shell", (Dict.get? node.config "runner_id").bind Json.str?)
  else if isCodexAgent run node then
    some ("codex", ((agentSnapshot run node).bind (Dict.get? · "runner_id")).bind Json.str?)
  else none

/-- Every local node has a Runner, whose id is no template. -/
def Assigned (run : WorkflowRun) : Prop :=
  ∀ node ∈ run.graph.nodes, ∀ capability target,
    localTarget run node = some (capability, target) →
      ∃ runnerId, target = some runnerId ∧ Python.contains ['{', '{'] runnerId.toList = false

/-- The row keeps what the targets are read from. -/
structure SameTargets (run run' : WorkflowRun) : Prop where
  graph : run'.graph = run.graph
  executionSnapshot : run'.executionSnapshot = run.executionSnapshot

namespace SameTargets

theorem agentSnapshot (h : SameTargets run run') :
    Relayvia.agentSnapshot run' node = Relayvia.agentSnapshot run node := by
  simp only [Relayvia.agentSnapshot, h.executionSnapshot]

theorem isCodexAgent (h : SameTargets run run') :
    Relayvia.isCodexAgent run' node = Relayvia.isCodexAgent run node := by
  simp only [Relayvia.isCodexAgent, h.agentSnapshot]

theorem localTarget (h : SameTargets run run') :
    Relayvia.localTarget run' node = Relayvia.localTarget run node := by
  simp only [Relayvia.localTarget, h.isCodexAgent, h.agentSnapshot]

theorem assigned_iff (h : SameTargets run run') : Assigned run' ↔ Assigned run := by
  simp only [Assigned, h.localTarget, h.graph]

end SameTargets

theorem RunChange.sameTargets (h : RunChange op run run') : SameTargets run run' := by
  cases h <;> exact ⟨rfl, rfl⟩

/-! ## Creation -/

theorem lookup_map_snd {α β : Type} (f : α → β) (table : List (String × α)) (key : String) :
    (table.map fun (id, a) ↦ (id, f a)).lookup key = (table.lookup key).map f := by
  induction table with
  | nil => rfl
  | cons entry table ih =>
      obtain ⟨k, a⟩ := entry
      simp only [List.map_cons, List.lookup_cons]
      cases key == k
      · exact ih
      · rfl

theorem agentSnapshot_of_build {loaded : LoadedRecords}
    (h : run.executionSnapshot = buildExecutionSnapshot loaded) :
    agentSnapshot run node =
      (((Dict.get? node.config "agent_id").bind Json.str?).bind (loaded.agents.lookup ·)).map
        snapshotAgent := by
  have hagents : Dict.get? run.executionSnapshot "agents" =
      some (.obj (loaded.agents.map fun entry ↦ (entry.1, .obj (snapshotAgent entry.2)))) := by
    rw [h]
    rfl
  unfold agentSnapshot
  rw [hagents]
  cases (Dict.get? node.config "agent_id").bind Json.str? with
  | none => rfl
  | some agentId =>
      have hlookup := lookup_map_snd (fun agent ↦ Json.obj (snapshotAgent agent)) loaded.agents
        agentId
      simp only [Dict.get?, Option.bind_some, hlookup]
      cases loaded.agents.lookup agentId <;> rfl

/-- The run row has the targets that the registry gave. -/
theorem localTarget_of_build {loaded : LoadedRecords}
    (h : run.executionSnapshot = buildExecutionSnapshot loaded) :
    localTarget run node = runnerTarget loaded.agents node := by
  have hconnector (agent : AgentRecord) :
      Dict.get? (snapshotAgent agent) "connector_type" = some (.str agent.connectorType) := rfl
  have hrunner (agent : AgentRecord) :
      (Dict.get? (snapshotAgent agent) "runner_id").bind Json.str? = agent.runnerId := by
    have hget : Dict.get? (snapshotAgent agent) "runner_id" =
        some (optionalText agent.runnerId) := rfl
    rw [hget]
    cases agent.runnerId <;> rfl
  unfold localTarget isCodexAgent runnerTarget
  rw [agentSnapshot_of_build h]
  cases htype : node.type with
  | agent =>
      cases ((Dict.get? node.config "agent_id").bind Json.str?).bind (loaded.agents.lookup ·) with
      | none => simp
      | some agent =>
          by_cases hcodex : agent.connectorType = "codex" <;> simp [hconnector, hrunner, hcodex]
  | tool | service | logic | human | data => simp

theorem isUuid_plain {s : String} (h : Python.isUuid s = true) :
    Python.contains ['{', '{'] s.toList = false := by
  have hall : ∀ c ∈ s.toList, Python.isUuidChar c = true := by
    simp only [Python.isUuid, Bool.and_eq_true, List.all_eq_true] at h
    exact h.2
  generalize s.toList = cs at hall
  induction cs with
  | nil => rfl
  | cons c cs ih =>
      have hne : '{' ≠ c := by
        rintro rfl
        exact absurd (hall '{' (by simp)) (by decide)
      rw [Python.contains, ih fun c hc ↦ hall c (by simp [hc])]
      simp [List.isPrefixOf, hne]

/-- What `create_run` accepts has its Runners assigned. -/
theorem assigned_of_created {offlineAfterSeconds : ℕ} {id : String} {registry : RunRegistry}
    {graph : ParsedGraph} {input : Dict}
    (h : createCheckedRun env now offlineAfterSeconds id registry graph input = .ok db) :
    Assigned db.run := by
  obtain ⟨loaded, hgraph, hsnapshot, htargets, -⟩ := createCheckedRun_ok h
  intro node hnode capability target htarget
  rw [localTarget_of_build hsnapshot] at htarget
  rw [hgraph] at hnode
  obtain ⟨runnerId, rfl, runner, hrunner, rfl⟩ := htargets node hnode capability target htarget
  exact ⟨runner.id, rfl, isUuid_plain (registry.runnerIds runner hrunner)⟩

/-! ## Resolution -/

/-- The task of a Codex agent resolves to a text that is not blank. -/
def taskResolves (env : Env) (db : RunRecord) (node : WorkflowNode) : Bool :=
  ((resolveConfig env db node).bind (textAt · "task_template")).isSome

/-! ## Dispatch -/

/-- The placement that local work of the node must have. -/
def Placement.Local (run : WorkflowRun) (node : WorkflowNode) (p : Placement) : Prop :=
  ∀ capability target, localTarget run node = some (capability, target) →
    p.capability = some capability ∧ p.runnerId = target

theorem dispatchRunner_placement {target : RunnerDispatch} {id : NodeId} {p : Placement}
    (h : (dispatchRunner env db node target).placement id = some p) :
    p = { nodeRunId := id, capability := some target.capability, runnerId := target.runnerId } := by
  unfold dispatchRunner at h
  split at h <;> cases h
  rfl

/-- A Tool that is dispatched goes to its Runner. -/
theorem dispatch_tool {id : NodeId} {p : Placement} {runnerId : String}
    (htype : node.type = .tool)
    (hrunner : (Dict.get? node.config "runner_id").bind Json.str? = some runnerId)
    (hplain : Python.contains ['{', '{'] runnerId.toList = false)
    (h : (dispatch env db node).placement id = some p) :
    p = { nodeRunId := id, capability := some "shell", runnerId := some runnerId } := by
  unfold dispatch at h
  rw [htype] at h
  dsimp only at h
  split at h
  · next target htarget =>
    rw [dispatchRunner_placement h]
    obtain ⟨resolved, hresolved, htarget⟩ := Option.bind_eq_some_iff.mp htarget
    obtain ⟨command, -, htarget⟩ := Option.bind_eq_some_iff.mp htarget
    cases htarget
    obtain ⟨value, hvalue, htext⟩ := Option.bind_eq_some_iff.mp hrunner
    have hvalue' : value = .str runnerId := by
      cases value <;> simp_all [Json.str?]
    have hfields : (contextResolver env db).resolveFields node.config = .ok resolved := by
      unfold resolveConfig at hresolved
      cases hfields : (contextResolver env db).resolveFields node.config with
      | ok fields => simpa [hfields, Except.toOption] using hresolved
      | error e => simp [hfields, Except.toOption] at hresolved
    obtain ⟨value', hresolve, hget⟩ := resolveFields_get? hfields hvalue
    rw [hvalue', resolve_plain _ hplain] at hresolve
    cases hresolve
    have hrunnerId : Dict.get? resolved "runner_id" = some (.str runnerId) := hget
    simp [hrunnerId, Json.str?]
  · cases h

theorem lookup_of_agentSnapshot {run : WorkflowRun} {agent : Dict}
    (h : agentSnapshot run node = some agent) : ∃ agents agentId,
      Dict.get? run.executionSnapshot "agents" = some (.obj agents) ∧
        (Dict.get? node.config "agent_id").bind Json.str? = some agentId ∧
        Dict.get? agents agentId = some (.obj agent) := by
  unfold agentSnapshot at h
  split at h
  · next agents agentId hagents hid =>
    split at h
    · next agent' hlookup =>
      cases h
      exact ⟨agents, agentId, hagents, hid, hlookup⟩
    · cases h
  · cases h

/-- A Codex agent goes to its Runner exactly when its task resolves. -/
theorem dispatch_codex (hcodex : isCodexAgent db.run node = true) :
    (taskResolves env db node = false → dispatch env db node = .worker) ∧
      (taskResolves env db node = true → ∀ id p, (dispatch env db node).placement id = some p →
        p = { nodeRunId := id, capability := some "codex",
              runnerId := ((agentSnapshot db.run node).bind (Dict.get? · "runner_id")).bind
                Json.str? }) := by
  simp only [isCodexAgent, decide_eq_true_eq, Option.any_eq_true] at hcodex
  obtain ⟨htype, agent, hagent, hconnector⟩ := hcodex
  have hpayload : codingAgentPayload env db node =
      (resolveConfig env db node).bind fun resolved ↦
        (textAt resolved "task_template").bind fun task ↦
          some
            { config :=
                [("command", .str (codexCommand env task
                    ((Dict.get? agent "executable").bind Json.str?))),
                  ("working_directory", .null),
                  ("timeout_seconds", .int (timeoutSeconds env resolved 600))]
              executionType := "coding_agent"
              capability := "codex"
              runnerId := (Dict.get? agent "runner_id").bind Json.str? } := by
    obtain ⟨agents, agentId, hagents, hid, hlookup⟩ := lookup_of_agentSnapshot hagent
    unfold codingAgentPayload
    rw [hagents, hid]
    simp [hlookup, hconnector]
  unfold dispatch taskResolves
  rw [htype, hpayload, hagent]
  cases hresolved : resolveConfig env db node with
  | none => simp
  | some resolved =>
      rw [Option.bind_some, Option.bind_some]
      cases textAt resolved "task_template" with
      | none => simp
      | some task =>
          refine ⟨fun h ↦ (by cases h), fun _ id p hp ↦ ?_⟩
          exact dispatchRunner_placement hp

/-! ## Local work -/

/-- The task asks for the capability and the Runner, and nobody else may claim it. -/
structure PinnedTo (db : RunRecord) (t : ExecutionTask) (capability runnerId : String) : Prop where
  required : t.requiredCapability = some capability
  reserved : t.runnerId = some runnerId
  claim : ∀ now workerId capabilities, claimable now workerId capabilities db t = true →
    workerId = runnerId ∧ ∃ listed, capabilities = some listed ∧ capability ∈ listed

/-- Every task of a Tool or of a Codex agent is pinned to the Runner configured for it. -/
def LocalWorkPinned (db : RunRecord) : Prop :=
  ∀ t ∈ db.tasks, ∀ node ∈ db.run.graph.nodes, node.id = t.nodeRunId →
    ∀ capability target, localTarget db.run node = some (capability, target) →
      ∃ runnerId, target = some runnerId ∧ PinnedTo db t capability runnerId

theorem pinnedTo_iff {t : ExecutionTask} {capability runnerId : String} :
    PinnedTo db t capability runnerId ↔
      t.requiredCapability = some capability ∧ t.runnerId = some runnerId := by
  constructor
  · intro h
    exact ⟨h.required, h.reserved⟩
  · rintro ⟨hcapability, hrunner⟩
    refine ⟨hcapability, hrunner, fun now workerId capabilities h ↦ ?_⟩
    simp only [claimable, decide_eq_true_eq] at h
    cases capabilities with
    | none => simp [capabilityMatches, hcapability] at h
    | some listed =>
        simp only [capabilityMatches, hcapability, hrunner, Option.any_some, Option.some.injEq,
          reduceCtorEq, false_or, decide_eq_true_eq] at h
        exact ⟨h.2.2.2.2.symm, listed, rfl, h.2.2.2.1⟩

/-- The same of the placements alone. -/
theorem localWorkPinned_iff (hassigned : Assigned db.run) : LocalWorkPinned db ↔
    ∀ p ∈ placements db.tasks, ∀ node ∈ db.run.graph.nodes, node.id = p.nodeRunId →
      p.Local db.run node := by
  constructor
  · intro h p hp node hnode hid capability target htarget
    obtain ⟨t, ht, rfl⟩ := List.mem_map.mp hp
    obtain ⟨runnerId, rfl, hpinned⟩ := h t ht node hnode hid capability target htarget
    exact ⟨hpinned.required, hpinned.reserved⟩
  · intro h t ht node hnode hid capability target htarget
    obtain ⟨runnerId, rfl, -⟩ := hassigned node hnode capability target htarget
    have hlocal := h t.placement (List.mem_map_of_mem ht) node hnode hid capability _ htarget
    exact ⟨runnerId, rfl, pinnedTo_iff.mpr hlocal⟩

/-! ## Steps -/

/-- Every Codex agent that the transaction finds ready has a task that resolves. -/
def RunOp.ResolvesTasks (env : Env) (db : RunRecord) (op : RunOp) : Prop :=
  ∀ s, op.stage env db = some s → ∀ node ∈ s.run.graph.nodes, node.id ∈ readyNodes s →
    isCodexAgent s.run node = true → taskResolves env s.toRunRecord node = true

theorem RunOp.stage_sameTargets {s : Session} (h : op.stage env db = some s) :
    SameTargets db.run s.run := by
  unfold stage at h
  split at h
  · split at h <;> cases h
    exact ⟨rfl, rfl⟩
  · split at h <;> cases h
    exact ⟨rfl, rfl⟩
  · cases h

theorem RunOp.mem_handsOut {p : Placement} : p ∈ op.handsOut env db ↔
    ∃ s, op.stage env db = some s ∧ p ∈ handedOut env s := by
  unfold handsOut
  cases op.stage env db with
  | none => simp
  | some s => simp

theorem localTarget_codex (h : isCodexAgent run node = true) : localTarget run node =
    some ("codex", ((agentSnapshot run node).bind (Dict.get? · "runner_id")).bind Json.str?) := by
  have htype : node.type = .agent := by
    simp only [isCodexAgent, decide_eq_true_eq] at h
    exact h.1
  rw [localTarget, if_neg (by simp [htype]), if_pos h]

/-- What a transaction hands out is local work in its place, when the tasks resolve. -/
theorem RunOp.ResolvesTasks.placed (h : op.ResolvesTasks env db) (hassigned : Assigned db.run)
    {p : Placement} (hp : p ∈ op.handsOut env db) (hnode : node ∈ db.run.graph.nodes)
    (hid : node.id = p.nodeRunId) : p.Local db.run node := by
  obtain ⟨s, hstage, hp⟩ := RunOp.mem_handsOut.mp hp
  have hsame := RunOp.stage_sameTargets hstage
  obtain ⟨node', hnode', hready, hp⟩ := mem_handedOut.mp hp
  have hkey : p.nodeRunId = node'.id := by
    unfold Dispatch.placement at hp
    split at hp <;> cases hp <;> rfl
  obtain rfl : node = node' := by
    rw [hsame.graph] at hnode'
    exact List.inj_on_of_nodup_map db.run.graph.nodeIds_nodup hnode hnode' (hid.trans hkey)
  rw [← hsame.assigned_iff] at hassigned
  intro capability target htarget
  rw [← hsame.localTarget] at htarget
  obtain ⟨runnerId, rfl, hplain⟩ := hassigned node hnode' capability target htarget
  unfold localTarget at htarget
  split at htarget
  · next htype =>
    obtain ⟨rfl, hrunner⟩ := Prod.mk.inj (Option.some.inj htarget)
    rw [dispatch_tool htype hrunner hplain hp]
    exact ⟨rfl, rfl⟩
  · split at htarget
    · next hcodex =>
      obtain ⟨rfl, hrunner⟩ := Prod.mk.inj (Option.some.inj htarget)
      rw [(dispatch_codex hcodex).2 (h s hstage node hnode' hready hcodex) node.id p hp]
      exact ⟨rfl, hrunner⟩
    · cases htarget

/-- A transaction keeps local work pinned exactly when the tasks of the Codex agents that
it finds ready resolve. -/
theorem LocalWorkPinned.step_iff (hpinned : LocalWorkPinned db) (hassigned : Assigned db.run)
    (hc : Coupled db) (h : op.exec env db = .ok (returned, db')) :
    LocalWorkPinned db' ↔ op.ResolvesTasks env db := by
  have hsame := (RunOp.exec_runChange hc h).sameTargets
  obtain ⟨horigin, hplaced⟩ := RunOp.exec_placements hc h
  rw [localWorkPinned_iff (hsame.assigned_iff.mpr hassigned)]
  rw [localWorkPinned_iff hassigned] at hpinned
  constructor
  · intro hlocal s hstage node hnode hready hcodex
    have hsame' := RunOp.stage_sameTargets hstage
    by_contra hblank
    have hworker := (dispatch_codex hcodex).1 (by simpa using hblank)
    have hhanded : { nodeRunId := node.id, capability := none, runnerId := none } ∈
        op.handsOut env db := by
      refine RunOp.mem_handsOut.mpr ⟨s, hstage, mem_handedOut.mpr ⟨node, hnode, hready, ?_⟩⟩
      rw [hworker]
      rfl
    have htarget := localTarget_codex hcodex
    rw [hsame'.localTarget, ← hsame.localTarget] at htarget
    rw [hsame'.graph, ← hsame.graph] at hnode
    have hcapability := (hlocal _ (hplaced _ hhanded) node hnode rfl _ _ htarget).1
    cases hcapability
  · intro hresolves p hp node hnode hid
    rw [hsame.graph] at hnode
    have hlocal : p.Local db.run node := by
      rcases horigin p hp with hp | hp
      · exact hpinned p hp node hnode hid
      · exact hresolves.placed hassigned hp hnode hid
    intro capability target htarget
    rw [hsame.localTarget] at htarget
    exact hlocal capability target htarget

/-! ## Runs -/

/-- The state before the first step. -/
def firstState (log : List Entry) (db : RunRecord) : RunRecord :=
  (log.getLast?.map Entry.before).getD db

theorem firstState_cons (e : Entry) (db' : RunRecord) :
    firstState (e :: log) db' = firstState log e.before := by
  unfold firstState
  rw [List.getLast?_cons]
  cases log.getLast? <;> rfl

/-- No step of a history changes what the targets are read from. -/
theorem History.sameTargets (h : History env log db) :
    SameTargets (firstState log db).run db.run ∧ ∀ e ∈ log, SameTargets e.before.run db.run := by
  induction h with
  | created => exact ⟨⟨rfl, rfl⟩, by simp⟩
  | @step log db db' op returned hlog h ih =>
      have hstep := (RunOp.exec_runChange hlog.coupled h).sameTargets
      have htrans {run : WorkflowRun} (hrun : SameTargets run db.run) : SameTargets run db'.run :=
        ⟨hstep.graph.trans hrun.graph, hstep.executionSnapshot.trans hrun.executionSnapshot⟩
      rw [firstState_cons]
      refine ⟨htrans ih.1, ?_⟩
      rw [List.forall_mem_cons]
      exact ⟨hstep, fun e he ↦ htrans (ih.2 e he)⟩

/-- In a run that `create_run` accepted, local work is pinned to its Runner in every state
if and only if the tasks of the Codex agents that its transactions find ready resolve. -/
theorem local_work_pinned_iff {offlineAfterSeconds : ℕ} {id : String} {registry : RunRegistry}
    {graph : ParsedGraph} {input : Dict} (h : History env log db)
    (hcreated : createCheckedRun env now offlineAfterSeconds id registry graph input =
      .ok (firstState log db)) :
    (LocalWorkPinned db ∧ ∀ later e earlier, log = later ++ e :: earlier →
      LocalWorkPinned e.before) ↔ ∀ e ∈ log, e.op.ResolvesTasks env e.before := by
  obtain ⟨hfirst, hbefore⟩ := h.sameTargets
  have hassigned : Assigned db.run := hfirst.assigned_iff.mpr (assigned_of_created hcreated)
  have hassignedBefore : ∀ e ∈ log, Assigned e.before.run :=
    fun e he ↦ (hbefore e he).assigned_iff.mp hassigned
  have hiff : Throughout (fun _ db ↦ Assigned db.run → LocalWorkPinned db) log db ↔
      ∀ e ∈ log, Assigned e.before.run → e.op.ResolvesTasks env e.before := by
    refine @History.throughout_iff env _ _ (fun _ db ↦ Assigned db.run → LocalWorkPinned db)
      (fun e ↦ Assigned e.before.run → e.op.ResolvesTasks env e.before) ?_ ?_ h
    · intro now id graph executionSnapshot input db hcreate _ t ht
      obtain ⟨_, -, hcreate⟩ := Outcome.bind_eq_ok_iff.mp hcreate
      cases hcreate
      cases ht
    · intro log db db' op returned hpinned hlog hexec
      have hsame := (RunOp.exec_runChange hlog.coupled hexec).sameTargets
      rw [hsame.assigned_iff]
      exact forall_congr' fun hassigned ↦
        (hpinned hassigned).step_iff hassigned hlog.coupled hexec
  constructor
  · rintro ⟨hlast, hall⟩ e he
    refine hiff.mp ⟨fun _ ↦ hlast, fun later e earlier heq _ ↦ hall later e earlier heq⟩ e he
      (hassignedBefore e he)
  · intro hresolves
    obtain ⟨hlast, hall⟩ := hiff.mpr fun e he _ ↦ hresolves e he
    refine ⟨hlast hassigned, fun later e earlier heq ↦ hall later e earlier heq ?_⟩
    exact hassignedBefore e (heq ▸ by simp)

/-! ## A Codex agent without a task -/

/-- Data Input, a Codex agent whose task is taken from the run input, Data Output. -/
def codexGraph : ParsedGraph where
  nodes :=
    [{ id := "in", type := .data, subtype := "input", name := "Input"
       config := [("schema", .obj [("type", .str "object")])] },
      { id := "agent", type := .agent, subtype := "agent", name := "Agent"
        config :=
          [("agent_id", .str "codex"), ("task_template", .str "{{workflow.input.task}}")] },
      { id := "out", type := .data, subtype := "output", name := "Output"
        config := [("output_mapping", .obj [])] }]
  edges :=
    [{ id := "e1", source := "in", target := "agent" },
      { id := "e2", source := "agent", target := "out" }]
  nodeIds_nodup := by decide
  edges_closed := by decide

def codexRunner : String := "00000000-0000-4000-8000-000000000001"

def codexRegistry : RunRegistry where
  agents :=
    [{ id := "codex", name := "Codex", enabled := true, connectorType := "codex",
       status := "healthy", inputSchema := none, outputSchema := none,
       runnerId := some codexRunner }]
  runners :=
    [{ id := codexRunner, name := "runner", hostname := "host", platform := none,
       status := .online, authTokenHash := none, capabilities := ["codex"],
       lastSeenAt := some 0, metadata := [] }]
  runnerIds := by decide

def codexRun (input : Dict) : RunRecord where
  run :=
    { id := "run", graph := codexGraph, input := input
      executionSnapshot := buildExecutionSnapshot
        { agents := codexRegistry.agents.map fun agent ↦ (agent.id, agent)
          services := [], actions := [] } }
  nodeRuns := codexGraph.nodes.map (createNodeRun input)

theorem createCheckedRun_codexRun (input : Dict) :
    createCheckedRun plainEnv 0 60 "run" codexRegistry codexGraph input = .ok (codexRun input) :=
  rfl

/-- The run is started and scheduled. -/
theorem history_codexRun {input : Dict} {db₁ db₂ : RunRecord}
    (h₁ : RunOp.exec plainEnv (.startRun 0) (codexRun input) = .ok (true, db₁))
    (h₂ : RunOp.exec plainEnv (.schedule 0) db₁ = .ok (true, db₂)) :
    History plainEnv
      [⟨.schedule 0, true, db₁, db₂⟩, ⟨.startRun 0, true, codexRun input, db₁⟩] db₂ := by
  obtain ⟨loaded, -, -, -, hcreate⟩ := createCheckedRun_ok (createCheckedRun_codexRun input)
  exact ((History.created hcreate).step h₁).step h₂

/-- With a task in the input, the Codex agent is scheduled for its Runner. -/
theorem local_work_pinned_iff_codexRun : ∃ log db, History plainEnv log db ∧
    createCheckedRun plainEnv 0 60 "run" codexRegistry codexGraph [("task", .str "fix")] =
      .ok (firstState log db) ∧ db.tasks ≠ [] ∧ LocalWorkPinned db := by
  obtain ⟨db₁, h₁, db₂, h₂, htasks, hresolves⟩ :
      ∃ db₁, RunOp.exec plainEnv (.startRun 0) (codexRun [("task", .str "fix")]) =
          .ok (true, db₁) ∧
        ∃ db₂, RunOp.exec plainEnv (.schedule 0) db₁ = .ok (true, db₂) ∧ db₂.tasks ≠ [] ∧
          ∀ node ∈ codexGraph.nodes, node.type = .agent →
            taskResolves plainEnv (skipInactive 0 { db₁ with }).toRunRecord node = true :=
    ⟨_, rfl, _, rfl, by decide, by decide⟩
  have hhistory := history_codexRun h₁ h₂
  refine ⟨_, db₂, hhistory, createCheckedRun_codexRun _, htasks, ?_⟩
  apply ((local_work_pinned_iff hhistory (createCheckedRun_codexRun _)).mpr ?_).1
  have hgraph : db₁.run.graph = codexGraph := by
    cases h₁
    rfl
  intro e he s hstage node hnode hready hcodex
  rcases List.mem_cons.mp he with rfl | he
  · have hstage' : s = skipInactive 0 { db₁ with } := by
      simp only [RunOp.stage] at hstage
      split at hstage <;> cases hstage
      rfl
    subst hstage'
    have htype : node.type = .agent := by
      simp only [isCodexAgent, decide_eq_true_eq] at hcodex
      exact hcodex.1
    exact hresolves node (hgraph ▸ hnode) htype
  · rw [List.mem_singleton.mp he] at hstage
    cases hstage

/-- Without a task in the input, the server Worker may claim the work of the agent. -/
theorem not_local_work_pinned_codexRun : ∃ log db, History plainEnv log db ∧
    createCheckedRun plainEnv 0 60 "run" codexRegistry codexGraph [] = .ok (firstState log db) ∧
      (∃ t ∈ db.tasks, t.nodeRunId = "agent" ∧ t.requiredCapability = none ∧
        t.runnerId = none ∧ claimable 0 "worker" none db t = true) ∧ ¬LocalWorkPinned db := by
  obtain ⟨db₁, h₁, db₂, h₂, t, ht, hnode, hcapability, hrunner, hclaim, htarget⟩ :
      ∃ db₁, RunOp.exec plainEnv (.startRun 0) (codexRun []) = .ok (true, db₁) ∧
        ∃ db₂, RunOp.exec plainEnv (.schedule 0) db₁ = .ok (true, db₂) ∧
          ∃ t ∈ db₂.tasks, t.nodeRunId = "agent" ∧ t.requiredCapability = none ∧
            t.runnerId = none ∧ claimable 0 "worker" none db₂ t = true ∧
              ∃ node ∈ db₂.run.graph.nodes, node.id = "agent" ∧
                localTarget db₂.run node = some ("codex", some codexRunner) :=
    ⟨_, rfl, _, rfl, _, .head _, rfl, rfl, rfl, by decide, _, .tail _ (.head _), rfl, rfl⟩
  refine ⟨_, db₂, history_codexRun h₁ h₂, createCheckedRun_codexRun [],
    ⟨t, ht, hnode, hcapability, hrunner, hclaim⟩, fun hpinned ↦ ?_⟩
  obtain ⟨node, hmem, hid, htarget⟩ := htarget
  obtain ⟨runnerId, -, hpinned⟩ := hpinned t ht node hmem (hid.trans hnode.symm) _ _ htarget
  rw [hpinned.required] at hcapability
  cases hcapability

end Relayvia
