import Relayvia.Executor.Default
import Relayvia.Executor.Tasks
import Relayvia.Output.Command
import Relayvia.Stability
import Relayvia.Waiting
import Relayvia.Worker.Retries

/-!
# Workers with the default executor

The invariants of runs assume that the queue is told what executions find, `RunOp.Executed`.
Workers that run the default executor keep to it, whatever Agents, Services, Runners and the
API do meanwhile.
-/

namespace Relayvia

variable {env : WorkerEnv} {same : Json → Json → Bool} {s : WorkerWorld}
  {pid : ℕ} {p p' : WorkerProcess} {db db' : RunRecord} {node : WorkflowNode}
  {result : ExecutionResult} {workers : String → Prop}

/-! ## Executions -/

/-- A node that the executor evaluates by itself. -/
def WorkflowNode.isPure (node : WorkflowNode) : Bool :=
  (node.type = .logic ∧ node.subtype ∈ ["condition", "parallel", "merge"]) ∨
    (node.type = .data ∧ node.subtype ∈ ["transform", "output"])

/-- The execution of a pure node depends on its resolved fields only. -/
theorem executionOf_pure {x x' : ExecutorEnv} {context context' : NodeExecutionContext}
    (hpure : context.node.isPure = true) (hsame : x'.same = x.same)
    (hnode : context'.node = context.node) (hinput : context'.resolvedInput = context.resolvedInput)
    (hconfig : context'.resolvedConfig = context.resolvedConfig) :
    executionOf x' context' = executionOf x context := by
  simp only [WorkflowNode.isPure, Bool.decide_or, Bool.decide_and, Bool.or_eq_true,
    Bool.and_eq_true, decide_eq_true_eq, List.mem_cons, List.not_mem_nil, or_false] at hpure
  unfold executionOf executeNode
  rw [hnode, hinput, hconfig, hsame]
  rcases hpure with ⟨htype, hsubtype | hsubtype | hsubtype⟩ | ⟨htype, hsubtype | hsubtype⟩ <;>
    simp only [htype, hsubtype]

/-- A Condition that succeeds reports its branch. -/
theorem executionOf_condition {x : ExecutorEnv} {context : NodeExecutionContext}
    (hnode : context.node.isCondition = true) (hok : (executionOf x context).ok = true) :
    ∃ isMatch, (executionOf x context).output = .obj (conditionOutput isMatch) := by
  simp only [WorkflowNode.isCondition, Bool.decide_and, Bool.and_eq_true,
    decide_eq_true_eq] at hnode
  unfold executionOf executeNode executeCondition at hok ⊢
  simp only [hnode] at hok ⊢
  split at hok
  · next output houtput =>
    split at houtput
    · split at houtput
      · next isMatch _ =>
        cases houtput
        exact ⟨isMatch, rfl⟩
      · cases houtput
    · cases houtput
  · cases hok

theorem WorkflowNode.isPure_of_isCondition (h : node.isCondition = true) : node.isPure = true := by
  simp only [isCondition, Bool.decide_and, Bool.and_eq_true, decide_eq_true_eq] at h
  simp [isPure, h]

/-- The sanitizer leaves the output of a Condition as it is. -/
theorem sanitizeOutput_condition (T : TextTables) (isMatch : Bool) :
    sanitizeOutput T [] (.obj (conditionOutput isMatch)) = conditionOutput isMatch := by
  have hkeys : isSensitiveKey T "selected_branch" = false ∧ isSensitiveKey T "matched" = false := by
    constructor <;> rw [isSensitiveKey_of_ascii (by decide)] <;> decide
  have htext : ∀ b : Bool, redactText T [] (if b then "true" else "false") =
      if b then "true" else "false" := by
    intro b
    rw [redactText_nil, redactInline_of_no_sign]
    · cases b <;> rfl
    · cases b <;> simp
  have hvalue : sanitizeValue T [] (.obj (conditionOutput isMatch)) =
      .obj (conditionOutput isMatch) := by
    simp only [conditionOutput, sanitizeValue, sanitizeFields, hkeys, htext, Bool.false_eq_true,
      if_false]
  unfold sanitizeOutput sanitize
  rw [hvalue]
  cases isMatch <;> rfl

/-! ## Phases -/

/-- The next phase of a process that a step moves. -/
inductive PhaseStep (env : WorkerEnv) (s : WorkerWorld) (step : WorkerStep) (pid : ℕ)
    (p : WorkerProcess) : WorkerPhase → Prop
  | start : PhaseStep env s step pid p .started
  | load : PhaseStep env s step pid p (p.load env.toEnv s.db)
  | persist {node : WorkflowNode} {input : Dict} {config : Except UnresolvedContextReference Dict}
      {now : Time} (hstep : step = .persist pid now)
      (hphase : p.phase = .loaded node input config) : PhaseStep env s step pid p (WorkerProcess.proceed env.toEnv now node config)
  | execute {result : ExecutionResult} (hstep : step = .execute pid result)
      (hphase : p.phase = .executing) : PhaseStep env s step pid p (.executed result)
  | fail {result : ExecutionResult} :
      PhaseStep env s step pid p (.reporting (p.failedReport env.toEnv result))
  | register {result : ExecutionResult} {ids : List String} {r : Registration}
      (hphase : p.phase = .executed result) (hok : result.ok = true)
      (hr : WorkerStep.registration env ids result p s = .ok r) :
      PhaseStep env s step pid p (.completing
        (Dict.merge (env.sanitizeOutput result.output) r.outputKeys)
        (env.sanitizeMetadata result.metadata) (env.sanitizeArtifacts r.references) r.created)
  | unregistered {error : Dict} :
      PhaseStep env s step pid p (WorkerProcess.failure env.toEnv error)
  | reconcile : PhaseStep env s step pid p .reconciling

/-- A process stays, is a new one, or makes a step. -/
inductive ProcessStep (env : WorkerEnv) (s : WorkerWorld) (step : WorkerStep) (pid : ℕ) :
    WorkerProcess → Prop
  | kept {p : WorkerProcess} (hp : s.processes pid = some p) : ProcessStep env s step pid p
  | claimed {workerId leaseToken : String} {task : TaskId} {t : ExecutionTask}
      (ht : findTask s.db.tasks task = some t) :
      ProcessStep env s step pid
        { workerId := workerId
          leaseToken := leaseToken
          task := task
          nodeRunId := t.nodeRunId
          payload := t.payload
          attempt := t.attempt
          maxAttempts := t.maxAttempts }
  | moved {p : WorkerProcess} {startedAttempt : ℕ} {phase : WorkerPhase}
      (hp : s.processes pid = some p) (hphase : PhaseStep env s step pid p phase) :
      ProcessStep env s step pid { p with startedAttempt := startedAttempt, phase := phase }

variable (env) in
theorem WorkerStep.exec_processStep (step : WorkerStep) (s : WorkerWorld) {p' : WorkerProcess}
    (hp' : (step.exec env s).processes pid = some p') : ProcessStep env s step pid p' := by
  have hset {step : WorkerStep} {s₀ : WorkerWorld} {pid₀ : ℕ} {x : Option WorkerProcess}
      (hs₀ : s₀.processes = s.processes)
      (h : (s₀.setProcess pid₀ x).processes pid = some p')
      (hx : ∀ p, x = some p → ProcessStep env s step pid₀ p) : ProcessStep env s step pid p' := by
    rcases WorkerWorld.setProcess_cases h with ⟨rfl, hsome⟩ | ⟨-, hp⟩
    · exact hx p' hsome
    · rw [hs₀] at hp
      exact .kept hp
  have hgone {step : WorkerStep} {s₀ : WorkerWorld} {pid₀ : ℕ} (hs₀ : s₀.processes = s.processes)
      (h : (s₀.setProcess pid₀ none).processes pid = some p') : ProcessStep env s step pid p' :=
    hset hs₀ h (by simp)
  have hmoved {step : WorkerStep} {s₀ : WorkerWorld} {pid₀ attempt : ℕ} {p : WorkerProcess}
      {phase : WorkerPhase} (hs₀ : s₀.processes = s.processes) (hp : s.processes pid₀ = some p)
      (h : (s₀.setProcess pid₀
        (some { p with startedAttempt := attempt, phase := phase })).processes pid = some p')
      (hphase : PhaseStep env s step pid₀ p phase) :
      ProcessStep env s step pid p' := by
    refine hset hs₀ h fun q hq ↦ ?_
    cases hq
    exact .moved hp hphase
  cases step with
  | run op =>
      simp only [exec] at hp'
      split at hp' <;> exact .kept hp'
  | upload artifact =>
      simp only [exec] at hp'
      split at hp' <;> exact .kept hp'
  | claim pid₀ now workerId leaseToken leaseSeconds task =>
      simp only [exec] at hp'
      split at hp'
      · next t db _ ht _ =>
        refine hset rfl hp' fun q hq ↦ ?_
        cases hq
        exact .claimed ht
      · exact .kept hp'
  | start pid₀ now =>
      simp only [exec] at hp'
      split at hp'
      · next p hp =>
        split at hp'
        · exact hmoved rfl hp hp' .start
        · exact hgone rfl hp'
        · exact hgone rfl hp'
        · exact .kept hp'
      · exact .kept hp'
  | load pid₀ =>
      simp only [exec] at hp'
      split at hp'
      · next p hp =>
        split at hp'
        · exact hmoved rfl hp hp' .load
        · exact .kept hp'
      · exact .kept hp'
  | persist pid₀ now =>
      simp only [exec] at hp'
      split at hp'
      · next p hp =>
        split at hp'
        · next hphase => exact hmoved rfl hp hp' (.persist rfl hphase)
        · exact .kept hp'
      · exact .kept hp'
  | renew pid₀ now leaseSeconds =>
      simp only [exec] at hp'
      split at hp'
      · split at hp' <;> exact .kept hp'
      · exact .kept hp'
  | execute pid₀ result =>
      simp only [exec] at hp'
      split at hp'
      · next p hp =>
        split at hp'
        · next hphase => exact hmoved rfl hp hp' (.execute rfl hphase)
        · exact .kept hp'
      · exact .kept hp'
  | settle pid₀ ids cleanup =>
      simp only [exec] at hp'
      split at hp'
      · next p hp =>
        split at hp'
        · next result hphase =>
          split at hp'
          · exact hmoved rfl hp hp' .fail
          · next hok =>
            split at hp'
            · unfold settleOk at hp'
              split at hp'
              · next r hr => exact hmoved rfl hp hp' (.register hphase (not_not.mp hok) hr)
              · dsimp only at hp'
                split at hp'
                · exact hmoved rfl hp hp' .unregistered
                · exact hgone rfl hp'
            · exact .kept hp'
        · exact .kept hp'
      · exact .kept hp'
  | report pid₀ now =>
      simp only [exec] at hp'
      split at hp'
      · next p hp =>
        split at hp'
        · split at hp'
          · unfold WorkerProcess.afterCall at hp'
            split at hp'
            · exact hgone rfl hp'
            · exact hmoved rfl hp hp' .reconcile
          · exact hgone rfl hp'
        · exact .kept hp'
      · exact .kept hp'
  | reconcile pid₀ now =>
      simp only [exec] at hp'
      split at hp'
      · split at hp'
        · exact hgone rfl hp'
        · exact hgone rfl hp'
        · exact .kept hp'
      · exact .kept hp'
  | crash pid₀ => exact hgone rfl hp'

/-! ## The context of a process -/

/-- The context that `_build_execution_context` returns. -/
def WorkerProcess.context (p : WorkerProcess) (db : RunRecord) (node : WorkflowNode)
    (input config : Dict) : NodeExecutionContext where
  workflowRunId := db.run.id
  nodeId := node.id
  node := node
  resolvedConfig := config
  resolvedInput := input
  executionSnapshot := db.run.executionSnapshot
  attempt := p.attempt

/-- The world of the Workers with the contexts that their processes have built. -/
structure DeployedWorld extends WorkerWorld where
  contexts : ℕ → Option NodeExecutionContext := fun _ ↦ none

namespace DeployedWorld

/-- The contexts after a step. -/
def built (step : WorkerStep) (s : DeployedWorld) : ℕ → Option NodeExecutionContext :=
  match step with
  | .persist pid _ =>
      match s.processes pid with
      | some p =>
          match p.phase with
          | .loaded node input (.ok config) =>
              Function.update s.contexts pid (some (p.context s.db node input config))
          | _ => s.contexts
      | none => s.contexts
  | _ => s.contexts

def exec (env : WorkerEnv) (step : WorkerStep) (s : DeployedWorld) : DeployedWorld where
  toWorkerWorld := step.exec env s.toWorkerWorld
  contexts := s.built step

/-- Workers act through their processes, no Runner has the id of a Worker, and what `execute`
returns is what the default executor makes of the context; of Agents and Services nothing is
assumed.  `same` is the equality of two JSON values. -/
def Deployed (same : Json → Json → Bool) (workers : String → Prop)
    (s : DeployedWorld) : WorkerStep → Prop
  | .run op => op.byWorker = false ∧ op.Parties workers
  | .claim _ _ workerId _ _ _ => workers workerId
  | .execute pid result => ∀ context, s.contexts pid = some context →
      context.node.type = .agent ∨ context.node.type = .service ∨
        ∃ x : ExecutorEnv, x.same = same ∧ result = executionOf x context
  | _ => True

/-- The worlds that such steps reach from a created run. -/
inductive Reachable (same : Json → Json → Bool) (env : WorkerEnv) (workers : String → Prop) :
    DeployedWorld → Prop
  | created {now : Time} {id : String} {graph : ParsedGraph} {executionSnapshot input : Dict}
      {db : RunRecord} (h : createRun env.toEnv now id graph executionSnapshot input = .ok db) :
      Reachable same env workers { db := db }
  | step {s : DeployedWorld} (step : WorkerStep) (h : Reachable same env workers s)
      (hstep : s.Deployed same workers step) : Reachable same env workers (s.exec env step)

end DeployedWorld

/-! ## What a process knows -/

/-- The node reads no status. -/
def WorkflowNode.Steady (node : WorkflowNode) : Prop :=
  ∀ r ∈ fieldReferences node.inputMapping ++ fieldReferences node.config, r.readsStatus = false

instance (node : WorkflowNode) : Decidable node.Steady :=
  inferInstanceAs (Decidable (∀ r ∈ _, _ = false))

/-- The rows resolve the fields of the node to these values. -/
def ResolvesFields (env : Env) (db : RunRecord) (node : WorkflowNode) (input config : Dict) :
    Prop :=
  (contextResolver env db).resolveFields node.inputMapping = .ok input ∧
    (contextResolver env db).resolveFields node.config = .ok config

/-- The result of an execution of the node on what the rows resolve. -/
def Computed (same : Json → Json → Bool) (env : Env) (db : RunRecord) (node : WorkflowNode)
    (result : ExecutionResult) : Prop :=
  ∃ (x : ExecutorEnv) (context : NodeExecutionContext), x.same = same ∧ context.node = node ∧
    result = executionOf x context ∧
      (node.Steady → ResolvesFields env db node context.resolvedInput context.resolvedConfig)

/-- The stored output of a successful execution. -/
def Stored (same : Json → Json → Bool) (env : Env) (db : RunRecord) (node : WorkflowNode)
    (output : Dict) : Prop :=
  ∃ result, Computed same env db node result ∧ result.ok = true ∧
    output = env.sanitizeOutput result.output

/-- What a phase promises about the node of the process. -/
def WorkerPhase.Sound (same : Json → Json → Bool) (env : Env) (db : RunRecord)
    (context : Option NodeExecutionContext) (id : NodeId) : WorkerPhase → Prop
  | .loaded node input config => db.run.graph.node? id = some node ∧
      (node.Steady → (contextResolver env db).resolveFields node.inputMapping = .ok input ∧
        ∀ values, config = .ok values →
          (contextResolver env db).resolveFields node.config = .ok values)
  | .executing => ∃ c, context = some c ∧ db.run.graph.node? id = some c.node ∧
      (c.node.Steady → ResolvesFields env db c.node c.resolvedInput c.resolvedConfig)
  | .executed result => ∀ node, db.run.graph.node? id = some node → node.isPure = true →
      Computed same env db node result
  | .completing output _ _ _ => ∀ node, db.run.graph.node? id = some node → node.isPure = true →
      Stored same env db node output
  | .reporting (.waitNode waitingReason waitingMetadata) =>
      ∀ node, db.run.graph.node? id = some node → ∃ now config,
        waitingFor env now node.type node.subtype config = some (waitingReason, waitingMetadata)
  | _ => True

/-- The process works on the task of its node. -/
structure WorkerProcess.Sound (same : Json → Json → Bool) (env : Env) (db : RunRecord)
    (context : Option NodeExecutionContext) (p : WorkerProcess) : Prop where
  named : Dict.get? p.payload "node_id" = some (.str p.nodeRunId)
  task : ∃ t, findTask db.tasks p.task = some t ∧ t.nodeRunId = p.nodeRunId
  phase : p.phase.Sound same env db context p.nodeRunId

theorem ResolvesFields.later {env : Env} {input config : Dict}
    (h : ResolvesFields env db node input config) (hsteady : node.Steady) (hsteps : RunSteps env db db') (hc : Coupled db)
    (hfinal : OutputsFinal db) : ResolvesFields env db' node input config := by
  obtain ⟨hmapping, hconfig⟩ := List.forall_mem_append.mp hsteady
  exact ⟨resolveFields_stable hsteps hc hfinal hmapping h.1,
    resolveFields_stable hsteps hc hfinal hconfig h.2⟩

theorem Computed.later {env : Env} (h : Computed same env db node result)
    (hsteps : RunSteps env db db') (hc : Coupled db) (hfinal : OutputsFinal db) :
    Computed same env db' node result := by
  obtain ⟨x, context, hsame, hnode, hresult, hresolves⟩ := h
  exact ⟨x, context, hsame, hnode, hresult,
    fun hsteady ↦ (hresolves hsteady).later hsteady hsteps hc hfinal⟩

theorem Stored.later {env : Env} {output : Dict} (h : Stored same env db node output)
    (hsteps : RunSteps env db db') (hc : Coupled db) (hfinal : OutputsFinal db) :
    Stored same env db' node output := by
  obtain ⟨result, hcomputed, hok, houtput⟩ := h
  exact ⟨result, hcomputed.later hsteps hc hfinal, hok, houtput⟩

theorem WorkerPhase.Sound.later {env : Env} {context : Option NodeExecutionContext} {id : NodeId}
    {phase : WorkerPhase} (h : phase.Sound same env db context id) (hsteps : RunSteps env db db')
    (hc : Coupled db) (hfinal : OutputsFinal db) : phase.Sound same env db' context id := by
  have hgraph := (hsteps.sameData hc).graph
  unfold WorkerPhase.Sound at h ⊢
  rw [hgraph]
  split
  · obtain ⟨hnode, hresolves⟩ := h
    refine ⟨hnode, fun hsteady ↦ ?_⟩
    obtain ⟨hinput, hconfig⟩ := hresolves hsteady
    obtain ⟨hmapping, hreads⟩ := List.forall_mem_append.mp hsteady
    exact ⟨resolveFields_stable hsteps hc hfinal hmapping hinput,
      fun values hvalues ↦ resolveFields_stable hsteps hc hfinal hreads (hconfig values hvalues)⟩
  · obtain ⟨c, hcontext, hnode, hresolves⟩ := h
    exact ⟨c, hcontext, hnode, fun hsteady ↦ (hresolves hsteady).later hsteady hsteps hc hfinal⟩
  · exact fun node hnode hpure ↦ (h node hnode hpure).later hsteps hc hfinal
  · exact fun node hnode hpure ↦ (h node hnode hpure).later hsteps hc hfinal
  · exact h
  · trivial

/-! ## Rights -/

theorem CellStep.mono {R R' : Rights} (hreport : ∀ n, R.report n → R'.report n)
    (hresolve : R.resolve → R'.resolve)
    (hgrant : ∀ task party token, R.grant task party token → R'.grant task party token)
    {n n' : NodeRun} {t t' : Option ExecutionTask} (h : CellStep R db n t n' t') :
    CellStep R' db n t n' t' :=
  { h with
    reported := fun hrunning hresult ↦ hreport n' (h.reported hrunning hresult)
    resolved := fun hwaiting hresult ↦ hresolve (h.resolved hwaiting hresult)
    holder := fun u' hu' ↦ by
      rcases h.holder u' hu' with hfree | hkept | ⟨party, token, hparty, htoken, hgranted⟩
      · exact .inl hfree
      · exact .inr (.inl hkept)
      · exact .inr (.inr ⟨party, token, hparty, htoken, hgrant _ _ _ hgranted⟩) }

theorem MicroStep.mono {R R' : Rights} (hreport : ∀ n, R.report n → R'.report n)
    (hresolve : R.resolve → R'.resolve)
    (hgrant : ∀ task party token, R.grant task party token → R'.grant task party token)
    (h : MicroStep R db db') : MicroStep R' db db' := by
  cases h with
  | run h => exact .run h
  | cells h =>
      refine .cells ⟨h.run, h.keyed, fun id n hn ↦ ?_⟩
      obtain ⟨n', hn', hcell⟩ := h.cell id n hn
      exact ⟨n', hn', hcell.mono hreport hresolve hgrant⟩

/-- The output of a pure node is one that the executor computed on the rows. -/
def Settled (same : Json → Json → Bool) (env : Env) (db : RunRecord) (n : NodeRun) : Prop :=
  ∀ node, db.run.graph.node? n.nodeId = some node → node.isPure = true →
    ∃ output, n.output = some output ∧ Stored same env db node output

/-- What the executions of a deployment report. -/
def computed (same : Json → Json → Bool) (env : Env) (db : RunRecord) : Rights where
  report n := executed.report n ∧ (n.status = .completed → Settled same env db n)
  resolve := True
  grant _ _ _ := True

theorem MicroStep.executed {env : Env} {db₀ : RunRecord}
    (h : MicroStep (computed same env db₀) db db') : MicroStep executed db db' :=
  h.mono (fun n (hreport : (computed same env db₀).report n) ↦ hreport.1) id fun _ _ _ ↦ id

/-- Nodes that park and nodes of Runners are not pure. -/
theorem WorkflowNode.isPure_eq_false {n : NodeRun}
    (hkind : n.nodeType = node.type ∧ n.nodeSubtype = node.subtype)
    (h : n.parks = true ∨ n.nodeType = .tool ∨ n.nodeType = .agent) : node.isPure = false := by
  obtain ⟨htype, hsubtype⟩ := hkind
  rw [NodeRun.parks, htype, hsubtype] at h
  unfold isPure
  cases hnode : node.type <;> simp_all

/-- The branches of a run, and the outputs that were computed on the rows `db₀`. -/
structure SettledRun (same : Json → Json → Bool) (env : Env) (db₀ db : RunRecord) : Prop where
  graph : db.run.graph = db₀.run.graph
  waitsIdly : WaitsIdly db
  settled : ∀ n ∈ db.nodeRuns, n.status = .completed → Settled same env db₀ n

/-- What completes was reported, so a small step keeps the outputs settled. -/
theorem SettledRun.step {env : Env} {db₀ : RunRecord} (hs : SettledRun same env db₀ db)
    (hc : Coupled db) (h : MicroStep (computed same env db₀) db db') :
    SettledRun same env db₀ db' := by
  refine ⟨h.graph.trans hs.graph, hs.waitsIdly.step hc h.executed, ?_⟩
  cases h with
  | run h =>
      rw [h.nodeRuns]
      exact hs.settled
  | cells h =>
      intro n' hn' hcompleted
      obtain ⟨n, hn, hid, hcoupling, hcell⟩ := h.mem_back hc hn'
      by_cases hterminal : n.status.isTerminal = true
      · obtain ⟨hstatus, houtput⟩ := hcell.frozen hcoupling hterminal
        have hbefore := hs.settled n hn (hstatus.symm.trans hcompleted)
        rw [Settled, ← hid, houtput]
        exact hbefore
      · have hopen : n.status.isTerminal = false := by simpa using hterminal
        have hmove : Move (cellStatus n (taskOfNode db.tasks n.nodeId))
            (cellStatus n' (taskOfNode db'.tasks n.nodeId)) := by
          rcases hcell.move with heq | hmove
          · have hstatus : n'.status = n.status := congrArg Prod.fst heq
            rw [← hstatus, hcompleted] at hopen
            cases hopen
          · exact hmove
        rcases hmove.of_result hopen (.inl hcompleted) with hrunning | hwaiting
        · exact (hcell.reported hrunning (.inl hcompleted)).2 hcompleted
        · intro node hnode hpure
          rw [← hs.graph, ← hid] at hnode
          have hfind := hc.findNodeRun_eq_some_iff.mpr ⟨hn, rfl⟩
          have hother := WorkflowNode.isPure_eq_false (hc.kind_eq hfind hnode)
            (.inl (hs.waitsIdly.parked n hn hwaiting))
          rw [hpure] at hother
          cases hother

theorem SettledRun.steps {env : Env} {db₀ : RunRecord} (hs : SettledRun same env db₀ db)
    (hc : Coupled db) (h : Steps (computed same env db₀) db db') : SettledRun same env db₀ db' :=
  h.invariant (fun _ _ hc hs hstep ↦ hs.step hc hstep) hc hs

theorem SettledRun.later {env : Env} {db₀ db₁ : RunRecord} (hs : SettledRun same env db₀ db)
    (hsteps : RunSteps env db₀ db₁) (hc : Coupled db₀) (hfinal : OutputsFinal db₀) :
    SettledRun same env db₁ db := by
  have hgraph := (hsteps.sameData hc).graph
  refine ⟨hs.graph.trans hgraph.symm, hs.waitsIdly, fun n hn hcompleted node hnode hpure ↦ ?_⟩
  rw [hgraph] at hnode
  obtain ⟨output, houtput, hstored⟩ := hs.settled n hn hcompleted node hnode hpure
  exact ⟨output, houtput, hstored.later hsteps hc hfinal⟩

/-! ## What a process reports -/

variable {T : TextTables} {context : Option NodeExecutionContext}

/-- A stored output of a Condition tells the branch. -/
theorem Stored.condition {env : Env} {output : Dict}
    (hserver : env.sanitizeOutput = sanitizeOutput T []) (h : Stored same env db node output)
    (hcondition : node.isCondition = true) : ∃ isMatch, output = conditionOutput isMatch := by
  obtain ⟨result, ⟨x, c, -, rfl, rfl, -⟩, hok, rfl⟩ := h
  obtain ⟨isMatch, houtput⟩ := executionOf_condition hcondition hok
  rw [houtput, hserver]
  exact ⟨isMatch, sanitizeOutput_condition T isMatch⟩

/-- The NodeRun of a process and its node. -/
theorem WorkerProcess.Sound.node_of_task {env : Env} (h : p.Sound same env db context)
    (hc : Coupled db) {t : ExecutionTask} {n : NodeRun} (ht : findTask db.tasks p.task = some t)
    (hn : findNodeRun db.nodeRuns t.nodeRunId = some n) :
    n.nodeId = p.nodeRunId ∧ ∃ node, db.run.graph.node? p.nodeRunId = some node ∧
      n.nodeType = node.type ∧ n.nodeSubtype = node.subtype := by
  obtain ⟨u, hu, hnode⟩ := h.task
  cases ht.symm.trans hu
  rw [hnode] at hn
  obtain ⟨node, -, -, hfind, -, -⟩ := hc.exists_node hn
  exact ⟨(hc.findNodeRun_eq_some_iff.mp hn).2, node, hfind, hc.kind_eq hn hfind⟩

theorem WorkerProcess.Sound.executed {now : Time} {op : RunOp} {env : Env}
    (hserver : env.sanitizeOutput = sanitizeOutput T []) (h : p.Sound same env db context)
    (hc : Coupled db) (hcall : p.call now = some op) : op.Executed env db := by
  have hphase := h.phase
  unfold call at hcall
  split at hcall <;> cases hcall
  · next output _ _ _ hp =>
    rw [hp] at hphase
    intro t n ht hn htype hsubtype
    obtain ⟨-, node, hnode, hkind⟩ := h.node_of_task hc ht hn
    rw [htype, hsubtype] at hkind
    have hcondition : node.isCondition = true := by
      simp [WorkflowNode.isCondition, ← hkind.1, ← hkind.2]
    have hpure := WorkflowNode.isPure_of_isCondition hcondition
    obtain ⟨isMatch, rfl⟩ := (hphase node hnode hpure).condition hserver hcondition
    exact ⟨isMatch, rfl⟩
  · trivial
  · next hp =>
    rw [hp] at hphase
    intro t n ht hn
    obtain ⟨-, node, hnode, htype, hsubtype⟩ := h.node_of_task hc ht hn
    rw [htype, hsubtype]
    exact hphase node hnode
  · trivial

theorem WorkerProcess.Sound.promised {now : Time} {op : RunOp} {env : Env}
    (hserver : env.sanitizeOutput = sanitizeOutput T []) (h : p.Sound same env db context)
    (hc : Coupled db) (hcall : p.call now = some op) :
    op.Promised (computed same env db) db := by
  have hpromised := (h.executed hserver hc hcall).promised hc
  have hphase := h.phase
  unfold call at hcall
  split at hcall <;> cases hcall
  · next output _ _ _ hp =>
    rw [hp] at hphase
    intro t n ht hn
    refine ⟨hpromised t n ht hn, fun _ node hnode hpure ↦ ⟨output, rfl, ?_⟩⟩
    rw [(h.node_of_task hc ht hn).1] at hnode
    exact hphase node hnode hpure
  · exact fun t n ht hn ↦ ⟨hpromised t n ht hn, fun hstatus ↦ by cases hstatus⟩
  · exact fun t n ht hn ↦ ⟨hpromised t n ht hn, fun hstatus ↦ by cases hstatus⟩
  · trivial

/-- The operations of the others report no pure node. -/
theorem RunOp.promised_of_parties {op : RunOp} {returned : Bool} {env : Env}
    (hworker : op.byWorker = false) (hparties : op.Parties workers) (hheld : TasksHeld workers db)
    (hc : Coupled db) (hexec : op.exec env db = .ok (returned, db')) :
    db' = db ∨ op.Promised (computed same env db) db := by
  cases op with
  | runnerSubmit now runnerId task leaseToken submitted =>
      rcases runnerSubmit_capable hheld hc hparties hexec with hidle | hcapable
      · exact .inl hidle
      · right
        have hexecuted : RunOp.Executed env db
            (.runnerSubmit now runnerId task leaseToken submitted) := hcapable
        have hpromised := hexecuted.promised hc
        intro t n ht hn n' hid htype hsubtype hstatus
        refine ⟨hpromised t n ht hn n' hid htype hsubtype hstatus, fun _ node hnode hpure ↦ ?_⟩
        have hmem := (hc.findTask_eq_some_iff.mp ht).1
        have htask := hc.taskOfNode_eq_some_iff.mpr ⟨hmem, rfl⟩
        have hkind := hc.capable _ n t hn htask (hcapable t ht)
        rw [hid, (hc.findNodeRun_eq_some_iff.mp hn).2] at hnode
        have hother := WorkflowNode.isPure_eq_false (hc.kind_eq hn hnode) (.inr hkind)
        rw [hpure] at hother
        cases hother
  | claim | start | complete | fail | waitNode | scheduleRetry | renewLease => cases hworker
  | _ => exact .inr trivial

/-! ## The invariant -/

/-- What holds in every world of a deployment. -/
structure Deployment (same : Json → Json → Bool) (env : Env) (workers : String → Prop)
    (s : DeployedWorld) : Prop where
  coupled : Coupled s.db
  final : OutputsFinal s.db
  named : TasksNamed s.db
  held : TasksHeld workers s.db
  rows : SettledRun same env s.db s.db
  processes : ∀ pid p, s.processes pid = some p → p.Sound same env s.db (s.contexts pid)

namespace Deployment

variable {s : DeployedWorld}

theorem created {env : Env} {now : Time} {id : String} {graph : ParsedGraph}
    {executionSnapshot input : Dict}
    (h : createRun env now id graph executionSnapshot input = .ok db) :
    Deployment same env workers { db := db } := by
  obtain ⟨hstatus, -, htasks, hnodes⟩ := createRun_ok h
  refine
    { coupled := createRun_coupled h
      final := createRun_outputsFinal h
      named := fun t ht ↦ ?_
      held := fun t ht ↦ ?_
      rows := ⟨rfl, ⟨Branched.created_run h, fun _ hwaiting ↦ ?_⟩, fun n hn hcompleted ↦ ?_⟩
      processes := by simp }
  · rw [htasks] at ht
    cases ht
  · rw [htasks] at ht
    cases ht
  · rw [hstatus] at hwaiting
    cases hwaiting
  · -- only the Data Input is born COMPLETED
    intro node hnode hpure
    have hc := createRun_coupled h
    have hkind := hc.kind_eq (hc.findNodeRun_eq_some_iff.mpr ⟨hn, rfl⟩) hnode
    rw [hnodes] at hn
    obtain ⟨node', -, rfl⟩ := List.mem_map.mp hn
    have hinput : node'.isInput = true := by
      by_contra hother
      simp [createNodeRun, hother] at hcompleted
    simp only [createNodeRun] at hkind
    simp only [WorkflowNode.isInput, hkind.1, hkind.2, Bool.decide_and, Bool.and_eq_true,
      decide_eq_true_eq] at hinput
    simp [WorkflowNode.isPure, hinput] at hpure

theorem parties {step : WorkerStep} {op : RunOp} (hstep : s.Deployed same workers step)
    (hop : step.op s.toWorkerWorld = some op) : op.Parties workers := by
  cases step with
  | run op' =>
      cases hop
      exact hstep.2
  | claim =>
      cases hop
      exact hstep
  | reconcile =>
      cases hop
      trivial
  | start pid now =>
      obtain ⟨p, -, hop⟩ := Option.bind_eq_some_iff.mp hop
      split at hop <;> cases hop
      trivial
  | renew pid now leaseSeconds =>
      obtain ⟨p, -, rfl⟩ := Option.map_eq_some_iff.mp hop
      trivial
  | report pid now =>
      obtain ⟨p, -, hcall⟩ := Option.bind_eq_some_iff.mp hop
      unfold WorkerProcess.call at hcall
      split at hcall <;> cases hcall <;> trivial
  | upload | load | persist | execute | settle | crash => cases hop

variable (hd : Deployment same env.toEnv workers s)
include hd

theorem promised {step : WorkerStep} {op : RunOp} {returned : Bool}
    (hserver : env.sanitizeOutput = sanitizeOutput T []) (hstep : s.Deployed same workers step)
    (hop : step.op s.toWorkerWorld = some op)
    (hexec : op.exec env.toEnv s.db = .ok (returned, db')) :
    db' = s.db ∨ op.Promised (computed same env.toEnv s.db) s.db := by
  cases step with
  | run op' =>
      cases hop
      exact RunOp.promised_of_parties hstep.1 hstep.2 hd.held hd.coupled hexec
  | claim | reconcile =>
      cases hop
      exact .inr trivial
  | start pid now =>
      obtain ⟨p, -, hop⟩ := Option.bind_eq_some_iff.mp hop
      split at hop <;> cases hop
      exact .inr trivial
  | renew pid now leaseSeconds =>
      obtain ⟨p, -, rfl⟩ := Option.map_eq_some_iff.mp hop
      exact .inr trivial
  | report pid now =>
      obtain ⟨p, hp, hcall⟩ := Option.bind_eq_some_iff.mp hop
      exact .inr ((hd.processes pid p hp).promised hserver hd.coupled hcall)
  | upload | load | persist | execute | settle | crash => cases hop

theorem steps {step : WorkerStep} (hserver : env.sanitizeOutput = sanitizeOutput T [])
    (hstep : s.Deployed same workers step) :
    Steps (computed same env.toEnv s.db) s.db (s.exec env step).db := by
  rcases step.exec_db env s.toWorkerWorld with hsame | ⟨op, returned, hop, hexec⟩ |
    ⟨id, input, hinput⟩
  · rw [DeployedWorld.exec, hsame]
  · rcases hd.promised hserver hstep hop hexec with hidle | hpromised
    · rw [DeployedWorld.exec, hidle]
    · exact (RunOp.exec_sound hd.coupled hpromised).of_ok hexec
  · rw [DeployedWorld.exec, hinput]
    exact .single (.cells (.setInput hd.coupled.toKeyed id input))

omit hd in
theorem runSteps (step : WorkerStep) (s : DeployedWorld) :
    RunSteps env.toEnv s.db (s.exec env step).db :=
  WorkerStep.execAll_runSteps [step] s.toWorkerWorld

theorem tasks {step : WorkerStep} (hstep : s.Deployed same workers step) :
    TasksNamed (s.exec env step).db ∧ TasksHeld workers (s.exec env step).db := by
  rcases step.exec_db env s.toWorkerWorld with hsame | ⟨op, returned, hop, hexec⟩ |
    ⟨id, input, hinput⟩
  · rw [DeployedWorld.exec, hsame]
    exact ⟨hd.named, hd.held⟩
  · exact ⟨hd.named.exec hd.coupled hexec, hd.held.exec hd.coupled (parties hstep hop) hexec⟩
  · rw [DeployedWorld.exec, hinput]
    exact ⟨hd.named, hd.held⟩

omit hd in
theorem built_eq {step : WorkerStep} {pid : ℕ} {p : WorkerProcess} (hp : s.processes pid = some p)
    (hphase : ∀ node input config, p.phase ≠ .loaded node input config) :
    s.built step pid = s.contexts pid := by
  cases step with
  | persist pid₀ now =>
      cases hp₀ : s.processes pid₀ with
      | none => simp [DeployedWorld.built, hp₀]
      | some p₀ =>
          simp only [DeployedWorld.built, hp₀]
          by_cases hne : pid = pid₀
          · subst hne
            cases hp.symm.trans hp₀
            cases hloaded : p.phase with
            | loaded node input config => exact absurd hloaded (hphase node input config)
            | _ => rfl
          · cases p₀.phase with
            | loaded node input config =>
                cases config with
                | ok config => exact Function.update_of_ne hne _ _
                | error reference => rfl
            | _ => rfl
  | _ => rfl

omit hd in
theorem load_sound {env : Env} {p : WorkerProcess} {context : Option NodeExecutionContext}
    (hnamed : Dict.get? p.payload "node_id" = some (.str p.nodeRunId)) :
    (p.load env db).Sound same env db context p.nodeRunId := by
  unfold WorkerProcess.load
  simp only [hnamed, Option.getD_some, Json.str?, Option.bind_some]
  split
  · next node hnode =>
    split
    · next input hinput => exact ⟨hnode, fun _ ↦ ⟨hinput, fun _ ↦ id⟩⟩
    · trivial
  · trivial

omit hd in
/-- A pure node has no artifacts to register. -/
theorem registered {ids : List String} {p : WorkerProcess} {w : WorkerWorld} {r : Registration}
    {env' : Env} (hcomputed : Computed same env' db node result)
    (hr : WorkerStep.registration env ids result p w = .ok r) : r.outputKeys = [] := by
  obtain ⟨x, c, -, -, rfl, -⟩ := hcomputed
  have hnone : (executionOf x c).artifacts = [] := rfl
  unfold WorkerStep.registration at hr
  rw [hnone, List.zip_nil_right] at hr
  cases hr
  rfl

/-- The phase that a process enters. -/
theorem phase {step : WorkerStep} (hstep : s.Deployed same workers step) {p : WorkerProcess}
    {phase : WorkerPhase} (hp : s.processes pid = some p)
    (hphase : PhaseStep env s.toWorkerWorld step pid p phase) :
    phase.Sound same env.toEnv s.db (s.built step pid) p.nodeRunId := by
  have hsound := (hd.processes pid p hp).phase
  cases hphase with
  | start | unregistered | reconcile => trivial
  | load => exact load_sound (hd.processes pid p hp).named
  | @persist node input config now hpersist hloaded =>
      rw [hloaded] at hsound
      obtain ⟨hnode, hresolves⟩ := hsound
      unfold WorkerProcess.proceed
      cases config with
      | error reference => trivial
      | ok config =>
          have hbuilt : s.built step pid = some (p.context s.db node input config) := by
            simp [DeployedWorld.built, hpersist, hp, hloaded]
          dsimp only
          split
          · next hwaiting =>
            intro node' hnode'
            cases hnode.symm.trans hnode'
            exact ⟨now, config, hwaiting⟩
          · refine ⟨_, hbuilt, hnode, fun hsteady ↦ ?_⟩
            obtain ⟨hinput, hconfig⟩ := hresolves hsteady
            exact ⟨hinput, hconfig config rfl⟩
  | execute hexecute hexecuting =>
      rw [hexecuting] at hsound
      obtain ⟨c, hcontext, hnode, hresolves⟩ := hsound
      subst hexecute
      intro node hnode' hpure
      cases hnode.symm.trans hnode'
      rcases hstep c hcontext with hagent | hservice | ⟨x, hsame, hresult⟩
      · simp [WorkflowNode.isPure, hagent] at hpure
      · simp [WorkflowNode.isPure, hservice] at hpure
      · exact ⟨x, c, hsame, rfl, hresult, hresolves⟩
  | fail =>
      unfold WorkerProcess.failedReport
      split <;> trivial
  | register hexecuted hok hr =>
      rw [hexecuted] at hsound
      intro node hnode hpure
      have hcomputed := hsound node hnode hpure
      refine ⟨_, hcomputed, hok, ?_⟩
      rw [registered hcomputed hr]
      simp [Dict.merge, Dict.get?]

theorem process {step : WorkerStep} (hserver : env.sanitizeOutput = sanitizeOutput T [])
    (hstep : s.Deployed same workers step) {p' : WorkerProcess}
    (hp' : (s.exec env step).processes pid = some p') :
    p'.Sound same env.toEnv (s.exec env step).db ((s.exec env step).contexts pid) := by
  have hsteps := hd.steps hserver hstep
  have hrun : RunSteps env.toEnv s.db (s.exec env step).db := runSteps step s
  have hlater {phase : WorkerPhase} {id : NodeId}
      (h : phase.Sound same env.toEnv s.db (s.built step pid) id) :
      phase.Sound same env.toEnv (s.exec env step).db ((s.exec env step).contexts pid) id :=
    h.later hrun hd.coupled hd.final
  rcases step.exec_processStep env s.toWorkerWorld hp' with hp | ht | ⟨hp, hphase⟩
  · have hold := hd.processes pid p' hp
    obtain ⟨t, ht, hnode⟩ := hold.task
    obtain ⟨t', ht', hkept⟩ := hsteps.task_kept hd.coupled ht
    refine ⟨hold.named, ⟨t', ht', hkept.trans hnode⟩, hlater ?_⟩
    by_cases hloaded : ∃ node input config, p'.phase = .loaded node input config
    · obtain ⟨node, input, config, hloaded⟩ := hloaded
      have hphase := hold.phase
      rw [hloaded] at hphase ⊢
      exact hphase
    · rw [built_eq hp fun node input config h ↦ hloaded ⟨node, input, config, h⟩]
      exact hold.phase
  · rename_i t
    obtain ⟨t', ht', hkept⟩ := hsteps.task_kept hd.coupled ht
    exact ⟨hd.named t (hd.coupled.findTask_eq_some_iff.mp ht).1, ⟨t', ht', hkept⟩, trivial⟩
  · have hold := hd.processes pid _ hp
    obtain ⟨t, ht, hnode⟩ := hold.task
    obtain ⟨t', ht', hkept⟩ := hsteps.task_kept hd.coupled ht
    have hnew := hd.phase hstep hp hphase
    exact ⟨hold.named, ⟨t', ht', hkept.trans hnode⟩, hlater hnew⟩

theorem step {step : WorkerStep} (hserver : env.sanitizeOutput = sanitizeOutput T [])
    (hstep : s.Deployed same workers step) :
    Deployment same env.toEnv workers (s.exec env step) := by
  have hsteps := hd.steps hserver hstep
  have hrun : RunSteps env.toEnv s.db (s.exec env step).db := runSteps step s
  obtain ⟨hnamed, hheld⟩ := hd.tasks hstep
  exact
    { coupled := Steps.coupled hsteps hd.coupled
      final := hrun.outputsFinal hd.coupled hd.final
      named := hnamed
      held := hheld
      rows := (hd.rows.steps hd.coupled hsteps).later hrun hd.coupled hd.final
      processes := fun pid p' hp' ↦ hd.process hserver hstep hp' }

end Deployment

theorem DeployedWorld.Reachable.deployment {s : DeployedWorld}
    (hserver : env.sanitizeOutput = sanitizeOutput T [])
    (h : DeployedWorld.Reachable same env workers s) : Deployment same env.toEnv workers s := by
  induction h with
  | created h => exact .created h
  | step step _ hstep ih => exact ih.step hserver hstep

/-- Branch semantics of a deployment.  A COMPLETED run has completed exactly the nodes that its
Conditions lead to from the Data Input and has skipped all others; a WAITING run has no live task;
and no reconciliation of a started run makes a transition that the table forbids. -/
theorem deployed_run_branches {s : DeployedWorld} {validation : ValidationContext}
    (haccepted : Accepted env.toEnv validation s.db.run.graph.toWorkflowGraph)
    (hserver : env.sanitizeOutput = sanitizeOutput T [])
    (h : DeployedWorld.Reachable same env workers s) :
    (s.db.run.status = .completed →
        (∀ id, statusOf s.db.nodeRuns id = some .completed ↔
            Taken s.db.run.graph.toWorkflowGraph s.db.nodeRuns id) ∧
          ∀ id ∈ s.db.run.graph.nodeIds, ¬Taken s.db.run.graph.toWorkflowGraph s.db.nodeRuns id →
            statusOf s.db.nodeRuns id = some .skipped) ∧
      (s.db.run.status = .waiting → ∀ t ∈ s.db.tasks, t.status.isTerminal = true) ∧
      (s.db.run.status ≠ .created →
        ∀ now error, reconcile env.toEnv now s.db = .error error → ¬RunFault error) := by
  have hd := h.deployment hserver
  have hw := hd.rows.waitsIdly
  have hshape := haccepted.shaped
  refine ⟨fun hcompleted ↦ ?_, fun hwaiting ↦ (hw.idle hshape hwaiting).tasks,
    fun hstarted now error herror ↦ ?_⟩
  · have hiff := hw.completed_iff hd.coupled hshape hcompleted
    exact ⟨hiff, fun id hid hother ↦
      hw.statusOf_skipped hd.coupled hcompleted hid (mt (hiff id).mp hother)⟩
  · exact (hw.reconcile_noRunFault hd.coupled hshape hstarted).of_error herror

/-- A COMPLETED pure node has the output that the executor computes from the present rows,
unless the node reads a status. -/
theorem pure_outputs_computed {s : DeployedWorld}
    (hserver : env.sanitizeOutput = sanitizeOutput T [])
    (h : DeployedWorld.Reachable same env workers s) {n : NodeRun} (hn : n ∈ s.db.nodeRuns)
    (hcompleted : n.status = .completed) {node : WorkflowNode}
    (hnode : s.db.run.graph.node? n.nodeId = some node) (hpure : node.isPure = true)
    (hsteady : node.Steady) {x : ExecutorEnv} (hx : x.same = same) :
    ∃ input config, ResolvesFields env.toEnv s.db node input config ∧
      ∀ context : NodeExecutionContext, context.node = node → context.resolvedInput = input →
        context.resolvedConfig = config → (executionOf x context).ok = true ∧
          n.output = some (env.sanitizeOutput (executionOf x context).output) := by
  obtain ⟨output, houtput, result, ⟨x', c, hsame, hc, rfl, hresolves⟩, hok, rfl⟩ :=
    (h.deployment hserver).rows.settled n hn hcompleted node hnode hpure
  refine ⟨c.resolvedInput, c.resolvedConfig, hresolves hsteady, ?_⟩
  intro context hcontext hinput hconfig
  have heq : executionOf x context = executionOf x' c :=
    executionOf_pure (hc ▸ hpure) (hx.trans hsame.symm) (hcontext.trans hc.symm) hinput hconfig
  rw [heq]
  exact ⟨hok, houtput⟩

/-! ## A deployment -/

namespace DeployedWorld

/-- Run steps one after the other. -/
def execAll (env : WorkerEnv) : List WorkerStep → DeployedWorld → DeployedWorld
  | [], s => s
  | step :: steps, s => execAll env steps (s.exec env step)

/-- The execution of the node whose context the process has built. -/
def execute (env : WorkerEnv) (x : ExecutorEnv) (pid : ℕ) (s : DeployedWorld) : DeployedWorld :=
  match s.contexts pid with
  | some context => s.exec env (.execute pid (executionOf x context))
  | none => s

/-- A Worker processes one task without interruption. -/
def work (env : WorkerEnv) (x : ExecutorEnv) (pid : ℕ) (workerId leaseToken : String)
    (task : TaskId) (s : DeployedWorld) : DeployedWorld :=
  let s := s.execAll env
    [.claim pid 0 workerId leaseToken 60 task, .start pid 0, .load pid, .persist pid 0]
  (s.execute env x pid).execAll env [.settle pid [] true, .report pid 0, .reconcile pid 0]

theorem Reachable.execAll (steps : List WorkerStep)
    (hsteps : ∀ step ∈ steps, ∀ s : DeployedWorld, s.Deployed same workers step)
    {s : DeployedWorld} (h : Reachable same env workers s) :
    Reachable same env workers (s.execAll env steps) := by
  induction steps generalizing s with
  | nil => exact h
  | cons step steps ih =>
      obtain ⟨hstep, hsteps⟩ := List.forall_mem_cons.mp hsteps
      exact ih hsteps (h.step step (hstep s))

theorem Reachable.work {s : DeployedWorld} (h : Reachable same env workers s) {x : ExecutorEnv}
    (hx : x.same = same) (pid : ℕ) {workerId : String} (hworker : workers workerId)
    (leaseToken : String) (task : TaskId) :
    Reachable same env workers (s.work env x pid workerId leaseToken task) := by
  have hpersisted := h.execAll
    [.claim pid 0 workerId leaseToken 60 task, .start pid 0, .load pid, .persist pid 0]
    (by simp [Deployed, hworker])
  refine Reachable.execAll _ (by simp [Deployed]) ?_
  unfold execute
  split
  · next context hcontext =>
    refine hpersisted.step _ fun context' hcontext' ↦ ?_
    cases hcontext.symm.trans hcontext'
    exact .inr (.inr ⟨x, hx, rfl⟩)
  · exact hpersisted

theorem runSteps_execAll (env : WorkerEnv) (steps : List WorkerStep) (s : DeployedWorld) :
    RunSteps env.toEnv s.db (s.execAll env steps).db := by
  induction steps generalizing s with
  | nil => exact .refl
  | cons step steps ih => exact (Deployment.runSteps step s).trans (ih _)

theorem runSteps_work (env : WorkerEnv) (x : ExecutorEnv) (pid : ℕ) (workerId leaseToken : String)
    (task : TaskId) (s : DeployedWorld) :
    RunSteps env.toEnv s.db (s.work env x pid workerId leaseToken task).db := by
  have hexecute (s : DeployedWorld) : RunSteps env.toEnv s.db (s.execute env x pid).db := by
    unfold execute
    split
    · exact Deployment.runSteps _ s
    · exact .refl
  exact ((runSteps_execAll env _ s).trans (hexecute _)).trans (runSteps_execAll env _ _)

end DeployedWorld

def serverEnv : WorkerEnv :=
  { plainWorkerEnv with toEnv := plainEnv.sanitizing asciiTables }

/-- An executor that reaches nothing. -/
def plainExecutor : ExecutorEnv :=
  { plainEnv with
    validateHttpUrl := fun url _ ↦ .ok url
    normalizeActionPath := fun path ↦ .ok path
    urljoin := fun base url ↦ .ok (base ++ url)
    jsonLoads := fun _ ↦ .malformed
    intText := fun _ ↦ ""
    same := fun _ _ ↦ false
    credential := fun _ ↦ none
    transport := fun _ ↦ .fault .timeout }

theorem createRun_serverEnv : createRun serverEnv.toEnv 0 "run" branchGraph [] [] = .ok branchRun :=
  rfl

def startedBranch : DeployedWorld :=
  DeployedWorld.execAll serverEnv [.run (.startRun 0), .run (.schedule 0)] { db := branchRun }

theorem reachable_startedBranch :
    DeployedWorld.Reachable plainExecutor.same serverEnv workers startedBranch := by
  refine .execAll [.run (.startRun 0), .run (.schedule 0)] ?_ (.created createRun_serverEnv)
  simp [DeployedWorld.Deployed, RunOp.byWorker, RunOp.Parties]

/-- One Worker executes the Condition, the selected transform and the Data Output. -/
def finishedBranch : DeployedWorld :=
  ((startedBranch.work serverEnv plainExecutor 0 "w" "t" 0).work serverEnv plainExecutor 0 "w" "t"
    1).work serverEnv plainExecutor 0 "w" "t" 2

theorem reachable_finishedBranch :
    DeployedWorld.Reachable plainExecutor.same serverEnv (· = "w") finishedBranch :=
  (((@reachable_startedBranch (· = "w")).work rfl 0 rfl "t" 0).work rfl 0 rfl "t" 1).work rfl 0 rfl
    "t" 2

theorem runSteps_startedBranch : RunSteps serverEnv.toEnv branchRun startedBranch.db :=
  DeployedWorld.runSteps_execAll serverEnv _ { db := branchRun }

theorem sameData_finishedBranch : SameData branchRun.run finishedBranch.db.run := by
  have hsteps : RunSteps serverEnv.toEnv branchRun finishedBranch.db :=
    ((runSteps_startedBranch.trans (DeployedWorld.runSteps_work ..)).trans
      (DeployedWorld.runSteps_work ..)).trans (DeployedWorld.runSteps_work ..)
  exact hsteps.sameData (createRun_coupled createRun_serverEnv)

theorem graph_finishedBranch : finishedBranch.db.run.graph = branchGraph :=
  sameData_finishedBranch.graph

theorem statuses_finishedBranch : finishedBranch.db.run.status = .completed ∧
    statusOf finishedBranch.db.nodeRuns "check" = some .completed ∧
      statusOf finishedBranch.db.nodeRuns "no" = some .skipped := by
  decide +kernel

/-- The Condition holds, so the run completes without the transform of the other branch. -/
theorem deployed_run_branches_finishedBranch : finishedBranch.db.run.status = .completed ∧
    statusOf finishedBranch.db.nodeRuns "no" = some .skipped ∧
      ∀ id, statusOf finishedBranch.db.nodeRuns id = some .completed ↔
        Taken branchGraph.toWorkflowGraph finishedBranch.db.nodeRuns id := by
  obtain ⟨hcompleted, -, hskipped⟩ := statuses_finishedBranch
  have haccepted : Accepted serverEnv.toEnv {} finishedBranch.db.run.graph.toWorkflowGraph := by
    rw [graph_finishedBranch]
    exact accepted_of_silent (by decide) (by decide) (by rfl) rfl rfl rfl rfl
  have hbranches := deployed_run_branches haccepted rfl reachable_finishedBranch
  refine ⟨hcompleted, hskipped, ?_⟩
  rw [← graph_finishedBranch]
  exact (hbranches.1 hcompleted).1

theorem pure_outputs_computed_finishedBranch : ∃ n ∈ finishedBranch.db.nodeRuns,
    n.nodeId = "check" ∧ ∃ node input config, branchGraph.node? "check" = some node ∧
      ResolvesFields serverEnv.toEnv finishedBranch.db node input config ∧
        ∀ context : NodeExecutionContext, context.node = node → context.resolvedInput = input →
          context.resolvedConfig = config → (executionOf plainExecutor context).ok = true ∧
            n.output =
              some (serverEnv.sanitizeOutput (executionOf plainExecutor context).output) := by
  obtain ⟨n, hn, hcompleted⟩ := statusOf_eq_some_iff.mp statuses_finishedBranch.2.1
  have hc := (reachable_finishedBranch.deployment rfl).coupled
  obtain ⟨hmem, hid⟩ := hc.findNodeRun_eq_some_iff.mp hn
  obtain ⟨node, hnode, hpure, hsteady⟩ : ∃ node, branchGraph.node? "check" = some node ∧
      node.isPure = true ∧ node.Steady := ⟨_, rfl, rfl, by decide⟩
  have hfind : finishedBranch.db.run.graph.node? n.nodeId = some node := by
    rw [graph_finishedBranch, hid, hnode]
  obtain ⟨input, config, hresolves, houtput⟩ :=
    pure_outputs_computed rfl reachable_finishedBranch hmem hcompleted hfind hpure hsteady rfl
  exact ⟨n, hmem, hid, node, input, config, hnode, hresolves, houtput⟩

end Relayvia
