import Relayvia.Executor.Deployment
import Relayvia.Validation.Upstream

/-!
# The outcome of a run

Two COMPLETED runs of one graph on the same data end the same way if the Agents, Services,
Tools and people that they ask give the same answers: neither the order of execution nor
retries, crashes, recoveries, pauses or the number of Workers make a difference.
-/

namespace Relayvia

variable {env : WorkerEnv} {same : Json → Json → Bool} {s s' : DeployedWorld}
  {workers workers' : String → Prop} {T : TextTables} {validation : ValidationContext}
  {db db' : RunRecord} {node : WorkflowNode}

/-! ## The input -/

/-- The rows of a deployment come from a creation. -/
theorem DeployedWorld.Reachable.created_run (h : DeployedWorld.Reachable same env workers s) :
    ∃ db now id graph executionSnapshot input,
      createRun env.toEnv now id graph executionSnapshot input = .ok db ∧
        RunSteps env.toEnv db s.db := by
  induction h with
  | created h => exact ⟨_, _, _, _, _, _, h, .refl⟩
  | step step _ _ ih =>
      obtain ⟨db, now, id, graph, executionSnapshot, input, hcreate, hsteps⟩ := ih
      exact ⟨db, now, id, graph, executionSnapshot, input, hcreate,
        hsteps.trans (Deployment.runSteps step _)⟩

/-- The output of the Data Input is the input of the run. -/
theorem DeployedWorld.Reachable.input_output (h : DeployedWorld.Reachable same env workers s)
    {id : NodeId} {n : NodeRun} (hn : findNodeRun s.db.nodeRuns id = some n)
    (hinput : n.isInput = true) : n.output = some s.db.run.input := by
  obtain ⟨db, now, runId, graph, executionSnapshot, input, hcreate, hsteps⟩ := h.created_run
  have hc := createRun_coupled hcreate
  have hstate := hsteps.steps hc
  have hdata : db.run.input = input := by
    obtain ⟨_, -, hreturn⟩ := Outcome.bind_eq_ok_iff.mp hcreate
    cases hreturn
    rfl
  obtain ⟨hstatus, hgraph, -, hnodes⟩ := createRun_ok hcreate
  have hc' := hsteps.coupled hc
  obtain ⟨node, hnode, hid, hfind, hkind, -⟩ := hc'.exists_node hn
  rw [(hsteps.sameData hc).graph, hgraph] at hnode
  rw [hinput] at hkind
  have hborn : createNodeRun input node ∈ db.nodeRuns := by
    rw [hnodes]
    exact List.mem_map_of_mem hnode
  have hfirst : findNodeRun db.nodeRuns id = some (createNodeRun input node) :=
    hc.findNodeRun_eq_some_iff.mpr ⟨hborn, hid⟩
  obtain ⟨n', hn', -, houtput⟩ := hstate.frozen hc hfirst (by simp [createNodeRun, hkind,
    NodeRunStatus.isTerminal])
  cases hn.symm.trans hn'
  rw [houtput, (hsteps.sameData hc).input, hdata]
  simp [createNodeRun, hkind]

/-! ## What two runs share -/

/-- The status and the output of a node. -/
def endingOf (nodeRuns : List NodeRun) (id : NodeId) : Option (NodeRunStatus × Option Dict) :=
  (findNodeRun nodeRuns id).map fun n ↦ (n.status, n.output)

theorem sourceState_of_endingOf {nodeRuns nodeRuns' : List NodeRun} {id : NodeId}
    (h : endingOf nodeRuns id = endingOf nodeRuns' id) :
    sourceState nodeRuns id = sourceState nodeRuns' id := by
  unfold endingOf at h
  unfold sourceState NodeRun.selectedBranch
  cases hn : findNodeRun nodeRuns id with
  | none =>
      rw [hn] at h
      rw [Option.map_eq_none_iff.mp h.symm]
  | some n =>
      rw [hn] at h
      obtain ⟨n', hn', heq⟩ := Option.map_eq_some_iff.mp h.symm
      simp only [Prod.mk.injEq] at heq
      rw [hn']
      simp only [heq]

/-- Nodes that ask someone outside, or that wait for someone, got the same answers. -/
def SameAnswers (g : WorkflowGraph) (nodeRuns nodeRuns' : List NodeRun) : Prop :=
  ∀ node ∈ g.nodes, node.isPure = false → node.isInput = false →
    ∀ n n', findNodeRun nodeRuns node.id = some n → findNodeRun nodeRuns' node.id = some n' →
      n.status = .completed → n'.status = .completed → n.output = n'.output

/-- The pure nodes read no status, and what the validator does not scan looks upstream as well. -/
def Determinate (g : WorkflowGraph) : Prop :=
  ∀ node ∈ g.nodes, node.isPure = true → node.Steady ∧
    ∀ v ∈ unscannedValues node, ∀ r ∈ resolvedReferences v, LooksUpstream g node.id r

theorem endingOf_eq_some_iff {nodeRuns : List NodeRun} {id : NodeId} {status : NodeRunStatus}
    {output : Option Dict} : endingOf nodeRuns id = some (status, output) ↔
      ∃ n, findNodeRun nodeRuns id = some n ∧ n.status = status ∧ n.output = output := by
  simp [endingOf, Option.map_eq_some_iff]

theorem output_of_endingOf {nodeRuns nodeRuns' : List NodeRun} {id : NodeId}
    (h : endingOf nodeRuns id = endingOf nodeRuns' id) :
    (findNodeRun nodeRuns id).bind (fun n ↦ n.output.map Json.obj) =
      (findNodeRun nodeRuns' id).bind fun n ↦ n.output.map Json.obj := by
  have hbind (rows : List NodeRun) : (findNodeRun rows id).bind (fun n ↦ n.output.map Json.obj) =
      (endingOf rows id).bind fun ending ↦ ending.2.map Json.obj := by
    cases hn : findNodeRun rows id <;> simp [endingOf, hn]
  rw [hbind, hbind, h]

/-- A reference resolves alike in two runs that agree on what it reads. -/
theorem resolveReference_agree {env : Env} (hdata : SameData db.run db'.run) (hc : Coupled db)
    (hc' : Coupled db') {r : ContextReference} (hreads : r.readsStatus = false)
    (hnodes : ∀ x, r.nodeId = some x → endingOf db.nodeRuns x = endingOf db'.nodeRuns x) :
    (contextResolver env db).resolveReference r = (contextResolver env db').resolveReference r := by
  have hinput : (contextResolver env db').workflowInput = (contextResolver env db).workflowInput :=
    hdata.input
  have hvariables : (contextResolver env db').workflowVariables =
      (contextResolver env db).workflowVariables := hdata.workflowVariables
  unfold ContextResolver.resolveReference
  rw [hinput, hvariables]
  split
  · rfl
  · split
    · rfl
    · split
      · next hrun =>
        have hreads : ¬(r.path = [] ∨ r.path.head? = some "status") := by
          simpa [ContextReference.readsStatus, hrun] using hreads
        obtain ⟨hempty, hstatus⟩ := not_or.mp hreads
        exact (navigate_run hdata _ _ hempty hstatus).symm
      · cases hnode : r.nodeId with
        | none => rfl
        | some x =>
            have hlookup : (contextResolver env db).nodeOutputs.lookup x =
                (contextResolver env db').nodeOutputs.lookup x := by
              rw [contextResolver, contextResolver, lookup_outputs hc.nodeIds_nodup,
                lookup_outputs hc'.nodeIds_nodup]
              exact output_of_endingOf (hnodes x hnode)
            dsimp only
            rw [hlookup]

theorem WorkflowNode.runtimeReferences_of_isPure (h : node.isPure = true) :
    runtimeReferences node = fieldReferences node.config ++ fieldReferences node.inputMapping := by
  have hother : node.isInput = false := by
    by_contra hinput
    simp only [Bool.not_eq_false, isInput, Bool.decide_and, Bool.and_eq_true,
      decide_eq_true_eq] at hinput
    simp [isPure, hinput] at h
  rw [runtimeReferences, hother]
  rfl

/-- A pure node computes the same output from rows that resolve its fields alike. -/
theorem Stored.agree {env : Env} {output output' : Dict} (h : Stored same env db node output)
    (h' : Stored same env db' node output') (hpure : node.isPure = true) (hsteady : node.Steady)
    (hagree : ContextResolver.Agree (contextResolver env db) (contextResolver env db')
      (runtimeReferences node)) : output = output' := by
  obtain ⟨result, ⟨x, c, hsame, rfl, rfl, hresolves⟩, -, rfl⟩ := h
  obtain ⟨result', ⟨x', c', hsame', hnode, rfl, hresolves'⟩, -, rfl⟩ := h'
  rw [WorkflowNode.runtimeReferences_of_isPure hpure] at hagree
  obtain ⟨hconfig, hmapping⟩ := hagree.append
  have hstr : (contextResolver env db).pyStr = (contextResolver env db').pyStr := rfl
  obtain ⟨hinput₁, hconfig₁⟩ := hresolves hsteady
  obtain ⟨hinput₂, hconfig₂⟩ := hresolves' hsteady
  rw [ContextResolver.resolveFields_congr hstr _ hmapping, hinput₂] at hinput₁
  rw [ContextResolver.resolveFields_congr hstr _ hconfig, hconfig₂] at hconfig₁
  rw [executionOf_pure hpure (hsame'.trans hsame.symm) hnode (Except.ok.inj hinput₁)
    (Except.ok.inj hconfig₁)]

theorem Coupled.endingOf_eq_none (hc : Coupled db) {id : NodeId} (hid : id ∉ db.run.graph.nodeIds) :
    endingOf db.nodeRuns id = none := by
  have hstatus := hc.statusOf_eq_none hid
  rw [statusOf, Option.map_eq_none_iff] at hstatus
  rw [endingOf, hstatus]
  rfl

/-- In COMPLETED runs a node with the same active edges has the same status. -/
theorem Branched.status_agree (hb : Branched db) (hb' : Branched db')
    (hgraph : db'.run.graph = db.run.graph) (hcompleted : db.run.status = .completed)
    (hcompleted' : db'.run.status = .completed) {n n' : NodeRun} (hn : n ∈ db.nodeRuns)
    (hn' : n' ∈ db'.nodeRuns) (hid : n'.nodeId = n.nodeId) (hother : n.isInput = false)
    (hother' : n'.isInput = false)
    (hactive : activeEdges db.run.graph.toWorkflowGraph db'.nodeRuns n.nodeId =
      activeEdges db.run.graph.toWorkflowGraph db.nodeRuns n.nodeId) : n.status = n'.status := by
  rcases hb.completed hcompleted n hn with hdone | hskipped <;>
    rcases hb'.completed hcompleted' n' hn' with hdone' | hskipped'
  · rw [hdone, hdone']
  · have hsome := (hb.started n hn hother (by rw [hdone]; rfl)).1
    have hnone := hb'.skipped n' hn' hskipped'
    rw [hgraph, hid, hactive] at hnone
    exact absurd hnone hsome
  · have hsome := (hb'.started n' hn' hother' (by rw [hdone']; rfl)).1
    rw [hgraph, hid, hactive] at hsome
    exact absurd (hb.skipped n hn hskipped) hsome
  · rw [hskipped, hskipped']

theorem OutputsFinal.output_eq_none (hfinal : OutputsFinal db) {n : NodeRun} (hn : n ∈ db.nodeRuns)
    (hstatus : n.status ≠ .completed) : n.output = none := by
  cases houtput : n.output with
  | none => rfl
  | some output => exact absurd (hfinal n hn (by rw [houtput]; rfl)) hstatus

/-! ## Two runs -/

/-- Two COMPLETED runs on the same data, with the same answers, end every node with the same
status and the same output. -/
theorem completed_runs_agree
    (haccepted : Accepted env.toEnv validation s.db.run.graph.toWorkflowGraph)
    (hserver : env.sanitizeOutput = sanitizeOutput T [])
    (h : DeployedWorld.Reachable same env workers s)
    (h' : DeployedWorld.Reachable same env workers' s') (hdata : SameData s.db.run s'.db.run)
    (hcompleted : s.db.run.status = .completed) (hcompleted' : s'.db.run.status = .completed)
    (hgraph : Determinate s.db.run.graph.toWorkflowGraph)
    (hanswers : SameAnswers s.db.run.graph.toWorkflowGraph s.db.nodeRuns s'.db.nodeRuns)
    (id : NodeId) : endingOf s.db.nodeRuns id = endingOf s'.db.nodeRuns id := by
  have hd := h.deployment hserver
  have hd' := h'.deployment hserver
  have hb := hd.rows.waitsIdly.toBranched
  have hb' := hd'.rows.waitsIdly.toBranched
  have hc := hd.coupled
  have hc' := hd'.coupled
  -- along the edges: the sources of a node decide its status, the nodes above it its output
  refine haccepted.shaped.acyclic.transGen.induction
    (C := fun id ↦ endingOf s.db.nodeRuns id = endingOf s'.db.nodeRuns id) id fun id ih ↦ ?_
  by_cases hid : id ∈ s.db.run.graph.nodeIds
  swap
  · rw [hc.endingOf_eq_none hid, hc'.endingOf_eq_none (hdata.graph ▸ hid)]
  obtain ⟨n, hn⟩ := hc.exists_nodeRun hid
  obtain ⟨n', hn'⟩ := hc'.exists_nodeRun (hdata.graph ▸ hid)
  obtain ⟨node, hmem, hnode, hfind, hinput, -⟩ := hc.exists_node hn
  obtain ⟨node', -, -, hfind', hinput', -⟩ := hc'.exists_node hn'
  rw [hdata.graph, hfind] at hfind'
  cases hfind'
  obtain ⟨hrow, hkey⟩ := hc.findNodeRun_eq_some_iff.mp hn
  obtain ⟨hrow', hkey'⟩ := hc'.findNodeRun_eq_some_iff.mp hn'
  suffices hsame : n.status = n'.status ∧ n.output = n'.output by
    simp [endingOf, hn, hn', hsame]
  by_cases hstart : node.isInput = true
  · rw [hstart] at hinput hinput'
    rw [hb.input n hrow hinput.symm, hb'.input n' hrow' hinput'.symm,
      h.input_output hn hinput.symm, h'.input_output hn' hinput'.symm, hdata.input]
    exact ⟨rfl, rfl⟩
  have hother : n.isInput = false := by rw [← hinput]; simpa using hstart
  have hother' : n'.isInput = false := by rw [← hinput']; simpa using hstart
  have hactive : activeEdges s.db.run.graph.toWorkflowGraph s'.db.nodeRuns n.nodeId =
      activeEdges s.db.run.graph.toWorkflowGraph s.db.nodeRuns n.nodeId := by
    refine activeEdges_congr fun e he ↦ (sourceState_of_endingOf (ih e.source ?_)).symm
    obtain ⟨hedge, htarget⟩ := List.mem_filter.mp he
    exact .single ⟨e, hedge, rfl, by rw [← hkey]; simpa using htarget⟩
  have hstatus := hb.status_agree hb' hdata.graph hcompleted hcompleted' hrow hrow'
    (hkey'.trans hkey.symm) hother hother' hactive
  refine ⟨hstatus, ?_⟩
  by_cases hdone : n.status = .completed
  swap
  · rw [hd.final.output_eq_none hrow hdone, hd'.final.output_eq_none hrow' (hstatus ▸ hdone)]
  have hdone' : n'.status = .completed := hstatus.symm.trans hdone
  by_cases hpure : node.isPure = true
  · obtain ⟨hsteady, hunscanned⟩ := hgraph node hmem hpure
    obtain ⟨output, houtput, hstored⟩ := hd.rows.settled n hrow hdone node (hkey ▸ hfind) hpure
    obtain ⟨output', houtput', hstored'⟩ := hd'.rows.settled n' hrow' hdone' node
      (by rw [hdata.graph, hkey', hfind]) hpure
    rw [houtput, houtput']
    refine congrArg some (hstored.agree hstored' hpure hsteady fun r hr ↦ ?_)
    have hreads : r.readsStatus = false := by
      rw [WorkflowNode.runtimeReferences_of_isPure hpure] at hr
      exact hsteady r (List.mem_append.mpr (List.mem_append.mp hr).symm)
    refine resolveReference_agree hdata hc hc' hreads fun x hx ↦ ih x ?_
    have hupstream : LooksUpstream s.db.run.graph.toWorkflowGraph node.id r := by
      rcases mem_runtimeReferences_iff.mp hr with ⟨v, hv, hr⟩ | ⟨v, hv, hr⟩
      · exact haccepted.scanned_upstream hmem hv hr
      · exact hunscanned v hv r hr
    rw [← hnode]
    exact (hupstream x hx).1
  · exact hanswers node hmem (by simpa using hpure) (by simpa using hstart) n n'
      (by rw [hnode, hn]) (by rw [hnode, hn']) hdone hdone'

/-! ## An interrupted run -/

/-- The first Worker crashes with the Condition, the run is paused and resumed, and two other
Workers finish it. -/
def recoveredBranch : DeployedWorld :=
  let s := startedBranch.execAll serverEnv
    [.claim 7 0 "v" "u" 60 0, .start 7 0, .load 7, .crash 7, .run (.recoverExpired (seconds 61)),
      .run (.pauseRun 0), .run .resumeRun]
  ((s.work serverEnv plainExecutor 0 "w" "t" 0).work serverEnv plainExecutor 1 "v" "t'" 1).work
    serverEnv plainExecutor 0 "w" "t" 2

theorem reachable_recoveredBranch : DeployedWorld.Reachable plainExecutor.same serverEnv
    (fun id ↦ id = "v" ∨ id = "w") recoveredBranch := by
  unfold recoveredBranch
  refine (((DeployedWorld.Reachable.execAll _ ?_ reachable_startedBranch).work rfl 0
    (.inr rfl) "t" 0).work rfl 1 (.inl rfl) "t'" 1).work rfl 0 (.inr rfl) "t" 2
  simp [DeployedWorld.Deployed, RunOp.byWorker, RunOp.Parties]

theorem sameData_recoveredBranch : SameData branchRun.run recoveredBranch.db.run := by
  have hsteps : RunSteps serverEnv.toEnv branchRun recoveredBranch.db :=
    (((runSteps_startedBranch.trans (DeployedWorld.runSteps_execAll ..)).trans
      (DeployedWorld.runSteps_work ..)).trans (DeployedWorld.runSteps_work ..)).trans
        (DeployedWorld.runSteps_work ..)
  exact hsteps.sameData (createRun_coupled createRun_serverEnv)

theorem completed_runs_agree_recoveredBranch :
    finishedBranch.db.run.status = .completed ∧ recoveredBranch.db.run.status = .completed ∧
      ∀ id, endingOf finishedBranch.db.nodeRuns id = endingOf recoveredBranch.db.nodeRuns id := by
  have hcompleted := statuses_finishedBranch.1
  have hcompleted' : recoveredBranch.db.run.status = .completed := by decide +kernel
  have haccepted : Accepted serverEnv.toEnv {} finishedBranch.db.run.graph.toWorkflowGraph := by
    rw [graph_finishedBranch]
    exact accepted_of_silent (by decide) (by decide) (by rfl) rfl rfl rfl rfl
  have hkinds : ∀ node ∈ branchGraph.nodes, node.isPure = true ∨ node.isInput = true := by decide
  have hsilent : ∀ node ∈ branchGraph.nodes, node.Steady ∧
      (unscannedValues node).flatMap resolvedReferences = [] := by decide
  refine ⟨hcompleted, hcompleted', completed_runs_agree haccepted rfl reachable_finishedBranch
    reachable_recoveredBranch ?_ hcompleted hcompleted' ?_ ?_⟩
  · have h := sameData_finishedBranch
    have h' := sameData_recoveredBranch
    exact ⟨h'.id.trans h.id.symm, h'.graph.trans h.graph.symm,
      h'.executionSnapshot.trans h.executionSnapshot.symm, h'.input.trans h.input.symm,
      h'.workflowVariables.trans h.workflowVariables.symm, h'.createdAt.trans h.createdAt.symm⟩
  · rw [graph_finishedBranch]
    intro node hnode _
    obtain ⟨hsteady, hnone⟩ := hsilent node hnode
    refine ⟨hsteady, fun v hv r hr ↦ ?_⟩
    have hmem : r ∈ (unscannedValues node).flatMap resolvedReferences :=
      List.mem_flatMap.mpr ⟨v, hv, hr⟩
    rw [hnone] at hmem
    cases hmem
  · rw [graph_finishedBranch]
    intro node hnode hpure hinput
    rcases hkinds node hnode with h | h
    · rw [hpure] at h
      cases h
    · rw [hinput] at h
      cases h

end Relayvia
