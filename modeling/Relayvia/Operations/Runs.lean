import Relayvia.Operations.Reconciliation

/-!
# Steps of the run service

Creation gives a coupled state; the lifecycle operations move the run row, and a
human action resolves or rejects one WAITING cell.
-/

namespace Relayvia

variable {R : Rights} {env : Env} {now : Time} {db : RunRecord} {id : NodeId}

/-! ## Creation -/

/-- A run is created coupled, with the Data Input as the only NodeRun that is not
PENDING and without tasks. -/
theorem createRun_ok {runId : String} {graph : ParsedGraph} {executionSnapshot input : Dict}
    (h : createRun env now runId graph executionSnapshot input = .ok db) :
    db.run.status = .created ∧ db.run.graph = graph ∧ db.tasks = [] ∧
      db.nodeRuns = graph.nodes.map (createNodeRun input) := by
  obtain ⟨_, -, h⟩ := Outcome.bind_eq_ok_iff.mp h
  cases h
  exact ⟨rfl, rfl, rfl, rfl⟩

theorem createNodeRun_coupling (input : Dict) (node : WorkflowNode) :
    Coupling (createNodeRun input node).isInput ((createNodeRun input node).status, none) := by
  by_cases hinput : node.isInput = true
  · have hborn : (createNodeRun input node).isInput = true := hinput
    exact .inr (.inr (.inr ⟨hborn, by simp [createNodeRun, hinput]⟩))
  · simp [Coupling, createNodeRun, hinput]

theorem createRun_coupled {runId : String} {graph : ParsedGraph} {executionSnapshot input : Dict}
    (h : createRun env now runId graph executionSnapshot input = .ok db) : Coupled db := by
  obtain ⟨-, hgraph, htasks, hnodes⟩ := createRun_ok h
  have hkeyed : Keyed db :=
    { nodeIds := by
        rw [hnodes, hgraph, List.map_map]
        rfl
      kinds := by
        rw [hnodes, hgraph]
        intro n hn
        obtain ⟨node, hnode, rfl⟩ := List.mem_map.mp hn
        exact ⟨node, hnode, rfl, rfl, rfl⟩
      taskIds := by simp [htasks]
      taskNodes := by simp [htasks]
      taskClosed := by simp [htasks] }
  refine { hkeyed with coupling := fun id n hn ↦ ?_, unleased := ?_, capable := ?_, rejected := ?_ }
  · have hmem := (hkeyed.findNodeRun_eq_some_iff.mp hn).1
    rw [hnodes] at hmem
    obtain ⟨node, -, rfl⟩ := List.mem_map.mp hmem
    simpa [cellStatus, htasks, taskOfNode, Table.find?] using createNodeRun_coupling input node
  · simp [htasks]
  · simp [htasks, taskOfNode, Table.find?]
  · simp [htasks, taskOfNode, Table.find?]

/-! ## Lifecycle -/

theorem advanceRun_sound {target : WorkflowRunStatus} {f : WorkflowRun → WorkflowRun}
    (hgraph : ∀ run, (f run).graph = run.graph)
    (htarget : target = .running ∨ target = .paused ∨ target = .cancelled) :
    Sound (advanceRun db target f) fun db' ↦ RunStep db db' ∧ db'.run.status = target ∧
      db'.nodeRuns = db.nodeRuns ∧ db'.tasks = db.tasks := by
  refine transitionWorkflowRun_sound.bind fun _ hlegal ↦ ⟨?_, rfl, rfl, rfl⟩
  refine ⟨hgraph db.run, rfl, rfl, .inr hlegal, fun _ h ↦ ?_⟩
  rcases htarget with rfl | rfl | rfl <;> simp [RunRecord.modifyRun] at h

theorem startRun_sound :
    Sound (startRun now db) fun db' ↦ RunStep db db' ∧ db'.run.status = .running := by
  refine Outcome.Holds.bind (advanceRun_sound (fun _ ↦ rfl) (.inl rfl)) ?_
  rintro db' ⟨hstep, hstatus, -⟩
  exact ⟨⟨hstep.graph, hstep.nodeRuns, hstep.tasks, hstep.status, hstep.derived⟩, hstatus⟩

theorem pauseRun_sound :
    Sound (pauseRun now db) fun db' ↦ RunStep db db' ∧ db'.run.status = .paused := by
  refine Outcome.Holds.weaken (advanceRun_sound ?_ (.inr (.inl rfl))) fun _ h ↦ ⟨h.1, h.2.1⟩
  exact fun _ ↦ rfl

theorem resumeRun_sound :
    Sound (resumeRun db) fun db' ↦ RunStep db db' ∧ db'.run.status = .running := by
  refine Outcome.Holds.weaken (advanceRun_sound ?_ (.inl rfl)) fun _ h ↦ ⟨h.1, h.2.1⟩
  exact fun _ ↦ rfl

theorem cancelRunStatus_sound :
    Sound (cancelRunStatus now db) fun db' ↦ RunStep db db' ∧ db'.run.status = .cancelled ∧
      db'.nodeRuns = db.nodeRuns ∧ db'.tasks = db.tasks := by
  refine Outcome.Holds.ite (fun _ ↦ Outcome.holds_throw_bind.mpr ?_) fun _ ↦ ?_
  · simp [StatusFault]
  refine Outcome.Holds.bind (advanceRun_sound (fun _ ↦ rfl) (.inr (.inr rfl))) ?_
  rintro db' ⟨hstep, hstatus, hnodes, htasks⟩
  exact ⟨⟨hstep.graph, hstep.nodeRuns, hstep.tasks, hstep.status, hstep.derived⟩, hstatus, hnodes,
    htasks⟩

theorem cancelOpenNode_terminal (n : NodeRun) :
    (cancelOpenNode now n).status.isTerminal = true := by
  unfold cancelOpenNode
  split
  · next h => exact h
  · rfl

/-- After the loop over the NodeRuns nothing is left for `cancel_run_tasks` to do
there. -/
theorem cancelRunTasks_nodeRuns {nodeRuns : List NodeRun} {tasks : List ExecutionTask} :
    (nodeRuns.map (cancelOpenNode now)).map (cancelNode now tasks) =
      nodeRuns.map (cancelOpenNode now) := by
  rw [List.map_map]
  refine List.map_congr_left fun n _ ↦ ?_
  rw [Function.comp_apply, cancelNode, if_neg]
  simp [cancelOpenNode_terminal]

/-- The cell of one NodeRun in `cancel_run`. -/
theorem cancelOpenNode_step (hc : Coupled db) (hended : db.run.status.isTerminal = true)
    {n : NodeRun} (hn : n ∈ db.nodeRuns) :
    CellStep R db n (taskOfNode db.tasks n.nodeId) (cancelOpenNode now n)
      ((taskOfNode db.tasks n.nodeId).map (cancelTask now)) := by
  have hfind := hc.findNodeRun_eq_some_iff.mpr ⟨hn, rfl⟩
  have hcoupling := hc.coupling _ n hfind
  by_cases hopen : n.status.isTerminal = true
  · have htask : (taskOfNode db.tasks n.nodeId).map (cancelTask now) =
        taskOfNode db.tasks n.nodeId := by
      cases htask : taskOfNode db.tasks n.nodeId with
      | none => rfl
      | some t =>
          rw [cellStatus, htask] at hcoupling
          rw [Option.map_some, cancelTask]
          split
          · rfl
          · next hlive =>
            have hnode : n.status.isTerminal = false := hcoupling.open_of_live (by simpa using hlive)
            simp [hopen] at hnode
    rw [htask, cancelOpenNode, if_pos hopen]
    exact .refl n _
  · have hopen : n.status.isTerminal = false := by simpa using hopen
    have hmove : Move (cellStatus n (taskOfNode db.tasks n.nodeId))
        (.cancelled, ((taskOfNode db.tasks n.nodeId).map (cancelTask now)).map
          ExecutionTask.status) := by
      unfold cellStatus at hcoupling ⊢
      cases htask : taskOfNode db.tasks n.nodeId with
      | none =>
          rw [htask] at hcoupling
          have hpending : n.status = .pending := by
            rcases hcoupling with h | h | h | ⟨-, h⟩
            · exact h
            all_goals simp [h, NodeRunStatus.isTerminal] at hopen
          rw [hpending]
          exact .cancelIdle
      | some t =>
          rw [htask] at hcoupling
          by_cases hlive : t.status.isTerminal = true
          · rw [Option.map_some, Option.map_some, Option.map_some, cancelTask, if_pos hlive]
            cases hstatus : t.status <;>
              simp only [hstatus, Option.map_some, Coupling, ExecutionTaskStatus.isTerminal,
                Bool.false_eq_true] at hlive hcoupling
            · rcases hcoupling with h | h | h | h
              · simp [h, NodeRunStatus.isTerminal] at hopen
              · rw [h]
                exact .cancelWaiting
              all_goals simp [h, NodeRunStatus.isTerminal] at hopen
            all_goals simp [hcoupling, NodeRunStatus.isTerminal] at hopen
          · rw [Option.map_some, Option.map_some, Option.map_some, cancelTask, if_neg hlive]
            exact .cancelTask (by simpa using hlive)
    rw [cancelOpenNode, if_neg (by simp [hopen])]
    exact .cancel now hended hmove

/-- Cancellation sets the status of the run and then cancels every open NodeRun
and task. -/
structure Cancelled (R : Rights) (now : Time) (db db' : RunRecord) : Prop where
  steps : Steps R db db'
  status : db'.run.status = .cancelled
  nodeRuns : db'.nodeRuns = db.nodeRuns.map (cancelOpenNode now)
  tasks : db'.tasks = db.tasks.map (cancelTask now)

variable (R) in
theorem cancelRun_sound (hc : Coupled db) :
    Sound (cancelRun now db) (Cancelled R now db) := by
  refine Outcome.Holds.bind cancelRunStatus_sound ?_
  rintro db₁ ⟨hstep, hstatus, hnodes, htasks⟩
  have hc₁ := hstep.coupled hc
  have hended : db₁.run.status.isTerminal = true := by
    rw [hstatus]
    rfl
  have hrows : (cancelRunTasks now { cancelOpenNodes now db₁ with }).settled.nodeRuns =
      db₁.nodeRuns.map (cancelOpenNode now) :=
    cancelRunTasks_nodeRuns
  have htasks' : (cancelRunTasks now { cancelOpenNodes now db₁ with }).settled.tasks =
      db₁.tasks.map (cancelTask now) := by
    simp [cancelRunTasks, Session.settled, Session.numbered, cancelOpenNodes]
  have hevolves : Evolves R db₁
      (cancelRunTasks now { cancelOpenNodes now db₁ with }).settled := by
    refine Evolves.of_rows hc₁.toKeyed rfl hrows ?_ ?_ (fun n ↦ ?_) fun n hn ↦ ?_
    · rw [htasks', Table.map_key_map cancelTask_id]
    · rw [htasks', Table.map_key_map cancelTask_nodeRunId]
    · unfold cancelOpenNode
      split <;> rfl
    · have htask : taskOfNode (cancelRunTasks now { cancelOpenNodes now db₁ with }).settled.tasks
          n.nodeId = (taskOfNode db₁.tasks n.nodeId).map (cancelTask now) := by
        rw [htasks']
        exact Table.find?_map cancelTask_nodeRunId _ _
      rw [htask]
      exact cancelOpenNode_step hc₁ hended hn
  refine (commit_sound (hevolves.coupled hc₁)).weaken ?_
  rintro _ rfl
  exact
    { steps := .head (.run hstep) (.single (.cells hevolves))
      status := hstatus
      nodeRuns := by rw [hrows, hnodes]
      tasks := by rw [htasks', htasks] }

/-! ## Human actions -/

theorem lockNodeRun_sound :
    Sound (liftM (lockNodeRun db id)) fun n ↦ findNodeRun db.nodeRuns id = some n := by
  refine holds_liftM ?_
  unfold lockNodeRun
  split
  · next h => exact h
  · simp [StatusFault]

theorem requireWaiting_sound {n : NodeRun} :
    Sound (liftM (requireWaiting n)) fun _ ↦ n.status = .waiting := by
  refine holds_liftM (Outcome.Holds.ite id fun _ ↦ ?_)
  simp [StatusFault]

theorem waitingNode_sound {run : WorkflowRun} {n : NodeRun} {subtype reason : String} :
    Sound (liftM (waitingNode run n subtype reason)) fun _ ↦
      n.nodeType = .human ∧ n.nodeSubtype = subtype ∧ n.waitingReason = some reason := by
  refine holds_liftM (Outcome.Holds.ite (fun _ ↦ ?_) fun _ ↦ Outcome.Holds.ite (fun _ ↦ ?_)
    fun hkind ↦ ?_)
  · simp [StatusFault]
  · simp [StatusFault]
  · split
    · push Not at hkind
      exact hkind
    · simp [StatusFault]

theorem checkHumanInput_sound {node : WorkflowNode} {input : Dict} :
    Sound (liftM (checkHumanInput env node input)) fun _ ↦ True := by
  refine holds_liftM (Outcome.holds_of_forall (fun _ _ ↦ trivial) fun e he ↦ ?_)
  unfold checkHumanInput at he
  split at he
  · split at he
    · cases he
    · split at he
      · cases he
        simp [StatusFault]
      · split at he
        · cases he
          simp [StatusFault]
        · cases he
  · cases he

/-- The end of a human action on a WAITING node. -/
theorem applyHumanResult_sound (hc : Coupled db) {n : NodeRun}
    (hn : findNodeRun db.nodeRuns id = some n) (hwaiting : n.status = .waiting)
    {result : HumanResult} (htarget : result.target = .completed ∨ result = rejection)
    (hresolve : R.resolve) :
    Sound (applyHumanResult now db id result) (Evolves R db) := by
  obtain ⟨t, ht, hstatus⟩ := hc.waiting_task hn hwaiting
  obtain ⟨hmem, rfl⟩ := hc.taskOfNode_eq_some_iff.mp ht
  have hlegal : result.target ∈ NodeRunStatus.waiting.transitions := by
    rcases htarget with h | rfl <;> simp [*, rejection, NodeRunStatus.transitions]
  have hkept : db.tasks = Table.modify ExecutionTask.id t.id (fun u ↦ u) db.tasks :=
    (Table.modify_id _ _).symm
  unfold applyHumanResult
  rw [liftM_transitionNodeRun hlegal]
  refine Evolves.of_update hc hmem hn rfl rfl hkept (fun _ ↦ rfl) (fun _ ↦ rfl) (fun _ ↦ rfl) ?_
  refine .of_move rfl rfl rfl ⟨rfl, rfl⟩ (.inr (.inl ⟨rfl, rfl⟩)) ?_ (by simp [hwaiting]) ?_ ?_
    (by simp [hwaiting]) (fun _ ↦ hresolve) (by simp [hstatus, ExecutionTaskStatus.isQueued]) ?_
  · rw [hwaiting, hstatus]
    rcases htarget with h | rfl
    · rw [h]
      exact .resolve
    · exact .reject
  · rcases htarget with h | rfl <;> simp [*, rejection]
  · rcases htarget with h | rfl
    · exact .inr ⟨h, by simp [hwaiting]⟩
    · exact .inl rfl
  · rcases htarget with h | rfl <;> simp [*, rejection]

theorem approveNodeRun_sound (hc : Coupled db) (hresolve : R.resolve) :
    Sound (approveNodeRun now id db) (Evolves R db) := by
  refine lockNodeRun_sound.bind fun n hn ↦ ?_
  refine requireWaiting_sound.bind fun _ hwaiting ↦ ?_
  refine waitingNode_sound.bind fun _ _ ↦ ?_
  exact applyHumanResult_sound hc hn hwaiting (.inl rfl) hresolve

theorem rejectNodeRun_sound (hc : Coupled db) (hresolve : R.resolve) :
    Sound (rejectNodeRun now id db) (Evolves R db) := by
  refine lockNodeRun_sound.bind fun n hn ↦ ?_
  refine requireWaiting_sound.bind fun _ hwaiting ↦ ?_
  refine waitingNode_sound.bind fun _ _ ↦ ?_
  refine Outcome.Holds.ite (fun _ ↦ Outcome.holds_throw_bind.mpr ?_) fun _ ↦ ?_
  · simp [StatusFault]
  · exact applyHumanResult_sound hc hn hwaiting (.inr rfl) hresolve

theorem submitNodeRun_sound (hc : Coupled db) (hresolve : R.resolve) {input : Dict} :
    Sound (submitNodeRun env now id input db) (Evolves R db) := by
  refine lockNodeRun_sound.bind fun n hn ↦ ?_
  refine requireWaiting_sound.bind fun _ hwaiting ↦ ?_
  refine waitingNode_sound.bind fun _ _ ↦ ?_
  refine checkHumanInput_sound.bind fun _ _ ↦ ?_
  exact applyHumanResult_sound hc hn hwaiting (.inl rfl) hresolve

end Relayvia
