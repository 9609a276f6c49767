import Relayvia.Coupling
import Relayvia.Executor
import Relayvia.Validation.Shape

/-!
# Branch semantics

Which nodes a run executes.  Readiness and skip propagation work on partial
states while tasks finish in any order; the invariant says what every state has
already decided, and a COMPLETED run has decided everything.
-/

namespace Relayvia

variable {R : Rights} {env : Env} {now : Time} {db db' : RunRecord}

/-! ## Derivation -/

/-- What each derived status says about the NodeRuns. -/
theorem deriveWorkflowState_spec (g : WorkflowGraph) (nodeRuns : List NodeRun) :
    match deriveWorkflowState g nodeRuns with
    | .failed => ∃ n ∈ nodeRuns, n.status = .failed
    | .completed =>
        (∀ n ∈ nodeRuns, n.status ≠ .failed) ∧ ∀ n ∈ nodeRuns, n.status.isTerminal = true
    | .waiting =>
        (∀ n ∈ nodeRuns, n.status ≠ .failed) ∧ (∃ n ∈ nodeRuns, n.status = .waiting) ∧
          (∀ n ∈ nodeRuns, n.status.inFlight = false) ∧ findReadyNodes g nodeRuns = []
    | .running =>
        (∀ n ∈ nodeRuns, n.status ≠ .failed) ∧
          (nodeRuns = [] ∨ ∃ n ∈ nodeRuns, n.status.isTerminal = false)
    | _ => False := by
  unfold deriveWorkflowState
  by_cases hfailed : nodeRuns.any (·.status = .failed) = true
  · rw [if_pos hfailed]
    simpa using List.any_eq_true.mp hfailed
  have hnone : ∀ n ∈ nodeRuns, n.status ≠ .failed := by simpa using hfailed
  rw [if_neg hfailed]
  by_cases hdone : nodeRuns ≠ [] ∧ nodeRuns.all (·.status.isTerminal) = true
  · rw [if_pos hdone]
    exact ⟨hnone, by simpa using hdone.2⟩
  have hopen : nodeRuns = [] ∨ ∃ n ∈ nodeRuns, n.status.isTerminal = false := by
    by_cases hempty : nodeRuns = []
    · exact .inl hempty
    · exact .inr (by simpa [hempty] using hdone)
  rw [if_neg hdone]
  by_cases hwaiting : nodeRuns.any (·.status = .waiting) = true
  · rw [if_pos hwaiting]
    by_cases hflight : nodeRuns.any (·.status.inFlight) = true
    · rw [if_pos hflight]
      exact ⟨hnone, hopen⟩
    rw [if_neg hflight]
    by_cases hready : findReadyNodes g nodeRuns ≠ []
    · rw [if_pos hready]
      exact ⟨hnone, hopen⟩
    · rw [if_neg hready]
      exact ⟨hnone, by simpa using hwaiting, by simpa using hflight, by simpa using hready⟩
  · rw [if_neg hwaiting]
    exact ⟨hnone, hopen⟩

/-! ## What a step keeps -/

/-- A source that completed or was skipped keeps what its edges see of it. -/
theorem Evolves.sourceState_eq (h : Evolves R db db') (hc : Coupled db) {id : NodeId}
    (hdecided : sourceState db.nodeRuns id ≠ .unfinished) :
    sourceState db'.nodeRuns id = sourceState db.nodeRuns id := by
  unfold sourceState at hdecided ⊢
  cases hn : findNodeRun db.nodeRuns id with
  | none => simp [hn] at hdecided
  | some n =>
      obtain ⟨n', hn', hcell⟩ := h.cell id n hn
      have hterminal : n.status.isTerminal = true := by
        rw [hn] at hdecided
        cases hstatus : n.status <;> simp_all [NodeRunStatus.isTerminal]
      obtain ⟨hstatus, houtput⟩ := hcell.frozen (hc.coupling id n hn) hterminal
      simp [hn', hstatus, NodeRun.selectedBranch, houtput]

/-- Once the sources of the active edges of a node completed, its active edges are
settled. -/
theorem Evolves.activeEdges_eq (h : Evolves R db db') (hc : Coupled db) {g : WorkflowGraph}
    {id : NodeId}
    (hsources : ∀ e ∈ activeEdges g db.nodeRuns id,
      statusOf db.nodeRuns e.source = some .completed) :
    activeEdges g db'.nodeRuns id = activeEdges g db.nodeRuns id := by
  refine activeEdges_congr fun e he ↦ h.sourceState_eq hc fun hunfinished ↦ ?_
  have hactive : e ∈ activeEdges g db.nodeRuns id := by
    refine List.mem_filter.mpr ⟨he, ?_⟩
    rw [edgeIsActive_eq, hunfinished]
    rfl
  obtain ⟨selected, hselected⟩ := statusOf_completed_iff.mp (hsources e hactive)
  rw [hselected] at hunfinished
  cases hunfinished

theorem Evolves.statusOf_completed (h : Evolves R db db') (hc : Coupled db) {id : NodeId}
    (hcompleted : statusOf db.nodeRuns id = some .completed) :
    statusOf db'.nodeRuns id = some .completed := by
  obtain ⟨selected, hselected⟩ := statusOf_completed_iff.mp hcompleted
  rw [statusOf_completed_iff]
  exact ⟨selected, (h.sourceState_eq hc (by simp [hselected])).trans hselected⟩

/-- A node that was handed over to a Worker or Runner at some time. -/
def NodeRunStatus.isStarted : NodeRunStatus → Bool
  | .pending | .skipped | .cancelled => false
  | _ => true

/-- A node starts by being queued. -/
theorem Move.of_started {born : Bool} {c c' : CellStatus} (hmove : Move c c')
    (hc : Coupling born c) (hstarted : c'.1.isStarted = true) :
    c.1.isStarted = true ∨ c.1 = .pending ∧ c'.1 = .queued := by
  cases hmove with
  | queue => exact .inr ⟨rfl, rfl⟩
  | claim | release => exact .inl hstarted
  | launch ht =>
      left
      rcases ht with rfl | rfl <;> rcases hc with rfl | rfl <;> rfl
  | complete | fail | wait | retry | requeue | resolve | reject => exact .inl rfl
  | skip | cancelTask | cancelIdle | cancelWaiting => cases hstarted

/-- A node gets parked while it runs. -/
theorem Move.of_waiting {c c' : CellStatus} (hmove : Move c c') (hwaiting : c'.1 = .waiting) :
    c.1 = .waiting ∨ c.1 = .running := by
  cases hmove with
  | claim | release => exact .inl hwaiting
  | wait => exact .inr rfl
  | _ => cases hwaiting

theorem Move.of_skipped {c c' : CellStatus} (hmove : Move c c') (hskipped : c'.1 = .skipped) :
    c.1 = .skipped ∨ c.1 = .pending := by
  cases hmove with
  | claim | release => exact .inl hskipped
  | skip => exact .inr rfl
  | _ => cases hskipped

/-- A PENDING node that moves is queued, skipped or cancelled. -/
theorem Move.of_pending {born : Bool} {c c' : CellStatus} (hmove : Move c c')
    (hc : Coupling born c) (hpending : c.1 = .pending) :
    c'.1 = .queued ∨ c'.1 = .skipped ∨ c'.1 = .cancelled := by
  cases hmove with
  | queue => exact .inl rfl
  | skip => exact .inr (.inl rfl)
  | cancelIdle | cancelTask => exact .inr (.inr rfl)
  | claim => rcases hc with rfl | rfl <;> cases hpending
  | launch ht | release ht =>
      rcases ht with rfl | rfl <;> rcases hc with rfl | rfl <;> cases hpending
  | _ => cases hpending

/-! ## The invariant -/

/-- The string that a Condition selects is one of its two handles. -/
def NodeRun.selects (n : NodeRun) : Prop :=
  n.selectedBranch = some "true" ∨ n.selectedBranch = some "false"

/-- What the executors report: only nodes that park wait, and a Condition that
completes selects a branch. -/
def executed : Rights where
  report n :=
    (n.status = .waiting → n.parks = true) ∧
      (n.isCondition = true → n.status = .completed → n.selects)
  resolve := True
  grant _ _ _ := True

/-- What every state has decided about the branches. -/
structure Branched (db : RunRecord) : Prop where
  input : ∀ n ∈ db.nodeRuns, n.isInput = true → n.status = .completed
  started : ∀ n ∈ db.nodeRuns, n.isInput = false → n.status.isStarted = true →
    activeEdges db.run.graph.toWorkflowGraph db.nodeRuns n.nodeId ≠ [] ∧
      ∀ e ∈ activeEdges db.run.graph.toWorkflowGraph db.nodeRuns n.nodeId,
        statusOf db.nodeRuns e.source = some .completed
  skipped : ∀ n ∈ db.nodeRuns, n.status = .skipped →
    activeEdges db.run.graph.toWorkflowGraph db.nodeRuns n.nodeId = []
  cancelled : ∀ n ∈ db.nodeRuns, n.status = .cancelled →
    db.run.status = .failed ∨ db.run.status = .cancelled
  created : db.run.status = .created →
    db.tasks = [] ∧ ∀ n ∈ db.nodeRuns, n.isInput = false → n.status = .pending
  parked : ∀ n ∈ db.nodeRuns, n.status = .waiting → n.parks = true
  selected : ∀ n ∈ db.nodeRuns, n.isCondition = true → n.status = .completed → n.selects
  completed : db.run.status = .completed →
    ∀ n ∈ db.nodeRuns, n.status = .completed ∨ n.status = .skipped

theorem NodeRun.isCondition_of_parks {n : NodeRun} (h : n.parks = true) : n.isCondition = false := by
  simp only [parks, Bool.decide_and, Bool.decide_or, Bool.or_eq_true, Bool.and_eq_true,
    decide_eq_true_eq] at h
  rcases h with ⟨htype, -⟩ | ⟨-, hsubtype⟩
  · simp [isCondition, htype]
  · simp [isCondition, hsubtype]

theorem CellStep.parks_eq {n n' : NodeRun} {t t' : Option ExecutionTask}
    (h : CellStep R db n t n' t') : n'.parks = n.parks := by
  simp [NodeRun.parks, h.nodeType, h.nodeSubtype]

/-- A NodeRun after a step with the NodeRun and the cell that it comes from. -/
theorem Evolves.mem_back (h : Evolves R db db') (hc : Coupled db) {n' : NodeRun}
    (hn' : n' ∈ db'.nodeRuns) :
    ∃ n ∈ db.nodeRuns, n.nodeId = n'.nodeId ∧ Coupling n.isInput
        (cellStatus n (taskOfNode db.tasks n.nodeId)) ∧
      CellStep R db n (taskOfNode db.tasks n.nodeId) n' (taskOfNode db'.tasks n.nodeId) := by
  obtain ⟨n, hn, hcell⟩ := h.cell_back hc.toKeyed (h.keyed.findNodeRun_eq_some_iff.mpr ⟨hn', rfl⟩)
  obtain ⟨hmem, hid⟩ := hc.findNodeRun_eq_some_iff.mp hn
  rw [← hid] at hcell hn
  exact ⟨n, hmem, hid, hc.coupling _ n hn, hcell⟩

namespace Branched

theorem started_step (h : Evolves R db db') (hc : Coupled db) (hb : Branched db) {n' : NodeRun}
    (hn' : n' ∈ db'.nodeRuns) (hinput : n'.isInput = false) (hstarted : n'.status.isStarted = true) :
    activeEdges db'.run.graph.toWorkflowGraph db'.nodeRuns n'.nodeId ≠ [] ∧
      ∀ e ∈ activeEdges db'.run.graph.toWorkflowGraph db'.nodeRuns n'.nodeId,
        statusOf db'.nodeRuns e.source = some .completed := by
  obtain ⟨n, hn, hid, hcoupling, hcell⟩ := h.mem_back hc hn'
  rw [hcell.isInput_eq] at hinput
  have hbefore : activeEdges db.run.graph.toWorkflowGraph db.nodeRuns n.nodeId ≠ [] ∧
      ∀ e ∈ activeEdges db.run.graph.toWorkflowGraph db.nodeRuns n.nodeId,
        statusOf db.nodeRuns e.source = some .completed := by
    rcases hcell.move with heq | hmove
    · have hstatus : n'.status = n.status := congrArg Prod.fst heq
      exact hb.started n hn hinput (by rwa [← hstatus])
    · rcases hmove.of_started hcoupling hstarted with hstarted | ⟨hpending, hqueued⟩
      · exact hb.started n hn hinput hstarted
      · exact (isReady_iff.mp (hcell.queued hpending hqueued).2).2
  rw [h.run, ← hid, h.activeEdges_eq hc hbefore.2]
  exact ⟨hbefore.1, fun e he ↦ h.statusOf_completed hc (hbefore.2 e he)⟩

theorem skipped_step (h : Evolves R db db') (hc : Coupled db) (hb : Branched db) {n' : NodeRun}
    (hn' : n' ∈ db'.nodeRuns) (hskipped : n'.status = .skipped) :
    activeEdges db'.run.graph.toWorkflowGraph db'.nodeRuns n'.nodeId = [] := by
  obtain ⟨n, hn, hid, hcoupling, hcell⟩ := h.mem_back hc hn'
  have hbefore : activeEdges db.run.graph.toWorkflowGraph db.nodeRuns n.nodeId = [] := by
    rcases hcell.move with heq | hmove
    · exact hb.skipped n hn ((congrArg Prod.fst heq).symm.trans hskipped)
    · rcases hmove.of_skipped hskipped with hbefore | hpending
      · exact hb.skipped n hn hbefore
      · exact (isUnreachable_iff.mp (hcell.skipped hpending hskipped).2).2.2.2
  rw [h.run, ← hid, h.activeEdges_eq hc (by simp [hbefore]), hbefore]

theorem cancelled_step (h : Evolves R db db') (hc : Coupled db) (hb : Branched db) {n' : NodeRun}
    (hn' : n' ∈ db'.nodeRuns) (hcancelled : n'.status = .cancelled) :
    db'.run.status = .failed ∨ db'.run.status = .cancelled := by
  obtain ⟨n, hn, hid, hcoupling, hcell⟩ := h.mem_back hc hn'
  rw [h.run]
  by_cases hbefore : n.status = .cancelled
  · exact hb.cancelled n hn hbefore
  rcases hcell.cancelled hcancelled hbefore with hended | ⟨hcreated, htask⟩
  · cases hstatus : db.run.status with
    | failed => exact .inl rfl
    | cancelled => exact .inr rfl
    | completed =>
        have hterminal : n.status.isTerminal = true := by
          rcases hb.completed hstatus n hn with h | h <;> rw [h] <;> rfl
        exact absurd ((hcell.frozen hcoupling hterminal).1.symm.trans hcancelled) hbefore
    | created | running | waiting | paused => simp [hstatus, WorkflowRunStatus.isTerminal] at hended
  · obtain ⟨t, ht⟩ := Option.isSome_iff_exists.mp htask
    have hmem := Table.mem_of_find? ht
    rw [(hb.created hcreated).1] at hmem
    cases hmem

theorem created_step (h : Evolves R db db') (hc : Coupled db) (hb : Branched db)
    (hcreated : db'.run.status = .created) :
    db'.tasks = [] ∧ ∀ n ∈ db'.nodeRuns, n.isInput = false → n.status = .pending := by
  rw [h.run] at hcreated
  obtain ⟨hnone, hpending⟩ := hb.created hcreated
  have hidle {n' : NodeRun} (hn' : n' ∈ db'.nodeRuns) :
      ∃ n ∈ db.nodeRuns, n.nodeId = n'.nodeId ∧ n'.isInput = n.isInput ∧ n'.status = n.status ∧
        taskOfNode db'.tasks n.nodeId = none := by
    obtain ⟨n, hn, hid, hcoupling, hcell⟩ := h.mem_back hc hn'
    have htask : taskOfNode db.tasks n.nodeId = none := by
      rw [hnone]
      rfl
    rw [htask] at hcell
    rcases hcell.move with heq | hmove
    · have hnone' : (taskOfNode db'.tasks n.nodeId).map ExecutionTask.status = none :=
        congrArg Prod.snd heq
      exact ⟨n, hn, hid, hcell.isInput_eq, congrArg Prod.fst heq, Option.map_eq_none_iff.mp hnone'⟩
    · have hbefore : n.status = .pending := by
        by_cases hinput : n.isInput = true
        · have hopen : n.status.isTerminal = false := hmove.open_of_coupling (htask ▸ hcoupling)
          simp [hb.input n hn hinput, NodeRunStatus.isTerminal] at hopen
        · exact hpending n hn (by simpa using hinput)
      rcases hmove.of_pending (htask ▸ hcoupling) hbefore with hmoved | hmoved | hmoved
      · exact absurd ((hcell.queued hbefore hmoved).1.symm.trans hcreated) (by decide)
      · exact absurd ((hcell.skipped hbefore hmoved).1.symm.trans hcreated) (by decide)
      · have hended := hcell.cancelled hmoved (by simp [hbefore])
        simp [hcreated, WorkflowRunStatus.isTerminal] at hended
  refine ⟨List.eq_nil_iff_forall_not_mem.mpr fun t ht ↦ ?_, fun n' hn' hinput ↦ ?_⟩
  · obtain ⟨n', hn'⟩ := h.keyed.exists_nodeRun (h.keyed.taskClosed t ht)
    obtain ⟨hmem, hkey⟩ := h.keyed.findNodeRun_eq_some_iff.mp hn'
    obtain ⟨n, -, hid, -, -, htask⟩ := hidle hmem
    rw [hid, hkey, h.keyed.taskOfNode_eq_some_iff.mpr ⟨ht, rfl⟩] at htask
    cases htask
  · obtain ⟨n, hn, -, hsame, hstatus, -⟩ := hidle hn'
    rw [hstatus]
    exact hpending n hn (by rwa [← hsame])

theorem parked_step (h : Evolves executed db db') (hc : Coupled db) (hb : Branched db)
    {n' : NodeRun} (hn' : n' ∈ db'.nodeRuns) (hwaiting : n'.status = .waiting) :
    n'.parks = true := by
  obtain ⟨n, hn, -, -, hcell⟩ := h.mem_back hc hn'
  have hbefore : n.status = .waiting ∨ n.status = .running := by
    rcases hcell.move with heq | hmove
    · exact .inl ((congrArg Prod.fst heq).symm.trans hwaiting)
    · exact hmove.of_waiting hwaiting
  rcases hbefore with hbefore | hrunning
  · rw [hcell.parks_eq]
    exact hb.parked n hn hbefore
  · exact (hcell.reported hrunning (.inr (.inr hwaiting))).1 hwaiting

theorem selected_step (h : Evolves executed db db') (hc : Coupled db) (hb : Branched db)
    {n' : NodeRun} (hn' : n' ∈ db'.nodeRuns) (hcondition : n'.isCondition = true)
    (hcompleted : n'.status = .completed) : n'.selects := by
  obtain ⟨n, hn, -, hcoupling, hcell⟩ := h.mem_back hc hn'
  by_cases hterminal : n.status.isTerminal = true
  · obtain ⟨hstatus, houtput⟩ := hcell.frozen hcoupling hterminal
    rw [NodeRun.selects, NodeRun.selectedBranch, houtput]
    exact hb.selected n hn (hcell.isCondition_eq ▸ hcondition) (hstatus.symm.trans hcompleted)
  · have hopen : n.status.isTerminal = false := by simpa using hterminal
    have hmoved : Move (cellStatus n (taskOfNode db.tasks n.nodeId))
        (cellStatus n' (taskOfNode db'.tasks n.nodeId)) := by
      rcases hcell.move with heq | hmove
      · have hstatus : n'.status = n.status := congrArg Prod.fst heq
        rw [← hstatus, hcompleted] at hopen
        cases hopen
      · exact hmove
    rcases hmoved.of_result hopen (.inl hcompleted) with hrunning | hwaiting
    · exact (hcell.reported hrunning (.inl hcompleted)).2 hcondition hcompleted
    · have hother := NodeRun.isCondition_of_parks (hb.parked n hn hwaiting)
      rw [hcell.isCondition_eq, hother] at hcondition
      cases hcondition

theorem cells (h : Evolves executed db db') (hc : Coupled db) (hb : Branched db) :
    Branched db' where
  input n' hn' hinput := by
    obtain ⟨n, hn, -, hcoupling, hcell⟩ := h.mem_back hc hn'
    have hcompleted := hb.input n hn (hcell.isInput_eq ▸ hinput)
    rw [(hcell.frozen hcoupling (by rw [hcompleted]; rfl)).1, hcompleted]
  started _ := hb.started_step h hc
  skipped _ := hb.skipped_step h hc
  cancelled _ := hb.cancelled_step h hc
  created := hb.created_step h hc
  parked _ := hb.parked_step h hc
  selected _ := hb.selected_step h hc
  completed hstatus n' hn' := by
    obtain ⟨n, hn, -, hcoupling, hcell⟩ := h.mem_back hc hn'
    have hdone := hb.completed (h.run ▸ hstatus) n hn
    have hterminal : n.status.isTerminal = true := by
      rcases hdone with h | h <;> rw [h] <;> rfl
    rwa [(hcell.frozen hcoupling hterminal).1]

theorem run (h : RunStep db db') (hb : Branched db) : Branched db' := by
  have hcancelled : ∀ n ∈ db.nodeRuns, n.status = .cancelled →
      db'.run.status = db.run.status := by
    intro n hn hcancelled
    rcases h.status with heq | hlegal
    · exact heq
    · rcases hb.cancelled n hn hcancelled with hstatus | hstatus <;> rw [hstatus] at hlegal <;>
        cases hlegal
  refine
    { input := by rw [h.nodeRuns]; exact hb.input
      started := by rw [h.nodeRuns, h.graph]; exact hb.started
      skipped := by rw [h.nodeRuns, h.graph]; exact hb.skipped
      cancelled := ?_
      created := ?_
      parked := by rw [h.nodeRuns]; exact hb.parked
      selected := by rw [h.nodeRuns]; exact hb.selected
      completed := ?_ }
  · intro n hn hstatus
    rw [h.nodeRuns] at hn
    rw [hcancelled n hn hstatus]
    exact hb.cancelled n hn hstatus
  · intro hcreated
    rw [h.nodeRuns, h.tasks]
    rcases h.status with heq | hlegal
    · exact hb.created (heq.symm.trans hcreated)
    · rw [hcreated] at hlegal
      cases hstatus : db.run.status <;> simp [hstatus, WorkflowRunStatus.transitions] at hlegal
  · intro hcompleted n hn
    rw [h.nodeRuns] at hn
    by_cases hsame : db'.run.status = db.run.status
    · exact hb.completed (hsame.symm.trans hcompleted) n hn
    · have hspec := deriveWorkflowState_spec db.run.graph.toWorkflowGraph db.nodeRuns
      rw [← h.derived hsame (.inr (.inl hcompleted)), hcompleted] at hspec
      have hterminal := hspec.2 n hn
      cases hstatus : n.status with
      | completed => exact .inl rfl
      | skipped => exact .inr rfl
      | failed => exact absurd hstatus (hspec.1 n hn)
      | cancelled => exact absurd (hcancelled n hn hstatus) hsame
      | _ => simp [hstatus, NodeRunStatus.isTerminal] at hterminal

theorem step (hc : Coupled db) (hb : Branched db) (h : MicroStep executed db db') :
    Branched db' := by
  cases h with
  | cells h => exact hb.cells h hc
  | run h => exact hb.run h

theorem created_run {id : String} {graph : ParsedGraph} {executionSnapshot input : Dict}
    (h : createRun env now id graph executionSnapshot input = .ok db) : Branched db := by
  obtain ⟨hstatus, -, htasks, hnodes⟩ := createRun_ok h
  have hkind : ∀ n ∈ db.nodeRuns, n.isInput = true ∧ n.isCondition = false ∧ n.status = .completed ∨
      n.isInput = false ∧ n.status = .pending := by
    rw [hnodes]
    intro n hn
    obtain ⟨node, -, rfl⟩ := List.mem_map.mp hn
    by_cases hinput : node.isInput = true
    · have htype : node.type = .data := by
        simp only [WorkflowNode.isInput, Bool.decide_and, Bool.and_eq_true, decide_eq_true_eq] at hinput
        exact hinput.1
      exact .inl ⟨hinput, by simp [NodeRun.isCondition, createNodeRun, htype],
        by simp [createNodeRun, hinput]⟩
    · exact .inr ⟨by simpa [NodeRun.isInput, createNodeRun, WorkflowNode.isInput] using hinput,
        by simp [createNodeRun, hinput]⟩
  refine
    { input := fun n hn h ↦ ?_
      started := fun n hn h h' ↦ ?_
      skipped := fun n hn h ↦ ?_
      cancelled := fun n hn h ↦ ?_
      created := fun _ ↦ ⟨htasks, fun n hn h ↦ ?_⟩
      parked := fun n hn h ↦ ?_
      selected := fun n hn h h' ↦ ?_
      completed := fun h ↦ by simp [hstatus] at h } <;>
    rcases hkind n hn with ⟨hinput, hcondition, hcompleted⟩ | ⟨hinput, hpending⟩ <;>
    simp_all [NodeRunStatus.isStarted]

end Branched

/-- What the operations of the Worker and the Runners report. -/
theorem RunOp.Executed.promised {op : RunOp} (hc : Coupled db) (h : op.Executed env db) :
    op.Promised executed db := by
  cases op with
  | complete now task workerId leaseToken output executionMetadata artifacts =>
      intro t n ht hn
      refine ⟨fun h ↦ by simp at h, fun hcondition _ ↦ ?_⟩
      simp only [NodeRun.isCondition, Bool.decide_and, Bool.and_eq_true, decide_eq_true_eq] at hcondition
      obtain ⟨isMatch, hmatch⟩ := h t n ht hn hcondition.1 hcondition.2
      simp only [Dict.get?] at hmatch
      simp only [NodeRun.selects, NodeRun.selectedBranch, Option.getD_some, hmatch]
      cases isMatch <;> simp [conditionOutput, Json.str?]
  | fail => exact fun t n ht hn ↦ ⟨fun h ↦ by simp at h, fun _ h ↦ by simp at h⟩
  | waitNode now task workerId leaseToken waitingReason waitingMetadata =>
      intro t n ht hn
      obtain ⟨at', config, hwaiting⟩ := h t n ht hn
      exact ⟨fun _ ↦ NodeRun.parks_of_waitingFor hwaiting, fun _ h ↦ by simp at h⟩
  | runnerSubmit now runnerId task leaseToken result =>
      intro t n ht hn n' hid htype hsubtype hstatus
      have hmem := (hc.findTask_eq_some_iff.mp ht).1
      have hkind := hc.capable _ n t hn (hc.taskOfNode_eq_some_iff.mpr ⟨hmem, rfl⟩) (h t ht)
      refine ⟨fun h ↦ ?_, fun hcondition _ ↦ ?_⟩
      · rcases hstatus with hstatus | hstatus <;> simp [hstatus] at h
      · rcases hkind with hkind | hkind <;> simp [NodeRun.isCondition, htype, hkind] at hcondition
  | _ => simp [Promised, executed]

theorem ReachableBy.branched (h : ReachableBy env (RunOp.Executed env) db) : Branched db :=
  h.invariant (fun _ _ hc hop ↦ hop.promised hc) Branched.created_run fun _ _ hc hb ↦ hb.step hc

/-! ## The branches of a COMPLETED run -/

/-- An execution follows the edges of completed nodes; a Condition contributes the
edge of its selected handle only. -/
def Follows (g : WorkflowGraph) (nodeRuns : List NodeRun) (e : WorkflowEdge) : Prop :=
  statusOf nodeRuns e.source = some .completed ∧
    ((g.node? e.source).any WorkflowNode.isCondition = true →
      e.sourceHandle = (findNodeRun nodeRuns e.source).bind NodeRun.selectedBranch)

/-- Reachable from the Data Input along the edges that an execution follows. -/
inductive Taken (g : WorkflowGraph) (nodeRuns : List NodeRun) : NodeId → Prop
  | input {node : WorkflowNode} (hnode : node ∈ g.nodes) (hinput : node.isInput = true) :
      Taken g nodeRuns node.id
  | edge {e : WorkflowEdge} (he : e ∈ g.edges) (hsource : Taken g nodeRuns e.source)
      (hfollows : Follows g nodeRuns e) : Taken g nodeRuns e.target

theorem Coupled.exists_node (hc : Coupled db) {id : NodeId} {n : NodeRun}
    (hn : findNodeRun db.nodeRuns id = some n) :
    ∃ node ∈ db.run.graph.nodes, node.id = id ∧ db.run.graph.node? id = some node ∧
      node.isInput = n.isInput ∧ node.isCondition = n.isCondition := by
  obtain ⟨hmem, rfl⟩ := hc.findNodeRun_eq_some_iff.mp hn
  obtain ⟨node, hnode, hid, htype, hsubtype⟩ := hc.kinds n hmem
  refine ⟨node, hnode, hid, ParsedGraph.node?_eq_some_iff.mpr ⟨hnode, hid⟩, ?_, ?_⟩
  · simp [WorkflowNode.isInput, NodeRun.isInput, htype, hsubtype]
  · simp [WorkflowNode.isCondition, NodeRun.isCondition, htype, hsubtype]

theorem statusOf_eq_some_iff {nodeRuns : List NodeRun} {id : NodeId} {s : NodeRunStatus} :
    statusOf nodeRuns id = some s ↔ ∃ n, findNodeRun nodeRuns id = some n ∧ n.status = s := by
  simp [statusOf]

/-- The active edges out of a completed node are the ones that an execution follows. -/
theorem Branched.edgeIsActive_iff (hb : Branched db) (hc : Coupled db) {e : WorkflowEdge}
    (hcompleted : statusOf db.nodeRuns e.source = some .completed) :
    edgeIsActive db.run.graph.toWorkflowGraph db.nodeRuns e = true ↔
      Follows db.run.graph.toWorkflowGraph db.nodeRuns e := by
  obtain ⟨n, hn, hstatus⟩ := statusOf_eq_some_iff.mp hcompleted
  obtain ⟨node, -, -, hnode, -, hkind⟩ := hc.exists_node hn
  have hmem := (hc.findNodeRun_eq_some_iff.mp hn).1
  rw [edgeIsActive_eq, sourceState, Follows, hnode, hn]
  simp only [hstatus, hcompleted, Option.any_some, hkind, Option.bind_some, true_and]
  by_cases hcondition : n.isCondition = true
  · rcases hb.selected n hmem hcondition hstatus with hselected | hselected <;>
      simp [activeFrom, hnode, hkind, hcondition, hselected]
  · cases hselected : n.selectedBranch <;> simp [activeFrom, hnode, hkind, hcondition]

/-- In a COMPLETED run the completed nodes are the taken ones. -/
theorem Branched.completed_iff (hb : Branched db) (hc : Coupled db)
    (hshape : Shaped db.run.graph.toWorkflowGraph) (hcompleted : db.run.status = .completed)
    (id : NodeId) : statusOf db.nodeRuns id = some .completed ↔
      Taken db.run.graph.toWorkflowGraph db.nodeRuns id := by
  constructor
  · -- backwards along the edges: the graph is acyclic, so this ends at the Data Input
    refine hshape.acyclic.induction (C := fun id ↦ statusOf db.nodeRuns id = some .completed →
      Taken db.run.graph.toWorkflowGraph db.nodeRuns id) id fun id ih hdone ↦ ?_
    obtain ⟨n, hn, hstatus⟩ := statusOf_eq_some_iff.mp hdone
    obtain ⟨hmem, rfl⟩ := hc.findNodeRun_eq_some_iff.mp hn
    obtain ⟨node, hnode, hid, -, hinput, -⟩ := hc.exists_node hn
    by_cases hstart : n.isInput = true
    · rw [← hid]
      exact .input hnode (hinput.trans hstart)
    · obtain ⟨hactive, hsources⟩ := hb.started n hmem (by simpa using hstart) (by rw [hstatus]; rfl)
      obtain ⟨e, he⟩ := List.exists_mem_of_ne_nil _ hactive
      have hsource := hsources e he
      obtain ⟨hin, hedge⟩ := List.mem_filter.mp he
      obtain ⟨hgraph, htarget⟩ := List.mem_filter.mp hin
      have htarget : e.target = n.nodeId := by simpa using htarget
      rw [← htarget]
      exact .edge hgraph (ih e.source ⟨e, hgraph, rfl, htarget⟩ hsource)
        ((hb.edgeIsActive_iff hc hsource).mp hedge)
  · intro htaken
    cases htaken with
    | input hnode hinput =>
        rename_i node
        obtain ⟨n, hn⟩ := hc.exists_nodeRun (List.mem_map_of_mem hnode)
        obtain ⟨hmem, hid⟩ := hc.findNodeRun_eq_some_iff.mp hn
        obtain ⟨node', hnode', hid', -, hsame, -⟩ := hc.exists_node hn
        have heq : node' = node := ParsedGraph.node_eq hnode' hnode hid'
        refine statusOf_eq_some_iff.mpr ⟨n, hn, hb.input n hmem ?_⟩
        rw [← hsame, heq, hinput]
    | edge he hsource hfollows =>
        rename_i e
        obtain ⟨n, hn⟩ := hc.exists_nodeRun (db.run.graph.edges_closed e he).2
        obtain ⟨hmem, hid⟩ := hc.findNodeRun_eq_some_iff.mp hn
        refine statusOf_eq_some_iff.mpr ⟨n, hn, ?_⟩
        rcases hb.completed hcompleted n hmem with hdone | hskipped
        · exact hdone
        · have hedge := (hb.edgeIsActive_iff hc hfollows.1).mpr hfollows
          have hactive : e ∈ activeEdges db.run.graph.toWorkflowGraph db.nodeRuns n.nodeId :=
            List.mem_filter.mpr ⟨List.mem_filter.mpr ⟨he, by simp [hid]⟩, hedge⟩
          rw [hb.skipped n hmem hskipped] at hactive
          cases hactive

theorem Branched.statusOf_skipped (hb : Branched db) (hc : Coupled db)
    (hcompleted : db.run.status = .completed) {id : NodeId} (hid : id ∈ db.run.graph.nodeIds)
    (hother : statusOf db.nodeRuns id ≠ some .completed) :
    statusOf db.nodeRuns id = some .skipped := by
  obtain ⟨n, hn⟩ := hc.exists_nodeRun hid
  rcases hb.completed hcompleted n (hc.findNodeRun_eq_some_iff.mp hn).1 with hdone | hdone
  · exact absurd (statusOf_eq_some_iff.mpr ⟨n, hn, hdone⟩) hother
  · exact statusOf_eq_some_iff.mpr ⟨n, hn, hdone⟩

theorem Coupled.statusOf_eq_none (hc : Coupled db) {id : NodeId}
    (hid : id ∉ db.run.graph.nodeIds) : statusOf db.nodeRuns id = none := by
  have hfind : findNodeRun db.nodeRuns id = none := by
    refine Table.find?_eq_none_iff.mpr fun n hn heq ↦ hid ?_
    rw [← heq]
    exact hc.mem_nodeIds hn
  rw [statusOf, hfind]
  rfl

/-- The Conditions that completed in both runs selected the same branch. -/
def SameOutcomes (nodeRuns nodeRuns' : List NodeRun) : Prop :=
  ∀ id n n', findNodeRun nodeRuns id = some n → findNodeRun nodeRuns' id = some n' →
    n.isCondition = true → n.status = .completed → n'.status = .completed →
      n.selectedBranch = n'.selectedBranch

/-- What one COMPLETED run takes, every other one with the same outcomes takes. -/
theorem Taken.of_sameOutcomes (hb' : Branched db') (hc : Coupled db) (hc' : Coupled db')
    (hgraph : db'.run.graph = db.run.graph) (hshape : Shaped db.run.graph.toWorkflowGraph)
    (hcompleted' : db'.run.status = .completed) (hsame : SameOutcomes db.nodeRuns db'.nodeRuns)
    {id : NodeId} (h : Taken db.run.graph.toWorkflowGraph db.nodeRuns id) :
    Taken db.run.graph.toWorkflowGraph db'.nodeRuns id := by
  induction h with
  | input hnode hinput => exact .input hnode hinput
  | edge he hsource hfollows ih =>
      rename_i e
      have hiff := hb'.completed_iff hc' (hgraph ▸ hshape) hcompleted' e.source
      rw [hgraph] at hiff
      refine .edge he ih ⟨hiff.mpr ih, fun hcondition ↦ ?_⟩
      obtain ⟨n, hn, hstatus⟩ := statusOf_eq_some_iff.mp hfollows.1
      obtain ⟨n', hn', hstatus'⟩ := statusOf_eq_some_iff.mp (hiff.mpr ih)
      obtain ⟨node, -, -, hnode, -, hkind⟩ := hc.exists_node hn
      have hselected := hfollows.2 hcondition
      rw [hnode, Option.any_some, hkind] at hcondition
      rw [hn] at hselected
      rw [hselected, hn']
      exact hsame e.source n n' hn hn' hcondition hstatus hstatus'

/-- Branch semantics.  A QUEUED node has only completed sources on its active edges.
A COMPLETED run has completed exactly the nodes reachable from the Data Input along
the edges of completed nodes, where a Condition contributes its selected edge only,
and has skipped all others; every run of the graph with the same outcomes of the
Conditions ends with the same statuses. -/
theorem completed_run_branches {context : ValidationContext}
    (haccepted : Accepted env context db.run.graph.toWorkflowGraph)
    (h : ReachableBy env (RunOp.Executed env) db) :
    (∀ id, statusOf db.nodeRuns id = some .queued →
        ∀ e ∈ activeEdges db.run.graph.toWorkflowGraph db.nodeRuns id,
          statusOf db.nodeRuns e.source = some .completed) ∧
      (db.run.status = .completed →
        (∀ id, statusOf db.nodeRuns id = some .completed ↔
            Taken db.run.graph.toWorkflowGraph db.nodeRuns id) ∧
          (∀ id ∈ db.run.graph.nodeIds, ¬Taken db.run.graph.toWorkflowGraph db.nodeRuns id →
            statusOf db.nodeRuns id = some .skipped) ∧
          ∀ env' db', ReachableBy env' (RunOp.Executed env') db' →
            db'.run.graph = db.run.graph → db'.run.status = .completed →
              SameOutcomes db.nodeRuns db'.nodeRuns →
                ∀ id, statusOf db'.nodeRuns id = statusOf db.nodeRuns id) := by
  have hb := h.branched
  have hc := h.coupled
  have hshape := haccepted.shaped
  refine ⟨fun id hqueued e he ↦ ?_, fun hcompleted ↦ ?_⟩
  · obtain ⟨n, hn, hstatus⟩ := statusOf_eq_some_iff.mp hqueued
    obtain ⟨hmem, rfl⟩ := hc.findNodeRun_eq_some_iff.mp hn
    have hother : n.isInput = false := by
      by_contra hinput
      have := hb.input n hmem (by simpa using hinput)
      simp [hstatus] at this
    exact (hb.started n hmem hother (by rw [hstatus]; rfl)).2 e he
  have hiff := hb.completed_iff hc hshape hcompleted
  refine ⟨hiff, fun id hid hother ↦
    hb.statusOf_skipped hc hcompleted hid (mt (hiff id).mp hother), ?_⟩
  intro env' db' h' hgraph hcompleted' hsame id
  have hb' := h'.branched
  have hc' := h'.coupled
  have hiff' := hb'.completed_iff hc' (hgraph ▸ hshape) hcompleted' id
  rw [hgraph] at hiff'
  have hsame' : SameOutcomes db'.nodeRuns db.nodeRuns := by
    intro id n' n hn' hn hcondition hstatus' hstatus
    obtain ⟨node', -, -, hnode', -, hkind'⟩ := hc'.exists_node hn'
    obtain ⟨node, -, -, hnode, -, hkind⟩ := hc.exists_node hn
    rw [hgraph, hnode] at hnode'
    rw [← hkind', ← Option.some.inj hnode', hkind] at hcondition
    exact (hsame id n n' hn hn' hcondition hstatus hstatus').symm
  have htaken : Taken db.run.graph.toWorkflowGraph db'.nodeRuns id ↔
      Taken db.run.graph.toWorkflowGraph db.nodeRuns id := by
    refine ⟨fun htaken ↦ ?_, .of_sameOutcomes hb' hc hc' hgraph hshape hcompleted' hsame⟩
    rw [← hgraph] at htaken ⊢
    exact .of_sameOutcomes hb hc' hc hgraph.symm (hgraph ▸ hshape) hcompleted hsame' htaken
  by_cases hid : id ∈ db.run.graph.nodeIds
  · by_cases hdone : statusOf db.nodeRuns id = some .completed
    · rw [hdone, hiff', htaken]
      exact (hiff id).mp hdone
    · rw [hb.statusOf_skipped hc hcompleted hid hdone]
      refine hb'.statusOf_skipped hc' hcompleted' (hgraph ▸ hid) fun hdone' ↦ hdone ?_
      exact (hiff id).mpr (htaken.mp (hiff'.mp hdone'))
  · rw [hc.statusOf_eq_none hid, hc'.statusOf_eq_none (hgraph ▸ hid)]

/-! ## A concrete run -/

/-- A Condition between two transforms that the Data Output joins. -/
def branchGraph : ParsedGraph where
  nodes :=
    [{ id := "in", type := .data, subtype := "input", name := "Input"
       config := [("schema", .obj [("type", .str "object")])] },
      { id := "check", type := .logic, subtype := "condition", name := "Check"
        config :=
          [("expression", .obj [("left", .str "a"), ("operator", .str "=="), ("right", .str "a")])] },
      { id := "yes", type := .data, subtype := "transform", name := "Yes"
        config := [("mappings", .obj [])] },
      { id := "no", type := .data, subtype := "transform", name := "No"
        config := [("mappings", .obj [])] },
      { id := "out", type := .data, subtype := "output", name := "Output"
        config := [("output_mapping", .obj [])] }]
  edges :=
    [{ id := "e1", source := "in", target := "check" },
      { id := "e2", source := "check", target := "yes", sourceHandle := some "true" },
      { id := "e3", source := "check", target := "no", sourceHandle := some "false" },
      { id := "e4", source := "yes", target := "out" },
      { id := "e5", source := "no", target := "out" }]
  nodeIds_nodup := by decide
  edges_closed := by decide

theorem accepted_branchGraph : Accepted plainEnv {} branchGraph.toWorkflowGraph :=
  accepted_of_silent (by decide) (by decide) (by rfl) rfl rfl rfl rfl

def branchRun : RunRecord where
  run := { id := "run", graph := branchGraph }
  nodeRuns := branchGraph.nodes.map (createNodeRun [])

theorem createRun_branchRun :
    createRun plainEnv 0 "run" branchGraph [] [] = .ok branchRun :=
  rfl

/-- One task is claimed, completed, and the run reconciled. -/
def roundOps (task : TaskId) : List RunOp :=
  [.claim 0 "w" "t" 60 none true task,
    .complete 0 task "w" "t" (conditionOutput true) [] [], .reconcile 0]

def branchOps : List RunOp :=
  [.startRun 0, .schedule 0] ++ roundOps 0 ++ roundOps 1 ++ roundOps 2

/-- The branch that the Condition selects runs, the other one is skipped. -/
theorem completed_run_branches_branchRun :
    ∃ db, execAll plainEnv branchOps branchRun = .ok db ∧ db.run.status = .completed ∧
      statusOf db.nodeRuns "no" = some .skipped ∧
        ∀ id, statusOf db.nodeRuns id = some .completed ↔
          Taken branchGraph.toWorkflowGraph db.nodeRuns id := by
  obtain ⟨db, hdb, hstatus, hgraph, hskipped⟩ : ∃ db, execAll plainEnv branchOps branchRun = .ok db ∧
      db.run.status = .completed ∧ db.run.graph = branchGraph ∧
        statusOf db.nodeRuns "no" = some .skipped :=
    ⟨_, rfl, rfl, rfl, rfl⟩
  have hops : ∀ op ∈ branchOps, ∀ db, op.Executed plainEnv db := by
    simp [branchOps, roundOps, RunOp.Executed]
  have hreachable : ReachableBy plainEnv (RunOp.Executed plainEnv) db :=
    .execAll hops (.created createRun_branchRun) hdb
  have haccepted : Accepted plainEnv {} db.run.graph.toWorkflowGraph := by
    rw [hgraph]
    exact accepted_branchGraph
  have hbranches := ((completed_run_branches haccepted hreachable).2 hstatus).1
  rw [hgraph] at hbranches
  exact ⟨db, hdb, hstatus, hskipped, hbranches⟩

end Relayvia
