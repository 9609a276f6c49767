import Mathlib.Data.List.Count
import Relayvia.Waiting

/-!
# Progress of a RUNNING run

A reconciliation that leaves the run RUNNING leaves a live task or a WAITING node
behind, unless the scheduling loop passed over a ready node whose references it
could not resolve: that node stays PENDING.
-/

namespace Relayvia

variable {R : Rights} {env : Env} {now : Time} {db db' : RunRecord} {g : WorkflowGraph}
  {nodeRuns : List NodeRun} {id : NodeId} {s s' : Session}

/-! ## Skipping to the end -/

/-- No inactive branch is left. -/
def Skipped (g : WorkflowGraph) (nodeRuns : List NodeRun) : Prop :=
  ∀ n ∈ nodeRuns, isUnreachable g nodeRuns n = false

/-- A pass that finds an inactive branch leaves fewer PENDING nodes. -/
theorem skipPass_pending_lt (h : ∃ n ∈ nodeRuns, isUnreachable g nodeRuns n = true) :
    (skipPass g now nodeRuns).countP (·.status = .pending) <
      nodeRuns.countP (·.status = .pending) := by
  have hleft : (skipPass g now nodeRuns).countP (·.status = .pending) =
      (nodeRuns.filter (·.status = .pending)).countP (!isUnreachable g nodeRuns ·) := by
    rw [skipPass, List.countP_map, List.countP_filter]
    refine List.countP_congr fun n _ ↦ ?_
    by_cases hskip : isUnreachable g nodeRuns n = true <;> simp [hskip]
  obtain ⟨n, hn, hskip⟩ := h
  have hpending := (isUnreachable_iff.mp hskip).2.1
  rw [hleft, List.countP_eq_length_filter (l := nodeRuns), List.countP_lt_length_iff]
  exact ⟨n, List.mem_filter.mpr ⟨hn, by simpa using hpending⟩, by simp [hskip]⟩

theorem skipLoop_skipped {k : ℕ} (hk : nodeRuns.countP (·.status = .pending) < k) :
    Skipped g (skipLoop g now k nodeRuns) := by
  induction k generalizing nodeRuns with
  | zero => omega
  | succ k ih =>
      rw [skipLoop]
      split
      · next hany =>
        have hpass : (skipPass g now nodeRuns).countP (·.status = .pending) <
            nodeRuns.countP (·.status = .pending) := skipPass_pending_lt (List.any_eq_true.mp hany)
        exact ih (by omega)
      · next hnone => simpa [Skipped] using hnone

theorem skipInactive_skipped (s : Session) :
    Skipped s.run.graph.toWorkflowGraph (skipInactive now s).nodeRuns :=
  skipLoop_skipped (Nat.lt_succ_of_le List.countP_le_length)

theorem Skipped.skipLoop_eq (h : Skipped g nodeRuns) (k : ℕ) :
    skipLoop g now k nodeRuns = nodeRuns := by
  cases k with
  | zero => rfl
  | succ k => rw [skipLoop, if_neg (by simpa [Skipped] using h)]

/-! ## Scheduling twice -/

theorem sourceState_unfinished {status : NodeRunStatus} (h : statusOf nodeRuns id = some status)
    (hskipped : status ≠ .skipped) (hcompleted : status ≠ .completed) :
    sourceState nodeRuns id = .unfinished := by
  obtain ⟨n, hn, rfl⟩ := statusOf_eq_some_iff.mp h
  simp [sourceState, hn, hskipped, hcompleted]

namespace Scheduled

variable (h : Scheduled R env (readyNodes s) s s')
include h

/-- The loop queues a ready node or leaves its row alone. -/
theorem row (id : NodeId) :
    (id ∈ readyNodes s ∧ dispatches env s.toRunRecord id = true ∧
        statusOf s'.nodeRuns id = some .queued) ∨
      findNodeRun s'.nodeRuns id = findNodeRun s.nodeRuns id := by
  by_cases hid : id ∈ readyNodes s ∧ dispatches env s.toRunRecord id = true
  · exact .inl ⟨hid.1, hid.2, h.queued id hid.1 hid.2⟩
  · exact .inr (h.kept id fun hmem ↦ by simpa [hmem] using hid)

theorem sourceState_eq (id : NodeId) :
    sourceState s'.nodeRuns id = sourceState s.nodeRuns id := by
  rcases h.row id with ⟨hready, -, hqueued⟩ | hkept
  · have hpending := (isReady_iff.mp (mem_readyNodes.mp hready).2).1
    rw [sourceState_unfinished hqueued (by decide) (by decide),
      sourceState_unfinished hpending (by decide) (by decide)]
  · rw [sourceState, hkept, sourceState]

theorem run : s'.run = s.run := by
  have hrun : s'.settled.run = s.settled.run := CellSteps.run h.steps
  exact hrun

/-- The nodes that are still ready are the ones that the loop passed over. -/
theorem mem_readyNodes_iff : id ∈ readyNodes s' ↔
    id ∈ readyNodes s ∧ dispatches env s.toRunRecord id = false := by
  rcases h.row id with ⟨-, hdispatches, hqueued⟩ | hkept
  · constructor
    · intro hready
      have hpending := (isReady_iff.mp (mem_readyNodes.mp hready).2).1
      simp [hqueued] at hpending
    · rintro ⟨-, hnone⟩
      simp [hdispatches] at hnone
  · have hsame : isReady s'.run.graph.toWorkflowGraph s'.nodeRuns id =
        isReady s.run.graph.toWorkflowGraph s.nodeRuns id := by
      rw [h.run]
      exact isReady_congr (by rw [statusOf, hkept, statusOf]) fun e _ ↦ h.sourceState_eq e.source
    have hiff : id ∈ readyNodes s' ↔ id ∈ readyNodes s := by
      rw [mem_readyNodes, mem_readyNodes, hsame, h.run]
    rw [hiff]
    refine ⟨fun hready ↦ ⟨hready, ?_⟩, And.left⟩
    by_contra hdispatches
    have hqueued := h.queued id hready (by simpa using hdispatches)
    have hpending := (isReady_iff.mp (mem_readyNodes.mp hready).2).1
    rw [statusOf, hkept, ← statusOf, hpending] at hqueued
    cases hqueued

theorem skipped (hc : Coupled s'.settled)
    (hskipped : Skipped s.run.graph.toWorkflowGraph s.nodeRuns) :
    Skipped s'.run.graph.toWorkflowGraph s'.nodeRuns := by
  intro n hn
  by_contra hskip
  obtain ⟨hid, hpending, hincoming, hactive⟩ := isUnreachable_iff.mp (by simpa using hskip)
  have hfind : findNodeRun s'.nodeRuns n.nodeId = some n :=
    hc.findNodeRun_eq_some_iff.mpr ⟨hn, rfl⟩
  rcases h.row n.nodeId with ⟨-, -, hqueued⟩ | hkept
  · simp [statusOf, hfind, hpending] at hqueued
  · rw [hkept] at hfind
    rw [h.run] at hid hincoming hactive
    rw [activeEdges_congr fun e _ ↦ h.sourceState_eq e.source] at hactive
    have hnone := hskipped n (Table.mem_of_find? hfind)
    rw [isUnreachable_iff.mpr ⟨hid, hpending, hincoming, hactive⟩] at hnone
    cases hnone

end Scheduled

/-- What is ready right after a scheduling does not resolve. -/
theorem scheduleReadyNodes_passed {s₁ s₂ : Session} (hc : Coupled s.settled)
    (hrunning : s.run.status = .running) (h : scheduleReadyNodes env now s = .ok s₁)
    (hrun : s₂.run = s₁.run) (hnodes : s₂.nodeRuns = s₁.nodeRuns) :
    (skipInactive now s₂).nodeRuns = s₂.nodeRuns ∧
      ∀ id ∈ readyNodes (skipInactive now s₂),
        dispatches env (skipInactive now s₂).toRunRecord id = false := by
  have hfirst := (scheduleReadyNodes_running Rights.all hc hrunning).of_ok h
  have hskip : CellSteps Rights.all s.settled (skipInactive now s).settled :=
    skipInactive_steps hc hrunning
  have hc₁ : Coupled s₁.settled := CellSteps.coupled hfirst.steps (hskip.coupled hc)
  have hskipped : Skipped s₂.run.graph.toWorkflowGraph s₂.nodeRuns := by
    rw [hrun, hnodes]
    exact hfirst.skipped hc₁ (skipInactive_skipped s)
  have hsame : (skipInactive now s₂).nodeRuns = s₂.nodeRuns := hskipped.skipLoop_eq _
  refine ⟨hsame, fun id hid ↦ ?_⟩
  have hready : readyNodes (skipInactive now s₂) = readyNodes s₁ := by
    rw [readyNodes, hsame, hnodes, readyNodes, ← hrun]
    rfl
  rw [hready, hfirst.mem_readyNodes_iff] at hid
  rw [← hfirst.dispatches_eq] at hid
  have hrun' : (skipInactive now s₂).run = s₁.run := hrun
  rw [dispatches_congr hrun' (by rw [hsame, hnodes]) id]
  exact hid.2

/-- A second scheduling right after the first one changes no NodeRun. -/
theorem scheduleReadyNodes_twice {s₁ s₂ s₂' : Session} (hc : Coupled s.settled)
    (hrunning : s.run.status = .running) (h : scheduleReadyNodes env now s = .ok s₁)
    (hc₂ : Coupled s₂.settled) (hrun : s₂.run = s₁.run) (hnodes : s₂.nodeRuns = s₁.nodeRuns)
    (h' : scheduleReadyNodes env now s₂ = .ok s₂') : s₂'.nodeRuns = s₁.nodeRuns := by
  have hrunning₂ : s₂.run.status = .running := by
    rw [hrun, ((scheduleReadyNodes_running Rights.all hc hrunning).of_ok h).run]
    exact hrunning
  have hsecond := (scheduleReadyNodes_running Rights.all hc₂ hrunning₂).of_ok h'
  obtain ⟨hsame, hpassed⟩ := scheduleReadyNodes_passed hc hrunning h hrun hnodes
  rw [hsecond.idle hpassed, hsame, hnodes]

/-! ## What a reconciliation passes over -/

/-- The session in which a reconciliation looks for ready nodes once it knows that the
run is RUNNING. -/
def runningStage (env : Env) (now : Time) (db : RunRecord) : Session :=
  skipInactive now
    { db with
      run := { db.run with status := .running }
      nodeRuns := db.nodeRuns.map (promoteWait env now) }

/-- The ready nodes at which the scheduling loop says `continue`. -/
def unresolvedNodes (env : Env) (now : Time) (db : RunRecord) : List NodeId :=
  (readyNodes (runningStage env now db)).filter
    fun id ↦ ¬dispatches env (runningStage env now db).toRunRecord id

@[simp] theorem recordDerived_running_nodeRuns (current : WorkflowRunStatus) :
    (recordDerived now current .running s).nodeRuns = s.nodeRuns := by
  unfold recordDerived
  split <;> rfl

namespace ReconcileTrace

variable {s₁ s₂ : Session}

/-- A reconciliation that leaves the run RUNNING schedules the promoted rows of the
RUNNING run, and its NodeRuns are the ones that this scheduling leaves. -/
theorem scheduled (h : ReconcileTrace env now db s₁ s₂ .running db') (hc : Coupled db) :
    ∃ s s', s.run = { db.run with status := .running } ∧
      s.nodeRuns = db.nodeRuns.map (promoteWait env now) ∧ Coupled s.settled ∧
        scheduleReadyNodes env now s = .ok s' ∧ db'.nodeRuns = s'.nodeRuns ∧
          db'.run = { s'.run with waitingReason := none } ∧
          (db.run.status = .running ∧ s' = s₂ ∨
            db.run.status ≠ .running ∧ s₂.nodeRuns = s.nodeRuns) := by
  obtain ⟨hrun, -, -, hnodes⟩ := promoteDueWaits_ok h.promote
  obtain ⟨finishedAt, s', rfl, htime, hfinish⟩ := h.finish
  obtain rfl := htime rfl
  have hc₂ := h.derived_coupled hc s₂.run.finishedAt
  have hc₃ : Coupled (recordDerived now db.run.status .running
      { s₂ with run := { s₂.run with status := .running } }).settled :=
    recordDerived_coupled hc₂ rfl
  obtain ⟨s₄, rfl, ⟨hother, -⟩ | ⟨-, hschedule⟩⟩ := reconcileFinish_ok hfinish
  · exact absurd rfl hother
  have hrun₂ := h.scheduled_run hc
  by_cases hrunning : db.run.status = .running
  · have hsame : ({ s₂.run with status := .running } : WorkflowRun) = s₂.run := by
      rw [← hrunning, ← hrun₂]
    refine ⟨s₁, s₂, ?_, hnodes, h.promoted_coupled hc, h.schedule, ?_, ?_, .inl ⟨hrunning, rfl⟩⟩
    · rw [← hrun₂, hsame, hrun₂, hrun]
    · exact scheduleReadyNodes_twice (h.promoted_coupled hc) (by rw [hrun, hrunning]) h.schedule hc₃
        (by rw [recordDerived_run]; exact hsame) (by simp) hschedule
    · have hsecond := (scheduleReadyNodes_running Rights.all hc₃ (by rw [recordDerived_run])).of_ok
        hschedule
      have hkept : s₄.run = s₂.run := by
        rw [hsecond.run]
        exact (recordDerived_run _ _).trans hsame
      rw [← hkept]
      rfl
  · have hidle := h.schedule
    rw [scheduleReadyNodes_idle (by rwa [hrun])] at hidle
    cases hidle
    exact ⟨_, s₄, by rw [recordDerived_run, hrun], by simp [hnodes], hc₃, hschedule, rfl, rfl,
      .inr ⟨hrunning, by simp⟩⟩

end ReconcileTrace

/-- The NodeRuns of a reconciliation that leaves the run RUNNING. -/
structure ReconciledRows (env : Env) (now : Time) (db db' : RunRecord) : Prop where
  skipped : Skipped db.run.graph.toWorkflowGraph db'.nodeRuns
  ready : ∀ id, id ∈ findReadyNodes db.run.graph.toWorkflowGraph db'.nodeRuns ↔
    id ∈ unresolvedNodes env now db
  kept : ∀ id n, findNodeRun (db.nodeRuns.map (promoteWait env now)) id = some n →
    n.status ≠ .pending → findNodeRun db'.nodeRuns id = some n
  rows : ∀ n ∈ db'.nodeRuns,
    n.status = .queued ∨ n.status = .skipped ∨ n ∈ db.nodeRuns.map (promoteWait env now)

theorem ReconcileTrace.rows {s₁ s₂ : Session} (h : ReconcileTrace env now db s₁ s₂ .running db')
    (hc : Coupled db) : ReconciledRows env now db db' := by
  obtain ⟨s, s', hrun, hnodes, hcs, hschedule, hrows, -, -⟩ := h.scheduled hc
  have hrunning : s.run.status = .running := by rw [hrun]
  have hscheduled := (scheduleReadyNodes_running Rights.all hcs hrunning).of_ok hschedule
  have hskip : CellSteps Rights.all s.settled (skipInactive now s).settled :=
    skipInactive_steps hcs hrunning
  have hcs' : Coupled s'.settled := CellSteps.coupled hscheduled.steps (hskip.coupled hcs)
  have hstage : (skipInactive now s).run = (runningStage env now db).run ∧
      (skipInactive now s).nodeRuns = (runningStage env now db).nodeRuns := by
    simp [skipInactive, runningStage, hrun, hnodes]
  have hgraph : s'.run.graph = db.run.graph := by
    rw [hscheduled.run, hstage.1]
    rfl
  refine ⟨?_, fun id ↦ ?_, fun id n hn hpending ↦ ?_, fun n hn ↦ ?_⟩
  · rw [← hgraph, hrows]
    exact hscheduled.skipped hcs' (skipInactive_skipped s)
  · have hready : readyNodes (skipInactive now s) = readyNodes (runningStage env now db) := by
      rw [readyNodes, hstage.1, hstage.2]
    have hiff : id ∈ readyNodes s' ↔ id ∈ readyNodes (skipInactive now s) ∧
        dispatches env (skipInactive now s).toRunRecord id = false := hscheduled.mem_readyNodes_iff
    rw [readyNodes, hgraph, ← hrows] at hiff
    rw [hiff, hready, dispatches_congr hstage.1 (by rw [hstage.2]) id, unresolvedNodes,
      List.mem_filter]
    simp
  · have hafter : findNodeRun (skipInactive now s).nodeRuns id = some n :=
      skipLoop_kept _ (hnodes ▸ hn) hpending
    rw [hrows]
    rcases hscheduled.row id with ⟨hready, -, -⟩ | hkept
    · have hstatus := (isReady_iff.mp (mem_readyNodes.mp hready).2).1
      rw [statusOf, hafter] at hstatus
      simp [hpending] at hstatus
    · rw [hkept, hafter]
  · rw [hrows] at hn
    have hfind : findNodeRun s'.nodeRuns n.nodeId = some n :=
      hcs'.findNodeRun_eq_some_iff.mpr ⟨hn, rfl⟩
    rcases hscheduled.row n.nodeId with ⟨-, -, hqueued⟩ | hkept
    · left
      simpa [statusOf, hfind] using hqueued
    · rw [hkept] at hfind
      rw [← hnodes]
      exact .inr ((skipLoop_status _ _ _ n (Table.mem_of_find? hfind)).symm)

theorem ReconcileTrace.nothing_failed {s₁ s₂ : Session}
    (h : ReconcileTrace env now db s₁ s₂ .running db') (hc : Coupled db) :
    ∀ n ∈ db'.nodeRuns, n.status ≠ .failed := by
  have hspec := deriveWorkflowState_spec s₂.run.graph.toWorkflowGraph s₂.nodeRuns
  rw [← h.derive] at hspec
  intro n hn
  obtain ⟨s, s', -, hnodes, -, -, hrows, -, ⟨-, rfl⟩ | ⟨-, hsame⟩⟩ := h.scheduled hc
  · exact hspec.1 n (hrows ▸ hn)
  · rcases (h.rows hc).rows n hn with h' | h' | hmem
    · simp [h']
    · simp [h']
    · exact hspec.1 n (by rwa [hsame, hnodes])

/-! ## Live work -/

/-- A PENDING node follows the Data Input when the run is new, and a parked node when
the run waits. -/
theorem WaitsIdly.anchored (hw : WaitsIdly db) (hc : Coupled db)
    (hshape : Shaped db.run.graph.toWorkflowGraph)
    (hstatus : db.run.status = .created ∨ db.run.status = .waiting) : Anchored db := by
  rcases hstatus with hcreated | hwaiting
  · obtain ⟨entry, hentry⟩ := hshape.entry
    have hmem : entry ∈ db.run.graph.entryNodeIds := by simp [hentry]
    obtain ⟨node, hnode, rfl⟩ := List.mem_map.mp hmem
    obtain ⟨hnode, hinput⟩ := List.mem_filter.mp hnode
    obtain ⟨e, hout⟩ := List.exists_mem_of_ne_nil _ (hshape.outgoing node hnode (.inl hinput))
    obtain ⟨he, hfrom⟩ := List.mem_filter.mp hout
    have hfrom : e.source = node.id := by simpa using hfrom
    obtain ⟨source, hsource⟩ := hc.exists_nodeRun (db.run.graph.edges_closed e he).1
    obtain ⟨target, htarget⟩ := hc.exists_nodeRun (db.run.graph.edges_closed e he).2
    obtain ⟨smem, sid⟩ := hc.findNodeRun_eq_some_iff.mp hsource
    obtain ⟨tmem, tid⟩ := hc.findNodeRun_eq_some_iff.mp htarget
    obtain ⟨snode, hsnode, hsid, -, hsinput, -⟩ := hc.exists_node hsource
    have hstart : source.isInput = true := by
      rw [← hsinput, ParsedGraph.node_eq hsnode hnode (hsid.trans hfrom), hinput]
    have hplain : source.isCondition = false := by
      have htype : source.nodeType = .data := by
        simp only [NodeRun.isInput, Bool.decide_and, Bool.and_eq_true, decide_eq_true_eq] at hstart
        exact hstart.1
      simp [NodeRun.isCondition, htype]
    exact ⟨e, he, source, target, hsource, hplain, by rw [hw.input source smem hstart]; rfl,
      htarget, (hw.created hcreated).2 target tmem (hc.isInput_of_target hshape he htarget)⟩
  · exact (hw.idle hshape hwaiting).anchored

theorem promoteWait_started {n : NodeRun} (h : n.status.isStarted = true) :
    (promoteWait env now n).status.isStarted = true := by
  unfold promoteWait
  split
  · rfl
  · exact h

theorem promoteWait_isCondition (n : NodeRun) :
    (promoteWait env now n).isCondition = n.isCondition := by
  unfold promoteWait
  split <;> rfl

theorem promoteWait_nodeId (n : NodeRun) : (promoteWait env now n).nodeId = n.nodeId := by
  unfold promoteWait
  split <;> rfl

theorem promoteWait_pending {n : NodeRun} (h : n.status = .pending) :
    (promoteWait env now n).status = .pending := by
  unfold promoteWait
  split
  · next helapsed => exact absurd (h.symm.trans (waitElapsed_waiting helapsed)) (by decide)
  · exact h

/-- A reconciliation that leaves the run RUNNING leaves an open node. -/
theorem ReconcileTrace.exists_open {s₁ s₂ : Session}
    (h : ReconcileTrace env now db s₁ s₂ .running db') (hc : Coupled db) (hw : WaitsIdly db)
    (hshape : Shaped db.run.graph.toWorkflowGraph) (hgraph : db'.run.graph = db.run.graph)
    (hc' : Coupled db') (hb' : Branched db')
    (hactive : db.run.status = .created ∨ db.run.status = .running ∨ db.run.status = .waiting) :
    ∃ n ∈ db'.nodeRuns, n.status.isTerminal = false := by
  have hspec := deriveWorkflowState_spec s₂.run.graph.toWorkflowGraph s₂.nodeRuns
  rw [← h.derive] at hspec
  by_cases hrunning : db.run.status = .running
  · obtain ⟨s, s', -, -, -, -, hrows, -, ⟨-, rfl⟩ | ⟨hother, -⟩⟩ := h.scheduled hc
    · rw [hrows]
      refine hspec.2.resolve_left fun hempty ↦ ?_
      obtain ⟨entry, hentry⟩ := hshape.entry
      have hmem : entry ∈ db.run.graph.entryNodeIds := by simp [hentry]
      obtain ⟨node, hnode, rfl⟩ := List.mem_map.mp hmem
      have hid := hc'.nodeIds
      rw [hrows, hempty, hgraph] at hid
      have hnode : node.id ∈ db.run.graph.nodeIds := List.mem_map_of_mem (List.mem_filter.mp hnode).1
      rw [← hid] at hnode
      cases hnode
    · exact absurd hrunning hother
  · have hanchored := hw.anchored hc hshape (by simpa [hrunning] using hactive)
    obtain ⟨e, he, source, target, hsource, hcondition, hstarted, htarget, hpending⟩ := hanchored
    have hpromoted {id : NodeId} {n : NodeRun} (hn : findNodeRun db.nodeRuns id = some n) :
        findNodeRun (db.nodeRuns.map (promoteWait env now)) id = some (promoteWait env now n) :=
      (Table.find?_map promoteWait_nodeId _ _).trans (congrArg (Option.map _) hn)
    have hstarted' : (promoteWait env now source).status.isStarted = true :=
      promoteWait_started hstarted
    have hsource' := (h.rows hc).kept _ _ (hpromoted hsource) fun h ↦ by
      simp [h, NodeRunStatus.isStarted] at hstarted'
    obtain ⟨n, hn⟩ := hc'.exists_nodeRun (hgraph ▸ (db.run.graph.edges_closed e he).2)
    obtain ⟨hmem, hid⟩ := hc'.findNodeRun_eq_some_iff.mp hn
    refine ⟨n, hmem, ?_⟩
    rcases (h.rows hc).rows n hmem with hqueued | hskipped | hrow
    · rw [hqueued]
      rfl
    · exact absurd hskipped (hb'.not_skipped hc' (hgraph ▸ he) hsource' hstarted'
        ((promoteWait_isCondition source).trans hcondition) hn)
    · have hkeys : ((db.nodeRuns.map (promoteWait env now)).map NodeRun.nodeId).Nodup := by
        rw [Table.map_key_map promoteWait_nodeId]
        exact hc.nodeIds_nodup
      have hsame := (Table.find?_eq_some_iff hkeys).mpr ⟨hrow, hid⟩
      rw [show Table.find? NodeRun.nodeId e.target _ = _ from hpromoted htarget] at hsame
      rw [← Option.some.inj hsame, promoteWait_pending hpending]
      rfl

/-- When nothing failed, nothing is ready and no inactive branch is left, an open node
of a RUNNING run is in flight or waits, or is behind one that does. -/
theorem Branched.exists_busy (hb : Branched db) (hc : Coupled db)
    (hshape : Shaped db.run.graph.toWorkflowGraph) (hrunning : db.run.status = .running)
    (hfailed : ∀ n ∈ db.nodeRuns, n.status ≠ .failed)
    (hskipped : Skipped db.run.graph.toWorkflowGraph db.nodeRuns)
    (hready : findReadyNodes db.run.graph.toWorkflowGraph db.nodeRuns = [])
    (hopen : ∃ n ∈ db.nodeRuns, n.status.isTerminal = false) :
    ∃ n ∈ db.nodeRuns, n.status.isTerminal = false ∧ n.status ≠ .pending := by
  by_contra hidle
  push Not at hidle
  -- forwards along the edges: the sources of a node have ended, so it is ready or inactive
  have hended (id : NodeId) : statusOf db.nodeRuns id ≠ some .pending := by
    refine hshape.acyclic.induction (C := fun id ↦ statusOf db.nodeRuns id ≠ some .pending) id
      fun id ih hpending ↦ ?_
    obtain ⟨n, hn, hstatus⟩ := statusOf_eq_some_iff.mp hpending
    obtain ⟨hmem, rfl⟩ := hc.findNodeRun_eq_some_iff.mp hn
    obtain ⟨node, hnode, hid, -, hinput, -⟩ := hc.exists_node hn
    have hother : n.isInput = false := by
      by_contra hstart
      have hcompleted := hb.input n hmem (by simpa using hstart)
      simp [hstatus] at hcompleted
    have hincoming := hshape.incoming node hnode (hinput.trans hother)
    rw [hid] at hincoming
    have hidMem := hc.mem_nodeIds hmem
    have hactive : activeEdges db.run.graph.toWorkflowGraph db.nodeRuns n.nodeId ≠ [] := by
      intro hnone
      have hskip := hskipped n hmem
      rw [isUnreachable_iff.mpr ⟨hidMem, hstatus, hincoming, hnone⟩] at hskip
      cases hskip
    have hisReady : isReady db.run.graph.toWorkflowGraph db.nodeRuns n.nodeId = true := by
      refine isReady_iff.mpr ⟨hpending, hactive, fun e he ↦ ?_⟩
      obtain ⟨hin, hedge⟩ := List.mem_filter.mp he
      obtain ⟨hgraph, htarget⟩ := List.mem_filter.mp hin
      obtain ⟨m, hm⟩ := hc.exists_nodeRun (db.run.graph.edges_closed e hgraph).1
      have hmmem := (hc.findNodeRun_eq_some_iff.mp hm).1
      have hnotPending := ih e.source ⟨e, hgraph, rfl, by simpa using htarget⟩
      rw [statusOf, hm, Option.map_some] at hnotPending ⊢
      cases hmstatus : m.status with
      | completed => rfl
      | failed => exact absurd hmstatus (hfailed m hmmem)
      | skipped => simp [edgeIsActive, statusOf, hm, hmstatus] at hedge
      | cancelled =>
          rcases hb.cancelled m hmmem hmstatus with h | h <;> rw [hrunning] at h <;> cases h
      | pending => simp [hmstatus] at hnotPending
      | queued | running | waiting | retrying =>
          have hpending' := hidle m hmmem (by rw [hmstatus]; rfl)
          simp [hmstatus] at hpending'
    have hlisted : n.nodeId ∈ findReadyNodes db.run.graph.toWorkflowGraph db.nodeRuns :=
      List.mem_filter.mpr ⟨hidMem, hisReady⟩
    rw [hready] at hlisted
    cases hlisted
  obtain ⟨n, hmem, hopen⟩ := hopen
  refine hended n.nodeId (statusOf_eq_some_iff.mpr ⟨n, ?_, hidle n hmem hopen⟩)
  exact hc.findNodeRun_eq_some_iff.mpr ⟨hmem, rfl⟩

/-- What a reconciliation that leaves the run RUNNING owes: a live task or a WAITING
node, and the failure of every ready node whose references do not resolve. -/
structure Progresses (env : Env) (now : Time) (db db' : RunRecord) : Prop where
  live : (∃ t ∈ db'.tasks, t.status.isTerminal = false) ∨ ∃ n ∈ db'.nodeRuns, n.status = .waiting
  failed : ∀ id ∈ unresolvedNodes env now db, ∃ n, findNodeRun db'.nodeRuns id = some n ∧
    n.status = .failed ∧
      n.error.bind (Dict.get? · "code") = some (.str "UNRESOLVED_CONTEXT_REFERENCE")

/-- A reconciliation that leaves the run RUNNING makes progress exactly when the
references of every ready node resolve. -/
theorem reconcile_progresses_iff {context : ValidationContext}
    (haccepted : Accepted env context db.run.graph.toWorkflowGraph)
    (h : ReachableBy env (RunOp.Executed env) db) (hreconcile : reconcile env now db = .ok db')
    (hrunning : db'.run.status = .running) :
    Progresses env now db db' ↔ unresolvedNodes env now db = [] := by
  have hc := h.coupled
  have hshape := haccepted.shaped
  have hstep : RunOp.exec env (.reconcile now) db = .ok (true, db') := by
    rw [RunOp.exec, hreconcile]
    rfl
  have hallowed : RunOp.Executed env db (.reconcile now) := trivial
  have h' : ReachableBy env (RunOp.Executed env) db' := .step h hallowed hstep
  have hc' := h'.coupled
  have hgraph : db'.run.graph = db.run.graph :=
    Steps.graph ((reconcile_sound Rights.all hc trivial).of_ok hreconcile)
  obtain ⟨hactive, s₁, s₂, htrace⟩ : (db.run.status = .created ∨ db.run.status = .running ∨
      db.run.status = .waiting) ∧ ∃ s₁ s₂, ReconcileTrace env now db s₁ s₂ .running db' := by
    rcases reconcile_cases hc hreconcile with ⟨hcancelled, rfl⟩ | ⟨hended, rfl⟩ |
      ⟨hactive, s₁, s₂, derived, htrace⟩
    · rw [Session.settled_run] at hrunning
      exact absurd (hcancelled.symm.trans hrunning) (by decide)
    · rw [hrunning] at hended
      simp at hended
    · obtain rfl := (htrace.status_eq hc).symm.trans hrunning
      exact ⟨hactive, s₁, s₂, htrace⟩
  have hrows := htrace.rows hc
  constructor
  · intro hprogress
    refine List.eq_nil_iff_forall_not_mem.mpr fun id hid ↦ ?_
    obtain ⟨n, hn, hfailed, -⟩ := hprogress.failed id hid
    have hready := (List.mem_filter.mp ((hrows.ready id).mpr hid)).2
    have hpending := (isReady_iff.mp hready).1
    simp [statusOf, hn, hfailed] at hpending
  · intro hresolved
    refine ⟨?_, by simp [hresolved]⟩
    have hready : findReadyNodes db'.run.graph.toWorkflowGraph db'.nodeRuns = [] := by
      refine List.eq_nil_iff_forall_not_mem.mpr fun id hid ↦ ?_
      rw [hgraph, hrows.ready, hresolved] at hid
      cases hid
    obtain ⟨n, hmem, hopen, hpending⟩ := h'.branched.exists_busy hc' (hgraph ▸ hshape) hrunning
      (htrace.nothing_failed hc) (hgraph ▸ hrows.skipped) hready
      (htrace.exists_open hc h.waitsIdly hshape hgraph hc' h'.branched hactive)
    by_cases hwaiting : n.status = .waiting
    · exact .inr ⟨n, hmem, hwaiting⟩
    · obtain ⟨t, ht, -, hlive⟩ := hc'.live_task hmem hopen hpending hwaiting
      exact .inl ⟨t, ht, by simpa using hlive⟩

/-- The reconciliation of the started review run queues the approval. -/
theorem reconcile_progresses_reviewRun : ∃ db db',
    execAll plainEnv [.startRun 0] reviewRun = .ok db ∧
      reconcile plainEnv 0 db = .ok db' ∧ db'.run.status = .running ∧
        Progresses plainEnv 0 db db' := by
  obtain ⟨db, hdb, db', hdb', hgraph, hrunning, hresolved⟩ : ∃ db,
      execAll plainEnv [.startRun 0] reviewRun = .ok db ∧ ∃ db',
        reconcile plainEnv 0 db = .ok db' ∧ db.run.graph = reviewGraph ∧
          db'.run.status = .running ∧ unresolvedNodes plainEnv 0 db = [] :=
    ⟨_, rfl, _, rfl, rfl, rfl, by decide⟩
  have hops : ∀ op ∈ [RunOp.startRun 0], ∀ db, op.Executed plainEnv db := by
    simp [RunOp.Executed]
  have hreachable : ReachableBy plainEnv (RunOp.Executed plainEnv) db :=
    .execAll hops (.created createRun_reviewRun) hdb
  have haccepted : Accepted plainEnv {} db.run.graph.toWorkflowGraph := by
    rw [hgraph]
    exact accepted_reviewGraph
  exact ⟨db, db', hdb, hdb', hrunning,
    (reconcile_progresses_iff haccepted hreachable hdb' hrunning).mpr hresolved⟩

/-! ## A run without progress -/

/-- Data Input, a Tool whose command is taken from the run input, Data Output. -/
def toolGraph : ParsedGraph where
  nodes :=
    [{ id := "in", type := .data, subtype := "input", name := "Input"
       config := [("schema", .obj [("type", .str "object")])] },
      { id := "tool", type := .tool, subtype := "shell", name := "Tool"
        config := [("command", .str "{{workflow.input.cmd}}")] },
      { id := "out", type := .data, subtype := "output", name := "Output"
        config := [("output_mapping", .obj [])] }]
  edges :=
    [{ id := "e1", source := "in", target := "tool" },
      { id := "e2", source := "tool", target := "out" }]
  nodeIds_nodup := by decide
  edges_closed := by decide

def toolRun : RunRecord where
  run := { id := "run", graph := toolGraph }
  nodeRuns := toolGraph.nodes.map (createNodeRun [])

theorem createRun_toolRun :
    createRun plainEnv 0 "run" toolGraph [] [] = .ok toolRun :=
  rfl

theorem accepted_toolGraph : Accepted plainEnv {} toolGraph.toWorkflowGraph :=
  accepted_of_silent (by decide) (by decide) (by rfl) rfl rfl rfl rfl

/-- The input has no `cmd`, so the Tool stays PENDING and the run stays RUNNING. -/
theorem not_progresses_toolRun : ∃ db db', Accepted plainEnv {} db.run.graph.toWorkflowGraph ∧
    ReachableBy plainEnv (RunOp.Executed plainEnv) db ∧ reconcile plainEnv 0 db = .ok db' ∧
      db'.run.status = .running ∧ statusOf db'.nodeRuns "tool" = some .pending ∧
        ¬Progresses plainEnv 0 db db' := by
  obtain ⟨db, hdb, db', hdb', hgraph, hrunning, hpending, htasks, hwaiting⟩ : ∃ db,
      execAll plainEnv [.startRun 0] toolRun = .ok db ∧ ∃ db',
        reconcile plainEnv 0 db = .ok db' ∧ db.run.graph = toolGraph ∧
          db'.run.status = .running ∧ statusOf db'.nodeRuns "tool" = some .pending ∧
            db'.tasks = [] ∧ ∀ n ∈ db'.nodeRuns, n.status ≠ .waiting :=
    ⟨_, rfl, _, rfl, rfl, rfl, rfl, rfl, by decide⟩
  have hops : ∀ op ∈ [RunOp.startRun 0], ∀ db, op.Executed plainEnv db := by
    simp [RunOp.Executed]
  have haccepted : Accepted plainEnv {} db.run.graph.toWorkflowGraph := by
    rw [hgraph]
    exact accepted_toolGraph
  refine ⟨db, db', haccepted, .execAll hops (.created createRun_toolRun) hdb, hdb', hrunning,
    hpending, fun hprogress ↦ ?_⟩
  rcases hprogress.live with ⟨t, ht, -⟩ | ⟨n, hn, hstatus⟩
  · rw [htasks] at ht
    cases ht
  · exact hwaiting n hn hstatus

end Relayvia
