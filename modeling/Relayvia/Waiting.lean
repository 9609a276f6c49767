import Relayvia.Branching
import Relayvia.FailFast

/-!
# WAITING runs

A run waits only while it has no live task, and behind every parked node stands
one that must still execute.  So no reconciliation of a started run derives a
status that the transition table forbids.
-/

namespace Relayvia

variable {R : Rights} {env : Env} {now : Time} {db db' : RunRecord}

/-! ## The anchor of a waiting run -/

/-- An edge from a started node, no Condition, to a PENDING node: no skip crosses it. -/
def Anchored (db : RunRecord) : Prop :=
  ∃ e ∈ db.run.graph.edges, ∃ source target,
    findNodeRun db.nodeRuns e.source = some source ∧ source.isCondition = false ∧
      source.status.isStarted = true ∧ findNodeRun db.nodeRuns e.target = some target ∧
        target.status = .pending

/-- A WAITING run has no live task, and some node is still to come. -/
structure Idle (db : RunRecord) : Prop where
  tasks : ∀ t ∈ db.tasks, t.status.isTerminal = true
  anchored : Anchored db

/-- A started node stays started until it is cancelled. -/
theorem Move.started_kept {c c' : CellStatus} (hmove : Move c c')
    (hstarted : c.1.isStarted = true) : c'.1.isStarted = true ∨ c'.1 = .cancelled := by
  cases hmove with
  | claim | release => exact .inl hstarted
  | queue | launch | complete | fail | wait | retry | requeue | resolve | reject => exact .inl rfl
  | skip => cases hstarted
  | cancelTask | cancelIdle | cancelWaiting => exact .inr rfl

/-- While the run is WAITING nothing is queued, skipped or cancelled. -/
theorem CellStep.status_waiting {n n' : NodeRun} {t t' : Option ExecutionTask}
    (h : CellStep R db n t n' t') (hc : Coupling n.isInput (cellStatus n t))
    (hwaiting : db.run.status = .waiting) :
    (n.status = .pending → n'.status = .pending) ∧
      (n.status.isStarted = true → n'.status.isStarted = true) := by
  have hnever : n'.status = .cancelled → n.status = .cancelled := by
    intro hcancelled
    by_contra hbefore
    have hended := h.cancelled hcancelled hbefore
    simp [hwaiting, WorkflowRunStatus.isTerminal] at hended
  rcases h.move with heq | hmove
  · have hstatus : n'.status = n.status := congrArg Prod.fst heq
    rw [hstatus]
    exact ⟨fun h ↦ h, fun h ↦ h⟩
  constructor
  · intro hpending
    rcases hmove.of_pending hc hpending with hmoved | hmoved | hmoved
    · exact absurd ((h.queued hpending hmoved).1.symm.trans hwaiting) (by decide)
    · exact absurd ((h.skipped hpending hmoved).1.symm.trans hwaiting) (by decide)
    · exact absurd (hpending.symm.trans (hnever hmoved)) (by decide)
  · intro hstarted
    rcases hmove.started_kept hstarted with hafter | hcancelled
    · exact hafter
    · have hbefore := hnever hcancelled
      simp [hbefore, NodeRunStatus.isStarted] at hstarted

theorem Anchored.cells (h : Evolves R db db') (hc : Coupled db)
    (hwaiting : db.run.status = .waiting) (hanchored : Anchored db) : Anchored db' := by
  obtain ⟨e, he, source, target, hsource, hcondition, hstarted, htarget, hpending⟩ := hanchored
  obtain ⟨source', hsource', hcell⟩ := h.cell _ source hsource
  obtain ⟨target', htarget', hcell'⟩ := h.cell _ target htarget
  refine ⟨e, h.run ▸ he, source', target', hsource', ?_, ?_, htarget', ?_⟩
  · rw [hcell.isCondition_eq, hcondition]
  · exact (hcell.status_waiting (hc.coupling _ source hsource) hwaiting).2 hstarted
  · exact (hcell'.status_waiting (hc.coupling _ target htarget) hwaiting).1 hpending

theorem Idle.cells (h : Evolves R db db') (hc : Coupled db) (hwaiting : db.run.status = .waiting)
    (hidle : Idle db) : Idle db' where
  anchored := hidle.anchored.cells h hc hwaiting
  tasks t' ht' := by
    obtain ⟨n', hn'⟩ := h.keyed.exists_nodeRun (h.keyed.taskClosed t' ht')
    obtain ⟨n, hn, hcell⟩ := h.cell_back hc.toKeyed hn'
    have htask' := h.keyed.taskOfNode_eq_some_iff.mpr ⟨ht', rfl⟩
    have hcoupling := hc.coupling _ n hn
    cases htask : taskOfNode db.tasks t'.nodeRunId with
    | none =>
        -- a new task would be queued, which needs a RUNNING run
        rw [htask] at hcell hcoupling
        rw [htask'] at hcell
        have hmove : Move (n.status, none) (n'.status, some t'.status) := by
          rcases hcell.move with heq | hmove
          · simp [cellStatus] at heq
          · exact hmove
        generalize hbefore : n.status = s at hmove
        generalize hafter : n'.status = s' at hmove
        generalize t'.status = u at hmove
        cases hmove
        exact absurd ((hcell.queued hbefore hafter).1.symm.trans hwaiting) (by decide)
    | some t =>
        have hterminal := hidle.tasks t (hc.taskOfNode_eq_some_iff.mp htask).1
        rw [htask, htask'] at hcell
        have hkept : t'.status = t.status := by
          rcases hcell.move with heq | hmove
          · simpa [cellStatus] using congrArg Prod.snd heq
          · simpa [cellStatus] using hmove.task_terminal rfl hterminal
        rw [hkept, hterminal]

/-- The tasks of a state without in-flight nodes are terminal. -/
theorem Coupled.tasks_terminal (hc : Coupled db)
    (hflight : ∀ n ∈ db.nodeRuns, n.status.inFlight = false) :
    ∀ t ∈ db.tasks, t.status.isTerminal = true := by
  intro t ht
  by_contra hlive
  obtain ⟨n, hn⟩ := hc.exists_nodeRun (hc.taskClosed t ht)
  have hidle := hflight n (hc.findNodeRun_eq_some_iff.mp hn).1
  have hcoupling := hc.coupling _ n hn
  rw [hc.taskOfNode_eq_some_iff.mpr ⟨ht, rfl⟩] at hcoupling
  generalize hs : n.status = s at hidle
  simp only [cellStatus, hs, Option.map_some] at hcoupling
  cases hstatus : t.status with
  | pending | claimed =>
      rw [hstatus] at hcoupling
      rcases hcoupling with rfl | rfl <;> cases hidle
  | running | retryWait =>
      rw [hstatus] at hcoupling
      cases hcoupling
      cases hidle
  | completed | failed | cancelled => exact hlive (by rw [hstatus]; rfl)

/-- No edge leads to the Data Input. -/
theorem Coupled.isInput_of_target (hc : Coupled db) (hshape : Shaped db.run.graph.toWorkflowGraph)
    {e : WorkflowEdge} (he : e ∈ db.run.graph.edges) {target : NodeRun}
    (htarget : findNodeRun db.nodeRuns e.target = some target) : target.isInput = false := by
  obtain ⟨node, hnode, hid, -, hinput, -⟩ := hc.exists_node htarget
  by_contra hstart
  have hfirst := hshape.first node hnode (hinput.trans (by simpa using hstart))
  have hin : e ∈ db.run.graph.incomingEdges node.id := List.mem_filter.mpr ⟨he, by simp [hid]⟩
  rw [hfirst] at hin
  cases hin

/-- An edge out of a started node that is no Condition is active. -/
theorem Coupled.edgeIsActive_of_started (hc : Coupled db) {e : WorkflowEdge} {n : NodeRun}
    (hn : findNodeRun db.nodeRuns e.source = some n) (hstarted : n.status.isStarted = true)
    (hcondition : n.isCondition = false) :
    edgeIsActive db.run.graph.toWorkflowGraph db.nodeRuns e = true := by
  obtain ⟨node, -, -, hnode, -, hkind⟩ := hc.exists_node hn
  have hskipped : n.status ≠ .skipped := by
    intro hskipped
    simp [hskipped, NodeRunStatus.isStarted] at hstarted
  simp [edgeIsActive, statusOf, hn, hskipped, hnode, hkind, hcondition]

/-- Nothing skips the target of an edge out of a started node that is no Condition. -/
theorem Branched.not_skipped (hb : Branched db) (hc : Coupled db) {e : WorkflowEdge}
    (he : e ∈ db.run.graph.edges) {source target : NodeRun}
    (hsource : findNodeRun db.nodeRuns e.source = some source)
    (hstarted : source.status.isStarted = true) (hcondition : source.isCondition = false)
    (htarget : findNodeRun db.nodeRuns e.target = some target) : target.status ≠ .skipped := by
  intro hskipped
  obtain ⟨hmem, hid⟩ := hc.findNodeRun_eq_some_iff.mp htarget
  have hactive : e ∈ activeEdges db.run.graph.toWorkflowGraph db.nodeRuns target.nodeId :=
    List.mem_filter.mpr ⟨List.mem_filter.mpr ⟨he, by simp [hid]⟩,
      hc.edgeIsActive_of_started hsource hstarted hcondition⟩
  rw [hb.skipped target hmem hskipped] at hactive
  cases hactive

/-- The target of an edge out of a node that is still WAITING is PENDING. -/
theorem Branched.pending_of_waiting (hb : Branched db) (hc : Coupled db)
    (hshape : Shaped db.run.graph.toWorkflowGraph) (hended : db.run.status.isTerminal = false)
    {e : WorkflowEdge} (he : e ∈ db.run.graph.edges) {source target : NodeRun}
    (hsource : findNodeRun db.nodeRuns e.source = some source) (hwaiting : source.status = .waiting)
    (htarget : findNodeRun db.nodeRuns e.target = some target) : target.status = .pending := by
  obtain ⟨hmem, hid⟩ := hc.findNodeRun_eq_some_iff.mp htarget
  have hplain := NodeRun.isCondition_of_parks
    (hb.parked source (hc.findNodeRun_eq_some_iff.mp hsource).1 hwaiting)
  have hbegun : source.status.isStarted = true := by
    rw [hwaiting]
    rfl
  by_contra hpending
  by_cases hstarted : target.status.isStarted = true
  · have hactive : e ∈ activeEdges db.run.graph.toWorkflowGraph db.nodeRuns target.nodeId :=
      List.mem_filter.mpr ⟨List.mem_filter.mpr ⟨he, by simp [hid]⟩,
        hc.edgeIsActive_of_started hsource hbegun hplain⟩
    have hdone := (hb.started target hmem (hc.isInput_of_target hshape he htarget) hstarted).2 e hactive
    simp [statusOf, hsource, hwaiting] at hdone
  · cases hstatus : target.status with
    | pending => exact hpending hstatus
    | skipped => exact hb.not_skipped hc he hsource hbegun hplain htarget hstatus
    | cancelled =>
        rcases hb.cancelled target hmem hstatus with h | h <;> rw [h] at hended <;> cases hended
    | _ => simp [hstatus, NodeRunStatus.isStarted] at hstarted

theorem exemptFromDeadEnd_of_parks {node : WorkflowNode} {n : NodeRun} (htype : node.type = n.nodeType)
    (hsubtype : node.subtype = n.nodeSubtype) (hparks : n.parks = true) :
    exemptFromDeadEnd node = false := by
  simp only [NodeRun.parks, Bool.decide_and, Bool.decide_or, Bool.or_eq_true, Bool.and_eq_true,
    decide_eq_true_eq] at hparks
  rcases hparks with ⟨h, -⟩ | ⟨h, h'⟩
  · simp [exemptFromDeadEnd, htype, h]
  · simp [exemptFromDeadEnd, htype, hsubtype, h, h']

/-- A derived WAITING is idle. -/
theorem Branched.idle (hb : Branched db) (hc : Coupled db)
    (hshape : Shaped db.run.graph.toWorkflowGraph) (hended : db.run.status.isTerminal = false)
    (hderived : deriveWorkflowState db.run.graph.toWorkflowGraph db.nodeRuns = .waiting) :
    Idle db := by
  have hspec := deriveWorkflowState_spec db.run.graph.toWorkflowGraph db.nodeRuns
  rw [hderived] at hspec
  obtain ⟨-, ⟨source, hmem, hwaiting⟩, hflight, -⟩ := hspec
  refine ⟨hc.tasks_terminal hflight, ?_⟩
  have hsource := hc.findNodeRun_eq_some_iff.mpr ⟨hmem, rfl⟩
  have hparks := hb.parked source hmem hwaiting
  obtain ⟨node, hnode, hid, htype, hsubtype⟩ := hc.kinds source hmem
  have hway := hshape.outgoing node hnode (.inr (exemptFromDeadEnd_of_parks htype hsubtype hparks))
  obtain ⟨e, hout⟩ := List.exists_mem_of_ne_nil _ hway
  obtain ⟨he, hfrom⟩ := List.mem_filter.mp hout
  have hfrom : e.source = source.nodeId := by
    rw [← hid]
    simpa using hfrom
  obtain ⟨target, htarget⟩ := hc.exists_nodeRun (db.run.graph.edges_closed e he).2
  rw [← hfrom] at hsource
  exact ⟨e, he, source, target, hsource, NodeRun.isCondition_of_parks hparks, by rw [hwaiting]; rfl,
    htarget, hb.pending_of_waiting hc hshape hended he hsource hwaiting htarget⟩

theorem Idle.congr (hidle : Idle db) (hgraph : db'.run.graph = db.run.graph)
    (hnodes : db'.nodeRuns = db.nodeRuns) (htasks : db'.tasks = db.tasks) : Idle db' where
  tasks := by
    rw [htasks]
    exact hidle.tasks
  anchored := by
    rw [Anchored, hgraph, hnodes]
    exact hidle.anchored

/-- The branches of the run, and that it waits idly when its graph was accepted. -/
structure WaitsIdly (db : RunRecord) : Prop extends Branched db where
  idle : Shaped db.run.graph.toWorkflowGraph → db.run.status = .waiting → Idle db

theorem WaitsIdly.step (hc : Coupled db) (hw : WaitsIdly db) (h : MicroStep executed db db') :
    WaitsIdly db' := by
  refine ⟨hw.toBranched.step hc h, fun hshape hwaiting ↦ ?_⟩
  rw [h.graph] at hshape
  cases h with
  | cells h =>
      rw [h.run] at hwaiting
      exact (hw.idle hshape hwaiting).cells h hc hwaiting
  | run h =>
      refine Idle.congr ?_ h.graph h.nodeRuns h.tasks
      by_cases hsame : db'.run.status = db.run.status
      · exact hw.idle hshape (hsame.symm.trans hwaiting)
      · have hended : db.run.status.isTerminal = false := by
          have hlegal := h.status.resolve_left hsame
          by_contra hterminal
          rw [WorkflowRunStatus.transitions_eq_nil_iff.mpr (by simpa using hterminal)] at hlegal
          cases hlegal
        exact hw.toBranched.idle hc hshape hended
          ((h.derived hsame (.inl hwaiting)).symm.trans hwaiting)

theorem ReachableBy.waitsIdly (h : ReachableBy env (RunOp.Executed env) db) : WaitsIdly db := by
  refine h.invariant (fun _ _ hc hop ↦ hop.promised hc) (fun hcreated ↦ ?_) fun _ _ hc hw ↦ hw.step hc
  refine ⟨Branched.created_run hcreated, fun _ hwaiting ↦ ?_⟩
  rw [(createRun_ok hcreated).1] at hwaiting
  cases hwaiting

/-! ## What reconciliation raises -/

/-- The run would make a transition that its table forbids. -/
def RunFault : Raised → Prop
  | .relayvia e => e.code = "INVALID_WORKFLOW_RUN_TRANSITION"
  | _ => False

/-- The computation raises nothing but status faults. -/
abbrev OnlyStatusFaults {α : Type} (x : Except Raised α) : Prop :=
  Outcome.Holds x (fun _ ↦ True) StatusFault

theorem StatusFault.not_runFault {e : Raised} (h : StatusFault e) : ¬RunFault e := by
  cases e with
  | relayvia error =>
      intro hrun
      have hcode : error.code = "INVALID_NODE_RUN_TRANSITION" := h
      simp [RunFault, hcode] at hrun
  | _ => exact id

variable {s : Session}

theorem transitionNodeRun_faults {current target : NodeRunStatus} :
    OnlyStatusFaults (liftM (transitionNodeRun current target)) := by
  refine holds_liftM (Outcome.holds_of_forall (fun _ _ ↦ trivial) fun e he ↦ ?_)
  unfold transitionNodeRun checkTransition at he
  split at he <;> cases he
  rfl

theorem insertTasks_faults (added : List ExecutionTask) : ∀ tasks : List ExecutionTask,
    OnlyStatusFaults (Session.insertTasks tasks added) := by
  induction added with
  | nil => exact fun _ ↦ trivial
  | cons task added ih => exact fun _ ↦ Outcome.Holds.ite (fun _ ↦ trivial) fun _ ↦ ih _

theorem flush_faults : OnlyStatusFaults s.flush :=
  (insertTasks_faults s.added s.tasks).bind fun _ _ ↦ trivial

theorem commit_faults : OnlyStatusFaults s.commit :=
  flush_faults.bind fun _ _ ↦ trivial

theorem attachWorkspace_faults {node : WorkflowNode} {payload : Dict} {runnerId : Option String} :
    OnlyStatusFaults (attachWorkspace env s node payload runnerId) := by
  unfold attachWorkspace
  split
  · split
    · exact Outcome.Holds.ite (fun _ ↦ trivial) fun _ ↦ flush_faults.bind fun _ _ ↦ trivial
    · trivial
  · trivial

theorem enqueue_faults {n : NodeRun} {node : WorkflowNode} {payload : Dict}
    {requiredCapability runnerId : Option String} :
    OnlyStatusFaults (enqueue env now s n node payload requiredCapability runnerId) :=
  transitionNodeRun_faults.bind fun _ _ ↦ trivial

theorem scheduleNode_faults {id : NodeId} : OnlyStatusFaults (scheduleNode env now s id) := by
  unfold scheduleNode
  split
  · refine Outcome.Holds.ite (fun _ ↦ trivial) fun _ ↦ ?_
    dsimp only
    split
    · trivial
    · exact enqueue_faults.bind fun _ _ ↦ trivial
    · exact attachWorkspace_faults.bind fun _ _ ↦ enqueue_faults.bind fun _ _ ↦ trivial
  · trivial

theorem scheduleLoop_faults (ids : List NodeId) :
    ∀ s : Session, OnlyStatusFaults (scheduleLoop env now s ids) := by
  induction ids with
  | nil => exact fun _ ↦ trivial
  | cons id ids ih =>
      refine fun s ↦ scheduleNode_faults.bind fun result _ ↦ ?_
      cases result with
      | none => exact ih s
      | some s' => exact ih s'

theorem scheduleReadyNodes_faults : OnlyStatusFaults (scheduleReadyNodes env now s) :=
  Outcome.Holds.ite (fun _ ↦ trivial) fun _ ↦ scheduleLoop_faults _ _

/-- The computation does not raise INVALID_WORKFLOW_RUN_TRANSITION. -/
abbrev NoRunFault {α : Type} (x : Except Raised α) : Prop :=
  Outcome.Holds x (fun _ ↦ True) fun e ↦ ¬RunFault e

theorem OnlyStatusFaults.noRunFault {α : Type} {x : Except Raised α} (h : OnlyStatusFaults x) :
    NoRunFault x :=
  h.mono (fun _ _ ↦ trivial) fun _ he ↦ he.not_runFault

theorem reconcileFinish_noRunFault {current derived : WorkflowRunStatus} :
    NoRunFault (reconcileFinish env now current derived s) := by
  refine Outcome.Holds.ite (fun _ ↦ ?_) fun _ ↦ trivial
  exact scheduleReadyNodes_faults.noRunFault.bind fun _ _ ↦ trivial

theorem promoteDueWaits_noRunFault : NoRunFault (promoteDueWaits env now s) :=
  Outcome.Holds.ite (fun _ ↦ id) fun _ ↦ trivial

/-- The first half raises no run fault when the derived status is reachable in the table. -/
theorem reconcileDerive_noRunFault
    (hlegal : ∀ s₁ s₂, promoteDueWaits env now s = .ok s₁ → scheduleReadyNodes env now s₁ = .ok s₂ →
      deriveWorkflowState s₂.run.graph.toWorkflowGraph s₂.nodeRuns = s₂.run.status ∨
        deriveWorkflowState s₂.run.graph.toWorkflowGraph s₂.nodeRuns ∈ s₂.run.status.transitions) :
    NoRunFault (reconcileDerive env now s) := by
  refine promoteDueWaits_noRunFault.with_eq.bind fun s₁ ⟨hpromote, _⟩ ↦ ?_
  refine scheduleReadyNodes_faults.noRunFault.with_eq.bind fun s₂ ⟨hschedule, _⟩ ↦ ?_
  refine Outcome.Holds.ite (fun _ ↦ trivial) fun hother ↦ ?_
  have hmem := (hlegal s₁ s₂ hpromote hschedule).resolve_left hother
  rw [transitionWorkflowRun_ok_iff.mpr hmem]
  trivial

/-- From RUNNING every derived status is legal. -/
theorem deriveWorkflowState_of_running (g : WorkflowGraph) (nodeRuns : List NodeRun) :
    deriveWorkflowState g nodeRuns = .running ∨
      deriveWorkflowState g nodeRuns ∈ WorkflowRunStatus.running.transitions := by
  have hspec := deriveWorkflowState_spec g nodeRuns
  cases hderived : deriveWorkflowState g nodeRuns <;> simp_all [WorkflowRunStatus.transitions]

/-- From WAITING every derived status is legal while a node is still to come. -/
theorem deriveWorkflowState_of_anchored (hc : Coupled db) (hanchored : Anchored db) :
    deriveWorkflowState db.run.graph.toWorkflowGraph db.nodeRuns = .waiting ∨
      deriveWorkflowState db.run.graph.toWorkflowGraph db.nodeRuns ∈
        WorkflowRunStatus.waiting.transitions := by
  obtain ⟨e, -, source, target, -, -, -, htarget, hpending⟩ := hanchored
  have hmem := (hc.findNodeRun_eq_some_iff.mp htarget).1
  have hspec := deriveWorkflowState_spec db.run.graph.toWorkflowGraph db.nodeRuns
  cases hderived : deriveWorkflowState db.run.graph.toWorkflowGraph db.nodeRuns with
  | completed =>
      rw [hderived] at hspec
      have hterminal := hspec.2 target hmem
      simp [hpending, NodeRunStatus.isTerminal] at hterminal
  | failed | waiting | running => simp [WorkflowRunStatus.transitions]
  | created | paused | cancelled =>
      rw [hderived] at hspec
      exact hspec.elim

/-- A reconciliation of a started run makes no illegal transition. -/
theorem WaitsIdly.reconcile_noRunFault (hw : WaitsIdly db) (hc : Coupled db)
    (hshape : Shaped db.run.graph.toWorkflowGraph) (hstarted : db.run.status ≠ .created) :
    NoRunFault (reconcile env now db) := by
  have hc₀ : Coupled ({ db with } : Session).settled := by rwa [Session.settled_flushed]
  suffices hrun : Outcome.Holds (reconcileRun env now { db with }) (fun _ ↦ True)
      fun e ↦ ¬RunFault e from hrun.bind fun _ _ ↦ commit_faults.noRunFault
  unfold reconcileRun
  have hlegal : db.run.status = .running ∨ db.run.status = .waiting →
      NoRunFault (reconcileDerive env now { db with }) := by
    refine fun hactive ↦ reconcileDerive_noRunFault fun s₁ s₂ hpromote hschedule ↦ ?_
    obtain ⟨hrun, -, -, -⟩ := promoteDueWaits_ok hpromote
    have hpromoted := ((promoteDueWaits_sound executed hc₀ trivial).of_ok hpromote).2.2
    have hc₁ := hpromoted.coupled hc₀
    rcases hactive with hrunning | hwaiting
    · have hsteps := (scheduleReadyNodes_sound executed hc₁).of_ok hschedule
      have hkept : s₂.settled.run = s₁.settled.run := CellSteps.run hsteps
      have hrun₂ : s₂.run.status = .running := by
        rw [← Session.settled_run, hkept, Session.settled_run, hrun, hrunning]
      rw [hrun₂]
      exact deriveWorkflowState_of_running _ _
    · have hwaiting₁ : s₁.run.status = .waiting := by rw [hrun, hwaiting]
      rw [scheduleReadyNodes_idle (by simp [hwaiting₁])] at hschedule
      cases hschedule
      have hidle := hw.idle hshape hwaiting
      rw [Session.settled_flushed] at hpromoted
      have hanchored : Anchored s₁.settled := hidle.anchored.cells hpromoted hc hwaiting
      have hlegal := deriveWorkflowState_of_anchored hc₁ hanchored
      rw [hwaiting₁]
      exact hlegal
  cases hstatus : db.run.status with
  | created => exact absurd hstatus hstarted
  | running | waiting =>
      have hderive := hlegal (by simp [hstatus])
      dsimp only
      exact hderive.bind fun _ _ ↦ reconcileFinish_noRunFault.bind fun _ _ ↦ trivial
  | paused | completed | failed | cancelled => trivial

/-- A WAITING run is idle, and the reconciliation of a started run never raises
INVALID_WORKFLOW_RUN_TRANSITION. -/
theorem waiting_run_idle {context : ValidationContext}
    (haccepted : Accepted env context db.run.graph.toWorkflowGraph)
    (h : ReachableBy env (RunOp.Executed env) db) :
    (db.run.status = .waiting → ∀ t ∈ db.tasks, t.status.isTerminal = true) ∧
      (db.run.status ≠ .created →
        ∀ now error, reconcile env now db = .error error → ¬RunFault error) := by
  have hw := h.waitsIdly
  refine ⟨fun hwaiting ↦ (hw.idle haccepted.shaped hwaiting).tasks, fun hstarted now error herror ↦ ?_⟩
  exact (hw.reconcile_noRunFault h.coupled haccepted.shaped hstarted).of_error herror

/-- Data Input, Human Approval, Data Output, with the configuration that the rules ask for. -/
def reviewGraph : ParsedGraph where
  nodes :=
    [{ id := "in", type := .data, subtype := "input", name := "Input"
       config := [("schema", .obj [("type", .str "object")])] },
      { id := "ask", type := .human, subtype := "approval", name := "Approval"
        config := [("title", .str "Review")] },
      { id := "out", type := .data, subtype := "output", name := "Output"
        config := [("output_mapping", .obj [])] }]
  edges :=
    [{ id := "e1", source := "in", target := "ask" }, { id := "e2", source := "ask", target := "out" }]
  nodeIds_nodup := by decide
  edges_closed := by decide

theorem accepted_reviewGraph : Accepted plainEnv {} reviewGraph.toWorkflowGraph :=
  accepted_of_silent (by decide) (by decide) (by rfl) rfl rfl rfl rfl

def reviewRun : RunRecord where
  run := { id := "run", graph := reviewGraph }
  nodeRuns := reviewGraph.nodes.map (createNodeRun [])

theorem createRun_reviewRun :
    createRun plainEnv 0 "run" reviewGraph [] [] = .ok reviewRun :=
  rfl

/-- The Worker claims the approval. -/
def reviewOps : List RunOp :=
  [.startRun 0, .schedule 0, .claim 0 "w" "t" 60 none true 0]

/-- The Worker parks the approval and the run waits. -/
theorem waiting_run_idle_reviewRun : ∃ db₁ db₂ db₃, execAll plainEnv reviewOps reviewRun = .ok db₁ ∧
    RunOp.exec plainEnv (.waitNode 0 0 "w" "t" "HUMAN_APPROVAL" [("allow_reject", .bool true)]) db₁ =
      .ok (true, db₂) ∧
    RunOp.exec plainEnv (.reconcile 0) db₂ = .ok (true, db₃) ∧ db₃.run.status = .waiting ∧
      (∀ t ∈ db₃.tasks, t.status.isTerminal = true) ∧
        ∀ now error, reconcile plainEnv now db₃ = .error error → ¬RunFault error := by
  obtain ⟨db₁, h₁, db₂, h₂, db₃, h₃, hparked, hgraph, hstatus⟩ : ∃ db₁,
      execAll plainEnv reviewOps reviewRun = .ok db₁ ∧ ∃ db₂,
      RunOp.exec plainEnv (.waitNode 0 0 "w" "t" "HUMAN_APPROVAL" [("allow_reject", .bool true)])
        db₁ = .ok (true, db₂) ∧ ∃ db₃,
      RunOp.exec plainEnv (.reconcile 0) db₂ = .ok (true, db₃) ∧
        ((findTask db₁.tasks 0).bind fun t ↦ findNodeRun db₁.nodeRuns t.nodeRunId).map
          (fun n ↦ (n.nodeType, n.nodeSubtype)) = some (.human, "approval") ∧
        db₃.run.graph = reviewGraph ∧ db₃.run.status = .waiting :=
    ⟨_, rfl, _, rfl, _, rfl, rfl, rfl, rfl⟩
  have hops : ∀ op ∈ reviewOps, ∀ db, op.Executed plainEnv db := by
    simp [reviewOps, RunOp.Executed]
  have hreachable : ReachableBy plainEnv (RunOp.Executed plainEnv) db₁ :=
    .execAll hops (.created createRun_reviewRun) h₁
  have hwait : RunOp.Executed plainEnv db₁
      (.waitNode 0 0 "w" "t" "HUMAN_APPROVAL" [("allow_reject", .bool true)]) := by
    intro t n ht hn
    simp only [ht, hn, Option.bind_some, Option.map_some, Option.some.injEq, Prod.mk.injEq] at hparked
    refine ⟨0, [], ?_⟩
    rw [hparked.1, hparked.2]
    rfl
  have haccepted : Accepted plainEnv {} db₃.run.graph.toWorkflowGraph := by
    rw [hgraph]
    exact accepted_reviewGraph
  have hreconcile : RunOp.Executed plainEnv db₂ (.reconcile 0) := trivial
  have hidle := waiting_run_idle haccepted (.step (.step hreachable hwait h₂) hreconcile h₃)
  exact ⟨db₁, db₂, db₃, h₁, h₂, h₃, hstatus, hidle.1 hstatus, hidle.2 (by simp [hstatus])⟩

end Relayvia
