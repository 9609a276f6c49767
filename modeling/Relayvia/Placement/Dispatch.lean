import Relayvia.Bookkeeping.Runs
import Relayvia.Gating
import Relayvia.Idempotence
import Relayvia.Placement.Targets
import Relayvia.Workspaces.Rows

/-!
# Dispatch of local work

The capability and the Runner of every task that the scheduler creates.  The tasks of a
scheduling are the ones that it hands out at its stage, all other transactions keep the
placement of the tasks that they find.
-/

namespace Relayvia

variable {env : Env} {now : Time} {s s' : Session} {id : NodeId}

/-! ## Placements -/

/-- The NodeRun of a task with the capability and the Runner that it asks for. -/
structure Placement where
  nodeRunId : NodeId
  capability : Option String
  runnerId : Option String
  deriving DecidableEq

def ExecutionTask.placement (t : ExecutionTask) : Placement where
  nodeRunId := t.nodeRunId
  capability := t.requiredCapability
  runnerId := t.runnerId

def placements (tasks : List ExecutionTask) : List Placement :=
  tasks.map ExecutionTask.placement

@[simp] theorem placements_append (ts us : List ExecutionTask) :
    placements (ts ++ us) = placements ts ++ placements us :=
  List.map_append

/-- Where a dispatch sends the task of a node. -/
def Dispatch.placement (id : NodeId) : Dispatch → Option Placement
  | .unresolved => none
  | .worker => some { nodeRunId := id, capability := none, runnerId := none }
  | .runner target _ =>
      some { nodeRunId := id, capability := some target.capability, runnerId := target.runnerId }

/-- The placement of a node in the state that the scheduler reads. -/
def placementOf (env : Env) (db : RunRecord) (id : NodeId) : Option Placement :=
  (db.run.graph.node? id).bind fun node ↦ (dispatch env db node).placement id

/-- What a scheduling of the session hands out. -/
def handedOut (env : Env) (s : Session) : List Placement :=
  (readyNodes s).filterMap (placementOf env s.toRunRecord)

theorem placementOf_congr {db db' : RunRecord} (hrun : db'.run = db.run)
    (houtputs : db'.nodeRuns.map (fun n ↦ (n.nodeId, n.output)) =
      db.nodeRuns.map fun n ↦ (n.nodeId, n.output)) :
    placementOf env db' id = placementOf env db id := by
  simp only [placementOf, dispatch_congr hrun houtputs, hrun]

theorem placementOf_eq_none {db : RunRecord} (h : dispatches env db id = false) :
    placementOf env db id = none := by
  unfold placementOf
  cases hnode : db.run.graph.node? id with
  | none => rfl
  | some node =>
      have hunresolved : dispatch env db node = .unresolved := by
        simpa [dispatches, hnode] using h
      simp [hunresolved, Dispatch.placement]

theorem mem_handedOut {p : Placement} : p ∈ handedOut env s ↔
    ∃ node ∈ s.run.graph.nodes, node.id ∈ readyNodes s ∧
      (dispatch env s.toRunRecord node).placement node.id = some p := by
  simp only [handedOut, List.mem_filterMap, placementOf, Option.bind_eq_some_iff]
  constructor
  · rintro ⟨id, hid, node, hnode, hp⟩
    obtain ⟨hmem, rfl⟩ := s.run.graph.node?_eq_some_iff.mp hnode
    exact ⟨node, hmem, hid, hp⟩
  · rintro ⟨node, hmem, hid, hp⟩
    exact ⟨node.id, hid, node, s.run.graph.node?_of_mem hmem, hp⟩

/-! ## Scheduling -/

theorem enqueue_placements {n : NodeRun} {node : WorkflowNode} {payload : Dict}
    {capability runnerId : Option String} :
    Returns (enqueue env now s n node payload capability runnerId) fun s' ↦
      placements s'.settled.tasks = placements s.settled.tasks ++
        [{ nodeRunId := node.id, capability := capability, runnerId := runnerId }] := by
  refine Outcome.Holds.bind (returns_any _) fun _ _ ↦ Outcome.holds_pure.mpr ?_
  refine Eq.trans (congrArg placements (@Session.settled_add_tasks s _ _ _ rfl rfl rfl)) ?_
  rw [placements_append]
  rfl

/-- A turn that queues a node adds a task with its placement. -/
theorem scheduleNode_placement (hc : Coupled s.settled)
    (h : scheduleNode env now s id = .ok (some s')) :
    ∃ p, placementOf env s.toRunRecord id = some p ∧
      placements s'.settled.tasks = placements s.settled.tasks ++ [p] := by
  unfold scheduleNode at h
  split at h
  · next n node hn hnode =>
    obtain ⟨-, rfl⟩ := s.run.graph.node?_eq_some_iff.mp hnode
    unfold placementOf
    rw [hnode, Option.bind_some]
    split at h
    · cases h
    · cases hdispatch : dispatch env s.toRunRecord node with
      | unresolved =>
          simp only [hdispatch] at h
          cases h
      | worker =>
          simp only [hdispatch] at h
          obtain ⟨s₁, henqueue, h⟩ := Outcome.bind_eq_ok_iff.mp h
          cases h
          exact ⟨_, rfl, enqueue_placements.of_ok henqueue⟩
      | runner target input =>
          simp only [hdispatch] at h
          obtain ⟨⟨s₁, payload⟩, hattach, h⟩ := Outcome.bind_eq_ok_iff.mp h
          obtain ⟨s₂, henqueue, h⟩ := Outcome.bind_eq_ok_iff.mp h
          cases h
          have hattached := (attachWorkspace_sound (by exact hc.taskNodes)).of_ok hattach
          have hsettled : s₁.settled.tasks = s.settled.tasks := hattached.2.2
          exact ⟨_, rfl, hsettled ▸ enqueue_placements.of_ok henqueue⟩
  · cases h

/-- A scheduling of a RUNNING run adds what it hands out. -/
theorem scheduleReadyNodes_placements (hc : Coupled s.settled) (hrunning : s.run.status = .running)
    (h : scheduleReadyNodes env now s = .ok s') :
    placements s'.settled.tasks =
      placements s.settled.tasks ++ handedOut env (skipInactive now s) := by
  have hskip : CellSteps Rights.all s.settled (skipInactive now s).settled :=
    skipInactive_steps hc hrunning
  let start := skipInactive now s
  let handed (ids : List NodeId) := ids.filterMap (placementOf env start.toRunRecord)
  have hloop : Returns (scheduleLoop env now start (readyNodes start)) fun s' ↦
      s'.run = start.run ∧ (s'.nodeRuns.map (fun n ↦ (n.nodeId, n.output)) =
        start.nodeRuns.map fun n ↦ (n.nodeId, n.output)) ∧
          placements s'.settled.tasks ++ handed [] =
            placements s.settled.tasks ++ handed (readyNodes start) := by
    refine scheduleLoop_turns
      (I := fun ids s' ↦ s'.run = start.run ∧
        (s'.nodeRuns.map (fun n ↦ (n.nodeId, n.output)) =
          start.nodeRuns.map fun n ↦ (n.nodeId, n.output)) ∧
            placements s'.settled.tasks ++ handed ids =
              placements s.settled.tasks ++ handed (readyNodes start))
      ?_ ?_ _ (hskip.coupled hc) hrunning
      (s.run.graph.nodeIds_nodup.sublist List.filter_sublist)
      (fun id hid ↦ (mem_readyNodes.mp hid).2) ⟨rfl, rfl, rfl⟩
    · rintro id ids s₁ hpassed ⟨hrun, houtputs, hplaced⟩
      refine ⟨hrun, houtputs, ?_⟩
      have hnone := placementOf_eq_none hpassed
      rw [placementOf_congr hrun houtputs] at hnone
      rw [← hplaced]
      simp [handed, hnone]
    · rintro id ids s₁ s₂ hc₁ - - hschedule hqueued ⟨hrun, houtputs, hplaced⟩
      refine ⟨hqueued.run.trans hrun, hqueued.outputs_eq.trans houtputs, ?_⟩
      obtain ⟨p, hp, hadded⟩ := scheduleNode_placement hc₁ hschedule
      rw [placementOf_congr hrun houtputs] at hp
      rw [← hplaced, hadded]
      simp [handed, hp]
  rw [scheduleReadyNodes, if_neg (by simp [hrunning])] at h
  have hend := (hloop.of_ok h).2.2
  simpa [handed, handedOut] using hend

/-- Nothing that is ready resolves. -/
theorem handedOut_eq_nil (h : ∀ id ∈ readyNodes s, dispatches env s.toRunRecord id = false) :
    handedOut env s = [] :=
  List.filterMap_eq_nil_iff.mpr fun id hid ↦ placementOf_eq_none (h id hid)

/-! ## Reconciliation -/

/-- Reconciliation schedules a run that is RUNNING, and a new or WAITING one that it finds
to go on. -/
def reconcileSchedules (env : Env) (now : Time) (db : RunRecord) : Bool :=
  db.run.status = .running ∨
    (db.run.status = .created ∨ db.run.status = .waiting) ∧
      deriveWorkflowState db.run.graph.toWorkflowGraph (db.nodeRuns.map (promoteWait env now)) =
        .running

/-- The session in which a transaction looks for ready nodes. -/
def RunOp.stage (env : Env) (db : RunRecord) : RunOp → Option Session
  | .schedule now => if db.run.status = .running then some (skipInactive now { db with }) else none
  | .reconcile now => if reconcileSchedules env now db then some (runningStage env now db) else none
  | _ => none

/-- What a transaction hands out. -/
def RunOp.handsOut (env : Env) (db : RunRecord) (op : RunOp) : List Placement :=
  ((op.stage env db).map (handedOut env)).getD []

theorem RunOp.handsOut_schedule {db : RunRecord} : (RunOp.schedule now).handsOut env db =
    if db.run.status = .running then handedOut env (skipInactive now { db with }) else [] := by
  unfold handsOut stage
  dsimp only
  split <;> rfl

theorem RunOp.handsOut_reconcile {db : RunRecord} : (RunOp.reconcile now).handsOut env db =
    if reconcileSchedules env now db then handedOut env (runningStage env now db) else [] := by
  unfold handsOut stage
  dsimp only
  split <;> rfl

theorem handedOut_congr (hrun : s'.run = s.run) (hnodes : s'.nodeRuns = s.nodeRuns) :
    handedOut env s' = handedOut env s := by
  have hplacement (id : NodeId) : placementOf env s'.toRunRecord id =
      placementOf env s.toRunRecord id := placementOf_congr hrun (by rw [hnodes])
  simp only [handedOut, readyNodes, hrun, hnodes, hplacement]

@[simp] theorem placement_cancelTask (t : ExecutionTask) :
    (cancelTask now t).placement = t.placement := by
  unfold cancelTask
  split <;> rfl

theorem placements_numbered (n : ℕ) (ts : List ExecutionTask) :
    placements (Session.numbered n ts) = placements ts := by
  induction ts generalizing n with
  | nil => rfl
  | cons t ts ih => exact congrArg (t.placement :: ·) (ih (n + 1))

/-- The rows of a session have the placements of its tasks, inserted or not. -/
theorem placements_settled (s : Session) :
    placements s.settled.tasks = placements s.tasks ++ placements s.added := by
  rw [Session.settled, placements_append, placements_numbered]

theorem placements_cancelRunTasks (s : Session) :
    placements (cancelRunTasks now s).settled.tasks = placements s.settled.tasks := by
  have hcancelled : placements (s.tasks.map (cancelTask now)) = placements s.tasks := by
    simp [placements, Function.comp_def]
  rw [placements_settled, placements_settled, ← hcancelled]
  rfl

theorem placements_recordDerived (current derived : WorkflowRunStatus) (s : Session) :
    placements (recordDerived now current derived s).settled.tasks =
      placements s.settled.tasks := by
  have hevent (s : Session) (reason : Option String) :
      placements (workflowEvent s derived reason).settled.tasks = placements s.settled.tasks := by
    unfold workflowEvent
    split <;> rfl
  unfold recordDerived
  split
  · rfl
  · dsimp only
    rw [hevent]
    split
    · exact placements_cancelRunTasks s
    · rfl

variable {db db' : RunRecord} {op : RunOp} {returned : Bool}

theorem scheduleRun_placements (hc : Coupled db) (h : scheduleRun env now db = .ok db') :
    placements db'.tasks =
      placements db.tasks ++ (RunOp.schedule now).handsOut env db := by
  have hc₀ : Coupled ({ db with } : Session).settled := by rwa [Session.settled_flushed]
  obtain ⟨s', hschedule, hcommit⟩ := Outcome.bind_eq_ok_iff.mp h
  have hc' : Coupled s'.settled :=
    ((scheduleReadyNodes_sound Rights.all hc₀).of_ok hschedule).coupled hc₀
  obtain rfl : db' = s'.settled := (commit_sound hc').of_ok hcommit
  rw [RunOp.handsOut_schedule]
  by_cases hrunning : db.run.status = .running
  · rw [if_pos hrunning]
    have hplaced := scheduleReadyNodes_placements hc₀ hrunning hschedule
    rwa [Session.settled_flushed] at hplaced
  · rw [scheduleReadyNodes_idle (by exact hrunning)] at hschedule
    cases hschedule
    rw [if_neg hrunning, Session.settled_flushed, List.append_nil]

/-- The first half of a reconciliation adds what a RUNNING run hands out. -/
theorem ReconcileTrace.placements_scheduled {s₁ s₂ : Session} {derived : WorkflowRunStatus}
    (h : ReconcileTrace env now db s₁ s₂ derived db') (hc : Coupled db) :
    placements s₂.settled.tasks = placements db.tasks ++
      if db.run.status = .running then handedOut env (runningStage env now db) else [] := by
  obtain ⟨hrun, htasks, hadded, hnodes⟩ := promoteDueWaits_ok h.promote
  have hpromoted : placements s₁.settled.tasks = placements db.tasks := by
    rw [placements_settled, htasks, hadded]
    exact List.append_nil _
  by_cases hrunning : db.run.status = .running
  · rw [if_pos hrunning, scheduleReadyNodes_placements (h.promoted_coupled hc)
      (by rw [hrun]; exact hrunning) h.schedule, hpromoted]
    refine congrArg (placements db.tasks ++ ·) (handedOut_congr ?_ ?_)
    · show s₁.run = { db.run with status := .running }
      rw [hrun, ← hrunning]
    · simp [skipInactive, runningStage, hrun, hnodes]
  · have hidle := h.schedule
    rw [scheduleReadyNodes_idle (by rwa [hrun])] at hidle
    cases hidle
    rw [hpromoted, if_neg hrunning, List.append_nil]

theorem ReconcileTrace.placements {s₁ s₂ : Session} {derived : WorkflowRunStatus}
    (h : ReconcileTrace env now db s₁ s₂ derived db') (hc : Coupled db)
    (hactive : db.run.status = .created ∨ db.run.status = .running ∨ db.run.status = .waiting) :
    placements db'.tasks = placements db.tasks ++ (RunOp.reconcile now).handsOut env db := by
  have hfirst := h.placements_scheduled hc
  obtain ⟨hrun, -, -, hnodes⟩ := promoteDueWaits_ok h.promote
  have hrun₂ := h.scheduled_run hc
  obtain ⟨finishedAt, s', rfl, htime, hfinish⟩ := h.finish
  have hc₂ := h.derived_coupled hc finishedAt
  obtain ⟨s₄, rfl, hlast⟩ := reconcileFinish_ok hfinish
  show Relayvia.placements s₄.settled.tasks = _
  have hrecorded : Relayvia.placements (recordDerived now db.run.status derived
      { s₂ with run := { s₂.run with status := derived, finishedAt := finishedAt } }).settled.tasks =
      Relayvia.placements s₂.settled.tasks := placements_recordDerived _ _ _
  rw [RunOp.handsOut_reconcile, reconcileSchedules]
  by_cases hrunning : db.run.status = .running
  · rw [if_pos hrunning] at hfirst
    simp only [hrunning, true_or, decide_true, if_true]
    rcases hlast with ⟨-, rfl⟩ | ⟨rfl, hschedule⟩
    · rw [hrecorded, hfirst]
    · -- the second scheduling of a RUNNING run finds nothing that resolves
      obtain rfl := htime rfl
      have hsame : ({ s₂.run with status := .running } : WorkflowRun) = s₂.run := by
        rw [hrun₂, ← hrunning]
      have hrow : (recordDerived now db.run.status .running
          { s₂ with run := { s₂.run with status := .running } }).run = s₂.run :=
        (recordDerived_run _ _).trans hsame
      obtain ⟨-, hpassed⟩ := scheduleReadyNodes_passed (h.promoted_coupled hc)
        (by rw [hrun, hrunning]) h.schedule hrow (recordDerived_running_nodeRuns _)
      rw [scheduleReadyNodes_placements (recordDerived_coupled hc₂ rfl)
        (by rw [recordDerived_run]) hschedule, handedOut_eq_nil hpassed, List.append_nil,
        hrecorded, hfirst]
  · rw [if_neg hrunning, List.append_nil] at hfirst
    have hidle := h.schedule
    rw [scheduleReadyNodes_idle (by rwa [hrun])] at hidle
    cases hidle
    have hderive : derived = deriveWorkflowState db.run.graph.toWorkflowGraph
        (db.nodeRuns.map (promoteWait env now)) := by
      rw [h.derive, hrun, hnodes]
    have hwaits : db.run.status = .created ∨ db.run.status = .waiting := by tauto
    rcases hlast with ⟨hother, rfl⟩ | ⟨rfl, hschedule⟩
    · rw [hderive] at hother
      simp [hrecorded, hfirst, hrunning, hother]
    · obtain rfl := htime rfl
      rw [scheduleReadyNodes_placements (recordDerived_coupled hc₂ rfl)
        (by rw [recordDerived_run]) hschedule, hrecorded, hfirst]
      simp only [hrunning, hwaits, ← hderive, false_or, and_self, decide_true, if_true]
      refine congrArg (Relayvia.placements db.tasks ++ ·) (handedOut_congr ?_ ?_)
      · show (recordDerived now db.run.status .running _).run = { db.run with status := .running }
        rw [recordDerived_run, hrun]
      · simp [skipInactive, runningStage, hrun, hnodes]

/-! ## All transactions -/

variable {queues cancels : Prop} {c c' : Cell}

theorem Settling.placement_eq (h : Settling queues cancels now c c') (hqueues : ¬queues) :
    c'.2.map ExecutionTask.placement = c.2.map ExecutionTask.placement := by
  cases h with
  | queue h => exact absurd h hqueues
  | skip | promote => rfl
  | cancel =>
      rw [Option.map_map]
      exact congrArg (Option.map · _) (funext placement_cancelTask)

theorem placement_eq_of_settles (h : Relation.ReflTransGen (Settling queues cancels now) c c')
    (hqueues : ¬queues) :
    c'.2.map ExecutionTask.placement = c.2.map ExecutionTask.placement := by
  induction h with
  | refl => rfl
  | tail _ hstep ih => exact (hstep.placement_eq hqueues).trans ih

/-- Only scheduling gives a cell a new placement. -/
theorem CellChange.placement_eq (h : CellChange env db db' op c c') (hop : op.schedules = false) :
    c'.2.map ExecutionTask.placement = c.2.map ExecutionTask.placement := by
  cases h with
  | schedule | reconcile => cases hop
  | cancelRun h => exact placement_eq_of_settles h id
  | _ => rfl

theorem RunOp.exec_placements_kept (hc : Coupled db) (h : op.exec env db = .ok (returned, db'))
    (hop : op.schedules = false) {p : Placement} (hp : p ∈ placements db'.tasks) :
    p ∈ placements db.tasks := by
  have hc' := RunOp.exec_coupled env op hc h
  obtain ⟨t', ht', rfl⟩ := List.mem_map.mp hp
  have htask' : taskOfNode db'.tasks t'.nodeRunId = some t' :=
    hc'.taskOfNode_eq_some_iff.mpr ⟨ht', rfl⟩
  obtain ⟨n', hn', -, -⟩ := hc'.cell_of_task (hc'.findTask_eq_some_iff.mpr ⟨ht', rfl⟩)
  obtain ⟨n, -, hcell⟩ := RunOp.exec_cell_back hc h hn'
  have hsame : (taskOfNode db.tasks t'.nodeRunId).map ExecutionTask.placement =
      some t'.placement := by
    rw [htask'] at hcell
    rcases hcell with hsame | hchange
    · rw [← (Prod.mk.inj hsame).2]
      rfl
    · exact (hchange.placement_eq hop).symm
  obtain ⟨t, ht, hplacement⟩ := Option.map_eq_some_iff.mp hsame
  exact List.mem_map.mpr ⟨t, (hc.taskOfNode_eq_some_iff.mp ht).1, hplacement⟩

/-- A transaction keeps the placements that it finds and adds the ones that it hands out. -/
theorem RunOp.exec_placements (hc : Coupled db) (h : op.exec env db = .ok (returned, db')) :
    (∀ p ∈ placements db'.tasks, p ∈ placements db.tasks ∨ p ∈ op.handsOut env db) ∧
      ∀ p ∈ op.handsOut env db, p ∈ placements db'.tasks := by
  have hadded (heq : placements db'.tasks = placements db.tasks ++ op.handsOut env db) :
      (∀ p ∈ placements db'.tasks, p ∈ placements db.tasks ∨ p ∈ op.handsOut env db) ∧
        ∀ p ∈ op.handsOut env db, p ∈ placements db'.tasks := by
    rw [heq]
    exact ⟨fun p hp ↦ List.mem_append.mp hp, fun p hp ↦ List.mem_append_right _ hp⟩
  cases op with
  | schedule now => exact hadded (scheduleRun_placements hc (returning_eq_ok_iff.mp h).2)
  | reconcile now =>
      have h := (returning_eq_ok_iff.mp h).2
      rcases reconcile_cases hc h with ⟨hstatus, rfl⟩ | ⟨hstatus, rfl⟩ | ⟨hactive, s₁, s₂, _, htrace⟩
      · apply hadded
        rw [placements_cancelRunTasks, Session.settled_flushed, RunOp.handsOut_reconcile,
          reconcileSchedules]
        simp [hstatus]
      · apply hadded
        rw [RunOp.handsOut_reconcile, reconcileSchedules]
        rcases hstatus with hstatus | hstatus | hstatus <;> simp [hstatus]
      · exact hadded (htrace.placements hc hactive)
  | _ =>
      exact ⟨fun p hp ↦ .inl (RunOp.exec_placements_kept hc h rfl hp),
        fun p hp ↦ absurd hp List.not_mem_nil⟩

end Relayvia
