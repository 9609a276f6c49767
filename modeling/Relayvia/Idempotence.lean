import Relayvia.Progress

/-!
# Idempotent reconciliation

A second reconciliation at the same clock reading finds nothing to promote, to
skip, to schedule or to cancel, and derives the status that the first one wrote.
-/

namespace Relayvia

variable {env : Env} {now : Time} {db db' : RunRecord} {g : WorkflowGraph}
  {nodeRuns : List NodeRun} {id : NodeId} {s s' : Session}

/-! ## Steps that change nothing -/

/-- No timer is due, and none is naive. -/
def Promoted (env : Env) (now : Time) (nodeRuns : List NodeRun) : Prop :=
  ∀ n ∈ nodeRuns, waitElapsed env now n = false ∧ waitUncomparable env n = false

theorem promoteDueWaits_fixed (h : Promoted env now s.nodeRuns) :
    promoteDueWaits env now s = .ok s := by
  have hnone : s.nodeRuns.any (waitUncomparable env) = false := by
    simpa using fun n hn ↦ (h n hn).2
  have hrows : s.nodeRuns.map (promoteWait env now) = s.nodeRuns := by
    refine (List.map_congr_left fun n hn ↦ ?_).trans (List.map_id _)
    simp [promoteWait, (h n hn).1]
  have hevents : s.nodeRuns.flatMap (promoteEvents env now) = [] := by
    refine List.flatMap_eq_nil_iff.mpr fun n hn ↦ ?_
    simp [promoteEvents, (h n hn).1]
  rw [promoteDueWaits, hnone, hrows, hevents, List.append_nil]
  rfl

theorem skipInactive_fixed (hnodup : (s.nodeRuns.map NodeRun.nodeId).Nodup)
    (h : Skipped s.run.graph.toWorkflowGraph s.nodeRuns) : skipInactive now s = s := by
  have hrows : markUnreachableConditionNodes s.run.graph.toWorkflowGraph now s.nodeRuns =
      s.nodeRuns := h.skipLoop_eq _
  have hnone : (s.nodeRuns.filter fun n ↦
      statusOf s.nodeRuns n.nodeId = some .pending ∧ n.status = .skipped) = [] := by
    refine List.filter_eq_nil_iff.mpr fun n hn ↦ ?_
    have hfind : findNodeRun s.nodeRuns n.nodeId = some n :=
      (Table.find?_eq_some_iff hnodup).mpr ⟨hn, rfl⟩
    cases hstatus : n.status <;> simp [statusOf, hfind, hstatus]
  rw [skipInactive, hrows, hnone]
  simp

/-- The turn of a node that does not resolve. -/
theorem scheduleNode_passed (h : dispatches env s.toRunRecord id = false) :
    scheduleNode env now s id = .ok none := by
  unfold scheduleNode
  split
  · next n node hn hnode =>
    have hunresolved : dispatch env s.toRunRecord node = .unresolved := by
      simpa [dispatches, hnode] using h
    simp only [hunresolved]
    split <;> rfl
  · rfl

theorem scheduleLoop_passed {ids : List NodeId}
    (h : ∀ id ∈ ids, dispatches env s.toRunRecord id = false) :
    scheduleLoop env now s ids = .ok s := by
  induction ids with
  | nil => rfl
  | cons id ids ih =>
      rw [scheduleLoop, scheduleNode_passed (h id (by simp))]
      exact ih fun id' hid' ↦ h id' (by simp [hid'])

theorem scheduleReadyNodes_fixed (hnodup : (s.nodeRuns.map NodeRun.nodeId).Nodup)
    (hskipped : Skipped s.run.graph.toWorkflowGraph s.nodeRuns)
    (hready : ∀ id ∈ readyNodes s, dispatches env s.toRunRecord id = false) :
    scheduleReadyNodes env now s = .ok s := by
  unfold scheduleReadyNodes
  split
  · rfl
  · dsimp only
    rw [skipInactive_fixed hnodup hskipped]
    exact scheduleLoop_passed hready

theorem cancelRunTasks_fixed (htasks : ∀ t ∈ s.tasks, t.status.isTerminal = true)
    (hpending : ∀ n ∈ s.nodeRuns, n.status ≠ .pending) : cancelRunTasks now s = s := by
  have hnone : (s.tasks.filter fun task ↦ ¬task.status.isTerminal) = [] :=
    List.filter_eq_nil_iff.mpr fun t ht ↦ by simp [htasks t ht]
  have hkept : s.tasks.map (cancelTask now) = s.tasks :=
    (List.map_congr_left fun t ht ↦ by simp [cancelTask, htasks t ht]).trans (List.map_id _)
  have hrows : s.nodeRuns.map (cancelNode now s.tasks) = s.nodeRuns := by
    refine (List.map_congr_left fun n hn ↦ ?_).trans (List.map_id _)
    have hopen : ¬(¬n.status.isTerminal ∧ (n.status = .pending ∨
        ∃ t ∈ s.tasks, t.nodeRunId = n.nodeId ∧ ¬t.status.isTerminal)) := by
      rintro ⟨-, h | ⟨t, ht, -, hlive⟩⟩
      · exact hpending n hn h
      · exact hlive (htasks t ht)
    exact if_neg hopen
  rw [cancelRunTasks, hnone, hkept, hrows]
  simp

/-- An active run whose reconciliation changes nothing. -/
structure Reconciled (env : Env) (now : Time) (db : RunRecord) : Prop where
  active : db.run.status = .running ∨ db.run.status = .waiting
  promoted : Promoted env now db.nodeRuns
  skipped : db.run.status = .running → Skipped db.run.graph.toWorkflowGraph db.nodeRuns
  passed : db.run.status = .running →
    ∀ id ∈ readyNodes { db with }, dispatches env db id = false
  derived : deriveWorkflowState db.run.graph.toWorkflowGraph db.nodeRuns = db.run.status
  reason : db.run.waitingReason =
    if db.run.status = .waiting then waitingReason db.nodeRuns else none

theorem commit_flushed (db : RunRecord) : ({ db with } : Session).commit = .ok db := rfl

theorem Reconciled.reconcile_eq (h : Reconciled env now db)
    (hnodup : (db.nodeRuns.map NodeRun.nodeId).Nodup) : reconcile env now db = .ok db := by
  have hpromote : promoteDueWaits env now { db with } = .ok { db with } :=
    promoteDueWaits_fixed h.promoted
  have hschedule : scheduleReadyNodes env now { db with } = .ok { db with } := by
    rcases h.active with hrunning | hwaiting
    · exact scheduleReadyNodes_fixed hnodup (h.skipped hrunning) (h.passed hrunning)
    · exact scheduleReadyNodes_idle (by simp [hwaiting])
  have hderive : reconcileDerive env now { db with } = .ok (db.run.status, { db with }) := by
    rw [reconcileDerive, hpromote, Outcome.ok_bind, hschedule, Outcome.ok_bind]
    dsimp only
    rw [if_pos h.derived, h.derived]
    rfl
  have hkept : ({ db.run with
      waitingReason := if db.run.status = .waiting then waitingReason db.nodeRuns else none } :
        WorkflowRun) = db.run := by
    rw [← h.reason]
  have hfinish : reconcileFinish env now db.run.status db.run.status { db with } =
      .ok { db with } := by
    unfold reconcileFinish recordDerived
    dsimp only
    rw [if_pos rfl]
    by_cases hrunning : db.run.status = .running
    · rw [if_pos hrunning, hschedule, Outcome.ok_bind, hkept]
      rfl
    · rw [if_neg hrunning, pure_bind, hkept]
      rfl
  have hactive : reconcileRun env now { db with } = .ok (db.run.status, { db with }) := by
    unfold reconcileRun
    rcases h.active with hstatus | hstatus <;> simp only [hstatus] at hderive hfinish ⊢
    · rw [hderive, Outcome.ok_bind, hfinish]
      rfl
    · rw [hderive, Outcome.ok_bind, hfinish]
      rfl
  rw [reconcile, hactive]
  rfl

/-! ## What the first call leaves -/

theorem promoted_of_not_waiting {n : NodeRun} (h : n.status ≠ .waiting) :
    waitElapsed env now n = false ∧ waitUncomparable env n = false := by
  simp [waitElapsed, waitUncomparable, resumeInstant, h]

theorem promoteDueWaits_promoted (h : promoteDueWaits env now s = .ok s') :
    Promoted env now s'.nodeRuns := by
  obtain ⟨-, -, -, hnodes⟩ := promoteDueWaits_ok h
  have hnone : ∀ n ∈ s.nodeRuns, waitUncomparable env n = false := by
    unfold promoteDueWaits at h
    split at h
    · cases h
    · next hany => simpa using hany
  rw [hnodes]
  intro n hn
  obtain ⟨m, hm, rfl⟩ := List.mem_map.mp hn
  by_cases helapsed : waitElapsed env now m = true
  · exact promoted_of_not_waiting (by simp [promoteWait, helapsed])
  · have hkept : promoteWait env now m = m := if_neg helapsed
    rw [hkept]
    exact ⟨by simpa using helapsed, hnone m hm⟩

/-- A ready node is not skipped, and skipping others keeps it ready. -/
theorem isReady_skipLoop {k : ℕ} (h : isReady g nodeRuns id = true) :
    isReady g (skipLoop g now k nodeRuns) id = true := by
  induction k generalizing nodeRuns with
  | zero => exact h
  | succ k ih =>
      rw [skipLoop]
      split
      · refine ih ?_
        obtain ⟨hpending, hactive, hsources⟩ := isReady_iff.mp h
        obtain ⟨n, hn, hstatus⟩ := statusOf_eq_some_iff.mp hpending
        have hrow : findNodeRun (skipPass g now nodeRuns) id = some n := by
          have hid : n.nodeId = id := Table.key_of_find? hn
          exact skipPass_kept hn (by simp [isUnreachable, hid, hactive])
        have hstatus' : statusOf (skipPass g now nodeRuns) id = statusOf nodeRuns id := by
          rw [statusOf, hrow, statusOf, hn]
        refine (isReady_congr hstatus' fun e he ↦ ?_).trans h
        -- the source of an inactive edge has ended, so its row is not PENDING
        have hdecided : sourceState nodeRuns e.source ≠ .unfinished := by
          intro hunfinished
          have hedge : e ∈ activeEdges g nodeRuns id := by
            refine List.mem_filter.mpr ⟨he, ?_⟩
            rw [edgeIsActive_eq, hunfinished]
            rfl
          obtain ⟨selected, hselected⟩ := statusOf_completed_iff.mp (hsources e hedge)
          rw [hselected] at hunfinished
          cases hunfinished
        cases hm : findNodeRun nodeRuns e.source with
        | none => simp [sourceState, hm] at hdecided
        | some m =>
            have hopen : m.status ≠ .pending := by
              intro hpending
              simp [sourceState, hm, hpending] at hdecided
            rw [sourceState, skipPass_kept hm (by simp [isUnreachable, hopen]), sourceState, hm]
      · exact h

theorem mem_readyNodes_skipInactive (h : id ∈ readyNodes s) :
    id ∈ readyNodes (skipInactive now s) := by
  obtain ⟨hid, hready⟩ := mem_readyNodes.mp h
  exact mem_readyNodes.mpr ⟨hid, isReady_skipLoop hready⟩

/-- When WAITING nodes are there, only a node in flight or a ready one keeps the run
RUNNING. -/
theorem deriveWorkflowState_eq_running_iff (hfailed : ∀ n ∈ nodeRuns, n.status ≠ .failed)
    (hopen : ∃ n ∈ nodeRuns, n.status.isTerminal = false) :
    deriveWorkflowState g nodeRuns = .running ↔ ((∃ n ∈ nodeRuns, n.status = .waiting) →
      (∃ n ∈ nodeRuns, n.status.inFlight = true) ∨ findReadyNodes g nodeRuns ≠ []) := by
  have hnone : nodeRuns.any (·.status = .failed) = false := by simpa using hfailed
  have hlive : nodeRuns.all (·.status.isTerminal) = false := by simpa using hopen
  rw [deriveWorkflowState, hnone, hlive]
  by_cases hwaiting : ∃ n ∈ nodeRuns, n.status = .waiting
  · have hany : nodeRuns.any (·.status = .waiting) = true := by simpa using hwaiting
    by_cases hflight : ∃ n ∈ nodeRuns, n.status.inFlight = true
    · have hflight' : nodeRuns.any (·.status.inFlight) = true := by simpa using hflight
      simp [hany, hflight', hflight]
    · have hflight' : nodeRuns.any (·.status.inFlight) = false := by simpa using hflight
      by_cases hready : findReadyNodes g nodeRuns = [] <;>
        simp [hany, hflight', hready, hwaiting, hflight]
  · have hany : nodeRuns.any (·.status = .waiting) = false := by simpa using hwaiting
    simp [hany, hwaiting]

theorem Promoted.rows {rows : List NodeRun} (h : Promoted env now rows)
    (hrows : ∀ n ∈ nodeRuns, n.status = .queued ∨ n.status = .skipped ∨ n ∈ rows) :
    Promoted env now nodeRuns := by
  intro n hn
  rcases hrows n hn with hstatus | hstatus | hmem
  · exact promoted_of_not_waiting (by simp [hstatus])
  · exact promoted_of_not_waiting (by simp [hstatus])
  · exact h n hmem

namespace ReconcileTrace

variable {s₁ s₂ : Session} {derived : WorkflowRunStatus}

theorem promoted_rows (h : ReconcileTrace env now db s₁ s₂ derived db') :
    Promoted env now (db.nodeRuns.map (promoteWait env now)) := by
  rw [← (promoteDueWaits_ok h.promote).2.2.2]
  exact promoteDueWaits_promoted h.promote

theorem reconciled_waiting (h : ReconcileTrace env now db s₁ s₂ .waiting db') (hc : Coupled db) :
    Reconciled env now db' := by
  have hstatus := h.status_eq hc
  obtain ⟨finishedAt, s', rfl, -, hfinish⟩ := h.finish
  obtain ⟨s₄, rfl, ⟨-, rfl⟩ | ⟨hrunning, -⟩⟩ := reconcileFinish_ok hfinish
  · have hrows : ∀ s : Session, (recordDerived now db.run.status .waiting s).nodeRuns = s.nodeRuns := by
      intro s
      unfold recordDerived
      split <;> rfl
    refine
      { active := .inr hstatus
        promoted := ?_
        skipped := fun h ↦ absurd (hstatus.symm.trans h) (by decide)
        passed := fun h ↦ absurd (hstatus.symm.trans h) (by decide)
        derived := ?_
        reason := ?_ }
    · rw [Session.settled_nodeRuns, hrows]
      exact h.promoted_rows.rows fun n hn ↦ h.mem_scheduled hc hn
    · rw [hstatus]
      simp only [Session.settled_run, Session.settled_nodeRuns, recordDerived_run, hrows]
      exact h.derive.symm
    · rw [if_pos hstatus]
      rfl
  · cases hrunning

/-- What kept a new or WAITING run RUNNING is still there once it is scheduled. -/
theorem derived_running (h : ReconcileTrace env now db s₁ s₂ .running db') (hc : Coupled db)
    (hopen : ∃ n ∈ db'.nodeRuns, n.status.isTerminal = false) :
    deriveWorkflowState db.run.graph.toWorkflowGraph db'.nodeRuns = .running := by
  have hgraph : s₂.run.graph = db.run.graph := by rw [h.scheduled_run hc]
  have hderived := h.derive
  rw [hgraph] at hderived
  obtain ⟨s, s', hrun, hnodes, hcs, hschedule, hrows, -, ⟨-, rfl⟩ | ⟨-, hsame⟩⟩ := h.scheduled hc
  · rw [hrows, hderived]
  refine (deriveWorkflowState_eq_running_iff (h.nothing_failed hc) hopen).mpr ?_
  rintro ⟨n, hn, hwaiting⟩
  have hbefore : n ∈ s₂.nodeRuns := by
    rw [hsame, hnodes]
    exact (((h.rows hc).rows n hn).resolve_left (by simp [hwaiting])).resolve_left (by simp [hwaiting])
  have hspec := deriveWorkflowState_spec db.run.graph.toWorkflowGraph s₂.nodeRuns
  rw [← hderived] at hspec
  have hcause := (deriveWorkflowState_eq_running_iff hspec.1 ⟨n, hbefore, by rw [hwaiting]; rfl⟩).mp
    hderived.symm ⟨n, hbefore, hwaiting⟩
  rcases hcause with ⟨m, hm, hflight⟩ | hready
  · rw [hsame] at hm
    have hfind := hcs.findNodeRun_eq_some_iff.mpr ⟨hm, rfl⟩
    rw [Session.settled_nodeRuns, hnodes] at hfind
    have hkept := (h.rows hc).kept _ m hfind fun hpending ↦ by
      simp [hpending, NodeRunStatus.inFlight] at hflight
    exact .inl ⟨m, Table.mem_of_find? hkept, hflight⟩
  · obtain ⟨id, hid⟩ := List.exists_mem_of_ne_nil _ hready
    have hrunning : s.run.status = .running := by rw [hrun]
    have hscheduled := (scheduleReadyNodes_running Rights.all hcs hrunning).of_ok hschedule
    have hlisted : id ∈ readyNodes (skipInactive now s) := by
      refine mem_readyNodes_skipInactive ?_
      rw [readyNodes, hrun, ← hsame]
      exact hid
    by_cases hdispatches : dispatches env (skipInactive now s).toRunRecord id = true
    · obtain ⟨m, hm, hqueued⟩ := statusOf_eq_some_iff.mp (hscheduled.queued id hlisted hdispatches)
      rw [← hrows] at hm
      exact .inl ⟨m, Table.mem_of_find? hm, by rw [hqueued]; rfl⟩
    · refine .inr (List.ne_nil_of_mem (a := id) ?_)
      have hleft := hscheduled.mem_readyNodes_iff.mpr ⟨hlisted, by simpa using hdispatches⟩
      rw [readyNodes, hscheduled.run, ← hrows] at hleft
      have hgraph' : (skipInactive now s).run.graph = db.run.graph := by
        rw [show (skipInactive now s).run = s.run from rfl, hrun]
      rwa [hgraph'] at hleft

theorem reconciled_running (h : ReconcileTrace env now db s₁ s₂ .running db') (hc : Coupled db)
    (hgraph : db'.run.graph = db.run.graph)
    (hopen : ∃ n ∈ db'.nodeRuns, n.status.isTerminal = false) : Reconciled env now db' := by
  have hstatus := h.status_eq hc
  obtain ⟨s, s', hrun, hnodes, hcs, hschedule, hrows, hrun', -⟩ := h.scheduled hc
  have hrunning : s.run.status = .running := by rw [hrun]
  have hscheduled := (scheduleReadyNodes_running Rights.all hcs hrunning).of_ok hschedule
  refine
    { active := .inl hstatus
      promoted := h.promoted_rows.rows (h.rows hc).rows
      skipped := fun _ ↦ hgraph ▸ (h.rows hc).skipped
      passed := fun _ id hid ↦ ?_
      derived := ?_
      reason := ?_ }
  · have hready : id ∈ readyNodes s' := by
      rw [readyNodes, ← hrows]
      rw [readyNodes, hrun'] at hid
      exact hid
    have hpassed := (hscheduled.mem_readyNodes_iff.mp hready).2
    rw [← hscheduled.dispatches_eq] at hpassed
    have hsame : dispatches env db' id = dispatches env
        { s'.toRunRecord with run := { s'.run with waitingReason := none } } id :=
      dispatches_congr hrun' (by rw [hrows]) id
    rw [hsame]
    exact hpassed
  · rw [hgraph, hstatus]
    exact h.derived_running hc hopen
  · rw [hstatus, hrun']
    rfl

end ReconcileTrace

theorem cancelNode_not_pending (tasks : List ExecutionTask) (n : NodeRun) :
    (cancelNode now tasks n).status ≠ .pending := by
  unfold cancelNode
  split
  · simp
  · next h =>
    intro hpending
    exact h ⟨by simp [hpending, NodeRunStatus.isTerminal], .inl hpending⟩

/-- A reconciliation at the same clock reading changes nothing: it leaves all rows as
the first one left them and records no event. -/
theorem reconcile_idempotent {context : ValidationContext}
    (haccepted : Accepted env context db.run.graph.toWorkflowGraph)
    (h : ReachableBy env (RunOp.Executed env) db) (hreconcile : reconcile env now db = .ok db') :
    reconcile env now db' = .ok db' := by
  have hc := h.coupled
  have hstep : RunOp.exec env (.reconcile now) db = .ok (true, db') := by
    rw [RunOp.exec, hreconcile]
    rfl
  have hallowed : RunOp.Executed env db (.reconcile now) := trivial
  have h' : ReachableBy env (RunOp.Executed env) db' := .step h hallowed hstep
  have hc' := h'.coupled
  have hgraph : db'.run.graph = db.run.graph :=
    Steps.graph ((reconcile_sound Rights.all hc trivial).of_ok hreconcile)
  rcases reconcile_cases hc hreconcile with ⟨hcancelled, rfl⟩ | ⟨-, rfl⟩ |
    ⟨hactive, s₁, s₂, derived, htrace⟩
  · have hfixed : cancelRunTasks now { (cancelRunTasks now { db with }).settled with } =
        { (cancelRunTasks now { db with }).settled with } := by
      refine cancelRunTasks_fixed (fun t ht ↦ ?_) fun n hn ↦ ?_
      · have hmem : t ∈ db.tasks.map (cancelTask now) := by
          simpa [cancelRunTasks, Session.settled, Session.numbered] using ht
        obtain ⟨u, -, rfl⟩ := List.mem_map.mp hmem
        exact cancelTask_terminal now u
      · obtain ⟨m, -, rfl⟩ := List.mem_map.mp hn
        exact cancelNode_not_pending _ m
    have hstatus : (cancelRunTasks now { db with }).settled.run.status = .cancelled := hcancelled
    unfold reconcile reconcileRun
    simp only [hstatus, hfixed]
    rfl
  · exact hreconcile
  · have hended (hstatus : db'.run.status = .failed ∨ db'.run.status = .completed) :
        reconcile env now db' = .ok db' := by
      unfold reconcile reconcileRun
      rcases hstatus with hstatus | hstatus <;>
        · simp only [hstatus]
          rfl
    have hstatus := htrace.status_eq hc
    rcases htrace.derived_cases with rfl | rfl | rfl | rfl
    · exact hended (.inl hstatus)
    · exact hended (.inr hstatus)
    · exact (htrace.reconciled_waiting hc).reconcile_eq hc'.nodeIds_nodup
    · have hopen := htrace.exists_open hc h.waitsIdly haccepted.shaped hgraph hc' h'.branched hactive
      exact (htrace.reconciled_running hc hgraph hopen).reconcile_eq hc'.nodeIds_nodup

/-- The reconciliation that queues the approval of the started review run. -/
theorem reconcile_idempotent_reviewRun : ∃ db db',
    execAll plainEnv [.startRun 0] reviewRun = .ok db ∧ reconcile plainEnv 0 db = .ok db' ∧
      statusOf db'.nodeRuns "ask" = some .queued ∧ reconcile plainEnv 0 db' = .ok db' := by
  obtain ⟨db, hdb, db', hdb', hgraph, hqueued⟩ : ∃ db,
      execAll plainEnv [.startRun 0] reviewRun = .ok db ∧ ∃ db',
        reconcile plainEnv 0 db = .ok db' ∧ db.run.graph = reviewGraph ∧
          statusOf db'.nodeRuns "ask" = some .queued :=
    ⟨_, rfl, _, rfl, rfl, rfl⟩
  have hops : ∀ op ∈ [RunOp.startRun 0], ∀ db, op.Executed plainEnv db := by
    simp [RunOp.Executed]
  have haccepted : Accepted plainEnv {} db.run.graph.toWorkflowGraph := by
    rw [hgraph]
    exact accepted_reviewGraph
  exact ⟨db, db', hdb, hdb', hqueued,
    reconcile_idempotent haccepted (.execAll hops (.created createRun_reviewRun) hdb) hdb'⟩

end Relayvia
