import Relayvia.Progress
import Relayvia.Trace.Records

/-!
# Recorded scheduling and reconciliation

Skipping, queueing and promoting record every change.  `cancel_run_tasks` records
the NodeRuns that have a live task, and not the PENDING ones.
-/

namespace Relayvia

variable {env : Env} {now : Time} {db db' : RunRecord} {id : NodeId} {s s' : Session}

/-! ## Queueing -/

theorem enqueue_records {n : NodeRun} {node : WorkflowNode} {payload : Dict}
    {requiredCapability runnerId : Option String} :
    Returns (enqueue env now s n node payload requiredCapability runnerId) fun s' ↦
      Records s.toRunRecord s'.toRunRecord := by
  refine Outcome.Holds.bind (returns_any _) fun _ _ ↦ ?_
  exact .of_event rfl (fun _ ↦ ⟨rfl, rfl, rfl⟩) rfl rfl rfl

theorem attachWorkspace_records {node : WorkflowNode} {payload : Dict} {runnerId : Option String} :
    Returns (attachWorkspace env s node payload runnerId) fun p ↦
      Records s.toRunRecord p.1.toRunRecord := by
  unfold attachWorkspace
  split
  · split
    · refine Outcome.Holds.ite (fun _ ↦ .refl _) fun _ ↦ ?_
      have hflush (s' : Session) (hnodes : s'.nodeRuns = s.nodeRuns)
          (hevents : s'.events = s.events) :
          Returns s'.flush fun s'' ↦ Records s.toRunRecord s''.toRunRecord :=
        Outcome.Holds.bind (returns_any _) fun _ _ ↦ .same hnodes hevents
      refine Outcome.Holds.bind (hflush _ ?_ ?_) fun _ h ↦ Outcome.holds_pure.mpr h
      · exact rfl
      · exact rfl
    · exact .refl _
  · exact .refl _

theorem scheduleNode_records :
    Returns (scheduleNode env now s id) fun r ↦
      ∀ s', r = some s' → Records s.toRunRecord s'.toRunRecord := by
  unfold scheduleNode
  split
  · next n node hn hnode =>
    refine Outcome.Holds.ite (fun _ ↦ Outcome.holds_pure.mpr (by simp)) fun _ ↦ ?_
    dsimp only
    split
    · exact Outcome.holds_pure.mpr (by simp)
    · refine Outcome.Holds.bind enqueue_records fun s₁ hs₁ ↦ Outcome.holds_pure.mpr ?_
      rintro s' ⟨⟩
      exact hs₁
    · next target input hdispatch =>
      -- the input is written, and then the node is queued
      have hinput : Records s.toRunRecord (s.toRunRecord.modifyNode id fun r ↦
          { r with input := env.sanitizeOutput (.obj input) }) := by
        refine .of_rows rfl (fun r ↦ by split <;> rfl) (fun r ↦ by split <;> rfl)
          (List.append_nil _).symm fun n _ ↦ ?_
        rw [replayNode_nil]
        split <;> rfl
      refine Outcome.Holds.bind attachWorkspace_records ?_
      rintro ⟨s₁, payload⟩ hs₁
      refine Outcome.Holds.bind enqueue_records fun s₂ hs₂ ↦ Outcome.holds_pure.mpr ?_
      rintro s' ⟨⟩
      exact (hinput.trans hs₁).trans hs₂
  · exact Outcome.holds_pure.mpr (by simp)

theorem scheduleLoop_records (ids : List NodeId) :
    Returns (scheduleLoop env now s ids) fun s' ↦ Records s.toRunRecord s'.toRunRecord := by
  induction ids generalizing s with
  | nil => exact .refl _
  | cons id ids ih =>
      refine Outcome.Holds.bind scheduleNode_records fun r hr ↦ ?_
      cases r with
      | none => exact ih
      | some s₁ => exact ih.weaken fun _ h ↦ (hr s₁ rfl).trans h

/-! ## Skipping -/

theorem skipInactive_records (hnodup : (s.nodeRuns.map NodeRun.nodeId).Nodup) :
    Records s.toRunRecord (skipInactive now s).toRunRecord := by
  refine ⟨map_nodeId_skipLoop _ _ _, _, rfl, fun id n hn ↦ ?_⟩
  obtain ⟨n', hn', hinput, hstatus⟩ := skipLoop_row now s.run.graph.toWorkflowGraph
    (s.nodeRuns.length + 1) hn
  refine ⟨n', hn', hinput, ?_⟩
  have hnodup' : ((skipInactive now s).nodeRuns.map NodeRun.nodeId).Nodup := by
    have hids : (skipInactive now s).nodeRuns.map NodeRun.nodeId = s.nodeRuns.map NodeRun.nodeId :=
      map_nodeId_skipLoop _ _ _
    rwa [hids]
  -- the events are about the rows that turned from PENDING to SKIPPED
  refine (replayNode_rows (skipInactive now s).nodeRuns (fun _ ↦ rfl) fun _ ↦ rfl).trans ?_
  split
  · next h =>
    obtain ⟨r, hr, hid, hskipped⟩ := h
    have hfind := (Table.find?_eq_some_iff hnodup').mpr ⟨hr, hid⟩
    obtain rfl := Option.some.inj (hfind.symm.trans hn')
    simp only [decide_eq_true_eq] at hskipped
    exact hskipped.2.symm
  · next h =>
    rcases hstatus with rfl | ⟨hpending, hskipped⟩
    · rfl
    · have hid : n'.nodeId = id := Table.key_of_find? hn'
      refine absurd ⟨n', Table.mem_of_find? hn', hid, ?_⟩ h
      simp [hid, statusOf, hn, hpending, hskipped]

theorem scheduleReadyNodes_records (hnodup : (s.nodeRuns.map NodeRun.nodeId).Nodup) :
    Returns (scheduleReadyNodes env now s) fun s' ↦ Records s.toRunRecord s'.toRunRecord := by
  refine Outcome.Holds.ite (fun _ ↦ .refl _) fun _ ↦ ?_
  exact (scheduleLoop_records _).weaken fun _ h ↦ (skipInactive_records hnodup).trans h

/-! ## Promoting and cancelling -/

variable (env now id) in
/-- The two events of a due wait. -/
theorem replay_promoteEvents (r : NodeRun) (status : NodeRunStatus) :
    replayNode id (promoteEvents env now r) status =
      if r.nodeId = id ∧ waitElapsed env now r = true then .completed else status := by
  unfold promoteEvents
  by_cases helapsed : waitElapsed env now r = true
  · by_cases hid : r.nodeId = id <;>
      simp [helapsed, hid, replayNode, EventLog.replay_cons, RunEvent.effect,
        RunEventType.nodeStatus]
  · simp [helapsed, replayNode_nil]

theorem promoteDueWaits_records (hnodup : (s.nodeRuns.map NodeRun.nodeId).Nodup) :
    Returns (promoteDueWaits env now s) fun s' ↦ Records s.toRunRecord s'.toRunRecord := by
  refine Outcome.Holds.ite (fun _ ↦ trivial) fun _ ↦ ?_
  refine Records.of_rows rfl (fun n ↦ by unfold promoteWait; split <;> rfl)
    (fun n ↦ by unfold promoteWait; split <;> rfl) rfl fun n hn ↦ ?_
  have hreplay := EventLog.replay_flatMap (s := n.status) s.nodeRuns
    (replay_promoteEvents env now n.nodeId)
  refine hreplay.trans ?_
  split
  · next h =>
    obtain ⟨r, hr, hid, helapsed⟩ := h
    obtain rfl := List.inj_on_of_nodup_map hnodup hr hn hid
    rw [promoteWait, if_pos helapsed]
  · next h =>
    rw [promoteWait, if_neg fun helapsed ↦ h ⟨n, hn, rfl, helapsed⟩]

/-- Every NodeRun that is not PENDING is cancelled together with a task of its own. -/
theorem cancelRunTasks_records (hc : Coupled s.settled)
    (hpending : ∀ n ∈ s.nodeRuns, n.status ≠ .pending) :
    Records s.toRunRecord (cancelRunTasks now s).toRunRecord := by
  refine Records.of_rows rfl (cancelNode_nodeId s.tasks)
    (fun n ↦ by unfold cancelNode; split <;> rfl) rfl fun n hn ↦ ?_
  refine (replayNode_rows s.tasks (fun _ ↦ rfl) fun _ ↦ rfl).trans ?_
  split
  · next h =>
    obtain ⟨t, ht, hkey, hlive⟩ := h
    have hlive : t.status.isTerminal = false := by simpa using hlive
    have hcoupling := hc.coupling _ n (hc.findNodeRun_eq_some_iff.mpr ⟨hn, rfl⟩)
    have hmem : t ∈ s.settled.tasks := List.mem_append_left _ ht
    rw [cellStatus, hc.taskOfNode_eq_some_iff.mpr ⟨hmem, hkey⟩] at hcoupling
    have hopen : n.status.isTerminal = false := hcoupling.open_of_live hlive
    rw [cancelNode, if_pos ⟨by simp [hopen], .inr ⟨t, ht, hkey, by simp [hlive]⟩⟩]
  · next h =>
    rw [cancelNode, if_neg]
    rintro ⟨-, hstatus | ⟨t, ht, hkey, hlive⟩⟩
    · exact hpending n hn hstatus
    · exact h ⟨t, ht, hkey, by simpa using hlive⟩

theorem workflowEvent_records (derived : WorkflowRunStatus) (reason : Option String) :
    Records s.toRunRecord (workflowEvent s derived reason).toRunRecord := by
  unfold workflowEvent
  split
  · next eventType htype =>
    refine .silent rfl rfl ?_
    rintro e he
    obtain rfl := List.mem_singleton.mp he
    cases derived <;> cases htype <;> rfl
  · exact .refl _

/-! ## Reconciliation -/

theorem recordDerived_records (hc : Coupled s.settled) {current derived : WorkflowRunStatus}
    (hpending : derived = .failed → ∀ n ∈ s.nodeRuns, n.status ≠ .pending) :
    Records s.toRunRecord (recordDerived now current derived s).toRunRecord := by
  unfold recordDerived
  split
  · exact .refl _
  · dsimp only
    split
    · next hfailed =>
      exact (cancelRunTasks_records hc (hpending hfailed)).trans (workflowEvent_records _ _)
    · exact workflowEvent_records _ _

theorem reconcileFinish_records (hc : Coupled s.settled) {current derived : WorkflowRunStatus}
    (hstatus : s.run.status = derived)
    (hpending : derived = .failed → ∀ n ∈ s.nodeRuns, n.status ≠ .pending)
    (h : reconcileFinish env now current derived s = .ok s') :
    Records s.toRunRecord s'.toRunRecord := by
  have hfirst : Records s.toRunRecord (recordDerived now current derived s).toRunRecord :=
    recordDerived_records hc hpending
  have hc₁ : Coupled (recordDerived now current derived s).settled :=
    recordDerived_coupled hc hstatus
  obtain ⟨s₁, rfl, ⟨-, rfl⟩ | ⟨-, hschedule⟩⟩ := reconcileFinish_ok h
  · exact hfirst.congr rfl rfl
  · exact (hfirst.trans ((scheduleReadyNodes_records hc₁.nodeIds_nodup).of_ok hschedule)).congr
      rfl rfl

/-- Whenever a reconciliation calls `cancel_run_tasks`, it finds no PENDING NodeRun. -/
def ReconcileRecorded (env : Env) (now : Time) (db : RunRecord) : Prop :=
  match db.run.status with
  | .cancelled => ∀ n ∈ db.nodeRuns, n.status ≠ .pending
  | .waiting => (∃ n ∈ db.nodeRuns, n.status = .failed) → ∀ n ∈ db.nodeRuns, n.status ≠ .pending
  | .running => (∃ n ∈ db.nodeRuns, n.status = .failed) →
      ∀ n ∈ (promotedAndSkipped env now db).nodeRuns, n.status = .pending →
        n.nodeId ∈ dispatchable env now db
  | _ => True

/-- No PENDING NodeRun is left when the run fails. -/
theorem ReconcileTrace.failed_pending {s₁ s₂ : Session}
    (h : ReconcileTrace env now db s₁ s₂ .failed db') (hc : Coupled db)
    (hactive : db.run.status = .created ∨ db.run.status = .running ∨ db.run.status = .waiting)
    (hrecorded : ReconcileRecorded env now db) : ∀ n ∈ s₂.nodeRuns, n.status ≠ .pending := by
  have hfailed := h.exists_failed hc
  obtain ⟨hrun, -, -, hnodes⟩ := promoteDueWaits_ok h.promote
  intro n hn hpending
  rcases hactive with hstatus | hstatus | hstatus
  · have hlegal := h.legal
    rw [h.scheduled_run hc] at hlegal
    simp [hstatus, WorkflowRunStatus.transitions] at hlegal
  · rw [ReconcileRecorded, hstatus] at hrecorded
    have hrunning : s₁.run.status = .running := by rw [hrun, hstatus]
    have hscheduled := (scheduleReadyNodes_running Rights.all (h.promoted_coupled hc)
      hrunning).of_ok h.schedule
    have hrows : (skipInactive now s₁).run = (promotedAndSkipped env now db).run ∧
        (skipInactive now s₁).nodeRuns = (promotedAndSkipped env now db).nodeRuns := by
      simp [skipInactive, promotedAndSkipped, hrun, hnodes]
    have hfind : findNodeRun s₂.nodeRuns n.nodeId = some n :=
      (h.scheduled_coupled hc).findNodeRun_eq_some_iff.mpr ⟨hn, rfl⟩
    rcases hscheduled.row n.nodeId with ⟨-, -, hqueued⟩ | hkept
    · simp [statusOf, hfind, hpending] at hqueued
    · rw [hkept] at hfind
      have hmem := hrecorded hfailed n (hrows.2 ▸ Table.mem_of_find? hfind) hpending
      obtain ⟨hready, hdispatches⟩ := List.mem_filter.mp hmem
      have hready' : n.nodeId ∈ readyNodes (skipInactive now s₁) := by
        rwa [readyNodes, hrows.1, hrows.2]
      have hqueued := hscheduled.queued _ hready'
        ((dispatches_congr hrows.1 (by rw [hrows.2]) _).trans hdispatches)
      rw [statusOf, hkept, hfind] at hqueued
      simp [hpending] at hqueued
  · rw [ReconcileRecorded, hstatus] at hrecorded
    have hidle := h.schedule
    rw [scheduleReadyNodes_idle (by simp [hrun, hstatus])] at hidle
    cases hidle
    rw [hnodes] at hn
    obtain ⟨r, hr, rfl⟩ := List.mem_map.mp hn
    rcases promoteWait_status env now r with heq | heq
    · exact hrecorded hfailed r hr (heq ▸ hpending)
    · simp [hpending] at heq

theorem reconcile_records (hc : Coupled db) (hrecorded : ReconcileRecorded env now db)
    (h : reconcile env now db = .ok db') : Records db db' := by
  have hc₀ : Coupled ({ db with } : Session).settled := by rwa [Session.settled_flushed]
  rcases reconcile_cases hc h with ⟨hcancelled, rfl⟩ | ⟨-, rfl⟩ |
    ⟨hactive, s₁, s₂, derived, htrace⟩
  · rw [ReconcileRecorded, hcancelled] at hrecorded
    exact (cancelRunTasks_records hc₀ hrecorded).congr rfl rfl
  · exact .refl db'
  · have hc₁ := htrace.promoted_coupled hc
    have hpromote : Records db s₁.toRunRecord :=
      (promoteDueWaits_records hc₀.nodeIds_nodup).of_ok htrace.promote
    have hschedule : Records s₁.toRunRecord s₂.toRunRecord :=
      (scheduleReadyNodes_records hc₁.nodeIds_nodup).of_ok htrace.schedule
    obtain ⟨finishedAt, s', rfl, -, hfinish⟩ := htrace.finish
    have hderived := htrace.derived_coupled hc finishedAt
    have hrest := reconcileFinish_records hderived rfl (fun hfailed ↦ by
      subst hfailed
      exact htrace.failed_pending hc hactive hrecorded) hfinish
    exact (hpromote.trans (hschedule.join hrest rfl rfl)).congr rfl rfl

theorem scheduleRun_records (hc : Coupled db) (h : scheduleRun env now db = .ok db') :
    Records db db' := by
  have hc₀ : Coupled ({ db with } : Session).settled := by rwa [Session.settled_flushed]
  obtain ⟨s', hschedule, hcommit⟩ := Outcome.bind_eq_ok_iff.mp h
  have hsteps := (scheduleReadyNodes_sound Rights.all hc₀).of_ok hschedule
  obtain rfl : db' = s'.settled := (commit_sound (hsteps.coupled hc₀)).of_ok hcommit
  exact ((scheduleReadyNodes_records hc₀.nodeIds_nodup).of_ok hschedule).congr rfl rfl

/-! ## Cancellation -/

theorem commit_records : Returns s.commit fun db' ↦ Records s.toRunRecord db' := by
  have hflush : Returns s.flush fun s' ↦ Records s.toRunRecord s'.toRunRecord :=
    Outcome.Holds.bind (returns_any _) fun _ _ ↦ .same rfl rfl
  exact hflush.bind fun _ h ↦ h

theorem cancelRunStatus_records : Returns (cancelRunStatus now db) fun db' ↦
    db'.nodeRuns = db.nodeRuns ∧ db'.tasks = db.tasks ∧ Records db db' := by
  refine Outcome.Holds.ite (fun _ ↦ Outcome.holds_throw_bind.mpr trivial) fun _ ↦ ?_
  refine Outcome.Holds.bind (Outcome.Holds.mono advanceRun_records (fun _ h ↦ h)
    fun _ _ ↦ trivial) ?_
  rintro db₁ ⟨hnodes, htasks, hevents⟩
  exact ⟨hnodes, htasks, .silent hnodes (by rw [RunRecord.recordEvent, hevents])
    (by simp [RunEventType.nodeStatus])⟩

/-- Without PENDING and WAITING NodeRuns every open one has a live task, whose event
reports the cancellation. -/
theorem cancelRun_records (hc : Coupled db)
    (hbusy : ∀ n ∈ db.nodeRuns, n.status ≠ .pending ∧ n.status ≠ .waiting) :
    Returns (cancelRun now db) (Records db) := by
  refine Outcome.Holds.bind cancelRunStatus_records ?_
  rintro db₁ ⟨hnodes, htasks, hstatus⟩
  refine Outcome.Holds.weaken commit_records fun db' hdb' ↦ ?_
  refine (hstatus.join ?_ rfl rfl).trans hdb'
  refine Records.of_rows cancelRunTasks_nodeRuns (fun n ↦ by unfold cancelOpenNode; split <;> rfl)
    (fun n ↦ by unfold cancelOpenNode; split <;> rfl) rfl fun n hn ↦ ?_
  refine (replayNode_rows (cancelOpenNodes now db₁).tasks (fun _ ↦ rfl) fun _ ↦ rfl).trans ?_
  rw [hnodes] at hn
  have hcoupling := hc.coupling _ n (hc.findNodeRun_eq_some_iff.mpr ⟨hn, rfl⟩)
  split
  · next h =>
    obtain ⟨t, ht, hkey, hlive⟩ := h
    have ht : t ∈ db.tasks := htasks ▸ ht
    rw [cellStatus, hc.taskOfNode_eq_some_iff.mpr ⟨ht, hkey⟩] at hcoupling
    have hopen : n.status.isTerminal = false := hcoupling.open_of_live (by simpa using hlive)
    rw [cancelOpenNode, if_neg (by simp [hopen])]
  · next h =>
    by_cases hopen : n.status.isTerminal = true
    · rw [cancelOpenNode, if_pos hopen]
    · obtain ⟨t, ht, hkey, hlive⟩ := hc.live_task hn (by simpa using hopen) (hbusy n hn).1
        (hbusy n hn).2
      exact absurd ⟨t, htasks.symm ▸ ht, hkey, by simpa using hlive⟩ h

end Relayvia
