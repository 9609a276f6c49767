import Relayvia.Bookkeeping.RunRow

/-!
# Run gating

While a run is not RUNNING nothing of it is queued, claimed or started, and a cycle of
pause and resume keeps its tasks.
-/

namespace Relayvia

variable {env : Env} {now : Time} {db db' : RunRecord} {op : RunOp} {returned : Bool}
  {queues cancels : Prop} {c c' : Cell}

/-! ## Cells -/

/-- Every NodeRun after an operation was there before, with its cell changed at most as
`CellChange` says. -/
theorem RunOp.exec_cell_back (hc : Coupled db) (h : op.exec env db = .ok (returned, db'))
    {id : NodeId} {n' : NodeRun} (hn' : findNodeRun db'.nodeRuns id = some n') :
    ∃ n, findNodeRun db.nodeRuns id = some n ∧
      ((n', taskOfNode db'.tasks id) = (n, taskOfNode db.tasks id) ∨
        CellChange env db db' op (n, taskOfNode db.tasks id) (n', taskOfNode db'.tasks id)) := by
  have hsteps := (RunOp.exec_sound hc (RunOp.promised_all db op)).of_ok h
  have hc' : Coupled db' := Steps.coupled hsteps hc
  have hid : id ∈ db.run.graph.nodeIds := by
    obtain ⟨hmem, hkey⟩ := hc'.findNodeRun_eq_some_iff.mp hn'
    have hid' := hc'.mem_nodeIds hmem
    rwa [hkey, show db'.run.graph = db.run.graph from Steps.graph hsteps] at hid'
  obtain ⟨n, hn⟩ := hc.exists_nodeRun hid
  obtain ⟨n'', hn'', hcell⟩ := RunOp.exec_cellChange hc h id n hn
  rw [hn'] at hn''
  cases hn''
  exact ⟨n, hn, hcell⟩

/-- What settling does without queueing: no task is new, and statuses stay or end. -/
structure Quiescent (c c' : Cell) : Prop where
  task : ∀ u', c'.2 = some u' → ∃ u, c.2 = some u ∧ u'.id = u.id ∧
    (u' = u ∨ u'.status.isTerminal = true)
  node : c'.1.status = c.1.status ∨ c'.1.status.isTerminal = true

theorem Quiescent.refl (c : Cell) : Quiescent c c :=
  ⟨fun u' hu' ↦ ⟨u', hu', rfl, .inl rfl⟩, .inl rfl⟩

theorem Quiescent.trans {c'' : Cell} (h : Quiescent c c') (h' : Quiescent c' c'') :
    Quiescent c c'' := by
  constructor
  · intro u'' hu''
    obtain ⟨u', hu', hid', hstep'⟩ := h'.task u'' hu''
    obtain ⟨u, hu, hid, hstep⟩ := h.task u' hu'
    refine ⟨u, hu, hid'.trans hid, ?_⟩
    rcases hstep' with rfl | hended
    · exact hstep
    · exact .inr hended
  · rcases h'.node with heq | hended
    · rw [heq]
      exact h.node
    · exact .inr hended

theorem Settling.quiescent (h : Settling queues cancels now c c') (hqueues : ¬queues) :
    Quiescent c c' := by
  cases h with
  | queue h => exact absurd h hqueues
  | skip => exact ⟨by simp, .inr rfl⟩
  | promote => exact ⟨fun u' hu' ↦ ⟨u', hu', rfl, .inl rfl⟩, .inr rfl⟩
  | cancel =>
      refine ⟨fun u' hu' ↦ ?_, .inr rfl⟩
      obtain ⟨u, hu, rfl⟩ := Option.map_eq_some_iff.mp hu'
      exact ⟨u, hu, cancelTask_id u, .inr (cancelTask_terminal now u)⟩

theorem quiescent_of_settles (h : Relation.ReflTransGen (Settling queues cancels now) c c')
    (hqueues : ¬queues) : Quiescent c c' := by
  induction h with
  | refl => exact .refl c
  | tail _ hstep ih => exact ih.trans (hstep.quiescent hqueues)

/-- What an operation may do to a cell while the run is not RUNNING. -/
structure CellGated (op : RunOp) (c c' : Cell) : Prop where
  task : ∀ u', c'.2 = some u' → ∃ u, c.2 = some u ∧ u'.id = u.id ∧
    (u'.status = .claimed ∨ u'.status = .running → u'.status = u.status)
  running : c'.1.status = .running → c.1.status = .running
  queued : c'.1.status = .queued →
    c.1.status = .queued ∨ c.1.status = .retrying ∧ ∃ now, op = .promoteDueRetries now

namespace CellGated

theorem refl (op : RunOp) (c : Cell) : CellGated op c c :=
  ⟨fun u' hu' ↦ ⟨u', hu', rfl, fun _ ↦ rfl⟩, id, .inl⟩

theorem of_quiescent (h : Quiescent c c') : CellGated op c c' := by
  refine ⟨fun u' hu' ↦ ?_, fun hs ↦ ?_, fun hs ↦ .inl ?_⟩
  · obtain ⟨u, hu, hid, rfl | hended⟩ := h.task u' hu'
    · exact ⟨u', hu, rfl, fun _ ↦ rfl⟩
    · refine ⟨u, hu, hid, fun hs ↦ ?_⟩
      rcases hs with hs | hs <;> rw [hs] at hended <;> cases hended
  · rcases h.node with heq | hended
    · rw [← heq, hs]
    · rw [hs] at hended
      cases hended
  · rcases h.node with heq | hended
    · rw [← heq, hs]
    · rw [hs] at hended
      cases hended

/-- A task that is neither claimed nor started, with a NodeRun that keeps its status or
gets one that is neither QUEUED nor RUNNING. -/
theorem of_task {n n' : NodeRun} {t t' : ExecutionTask} (hid : t'.id = t.id)
    (ht : (t'.status = .claimed ∨ t'.status = .running) → t'.status = t.status)
    (hn : n'.status = n.status ∨ n'.status ≠ .running ∧ n'.status ≠ .queued) :
    CellGated op (n, some t) (n', some t') := by
  refine ⟨?_, fun hs ↦ ?_, fun hs ↦ .inl ?_⟩
  · rintro u' ⟨⟩
    exact ⟨t, rfl, hid, ht⟩
  · rcases hn with heq | hne
    · rwa [heq] at hs
    · exact absurd hs hne.1
  · rcases hn with heq | hne
    · rwa [heq] at hs
    · exact absurd hs hne.2

end CellGated

theorem isCandidate_running {workerId : String} {capabilities : Option (List String)}
    {t : ExecutionTask} (h : isCandidate now workerId capabilities db t = true) :
    db.run.status = .running := by
  simp only [isCandidate, claimable, Bool.decide_and, Bool.and_eq_true, decide_eq_true_eq] at h
  exact h.1.2.2.1

theorem RunOp.resolution_target {id : NodeId} {result : HumanResult}
    (h : op.resolution = some (now, id, result)) :
    result.target = .completed ∨ result.target = .failed := by
  cases op <;> cases h <;> simp [approval, rejection, submission]

theorem CellChange.gated (h : CellChange env db db' op c c') (hbefore : db.run.status ≠ .running)
    (hafter : db'.run.status ≠ .running) : CellGated op c c' := by
  cases h with
  | claim hcandidate | autoStart hcandidate | runnerClaim hcandidate =>
      exact absurd (isCandidate_running hcandidate) hbefore
  | start _ _ hrunning => exact absurd hrunning hbefore
  | release | recover => exact .of_task rfl (by simp) (.inl rfl)
  | abandon | complete | fail | waitNode | scheduleRetry | submitCompleted | submitRetry
  | submitFailed => exact .of_task rfl (by simp) (.inr (by simp))
  | renewLease | heartbeat => exact .of_task rfl (fun _ ↦ rfl) (.inl rfl)
  | requeue hn =>
      refine ⟨?_, by simp, fun _ ↦ .inr ⟨hn, _, rfl⟩⟩
      rintro u' ⟨⟩
      exact ⟨_, rfl, rfl, by simp⟩
  | resolve hop =>
      refine .of_quiescent ⟨fun u' hu' ↦ ⟨u', hu', rfl, .inl rfl⟩, .inr ?_⟩
      rcases RunOp.resolution_target hop with h | h <;> rw [h] <;> rfl
  | schedule h => exact .of_quiescent (quiescent_of_settles h hbefore)
  | reconcile h => exact .of_quiescent (quiescent_of_settles h (not_or.mpr ⟨hbefore, hafter⟩))
  | cancelRun h => exact .of_quiescent (quiescent_of_settles h id)

/-! ## Rows -/

/-- What an operation may do to the rows while the run is not RUNNING. -/
structure Gated (op : RunOp) (db db' : RunRecord) : Prop where
  tasks : ∀ t' ∈ db'.tasks, ∃ t ∈ db.tasks, t'.id = t.id ∧ t'.nodeRunId = t.nodeRunId ∧
    (t'.status = .claimed ∨ t'.status = .running → t'.status = t.status)
  nodeRuns : ∀ n' ∈ db'.nodeRuns, ∃ n ∈ db.nodeRuns, n'.nodeId = n.nodeId ∧
    (n'.status = .running → n.status = .running) ∧
    (n'.status = .queued →
      n.status = .queued ∨ n.status = .retrying ∧ ∃ now, op = .promoteDueRetries now)

theorem RunOp.exec_gated (hc : Coupled db) (h : op.exec env db = .ok (returned, db'))
    (hbefore : db.run.status ≠ .running) (hafter : db'.run.status ≠ .running) :
    Gated op db db' := by
  have hc' : Coupled db' := RunOp.exec_coupled env op hc h
  have hcell {id : NodeId} {n' : NodeRun} (hn' : findNodeRun db'.nodeRuns id = some n') :
      ∃ n, findNodeRun db.nodeRuns id = some n ∧
        CellGated op (n, taskOfNode db.tasks id) (n', taskOfNode db'.tasks id) := by
    obtain ⟨n, hn, hsame | hchange⟩ := RunOp.exec_cell_back hc h hn'
    · exact ⟨n, hn, hsame ▸ .refl op _⟩
    · exact ⟨n, hn, hchange.gated hbefore hafter⟩
  constructor
  · intro t' ht'
    obtain ⟨n', hn', -⟩ := hc'.cell_of_task (hc'.findTask_eq_some_iff.mpr ⟨ht', rfl⟩)
    obtain ⟨n, -, hgated⟩ := hcell hn'
    obtain ⟨t, ht, hid, hstatus⟩ := hgated.task t' (hc'.taskOfNode_eq_some_iff.mpr ⟨ht', rfl⟩)
    obtain ⟨hmem, hkey⟩ := hc.taskOfNode_eq_some_iff.mp ht
    exact ⟨t, hmem, hid, hkey.symm, hstatus⟩
  · intro n' hn'
    obtain ⟨n, hn, hgated⟩ := hcell (hc'.findNodeRun_eq_some_iff.mpr ⟨hn', rfl⟩)
    obtain ⟨hmem, hkey⟩ := hc.findNodeRun_eq_some_iff.mp hn
    exact ⟨n, hmem, hkey.symm, hgated.running, hgated.queued⟩

/-! ## Start in a run that pauses or waits -/

/-- `start` of a claimed task gives the task back. -/
theorem start_released (hc : Coupled db) {t : ExecutionTask} {workerId leaseToken : String}
    (ht : t ∈ db.tasks) (hclaimed : t.status = .claimed)
    (howns : owns now workerId leaseToken t = true)
    (hrun : db.run.status = .paused ∨ db.run.status = .waiting) :
    start now t.id workerId leaseToken db =
      .ok (false, db.modifyTask t.id fun u ↦ { clearLease u with status := .pending }) := by
  have hne : db.run.status ≠ .running := by
    rcases hrun with h | h <;> rw [h] <;> simp
  simp [start, hc.findTask_eq_some_iff.mpr ⟨ht, rfl⟩, howns, releaseOrCancelForRunState, hrun, hne,
    hclaimed, transitionExecutionTask]
  rfl

/-! ## Pauses -/

/-- The transactions of `pause_run` and `resume_run`. -/
def RunOp.pauses : RunOp → Bool
  | .pauseRun _ | .resumeRun | .reconcile _ => true
  | _ => false

/-- Without cancellation, or when it has ended, a task keeps its row. -/
theorem Settling.task_kept (h : Settling queues cancels now c c') {t : ExecutionTask}
    (ht : c.2 = some t) (hkept : cancels → t.status.isTerminal = true) : c'.2 = some t := by
  cases h with
  | queue | skip => cases ht
  | promote => exact ht
  | cancel hcancels =>
      cases ht
      simp [cancelTask, hkept hcancels]

theorem task_kept_of_settles (h : Relation.ReflTransGen (Settling queues cancels now) c c')
    {t : ExecutionTask} (ht : c.2 = some t) (hkept : cancels → t.status.isTerminal = true) :
    c'.2 = some t := by
  induction h with
  | refl => exact ht
  | tail _ hstep ih => exact hstep.task_kept ih hkept

theorem RunOp.exec_ended_of_cancelled (hc : Coupled db) (h : op.exec env db = .ok (returned, db'))
    (hended : db.run.status = .cancelled → Ended db) (hcancelled : db'.run.status = .cancelled) :
    Ended db' := by
  have hchange := RunOp.exec_runChange hc h
  by_cases hcells : op.movesRun = false
  · have hsteps := (exec_cells hc (promised_all db op) hcells).of_ok h
    rw [CellSteps.run hsteps] at hcancelled
    exact CellSteps.ended hsteps hc (hended hcancelled)
  have hactive {x : Except Raised RunRecord} {status : WorkflowRunStatus}
      (hx : Sound x fun db' ↦ RunStep db db' ∧ db'.run.status = status)
      (hne : status ≠ .cancelled) (h : returning x = .ok (returned, db')) : Ended db' :=
    absurd (((returning_sound hx).of_ok h).2.symm.trans hcancelled) hne
  cases op with
  | startRun => exact hactive startRun_sound (by simp) h
  | pauseRun => exact hactive pauseRun_sound (by simp) h
  | resumeRun => exact hactive resumeRun_sound (by simp) h
  | cancelRun => exact ((returning_sound (cancelRun_sound Rights.all hc)).of_ok h).ended
  | reconcile now =>
      rcases reconcile_cases hc (returning_eq_ok_iff.mp h).2 with ⟨hbefore, rfl⟩ | ⟨hbefore, rfl⟩ |
        ⟨-, s₁, s₂, derived, htrace⟩
      · exact cancelRunTasks_ended hc hbefore (hended hbefore)
      · exact hended hcancelled
      · rw [htrace.status_eq hc] at hcancelled
        rcases htrace.derived_cases with rfl | rfl | rfl | rfl <;> cases hcancelled
  | _ => exact absurd rfl hcells

/-- A cancelled run has no live task. -/
theorem ReachableBy.ended_of_cancelled {allowed : RunRecord → RunOp → Prop}
    (h : ReachableBy env allowed db) (hcancelled : db.run.status = .cancelled) : Ended db := by
  revert hcancelled
  induction h with
  | created h => simp [(createRun_ok h).1]
  | step hdb _ h ih => exact RunOp.exec_ended_of_cancelled hdb.coupled h ih

theorem Settles.tasks_kept (h : Settles queues cancels now db db') (hc : Coupled db)
    (hc' : Coupled db') (hkept : cancels → Ended db) : ∀ t ∈ db.tasks, t ∈ db'.tasks := by
  intro t ht
  obtain ⟨n, hn, -, -⟩ := hc.cell_of_task (hc.findTask_eq_some_iff.mpr ⟨ht, rfl⟩)
  obtain ⟨n', -, hcell⟩ := h t.nodeRunId n hn
  have htask' : taskOfNode db'.tasks t.nodeRunId = some t :=
    task_kept_of_settles hcell (hc.taskOfNode_eq_some_iff.mpr ⟨ht, rfl⟩)
      fun hcancels ↦ (hkept hcancels).tasks t ht
  exact (hc'.taskOfNode_eq_some_iff.mp htask').1

theorem reconcile_tasks_kept (hc : Coupled db) (hended : db.run.status = .cancelled → Ended db)
    (hnone : ∀ n ∈ db.nodeRuns, n.status ≠ .failed) (h : reconcile env now db = .ok db') :
    ∀ t ∈ db.tasks, t ∈ db'.tasks := by
  have hc' : Coupled db' := Steps.coupled ((reconcile_sound Rights.all hc trivial).of_ok h) hc
  rcases reconcile_cases hc h with ⟨hcancelled, rfl⟩ | ⟨-, rfl⟩ | ⟨-, s₁, s₂, derived, htrace⟩
  · have hc₀ : Coupled ({ db with } : Session).settled := by rwa [Session.settled_flushed]
    have hsettles : Settles False True now ({ db with } : Session).settled
        (cancelRunTasks now { db with }).settled := cancelRunTasks_settles now False hc₀ trivial
    rw [Session.settled_flushed] at hsettles
    exact hsettles.tasks_kept hc hc' fun _ ↦ hended hcancelled
  · exact fun _ ht ↦ ht
  · refine (htrace.settles hc).tasks_kept hc hc' fun hfailed ↦ ?_
    obtain rfl : derived = .failed := (htrace.status_eq hc).symm.trans hfailed
    obtain ⟨n, hn, hstatus⟩ := htrace.exists_failed hc
    exact absurd hstatus (hnone n hn)

theorem Settling.failed_back (h : Settling queues cancels now c c') (hfailed : c'.1.status = .failed) :
    c.1.status = .failed := by
  cases h <;> simp at hfailed

theorem failed_back_of_settles (h : Relation.ReflTransGen (Settling queues cancels now) c c')
    (hfailed : c'.1.status = .failed) : c.1.status = .failed := by
  induction h with
  | refl => exact hfailed
  | tail _ hstep ih => exact ih (hstep.failed_back hfailed)

theorem CellChange.failed_back (h : CellChange env db db' (.reconcile now) c c')
    (hfailed : c'.1.status = .failed) : c.1.status = .failed := by
  cases h with
  | resolve hop => cases hop
  | reconcile h => exact failed_back_of_settles h hfailed

/-- While no NodeRun has FAILED, a pause, a resumption and the reconciliation after it
keep every task as it is. -/
theorem RunOp.exec_tasks_kept (hc : Coupled db) (hended : db.run.status = .cancelled → Ended db)
    (hop : op.pauses = true) (hnone : ∀ n ∈ db.nodeRuns, n.status ≠ .failed)
    (h : op.exec env db = .ok (returned, db')) :
    (∀ t ∈ db.tasks, t ∈ db'.tasks) ∧ ∀ n' ∈ db'.nodeRuns, n'.status ≠ .failed := by
  have hrow {target : WorkflowRunStatus} {f : WorkflowRun → WorkflowRun}
      (h : returning (advanceRun db target f) = .ok (returned, db')) :
      (∀ t ∈ db.tasks, t ∈ db'.tasks) ∧ ∀ n' ∈ db'.nodeRuns, n'.status ≠ .failed := by
    obtain ⟨_, -, hrest⟩ := Outcome.bind_eq_ok_iff.mp (returning_eq_ok_iff.mp h).2
    cases hrest
    exact ⟨fun _ ht ↦ ht, hnone⟩
  cases op with
  | pauseRun => exact hrow h
  | resumeRun => exact hrow h
  | reconcile now =>
      refine ⟨reconcile_tasks_kept hc hended hnone (returning_eq_ok_iff.mp h).2, ?_⟩
      intro n' hn' hfailed
      have hc' := RunOp.exec_coupled env (.reconcile now) hc h
      obtain ⟨n, hn, hcell⟩ := RunOp.exec_cell_back hc h (hc'.findNodeRun_eq_some_iff.mpr ⟨hn', rfl⟩)
      have hback : n.status = .failed := by
        rcases hcell with hsame | hchange
        · rw [← (Prod.mk.inj hsame).1]
          exact hfailed
        · exact hchange.failed_back hfailed
      exact hnone n (hc.findNodeRun_eq_some_iff.mp hn).1 hback
  | _ => cases hop

/-! ## Tasks over a run -/

theorem Settling.task_present (h : Settling queues cancels now c c') {t : ExecutionTask}
    (ht : c.2 = some t) : ∃ t', c'.2 = some t' ∧ t'.id = t.id := by
  cases h with
  | queue | skip => cases ht
  | promote => exact ⟨t, ht, rfl⟩
  | cancel =>
      cases ht
      exact ⟨cancelTask now t, rfl, cancelTask_id t⟩

theorem task_present_of_settles (h : Relation.ReflTransGen (Settling queues cancels now) c c')
    {t : ExecutionTask} (ht : c.2 = some t) : ∃ t', c'.2 = some t' ∧ t'.id = t.id := by
  induction h with
  | refl => exact ⟨t, ht, rfl⟩
  | tail _ hstep ih =>
      obtain ⟨u, hu, hid⟩ := ih
      obtain ⟨t', ht', hid'⟩ := hstep.task_present hu
      exact ⟨t', ht', hid'.trans hid⟩

theorem CellChange.task_present (h : CellChange env db db' op c c') {t : ExecutionTask}
    (ht : c.2 = some t) : ∃ t', c'.2 = some t' ∧ t'.id = t.id := by
  cases h with
  | resolve => exact ⟨t, ht, rfl⟩
  | schedule h | reconcile h | cancelRun h => exact task_present_of_settles h ht
  | _ =>
      cases ht
      exact ⟨_, rfl, rfl⟩

/-- Every task of `db` is still there, for the same NodeRun. -/
def TasksPresent (db db' : RunRecord) : Prop :=
  ∀ t ∈ db.tasks, ∃ t' ∈ db'.tasks, t'.id = t.id ∧ t'.nodeRunId = t.nodeRunId

theorem RunOp.exec_tasks_present (hc : Coupled db) (h : op.exec env db = .ok (returned, db')) :
    TasksPresent db db' := by
  intro t ht
  have hc' := RunOp.exec_coupled env op hc h
  obtain ⟨n, hn, -, -⟩ := hc.cell_of_task (hc.findTask_eq_some_iff.mpr ⟨ht, rfl⟩)
  have htask : taskOfNode db.tasks t.nodeRunId = some t := hc.taskOfNode_eq_some_iff.mpr ⟨ht, rfl⟩
  obtain ⟨n', hn', hcell⟩ := RunOp.exec_cellChange hc h _ n hn
  obtain ⟨t', ht', hid⟩ : ∃ t', taskOfNode db'.tasks t.nodeRunId = some t' ∧ t'.id = t.id := by
    rcases hcell with hsame | hchange
    · exact ⟨t, (Prod.mk.inj hsame).2.trans htask, rfl⟩
    · exact hchange.task_present htask
  obtain ⟨hmem, hkey⟩ := hc'.taskOfNode_eq_some_iff.mp ht'
  exact ⟨t', hmem, hid, hkey⟩

/-! ## Runs -/

theorem execAll_tasks_present {ops : List RunOp} (hc : Coupled db)
    (h : execAll env ops db = .ok db') : Coupled db' ∧ TasksPresent db db' := by
  induction ops generalizing db with
  | nil =>
      cases h
      exact ⟨hc, fun t ht ↦ ⟨t, ht, rfl, rfl⟩⟩
  | cons op ops ih =>
      obtain ⟨⟨returned, db₁⟩, hop, h⟩ := Outcome.bind_eq_ok_iff.mp h
      obtain ⟨hc', hrest⟩ := ih (RunOp.exec_coupled env op hc hop) h
      refine ⟨hc', fun t ht ↦ ?_⟩
      obtain ⟨t₁, ht₁, hid, hkey⟩ := RunOp.exec_tasks_present hc hop t ht
      obtain ⟨t', ht', hid', hkey'⟩ := hrest t₁ ht₁
      exact ⟨t', ht', hid'.trans hid, hkey'.trans hkey⟩

theorem execAll_tasks_kept {ops : List RunOp} (hc : Coupled db)
    (hended : db.run.status = .cancelled → Ended db) (hops : ∀ op ∈ ops, op.pauses = true)
    (hnone : ∀ n ∈ db.nodeRuns, n.status ≠ .failed) (h : execAll env ops db = .ok db') :
    ∀ t ∈ db.tasks, t ∈ db'.tasks := by
  induction ops generalizing db with
  | nil =>
      cases h
      exact fun _ ht ↦ ht
  | cons op ops ih =>
      obtain ⟨⟨returned, db₁⟩, hop, h⟩ := Outcome.bind_eq_ok_iff.mp h
      obtain ⟨hkept, hnone₁⟩ := RunOp.exec_tasks_kept hc hended (hops op (by simp)) hnone hop
      intro t ht
      exact ih (RunOp.exec_coupled env op hc hop)
        (fun hcancelled ↦ RunOp.exec_ended_of_cancelled hc hop hended hcancelled)
        (fun op hop ↦ hops op (by simp [hop])) hnone₁ h t (hkept t ht)

/-- The tasks over the transactions `ops`: none is lost or duplicated, and pauses alone
change none unless a NodeRun has FAILED. -/
structure TasksKept (ops : List RunOp) (db db' : RunRecord) : Prop where
  present : TasksPresent db db'
  single : ∀ id, db'.tasks.countP (·.nodeRunId = id) ≤ 1
  kept : (∀ op ∈ ops, op.pauses = true) → (∀ n ∈ db.nodeRuns, n.status ≠ .failed) →
    ∀ t ∈ db.tasks, t ∈ db'.tasks

/-- A due PENDING task may be claimed by the Worker or by its Runner. -/
def Offered (now : Time) (db : RunRecord) (t : ExecutionTask) : Prop :=
  match t.requiredCapability with
  | none => ∀ workerId, claimable now workerId none db t = true
  | some capability => ∀ runner : Runner, capability ∈ runner.capabilities →
      (∀ runnerId, t.runnerId = some runnerId → runnerId = runner.id) →
        claimable now runner.id (some runner.capabilities) db t = true

theorem offered_of_running {t : ExecutionTask} (hrunning : db.run.status = .running)
    (hpending : t.status = .pending) (hdue : t.availableAt ≤ now) : Offered now db t := by
  unfold Offered
  split
  · next hnone => simp [claimable, capabilityMatches, hrunning, hpending, hdue, hnone]
  · next capability hcapability =>
    intro runner hmem hown
    have hrunner : t.runnerId = none ∨ t.runnerId = some runner.id := by
      cases hid : t.runnerId with
      | none => exact .inl rfl
      | some runnerId => exact .inr (congrArg some (hown runnerId hid))
    simp [claimable, capabilityMatches, hrunning, hpending, hdue, hcapability, hmem, hrunner]

/-- Nothing is queued, claimed or started while the run is not RUNNING; a started lease
of a paused run goes back; pauses keep the tasks, and a RUNNING run offers them. -/
theorem run_gating (h : Reachable env db) :
    (∀ op returned db', RunOp.exec env op db = .ok (returned, db') → db.run.status ≠ .running →
      db'.run.status ≠ .running → Gated op db db') ∧
    (∀ now workerId leaseToken, ∀ t ∈ db.tasks, t.status = .claimed →
      owns now workerId leaseToken t = true →
      db.run.status = .paused ∨ db.run.status = .waiting →
      RunOp.exec env (.start now t.id workerId leaseToken) db =
        .ok (false, db.modifyTask t.id fun u ↦ { clearLease u with status := .pending })) ∧
    (∀ ops db', execAll env ops db = .ok db' → TasksKept ops db db') ∧
    (db.run.status = .running → ∀ now, ∀ t ∈ db.tasks, t.status = .pending → t.availableAt ≤ now →
      Offered now db t) := by
  have hc := h.coupled
  refine ⟨fun op returned db' hop ↦ RunOp.exec_gated hc hop, ?_, fun ops db' hexec ↦ ?_, ?_⟩
  · intro now workerId leaseToken t ht hclaimed howns hrun
    exact start_released hc ht hclaimed howns hrun
  · obtain ⟨hc', hpresent⟩ := execAll_tasks_present hc hexec
    exact
      { present := hpresent
        single := hc'.countP_le_one
        kept := fun hops hnone ↦ execAll_tasks_kept hc h.ended_of_cancelled hops hnone hexec }
  · intro hrunning now t _ hpending hdue
    exact offered_of_running hrunning hpending hdue

/-- The service is claimed and the run paused: `start` gives its task back. -/
theorem run_gating_serviceRun : ∃ db db', Reachable plainEnv db ∧ db.run.status = .paused ∧
    (∃ t ∈ db.tasks, t.status = .claimed) ∧
    RunOp.exec plainEnv (.start 0 0 "w" "t") db = .ok (false, db') ∧
    ∀ t ∈ db'.tasks, t.status = .pending := by
  obtain ⟨db₁, h₁, db₂, h₂, db₃, h₃, db₄, h₄, hpaused, ⟨t, ht, hid, hclaimed, howns⟩, hpending⟩ :
      ∃ db₁, RunOp.exec plainEnv (.startRun 0) serviceRun = .ok (true, db₁) ∧
        ∃ db₂, RunOp.exec plainEnv (.schedule 0) db₁ = .ok (true, db₂) ∧
          ∃ db₃, RunOp.exec plainEnv (.claim 0 "w" "t" 60 none false 0) db₂ = .ok (true, db₃) ∧
            ∃ db₄, RunOp.exec plainEnv (.pauseRun 0) db₃ = .ok (true, db₄) ∧
              db₄.run.status = .paused ∧
              (∃ t ∈ db₄.tasks, t.id = 0 ∧ t.status = .claimed ∧ owns 0 "w" "t" t = true) ∧
              ∀ t ∈ (db₄.modifyTask 0 fun u ↦ { clearLease u with status := .pending }).tasks,
                t.status = .pending :=
    ⟨_, rfl, _, rfl, _, rfl, _, rfl, by decide⟩
  have hreachable : Reachable plainEnv db₄ :=
    ((((ReachableBy.created createRun_serviceRun).step trivial h₁).step trivial h₂).step trivial
      h₃).step trivial h₄
  have hstart := (run_gating hreachable).2.1 0 "w" "t" t ht hclaimed howns (.inl hpaused)
  rw [hid] at hstart
  exact ⟨db₄, _, hreachable, hpaused, ⟨t, ht, hclaimed⟩, hstart, hpending⟩

end Relayvia
