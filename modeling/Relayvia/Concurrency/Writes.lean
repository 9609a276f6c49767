import Relayvia.Concurrency.Inserts
import Relayvia.Concurrency.Updates

/-!
# What the transactions write

Only `start_run`, `pause_run`, `resume_run`, `cancel_run` and `reconcile_run` write the
status of the run; only scheduling inserts tasks.
-/

namespace Relayvia

variable {env : Env} {now : Time} {db db' : RunRecord} {id : NodeId}

theorem reconcileOn_terminal {view : View} (hterm : db.run.status.isTerminal = true) :
    Returns (reconcileOn env now view db) fun s ↦ s.run.status = db.run.status := by
  unfold reconcileOn
  dsimp only
  split
  · exact rfl
  · exact rfl
  · exact rfl
  · exact rfl
  · next hcancelled hcompleted hfailed _ =>
    cases hstatus : db.run.status with
    | cancelled => exact absurd hstatus hcancelled
    | completed => exact absurd hstatus hcompleted
    | failed => exact absurd hstatus hfailed
    | _ =>
        rw [hstatus] at hterm
        cases hterm

/-- The transactions that may write `WorkflowRun.status`. -/
def Transaction.writesRunStatus : Transaction → Bool
  | startRun _ | pauseRun _ | resumeRun | reconcile .. | cancelRun _ => true
  | _ => false

/-- The transactions that insert tasks. -/
def Transaction.schedules : Transaction → Bool
  | scheduleStarted _ | reconcile .. => true
  | _ => false

namespace Transaction

variable {view : View} {tx : Transaction}

theorem run_runKept (hw : tx.writesRunStatus = false) (hs : tx.schedules = false) :
    Returns (tx.run env view db) fun s ↦ RunKept (base view db) s.toRunRecord ∧ s.added = [] := by
  cases tx with
  | startRun | pauseRun | resumeRun | reconcile | cancelRun => cases hw
  | scheduleStarted => cases hs
  | human now id action => exact (action.apply_runKept.weaken fun _ h ↦ ⟨h, rfl⟩).map
  | complete => exact (complete_runKept.weaken fun _ h ↦ ⟨h, rfl⟩).map
  | fail => exact (fail_runKept.weaken fun _ h ↦ ⟨h, rfl⟩).map
  | waitNode => exact (waitNode_runKept.weaken fun _ h ↦ ⟨h, rfl⟩).map
  | scheduleRetry => exact (scheduleRetry_runKept.weaken fun _ h ↦ ⟨h, rfl⟩).map
  | claim => exact (claim_runKept.weaken fun _ h ↦ ⟨h, rfl⟩).map
  | start => exact (start_runKept.weaken fun _ h ↦ ⟨h, rfl⟩).map
  | renewLease => exact (renewLease_runKept.weaken fun _ h ↦ ⟨h, rfl⟩).map
  | recoverExpired => exact ⟨recoverExpired_runKept, rfl⟩
  | promoteDueRetries => exact (promoteDueRetries_runKept.weaken fun _ h ↦ ⟨h, rfl⟩).map
  | runnerClaim => exact (runnerClaim_runKept.weaken fun _ h ↦ ⟨h, rfl⟩).map
  | runnerTaskHeartbeat => exact (runnerTaskHeartbeat_runKept.weaken fun _ h ↦ ⟨h, rfl⟩).map
  | runnerSubmit => exact (runnerSubmit_runKept.weaken fun _ h ↦ ⟨h, rfl⟩).map

theorem advanceRun_open {target : WorkflowRunStatus} {f : WorkflowRun → WorkflowRun} :
    Returns (advanceRun db target f) fun db' ↦
      db.run.status.isTerminal = false ∧ db'.tasks = db.tasks := by
  refine Outcome.Holds.bind transitionWorkflowRun_sound.returns fun _ hlegal ↦ ?_
  refine Outcome.holds_pure.mpr ⟨?_, rfl⟩
  cases hstatus : db.run.status <;> simp_all [WorkflowRunStatus.transitions, WorkflowRunStatus.isTerminal]

theorem cancelRunStatus_open :
    Returns (cancelRunStatus now db) fun db' ↦
      db.run.status.isTerminal = false ∧ db'.tasks = db.tasks :=
  Outcome.Holds.ite (fun _ ↦ trivial) fun _ ↦ advanceRun_open.bind fun _ h ↦ h

/-- The lifecycle transactions return only when the run was open. -/
theorem run_open (hw : tx.writesRunStatus = true) (hs : tx.schedules = false) :
    Returns (tx.run env view db) fun s ↦
      (base view db).run.status.isTerminal = false ∧
        s.tasks.map ExecutionTask.nodeRunId = (base view db).tasks.map ExecutionTask.nodeRunId ∧
          s.added = [] := by
  have hopen {x : Except Raised RunRecord}
      (h : Returns x fun db' ↦ (base view db).run.status.isTerminal = false ∧
        db'.tasks = (base view db).tasks) :
      Returns (x.map fun rows ↦ ({ rows with } : Session)) fun s ↦
        (base view db).run.status.isTerminal = false ∧
          s.tasks.map ExecutionTask.nodeRunId =
            (base view db).tasks.map ExecutionTask.nodeRunId ∧ s.added = [] :=
    (h.weaken fun _ h ↦ ⟨h.1, congrArg _ h.2, rfl⟩).map
  cases tx with
  | startRun => exact hopen (advanceRun_open.bind fun _ h ↦ h)
  | pauseRun => exact hopen advanceRun_open
  | resumeRun => exact hopen advanceRun_open
  | cancelRun now =>
      refine Outcome.Holds.bind cancelRunStatus_open fun rows h ↦ ?_
      refine Outcome.holds_pure.mpr ⟨h.1, ?_, rfl⟩
      rw [← h.2]
      exact Table.map_key_map cancelTask_nodeRunId rows.tasks
  | reconcile => cases hs
  | scheduleStarted | human | complete | fail | waitNode | scheduleRetry | claim | start
  | renewLease | recoverExpired | promoteDueRetries | runnerClaim | runnerTaskHeartbeat
  | runnerSubmit => cases hw

theorem run_taskNodes (hs : tx.schedules = false) :
    Returns (tx.run env view db) fun s ↦
      s.tasks.map ExecutionTask.nodeRunId = (base view db).tasks.map ExecutionTask.nodeRunId ∧
        s.added = [] := by
  by_cases hw : tx.writesRunStatus = true
  · exact (run_open hw hs).weaken fun _ h ↦ h.2
  · exact (run_runKept (by simpa using hw) hs).weaken fun _ h ↦ ⟨h.1.taskNodes, h.2⟩

theorem run_status_kept (hw : tx.writesRunStatus = false) :
    Returns (tx.run env view db) fun s ↦ s.run.status = (base view db).run.status := by
  by_cases hs : tx.schedules = true
  · cases tx with
    | scheduleStarted now =>
        have h : Outcome.Holds ((scheduleStarted now).run env view db)
            (Inserted (base view db).tasks { base view db with }) NotDuplicate :=
          scheduleReadyNodes_inserted (.start _)
        exact h.mono (fun _ h ↦ congrArg _ h.2) fun _ _ ↦ trivial
    | _ => simp_all [schedules, writesRunStatus]
  · exact (run_runKept hw (by simpa using hs)).weaken fun _ h ↦ congrArg _ h.1.run

/-- A transaction that has read a terminal status does not write another one. -/
theorem run_status_terminal (hterm : (base view db).run.status.isTerminal = true) :
    Returns (tx.run env view db) fun s ↦ s.run.status = (base view db).run.status := by
  by_cases hw : tx.writesRunStatus = true
  · by_cases hs : tx.schedules = true
    · cases tx with
      | reconcile now caller =>
          have hstatus : (view.rows db).run.status.isTerminal = true := hterm
          exact reconcileOn_terminal hstatus
      | _ => simp_all [schedules, writesRunStatus]
    · refine (run_open hw (by simpa using hs)).weaken fun s h ↦ ?_
      rw [hterm] at h
      cases h.1
  · exact run_status_kept (by simpa using hw)

end Transaction

end Relayvia
