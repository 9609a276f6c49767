import Relayvia.Workspaces.Release

/-!
# Leases on the tasks of workspaces

Only a claim gives the task of a workspace a new lease, and a terminal run has no
running task.
-/

namespace Relayvia

variable {env : Env} {now : Time} {db db' : RunRecord} {s s' : Session}

/-- While the task runs, its workspace is in use at the Runner that holds the lease. -/
structure RunningInUse (w : Workspace) (t : ExecutionTask) : Prop where
  unclaimed : t.status ≠ .claimed
  inUse : t.status = .running → w.status = .inUse
  runner : t.status = .running → w.runnerId = t.lockedBy

theorem RunningInUse.of_idle {w : Workspace} {t : ExecutionTask} (hclaimed : t.status ≠ .claimed)
    (hrunning : t.status ≠ .running) : RunningInUse w t :=
  ⟨hclaimed, fun h ↦ absurd h hrunning, fun h ↦ absurd h hrunning⟩

theorem RunningInUse.of_terminal {w : Workspace} {t : ExecutionTask}
    (h : t.status.isTerminal = true) : RunningInUse w t := by
  refine .of_idle (fun hs ↦ ?_) fun hs ↦ ?_
  all_goals
    rw [hs] at h
    cases h

theorem RunningInUse.created (w : Workspace) (t : ExecutionTask) (_ : w.status = .creating)
    (ht : t.status = .pending) : RunningInUse w t :=
  .of_idle (by simp [ht]) (by simp [ht])

theorem TaskStep.running_kept {status : WorkflowRunStatus} {finishes : ExecutionTask → Prop}
    {t t' : ExecutionTask} (h : TaskStep status finishes t t') (hclaimed : t.status ≠ .claimed)
    (hcapability : t.requiredCapability ≠ none) (hrunning : t'.status = .running) :
    t.status = .running ∧ t'.lockedBy = t.lockedBy ∧ t'.leaseToken = t.leaseToken := by
  rcases h.running hrunning with hkept | ⟨-, h | h⟩
  · exact hkept
  · exact absurd h hclaimed
  · exact absurd h hcapability

theorem WorkspacesBound.rowStep_inUse (h : WorkspacesBound RunningInUse db)
    {finishes : ExecutionTask → Prop} (hstep : RowStep finishes db db') :
    WorkspacesBound RunningInUse db' := by
  refine h.rowStep hstep fun w _ t _ _ hcapability t' ht' hQ ↦ ⟨fun hclaimed ↦ ?_, fun hrunning ↦ ?_,
    fun hrunning ↦ ?_⟩
  · exact (ht'.claimed hclaimed).elim hQ.unclaimed hcapability
  · exact hQ.inUse (ht'.running_kept hQ.unclaimed hcapability hrunning).1
  · obtain ⟨ht, hlocked, -⟩ := ht'.running_kept hQ.unclaimed hcapability hrunning
    rw [hlocked]
    exact hQ.runner ht

/-- Two tasks that name one workspace are one. -/
theorem WorkspacesBound.task_unique {Q : Workspace → ExecutionTask → Prop}
    (h : WorkspacesBound Q db) (hk : Keyed db) {t u : ExecutionTask} (ht : t ∈ db.tasks)
    (hu : u ∈ db.tasks) {x : String} (htx : workspaceOf t = some x) (hux : workspaceOf u = some x) :
    t = u := by
  have hid : workspaceId t.nodeRunId = workspaceId u.nodeRunId :=
    (h.named t ht x htx).symm.trans (h.named u hu x hux)
  exact List.inj_on_of_nodup_map hk.taskNodes ht hu (workspaceId_inj.mp hid)

/-! ## No new lease -/

/-- Tasks are updated in place and new ones do not run.  None that names a workspace
starts to run or changes its lease. -/
def LeasesKept (db db' : RunRecord) : Prop :=
  ∃ f added, db'.tasks = db.tasks.map f ++ added ∧
    (∀ t ∈ db.tasks, workspaceOf (f t) = workspaceOf t ∧
      ((workspaceOf t).isSome → (f t).status = .running →
        t.status = .running ∧ (f t).lockedBy = t.lockedBy ∧ (f t).leaseToken = t.leaseToken)) ∧
    ∀ t ∈ added, t.status ≠ .running

theorem workspaceOf_congr {t t' : ExecutionTask} (h : t'.payload = t.payload) :
    workspaceOf t' = workspaceOf t := by
  rw [workspaceOf, workspaceOf, h]

/-- The ids of the tasks are positions, so an update in place keeps them. -/
theorem Keyed.findTask_map (hk : Keyed db) (hk' : Keyed db') {f : ExecutionTask → ExecutionTask}
    {added : List ExecutionTask} (htasks : db'.tasks = db.tasks.map f ++ added) {id : TaskId}
    {t : ExecutionTask} (ht : findTask db.tasks id = some t) :
    findTask db'.tasks id = some (f t) := by
  obtain ⟨hmem, rfl⟩ := hk.findTask_eq_some_iff.mp ht
  obtain ⟨i, hi, rfl⟩ := List.getElem_of_mem hmem
  have hid : (db.tasks[i]).id = i := by
    have hget := congrArg (·[i]?) hk.taskIds
    simpa [hi] using hget
  have hid' : (f db.tasks[i]).id = i := by
    have hget := congrArg (·[i]?) hk'.taskIds
    rw [htasks] at hget
    have hlt : i < db.tasks.length + added.length := by omega
    simpa [hi, hlt, List.getElem?_append] using hget
  refine hk'.findTask_eq_some_iff.mpr ⟨?_, hid'.trans hid.symm⟩
  rw [htasks]
  exact List.mem_append_left _ (List.mem_map_of_mem hmem)

namespace LeasesKept

theorem of_tasks (h : db'.tasks = db.tasks) : LeasesKept db db' :=
  ⟨fun t ↦ t, [], by simp [h], fun _ _ ↦ ⟨rfl, fun _ hrunning ↦ ⟨hrunning, rfl, rfl⟩⟩, by simp⟩

theorem of_rowStep (hk : Keyed db) (h : WorkspacesBound RunningInUse db)
    {finishes : ExecutionTask → Prop} (hstep : RowStep finishes db db') : LeasesKept db db' := by
  obtain ⟨f, htasks, hf⟩ := hstep.tasks
  refine ⟨f, [], by simp [htasks], fun t ht ↦ ⟨workspaceOf_congr (hf t ht).payload,
    fun hsome hrunning ↦ ?_⟩, by simp⟩
  obtain ⟨x, hx⟩ := Option.isSome_iff_exists.mp hsome
  obtain ⟨w, hw, hkey⟩ := h.covered t ht x hx
  obtain ⟨-, hcapability, hQ⟩ := h.forall_task hk hw ht hkey.symm
  exact (hf t ht).running_kept hQ.unclaimed hcapability hrunning

theorem findTask {t : ExecutionTask} {id : TaskId} (h : LeasesKept db db') (hk : Keyed db)
    (hk' : Keyed db') (ht : findTask db.tasks id = some t) :
    ∃ t', findTask db'.tasks id = some t' ∧ workspaceOf t' = workspaceOf t := by
  obtain ⟨f, added, htasks, hf, -⟩ := h
  exact ⟨f t, hk.findTask_map hk' htasks ht, (hf t (hk.findTask_eq_some_iff.mp ht).1).1⟩

/-- A running task ran under the same lease before. -/
theorem running {t' : ExecutionTask} {x : String} (h : LeasesKept db db') (ht' : t' ∈ db'.tasks)
    (hx : workspaceOf t' = some x) (hrunning : t'.status = .running) :
    ∃ t ∈ db.tasks, workspaceOf t = some x ∧ t.status = .running ∧
      t.lockedBy = t'.lockedBy ∧ t.leaseToken = t'.leaseToken := by
  obtain ⟨f, added, htasks, hf, hadded⟩ := h
  rw [htasks] at ht'
  rcases List.mem_append.mp ht' with hmem | hmem
  · obtain ⟨t, ht, rfl⟩ := List.mem_map.mp hmem
    rw [(hf t ht).1] at hx
    obtain ⟨hstatus, hlocked, htoken⟩ := (hf t ht).2 (by simp [hx]) hrunning
    exact ⟨t, ht, hx, hstatus, hlocked.symm, htoken.symm⟩
  · exact absurd hrunning (hadded t' hmem)

end LeasesKept

/-! ## Scheduling and reconciliation -/

/-- Scheduling appends PENDING tasks. -/
theorem scheduleReadyNodes_extends (hc : Coupled s.settled) :
    Returns (scheduleReadyNodes env now s) fun s' ↦ ∃ added,
      s'.settled.tasks = s.settled.tasks ++ added ∧ ∀ t ∈ added, t.status = .pending := by
  refine scheduleReadyNodes_rule (I := fun _ s' ↦ ∃ added,
    s'.settled.tasks = s.settled.tasks ++ added ∧ ∀ t ∈ added, t.status = .pending)
    (fun h ↦ h) (fun _ hturn _ ⟨added, htasks, hadded⟩ ↦ ?_) hc
    (fun _ ↦ ⟨[], by simp [skipInactive, Session.settled], by simp⟩) fun _ ↦ ⟨[], by simp, by simp⟩
  obtain ⟨t, ht, hturned, -⟩ := hturn.settled
  refine ⟨added ++ [t], by rw [hturned, htasks, List.append_assoc], fun u hu ↦ ?_⟩
  rcases List.mem_append.mp hu with hu | hu
  · exact hadded u hu
  · rw [List.mem_singleton.mp hu]
    exact ht.status

/-- The tasks after scheduling or a reconciliation: each is as it was or cancelled, and the new ones
are PENDING or cancelled. -/
def TasksReconciled (now : Time) (db db' : RunRecord) : Prop :=
  ∃ f added, db'.tasks = db.tasks.map f ++ added ∧
    (∀ t ∈ db.tasks, f t = t ∨ f t = cancelTask now t) ∧
    ∀ t ∈ added, t.status = .pending ∨ t.status.isTerminal = true

theorem TasksReconciled.leasesKept (h : TasksReconciled now db db') : LeasesKept db db' := by
  obtain ⟨f, added, htasks, hf, hadded⟩ := h
  refine ⟨f, added, htasks, fun t ht ↦ ?_, fun t ht hrunning ↦ ?_⟩
  · rcases hf t ht with heq | heq
    · rw [heq]
      exact ⟨rfl, fun _ hrunning ↦ ⟨hrunning, rfl, rfl⟩⟩
    · rw [heq]
      refine ⟨workspaceOf_congr (cancelTask_same t).2.1, fun _ hrunning ↦ ?_⟩
      have hterminal := cancelTask_terminal now t
      rw [hrunning] at hterminal
      cases hterminal
  · rcases hadded t ht with h | h
    · rw [h] at hrunning
      cases hrunning
    · rw [hrunning] at h
      cases h

theorem scheduleRun_tasks (hc : Coupled db) (h : scheduleRun env now db = .ok db') :
    TasksReconciled now db db' := by
  have hc₀ : Coupled ({ db with } : Session).settled := by rwa [Session.settled_flushed]
  obtain ⟨s', hschedule, hcommit⟩ := Outcome.bind_eq_ok_iff.mp h
  have hc' := ((scheduleReadyNodes_sound Rights.all hc₀).of_ok hschedule).coupled hc₀
  obtain rfl := (commit_sound hc').of_ok hcommit
  obtain ⟨added, htasks, hadded⟩ := (scheduleReadyNodes_extends hc₀).of_ok hschedule
  rw [Session.settled_flushed] at htasks
  exact ⟨fun t ↦ t, added, by simp [htasks], fun _ _ ↦ .inl rfl, fun t ht ↦ .inl (hadded t ht)⟩

theorem cancelFlushed_cases (now : Time) (flushed : List ExecutionTask) (t : ExecutionTask) :
    cancelFlushed now flushed t = t ∨ cancelFlushed now flushed t = cancelTask now t := by
  unfold cancelFlushed
  split
  · exact .inr rfl
  · exact .inl rfl

namespace ReconcileTrace

variable {s₁ s₂ : Session} {derived : WorkflowRunStatus}

theorem scheduled_tasks (h : ReconcileTrace env now db s₁ s₂ derived db') (hc : Coupled db) :
    ∃ added, s₂.settled.tasks = db.tasks ++ added ∧ ∀ t ∈ added, t.status = .pending := by
  obtain ⟨htasks, hadded, -⟩ := promoteDueWaits_rows h.promote
  have hsettled : s₁.settled.tasks = db.tasks := by
    simp [htasks, hadded, Session.numbered, Session.settled]
  have hextends := (scheduleReadyNodes_extends (h.promoted_coupled hc)).of_ok h.schedule
  rwa [hsettled] at hextends

/-- Only the flushed tasks are cancelled, but the others do not run. -/
theorem failed_idle (h : ReconcileTrace env now db s₁ s₂ .failed db') (hc : Coupled db)
    (hactive : db.run.status ≠ .failed) : ∀ t ∈ db'.tasks, t.status ≠ .running := by
  obtain ⟨-, hadded₁, -⟩ := promoteDueWaits_rows h.promote
  have hadded : ∀ t ∈ s₂.added, t.status = .pending := by
    refine (scheduleReadyNodes_added (h.promoted_coupled hc) ?_).of_ok h.schedule
    simp [hadded₁]
  obtain ⟨finishedAt, s', rfl, -, hfinish⟩ := h.finish
  obtain ⟨s₄, rfl, ⟨-, rfl⟩ | ⟨hrunning, -⟩⟩ := reconcileFinish_ok hfinish
  · obtain ⟨-, hrecorded, htasks⟩ := recordDerived_rows now db.run.status .failed
      { s₂ with run := { s₂.run with status := .failed, finishedAt := finishedAt } }
    rw [if_pos ⟨rfl, hactive.symm⟩] at htasks
    intro t ht
    simp only [Session.settled, htasks, hrecorded] at ht
    rcases List.mem_append.mp ht with hmem | hmem
    · obtain ⟨u, -, rfl⟩ := List.mem_map.mp hmem
      intro hrunning
      have hterminal := cancelTask_terminal now u
      rw [hrunning] at hterminal
      cases hterminal
    · obtain ⟨u, hu, k, rfl⟩ := Session.mem_numbered hmem
      rw [hadded u hu]
      decide
  · cases hrunning

theorem tasks (h : ReconcileTrace env now db s₁ s₂ derived db') (hc : Coupled db) :
    TasksReconciled now db db' := by
  obtain ⟨added, hscheduled, hpending⟩ := h.scheduled_tasks hc
  obtain ⟨finishedAt, s', rfl, -, hfinish⟩ := h.finish
  have hc₃ := h.derived_coupled hc finishedAt
  obtain ⟨s₄, rfl, hlast⟩ := reconcileFinish_ok hfinish
  obtain ⟨-, hadded, htasks⟩ := recordDerived_rows now db.run.status derived
    { s₂ with run := { s₂.run with status := derived, finishedAt := finishedAt } }
  rcases hlast with ⟨-, rfl⟩ | ⟨rfl, hschedule⟩
  · by_cases hcancel : derived = .failed ∧ derived ≠ db.run.status
    · rw [if_pos hcancel] at htasks
      have hsettled := settled_cancel hc₃.taskNodes hadded htasks
      refine ⟨cancelFlushed now s₂.tasks, added.map (cancelFlushed now s₂.tasks), ?_,
        fun t _ ↦ cancelFlushed_cases now _ t, fun t ht ↦ ?_⟩
      · rw [← List.map_append, ← hscheduled]
        exact hsettled
      · obtain ⟨u, hu, rfl⟩ := List.mem_map.mp ht
        rcases cancelFlushed_cases now s₂.tasks u with heq | heq
        · rw [heq]
          exact .inl (hpending u hu)
        · rw [heq]
          exact .inr (cancelTask_terminal now u)
    · rw [if_neg hcancel] at htasks
      refine ⟨fun t ↦ t, added, ?_, fun _ _ ↦ .inl rfl, fun t ht ↦ .inl (hpending t ht)⟩
      rw [List.map_id', ← hscheduled]
      simp [Session.settled, htasks, hadded]
  · have htasks' : (recordDerived now db.run.status .running { s₂ with
        run := { s₂.run with status := .running, finishedAt := finishedAt } }).settled.tasks =
        db.tasks ++ added := by
      rw [if_neg (by simp)] at htasks
      rw [← hscheduled]
      simp [Session.settled, htasks, hadded]
    obtain ⟨added', hextends, hpending'⟩ :=
      (scheduleReadyNodes_extends (recordDerived_coupled hc₃ rfl)).of_ok hschedule
    rw [htasks', List.append_assoc] at hextends
    refine ⟨fun t ↦ t, added ++ added', ?_, fun _ _ ↦ .inl rfl, fun t ht ↦ .inl ?_⟩
    · rw [List.map_id']
      exact hextends
    · rcases List.mem_append.mp ht with ht | ht
      · exact hpending t ht
      · exact hpending' t ht

end ReconcileTrace

theorem reconcile_tasks (hc : Coupled db) (h : reconcile env now db = .ok db') :
    TasksReconciled now db db' := by
  rcases reconcile_cases hc h with ⟨-, rfl⟩ | ⟨-, rfl⟩ | ⟨-, s₁, s₂, derived, htrace⟩
  · have hcancelled : (cancelRunTasks now { db with }).tasks = db.tasks.map (cancelTask now) := rfl
    have hnodup : (({ db with } : Session).settled.tasks.map ExecutionTask.nodeRunId).Nodup := by
      rw [Session.settled_flushed]
      exact hc.taskNodes
    have hadded : (cancelRunTasks now { db with }).added = [] := rfl
    have hsettled := settled_cancel hnodup hadded hcancelled
    rw [Session.settled_flushed] at hsettled
    exact ⟨cancelFlushed now db.tasks, [], by simp [hsettled],
      fun t _ ↦ cancelFlushed_cases now db.tasks t, by simp⟩
  · exact ⟨fun t ↦ t, [], by simp, fun _ _ ↦ .inl rfl, by simp⟩
  · exact htrace.tasks hc

/-! ## Terminal runs -/

/-- A terminal run has no running task. -/
def TerminalIdle (db : RunRecord) : Prop :=
  db.run.status.isTerminal = true → ∀ t ∈ db.tasks, t.status ≠ .running

theorem TerminalIdle.rowStep (h : TerminalIdle db) {finishes : ExecutionTask → Prop}
    (hstep : RowStep finishes db db') : TerminalIdle db' := by
  intro hterminal t' ht' hrunning
  rcases hstep.status hterminal with hstatus | hended
  · rw [hstatus] at hterminal
    obtain ⟨f, htasks, hf⟩ := hstep.tasks
    rw [htasks] at ht'
    obtain ⟨t, ht, rfl⟩ := List.mem_map.mp ht'
    rcases (hf t ht).running hrunning with ⟨hkept, -⟩ | ⟨hactive, -⟩
    · exact h hterminal t ht hkept
    · rw [hactive] at hterminal
      cases hterminal
  · have hend := hended t' ht'
    rw [hrunning] at hend
    cases hend

/-- Tasks that run afterwards ran before. -/
theorem TerminalIdle.of_running (h : TerminalIdle db) (hstatus : db'.run.status = db.run.status)
    (hrunning : ∀ t' ∈ db'.tasks, t'.status = .running → ∃ t ∈ db.tasks, t.status = .running) :
    TerminalIdle db' := by
  intro hterminal t' ht' hs
  obtain ⟨t, ht, hkept⟩ := hrunning t' ht' hs
  rw [hstatus] at hterminal
  exact h hterminal t ht hkept

theorem TasksReconciled.running (h : TasksReconciled now db db') :
    ∀ t' ∈ db'.tasks, t'.status = .running → ∃ t ∈ db.tasks, t.status = .running := by
  obtain ⟨f, added, htasks, hf, hadded⟩ := h
  rw [htasks]
  intro t' ht' hrunning
  rcases List.mem_append.mp ht' with hmem | hmem
  · obtain ⟨t, ht, rfl⟩ := List.mem_map.mp hmem
    rcases hf t ht with heq | heq
    · exact ⟨t, ht, heq ▸ hrunning⟩
    · have hterminal := cancelTask_terminal now t
      rw [← heq, hrunning] at hterminal
      cases hterminal
  · rcases hadded t' hmem with h | h
    · simp [h] at hrunning
    · simp [hrunning, ExecutionTaskStatus.isTerminal] at h

theorem reconcile_idle (hc : Coupled db) (h : TerminalIdle db)
    (hreconcile : reconcile env now db = .ok db') : TerminalIdle db' := by
  have hrunning := (reconcile_tasks hc hreconcile).running
  have hc' : Coupled db' := Steps.coupled ((reconcile_sound Rights.all hc trivial).of_ok hreconcile) hc
  rcases reconcile_cases hc hreconcile with ⟨hstatus, rfl⟩ | ⟨-, rfl⟩ |
    ⟨hactive, s₁, s₂, derived, htrace⟩
  · exact h.of_running rfl hrunning
  · exact h
  · intro hterminal
    have hstatus := htrace.status_eq hc
    rcases htrace.derived_cases with rfl | rfl | rfl | rfl
    · refine htrace.failed_idle hc fun hfailed ↦ ?_
      simp [hfailed] at hactive
    · intro t ht hrunning
      have hend := (htrace.completed_ended hc').tasks t ht
      rw [hrunning] at hend
      cases hend
    all_goals
      rw [hstatus] at hterminal
      cases hterminal

end Relayvia
