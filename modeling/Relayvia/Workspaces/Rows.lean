import Relayvia.FailFast
import Relayvia.Workspaces.Service

/-!
# What the operations do to the tasks of workspaces

Scheduling apart, every operation updates tasks in place and leaves the workspaces
alone.
-/

namespace Relayvia

variable {env : Env} {now : Time} {db db' : RunRecord} {id : NodeId}

/-- An update of one task in a run of the given status; `finishes` holds of the tasks
that may end. -/
structure TaskStep (status : WorkflowRunStatus) (finishes : ExecutionTask → Prop)
    (t t' : ExecutionTask) : Prop where
  nodeRunId : t'.nodeRunId = t.nodeRunId
  payload : t'.payload = t.payload
  capability : t'.requiredCapability = t.requiredCapability
  running : t'.status = .running →
    t.status = .running ∧ t'.lockedBy = t.lockedBy ∧ t'.leaseToken = t.leaseToken ∨
      status = .running ∧ (t.status = .claimed ∨ t.requiredCapability = none)
  claimed : t'.status = .claimed → t.status = .claimed ∨ t.requiredCapability = none
  terminal : t'.status.isTerminal = true → t.status.isTerminal = true ∨ finishes t

namespace TaskStep

variable {status : WorkflowRunStatus} {finishes : ExecutionTask → Prop} {t t' : ExecutionTask}

theorem refl (t : ExecutionTask) : TaskStep status finishes t t :=
  ⟨rfl, rfl, rfl, fun h ↦ .inl ⟨h, rfl, rfl⟩, .inl, .inl⟩

/-- A task that goes back to the queue. -/
theorem queue (h : t'.nodeRunId = t.nodeRunId ∧ t'.payload = t.payload ∧
    t'.requiredCapability = t.requiredCapability)
    (hstatus : t'.status = .pending ∨ t'.status = .retryWait) : TaskStep status finishes t t' := by
  refine ⟨h.1, h.2.1, h.2.2, ?_, ?_, ?_⟩
  all_goals rcases hstatus with hs | hs <;> simp [hs, ExecutionTaskStatus.isTerminal]

/-- A Worker that gets a task without a required capability. -/
theorem work (h : t'.nodeRunId = t.nodeRunId ∧ t'.payload = t.payload ∧
    t'.requiredCapability = t.requiredCapability) (hstatus : t'.status.isTerminal = false)
    (hrunning : status = .running) (hcapability : t.requiredCapability = none) :
    TaskStep status finishes t t' := by
  refine ⟨h.1, h.2.1, h.2.2, fun _ ↦ .inr ⟨hrunning, .inr hcapability⟩,
    fun _ ↦ .inr hcapability, fun hs ↦ ?_⟩
  rw [hs] at hstatus
  cases hstatus

theorem finish (h : t'.nodeRunId = t.nodeRunId ∧ t'.payload = t.payload ∧
    t'.requiredCapability = t.requiredCapability)
    (hstatus : t'.status.isTerminal = true) (hfinishes : finishes t) :
    TaskStep status finishes t t' := by
  refine ⟨h.1, h.2.1, h.2.2, fun hs ↦ ?_, fun hs ↦ ?_, fun _ ↦ .inr hfinishes⟩
  · rw [hs] at hstatus
    cases hstatus
  · rw [hs] at hstatus
    cases hstatus

end TaskStep

/-- Every task makes a `TaskStep`, and the workspaces stay. -/
structure RowStep (finishes : ExecutionTask → Prop) (db db' : RunRecord) : Prop where
  tasks : ∃ f, db'.tasks = db.tasks.map f ∧
    ∀ t ∈ db.tasks, TaskStep db.run.status finishes t (f t)
  workspaces : db'.workspaces = db.workspaces
  status : db'.run.status.isTerminal = true →
    db'.run.status = db.run.status ∨ ∀ t ∈ db'.tasks, t.status.isTerminal = true

/-- Tasks, workspaces and run status are as before. -/
structure RowsKept (db db' : RunRecord) : Prop where
  tasks : db'.tasks = db.tasks
  workspaces : db'.workspaces = db.workspaces
  status : db'.run.status = db.run.status

namespace RowsKept

theorem refl (db : RunRecord) : RowsKept db db := ⟨rfl, rfl, rfl⟩

theorem rowStep {finishes : ExecutionTask → Prop} (h : RowsKept db db') :
    RowStep finishes db db' where
  tasks := ⟨fun t ↦ t, by simp [h.tasks], fun t _ ↦ .refl t⟩
  workspaces := h.workspaces
  status _ := .inl h.status

end RowsKept

namespace RowStep

variable {finishes : ExecutionTask → Prop}

theorem refl (db : RunRecord) : RowStep finishes db db :=
  (RowsKept.refl db).rowStep

/-- An update of the task with one id. -/
theorem of_task (hk : Keyed db) {taskId : TaskId} {t : ExecutionTask}
    {f : ExecutionTask → ExecutionTask} (ht : findTask db.tasks taskId = some t)
    (htasks : db'.tasks = Table.modify ExecutionTask.id taskId f db.tasks)
    (hworkspaces : db'.workspaces = db.workspaces) (hstatus : db'.run.status = db.run.status)
    (hf : TaskStep db.run.status finishes t (f t)) : RowStep finishes db db' where
  tasks := by
    refine ⟨_, htasks, fun u hu ↦ ?_⟩
    split
    · next hid =>
      have heq := hk.findTask_eq_some_iff.mpr ⟨hu, hid⟩
      rw [ht] at heq
      cases heq
      exact hf
    · exact .refl u
  workspaces := hworkspaces
  status _ := .inl hstatus

/-- The same with an update of NodeRuns and events afterwards. -/
theorem of_task_kept (hk : Keyed db) {taskId : TaskId} {t : ExecutionTask}
    {f : ExecutionTask → ExecutionTask} (ht : findTask db.tasks taskId = some t)
    (h : RowsKept (db.modifyTask taskId f) db') (hf : TaskStep db.run.status finishes t (f t)) :
    RowStep finishes db db' :=
  of_task hk ht h.tasks h.workspaces h.status hf

end RowStep

/-! ## NodeRun helpers -/

theorem advanceNode_kept {target : NodeRunStatus} {f : NodeRun → NodeRun} :
    Returns (advanceNode db id target f) (RowsKept db) := by
  unfold advanceNode
  split
  · exact Outcome.Holds.bind (returns_any _) fun _ _ ↦ ⟨rfl, rfl, rfl⟩
  · exact .refl db

theorem nodeStatus_kept {target : NodeRunStatus} :
    Returns (nodeStatus db id target) (RowsKept db) :=
  Outcome.Holds.ite (fun _ ↦ .refl db) fun _ ↦ advanceNode_kept

theorem advanceOpenNode_kept {target : NodeRunStatus} {f : NodeRun → NodeRun} :
    Returns (advanceOpenNode db id target f) (RowsKept db) :=
  Outcome.Holds.ite (fun _ ↦ .refl db) fun _ ↦ advanceNode_kept

/-! ## The execution backend -/

variable {taskId : TaskId} {workerId leaseToken : String} {finishes : ExecutionTask → Prop}

theorem withLease_rows {body : ExecutionTask → Except Raised RunRecord}
    (hbody : ∀ t, findTask db.tasks taskId = some t → owns now workerId leaseToken t = true →
      Returns (body t) (RowStep finishes db)) :
    Returns (withLease now taskId workerId leaseToken db body) fun p ↦ RowStep finishes db p.2 := by
  unfold withLease
  split
  · next t ht =>
    refine Outcome.Holds.ite (fun _ ↦ .refl db) fun howns ↦ ?_
    exact (hbody t ht (by simpa using howns)).bind fun _ h ↦ h
  · exact .refl db

/-- The task that a fenced call is about, under its lease. -/
def OwnedTask (now : Time) (taskId : TaskId) (workerId leaseToken : String)
    (t : ExecutionTask) : Prop :=
  t.id = taskId ∧ owns now workerId leaseToken t = true

theorem findTask_id {t : ExecutionTask} (ht : findTask db.tasks taskId = some t) : t.id = taskId :=
  Table.key_of_find? ht

theorem complete_rows (hk : Keyed db) {output executionMetadata : Dict} {artifacts : List Json} :
    Returns (complete now taskId workerId leaseToken output executionMetadata artifacts db)
      fun p ↦ RowStep (OwnedTask now taskId workerId leaseToken) db p.2 := by
  refine withLease_rows fun t ht howns ↦ Outcome.Holds.bind (returns_any _) fun _ _ ↦ ?_
  refine Outcome.Holds.bind advanceNode_kept fun db' h ↦ ?_
  exact .of_task_kept hk ht ⟨h.tasks, h.workspaces, h.status⟩
    (.finish ⟨rfl, rfl, rfl⟩ rfl ⟨findTask_id ht, howns⟩)

theorem fail_rows (hk : Keyed db) {error executionMetadata : Dict} {artifacts : List Json} :
    Returns (fail now taskId workerId leaseToken error executionMetadata artifacts db)
      fun p ↦ RowStep (OwnedTask now taskId workerId leaseToken) db p.2 := by
  refine withLease_rows fun t ht howns ↦ Outcome.Holds.bind (returns_any _) fun _ _ ↦ ?_
  refine Outcome.Holds.bind advanceOpenNode_kept fun db' h ↦ ?_
  exact .of_task_kept hk ht ⟨h.tasks, h.workspaces, h.status⟩
    (.finish ⟨rfl, rfl, rfl⟩ rfl ⟨findTask_id ht, howns⟩)

theorem waitNode_rows (hk : Keyed db) {waitingReason : String} {waitingMetadata : Dict} :
    Returns (waitNode now taskId workerId leaseToken waitingReason waitingMetadata db)
      fun p ↦ RowStep (OwnedTask now taskId workerId leaseToken) db p.2 := by
  refine withLease_rows fun t ht howns ↦ Outcome.Holds.bind (returns_any _) fun _ _ ↦ ?_
  refine Outcome.Holds.bind advanceNode_kept fun db' h ↦ ?_
  refine Outcome.Holds.ite (fun _ ↦ trivial) fun _ ↦ ?_
  exact .of_task_kept hk ht ⟨h.tasks, h.workspaces, h.status⟩
    (.finish ⟨rfl, rfl, rfl⟩ rfl ⟨findTask_id ht, howns⟩)

theorem scheduleRetry_rows (hk : Keyed db) {backoffSeconds : ℕ} :
    Returns (scheduleRetry now taskId workerId leaseToken backoffSeconds db)
      fun p ↦ RowStep finishes db p.2 := by
  refine withLease_rows fun t ht _ ↦ Outcome.Holds.bind (returns_any _) fun _ _ ↦ ?_
  refine Outcome.Holds.bind nodeStatus_kept fun db' h ↦ ?_
  exact .of_task_kept hk ht ⟨h.tasks, h.workspaces, h.status⟩ (.queue ⟨rfl, rfl, rfl⟩ (.inr rfl))

theorem renewLease_rows (hk : Keyed db) {leaseSeconds : ℕ} :
    Returns (renewLease now taskId workerId leaseToken leaseSeconds db)
      fun p ↦ RowStep finishes db p.2 :=
  withLease_rows fun _ ht _ ↦ .of_task hk ht rfl rfl rfl
    ⟨rfl, rfl, rfl, fun h ↦ .inl ⟨h, rfl, rfl⟩, .inl, .inl⟩

/-- A Worker claims tasks without a required capability. -/
theorem claim_rows (hk : Keyed db) {leaseSeconds : ℕ} {autoStart : Bool} :
    Returns (claim now workerId leaseToken leaseSeconds none autoStart taskId db)
      fun p ↦ RowStep finishes db p.2 := by
  unfold claim
  split
  · next t ht =>
    refine Outcome.Holds.ite (fun _ ↦ .refl db) fun hcandidate ↦ ?_
    have hclaimable : claimable now workerId none db t = true := by
      simp only [isCandidate] at hcandidate
      simp_all
    simp only [claimable, capabilityMatches, decide_eq_true_eq] at hclaimable
    obtain ⟨-, -, hrunning, hcapability⟩ := hclaimable
    refine Outcome.Holds.ite (fun _ ↦ ?_) fun _ ↦ ?_
    · exact .of_task (f := grantLease now workerId leaseToken leaseSeconds) hk ht rfl rfl rfl
        (.work ⟨rfl, rfl, rfl⟩ rfl hrunning hcapability)
    · refine Outcome.Holds.bind (returns_any _) fun _ _ ↦ ?_
      refine Outcome.Holds.bind nodeStatus_kept fun db' h ↦ ?_
      refine .of_task (f := fun t ↦
        { grantLease now workerId leaseToken leaseSeconds t with
          status := .running, attempt := t.attempt + 1, startedAt := some now })
        hk ht (h.tasks.trans ?_) h.workspaces h.status
        (.work ⟨rfl, rfl, rfl⟩ rfl hrunning hcapability)
      rw [RunRecord.modifyTask_tasks, RunRecord.modifyTask_tasks]
      exact Table.modify_modify (f := grantLease now workerId leaseToken leaseSeconds)
        (fun _ ↦ rfl) taskId db.tasks
  · exact .refl db

theorem start_rows (hk : Keyed db) :
    Returns (start now taskId workerId leaseToken db)
      fun p ↦ RowStep (OwnedTask now taskId workerId leaseToken) db p.2 := by
  unfold start
  split
  · next t ht =>
    obtain rfl := findTask_id ht
    refine Outcome.Holds.ite (fun _ ↦ .refl db) fun howns ↦ ?_
    have howned : OwnedTask now t.id workerId leaseToken t := ⟨rfl, by simpa using howns⟩
    refine Outcome.Holds.ite (fun _ ↦ ?_) fun hrunning ↦ ?_
    · have hrelease : Returns (releaseOrCancelForRunState now db t)
          (RowStep (OwnedTask now t.id workerId leaseToken) db) := by
        refine Outcome.Holds.ite (fun _ ↦ ?_) fun _ ↦ ?_
        · exact Outcome.Holds.bind (returns_any _) fun _ _ ↦
            .of_task hk ht rfl rfl rfl (.queue ⟨rfl, rfl, rfl⟩ (.inl rfl))
        · refine Outcome.Holds.bind (returns_any _) fun _ _ ↦ ?_
          refine advanceOpenNode_kept.weaken fun db' h ↦ ?_
          exact .of_task_kept hk ht h (.finish ⟨rfl, rfl, rfl⟩ rfl howned)
      exact hrelease.bind fun _ h ↦ h
    · refine Outcome.Holds.bind transitionExecutionTask_sound.returns fun _ hlegal ↦ ?_
      have hclaimed : t.status = .claimed := by
        cases hstatus : t.status <;> simp [hstatus, ExecutionTaskStatus.transitions] at hlegal
        rfl
      refine Outcome.Holds.bind nodeStatus_kept fun db' h ↦ ?_
      refine .of_task_kept hk ht ⟨h.tasks, h.workspaces, h.status⟩ ⟨rfl, rfl, rfl,
        fun _ ↦ .inr ⟨by simpa using hrunning, .inl hclaimed⟩, fun h ↦ ?_, fun h ↦ ?_⟩
      · cases h
      · cases h
  · exact .refl db

theorem recoverExpired_rows : RowStep finishes db (recoverExpired now db) where
  tasks := by
    refine ⟨_, rfl, fun t _ ↦ ?_⟩
    split
    · exact .queue ⟨rfl, rfl, rfl⟩ (.inl rfl)
    · exact .refl t
  workspaces := rfl
  status _ := .inl rfl

/-- The loop over the due retries puts tasks back into the queue. -/
def Requeued (db : RunRecord) (_ : List ExecutionTask) (db' : RunRecord) : Prop :=
  db'.run.status = db.run.status ∧ db'.workspaces = db.workspaces ∧
    ∃ f, db'.tasks = db.tasks.map f ∧ ∀ t, f t = t ∨
      ((f t).nodeRunId = t.nodeRunId ∧ (f t).payload = t.payload ∧
        (f t).requiredCapability = t.requiredCapability) ∧ (f t).status = .pending

theorem promoteRetry_requeued {t : ExecutionTask} {ts : List ExecutionTask}
    (h : Requeued db (t :: ts) db') : Returns (promoteRetry db' t) (Requeued db ts) := by
  obtain ⟨hstatus, hworkspaces, f, htasks, hf⟩ := h
  refine Outcome.Holds.bind nodeStatus_kept fun db₁ h₁ ↦ ?_
  refine ⟨h₁.status.trans hstatus, h₁.workspaces.trans hworkspaces,
    fun u ↦ if (f u).id = t.id then { f u with status := .pending } else f u, ?_, fun u ↦ ?_⟩
  · refine h₁.tasks.trans ?_
    rw [RunRecord.modifyTask_tasks, htasks, Table.modify, List.map_map]
    rfl
  · dsimp only
    split
    · rcases hf u with heq | ⟨hsame, -⟩
      · exact .inr ⟨by rw [heq]; exact ⟨rfl, rfl, rfl⟩, rfl⟩
      · exact .inr ⟨hsame, rfl⟩
    · exact hf u

theorem promoteDueRetries_rows : Returns (promoteDueRetries now db) (RowStep finishes db) := by
  have hstart : Requeued db (db.tasks.filter (retryDue now)) db :=
    ⟨rfl, rfl, fun t ↦ t, by simp, fun _ ↦ .inl rfl⟩
  refine Outcome.Holds.weaken (Outcome.holds_foldlM (fun _ _ _ ↦ promoteRetry_requeued) _ _ hstart)
    fun db' h ↦ ?_
  obtain ⟨hstatus, hworkspaces, f, htasks, hf⟩ := h
  refine ⟨⟨f, htasks, fun t _ ↦ ?_⟩, hworkspaces, fun _ ↦ .inl hstatus⟩
  rcases hf t with heq | ⟨hsame, hpending⟩
  · rw [heq]
    exact .refl t
  · exact .queue hsame (.inl hpending)

/-! ## The run service -/

theorem advanceRun_rows {target : WorkflowRunStatus} {f : WorkflowRun → WorkflowRun} :
    Returns (advanceRun db target f) fun db' ↦
      db'.tasks = db.tasks ∧ db'.workspaces = db.workspaces ∧ db'.run.status = target :=
  Outcome.Holds.bind (returns_any _) fun _ _ ↦ ⟨rfl, rfl, rfl⟩

theorem RowStep.of_open (htasks : db'.tasks = db.tasks) (hworkspaces : db'.workspaces = db.workspaces)
    (hstatus : db'.run.status.isTerminal = false) : RowStep finishes db db' where
  tasks := ⟨fun t ↦ t, by simp [htasks], fun t _ ↦ .refl t⟩
  workspaces := hworkspaces
  status h := by
    rw [hstatus] at h
    cases h

theorem startRun_rows : Returns (startRun now db) (RowStep finishes db) :=
  advanceRun_rows.bind fun _ h ↦ RowStep.of_open h.1 h.2.1 (by
    rw [RunRecord.recordEvent_run, h.2.2]
    rfl)

theorem pauseRun_rows : Returns (pauseRun now db) (RowStep finishes db) :=
  advanceRun_rows.weaken fun _ h ↦ .of_open h.1 h.2.1 (by
    rw [h.2.2]
    rfl)

theorem resumeRun_rows : Returns (resumeRun db) (RowStep finishes db) :=
  advanceRun_rows.weaken fun _ h ↦ .of_open h.1 h.2.1 (by
    rw [h.2.2]
    rfl)

theorem cancelTask_step {status : WorkflowRunStatus} (t : ExecutionTask) :
    TaskStep status (fun _ ↦ True) t (cancelTask now t) := by
  unfold cancelTask
  split
  · exact .refl t
  · exact .finish ⟨rfl, rfl, rfl⟩ rfl trivial

theorem cancelRun_rows : Returns (cancelRun now db) (RowStep (fun _ ↦ True) db) := by
  have hstatus : Returns (cancelRunStatus now db) fun db' ↦
      db'.tasks = db.tasks ∧ db'.workspaces = db.workspaces := by
    refine Outcome.Holds.ite (fun _ ↦ trivial) fun _ ↦ ?_
    exact advanceRun_rows.bind fun _ h ↦ ⟨h.1, h.2.1⟩
  refine hstatus.bind fun db₁ h₁ ↦ ?_
  have hcommit : (cancelRunTasks now { cancelOpenNodes now db₁ with }).commit =
      .ok (cancelRunTasks now { cancelOpenNodes now db₁ with }).toRunRecord := rfl
  rw [hcommit]
  refine ⟨⟨cancelTask now, congrArg (List.map _) h₁.1, fun t _ ↦ cancelTask_step t⟩, h₁.2,
    fun _ ↦ .inr fun t ht ↦ ?_⟩
  obtain ⟨u, -, rfl⟩ := List.mem_map.mp ht
  exact cancelTask_terminal now u

theorem applyHumanResult_rows {result : HumanResult} :
    Returns (applyHumanResult now db id result) (RowsKept db) :=
  Outcome.Holds.bind (returns_any _) fun _ _ ↦ ⟨rfl, rfl, rfl⟩

theorem approveNodeRun_rows : Returns (approveNodeRun now id db) (RowsKept db) :=
  Outcome.Holds.bind (returns_any _) fun _ _ ↦ Outcome.Holds.bind (returns_any _) fun _ _ ↦
    Outcome.Holds.bind (returns_any _) fun _ _ ↦ applyHumanResult_rows

theorem rejectNodeRun_rows : Returns (rejectNodeRun now id db) (RowsKept db) :=
  Outcome.Holds.bind (returns_any _) fun _ _ ↦ Outcome.Holds.bind (returns_any _) fun _ _ ↦
    Outcome.Holds.bind (returns_any _) fun _ _ ↦
      Outcome.Holds.ite (fun _ ↦ trivial) fun _ ↦ applyHumanResult_rows

theorem submitNodeRun_rows {input : Dict} :
    Returns (submitNodeRun env now id input db) (RowsKept db) :=
  Outcome.Holds.bind (returns_any _) fun _ _ ↦ Outcome.Holds.bind (returns_any _) fun _ _ ↦
    Outcome.Holds.bind (returns_any _) fun _ _ ↦ Outcome.Holds.bind (returns_any _) fun _ _ ↦
      applyHumanResult_rows

/-! ## All server operations -/

/-- The operations that the server makes itself: not the requests of Runners, and a
Worker claims without capabilities. -/
def RunOp.isServer : RunOp → Bool
  | .runnerClaim .. | .runnerTaskHeartbeat .. | .runnerSubmit .. => false
  | .claim _ _ _ _ capabilities _ _ => capabilities.isNone
  | _ => true

/-- Scheduling creates tasks and workspaces. -/
def RunOp.schedules : RunOp → Bool
  | .schedule .. | .reconcile .. => true
  | _ => false

/-- The tasks that an operation other than a reconciliation may end. -/
def RunOp.mayFinish : RunOp → ExecutionTask → Prop
  | .start now task workerId leaseToken => OwnedTask now task workerId leaseToken
  | .complete now task workerId leaseToken .. => OwnedTask now task workerId leaseToken
  | .fail now task workerId leaseToken .. => OwnedTask now task workerId leaseToken
  | .waitNode now task workerId leaseToken .. => OwnedTask now task workerId leaseToken
  | .cancelRun _ => fun _ ↦ True
  | _ => fun _ ↦ False

theorem returning_returns {x : Except Raised RunRecord} {post : RunRecord → Prop}
    (h : Returns x post) : Returns (returning x) fun p ↦ post p.2 := by
  cases x with
  | ok db => exact h
  | error e => exact h

theorem RunOp.exec_rows (hk : Keyed db) {op : RunOp} (hserver : op.isServer = true)
    (hschedules : op.schedules = false) :
    Returns (op.exec env db) fun p ↦ RowStep op.mayFinish db p.2 := by
  have hkept {x : Except Raised RunRecord} (h : Returns x (RowsKept db)) :
      Returns (returning x) fun p ↦ RowStep (fun _ ↦ False) db p.2 :=
    returning_returns (h.weaken fun _ h ↦ h.rowStep)
  cases op with
  | schedule | reconcile => cases hschedules
  | runnerClaim | runnerTaskHeartbeat | runnerSubmit => cases hserver
  | startRun => exact returning_returns startRun_rows
  | pauseRun => exact returning_returns pauseRun_rows
  | resumeRun => exact returning_returns resumeRun_rows
  | cancelRun => exact returning_returns cancelRun_rows
  | approve => exact hkept approveNodeRun_rows
  | reject => exact hkept rejectNodeRun_rows
  | submit => exact hkept submitNodeRun_rows
  | claim now workerId leaseToken leaseSeconds capabilities autoStart task =>
      obtain rfl : capabilities = none := by simpa [isServer] using hserver
      exact claim_rows hk
  | start => exact start_rows hk
  | complete => exact complete_rows hk
  | fail => exact fail_rows hk
  | waitNode => exact waitNode_rows hk
  | scheduleRetry => exact scheduleRetry_rows hk
  | renewLease => exact renewLease_rows hk
  | recoverExpired => exact recoverExpired_rows
  | promoteDueRetries => exact returning_returns promoteDueRetries_rows

/-! ## The requests of Runners -/

/-- A claim that returns a task: the task runs under the new lease and its workspace,
if it names one, is in use. -/
structure ClaimedOnRunner (runner : Runner) (leaseToken : String) (taskId : TaskId)
    (db db' : RunRecord) (t : ExecutionTask) : Prop where
  found : findTask db.tasks taskId = some t
  pending : t.status = .pending
  active : db.run.status = .running
  status : db'.run.status = db.run.status
  tasks : ∃ f, db'.tasks = Table.modify ExecutionTask.id taskId f db.tasks ∧
    ∀ u, ((f u).nodeRunId = u.nodeRunId ∧ (f u).payload = u.payload ∧
      (f u).requiredCapability = u.requiredCapability) ∧ (f u).status = .running ∧
        (f u).lockedBy = some runner.id ∧ (f u).leaseToken = some leaseToken
  workspaces : db'.workspaces =
    match workspaceOf t with
    | some id => Table.modify Workspace.id id
        (fun w ↦ { w with runnerId := some runner.id, status := .inUse }) db.workspaces
    | none => db.workspaces

theorem runnerClaim_rows {runner : Runner} {leaseSeconds : ℕ} :
    Returns (runnerClaim now runner leaseToken leaseSeconds taskId db) fun p ↦
      p = (false, db) ∨ p.1 = true ∧ ∃ t, ClaimedOnRunner runner leaseToken taskId db p.2 t := by
  unfold runnerClaim
  split
  · next t ht =>
    refine Outcome.Holds.ite (fun _ ↦ .inl rfl) fun hcandidate ↦ ?_
    have hclaimable : claimable now runner.id (some runner.capabilities) db t = true := by
      simp only [isCandidate] at hcandidate
      simp_all
    simp only [claimable, decide_eq_true_eq] at hclaimable
    obtain ⟨hpending, -, hrunning, -⟩ := hclaimable
    refine Outcome.Holds.bind (returns_any _) fun _ _ ↦ ?_
    have hstart {db₁ : RunRecord} :
        Returns (startNodeOnRunner now (t.attempt + 1) db₁ t.nodeRunId) (RowsKept db₁) :=
      nodeStatus_kept.bind fun _ h ↦ ⟨h.tasks, h.workspaces, h.status⟩
    refine Outcome.Holds.bind hstart fun db₂ h₂ ↦ ?_
    have htasks : ∃ f, db₂.tasks = Table.modify ExecutionTask.id taskId f db.tasks ∧
        ∀ u, ((f u).nodeRunId = u.nodeRunId ∧ (f u).payload = u.payload ∧
          (f u).requiredCapability = u.requiredCapability) ∧ (f u).status = .running ∧
            (f u).lockedBy = some runner.id ∧ (f u).leaseToken = some leaseToken := by
      refine ⟨fun t ↦
        { grantLease now runner.id leaseToken leaseSeconds t with
          status := .running, attempt := t.attempt + 1, startedAt := some now },
        h₂.tasks.trans ?_, fun u ↦ ⟨⟨rfl, rfl, rfl⟩, rfl, rfl, rfl⟩⟩
      rw [RunRecord.modifyTask_tasks, RunRecord.modifyTask_tasks]
      exact Table.modify_modify (f := grantLease now runner.id leaseToken leaseSeconds)
        (fun _ ↦ rfl) taskId db.tasks
    refine .inr ⟨rfl, t, ht, hpending, hrunning, ?_, ?_, ?_⟩
    · cases workspaceOf t <;> exact h₂.status
    · cases workspaceOf t <;> exact htasks
    · cases workspaceOf t with
      | none => exact h₂.workspaces
      | some id => exact congrArg (Table.modify Workspace.id id _) h₂.workspaces
  · exact .inl rfl

/-- A heartbeat renews the lease of a running task, or asks the Runner to stop: the
task is not running or its run has ended. -/
theorem runnerTaskHeartbeat_rows (hk : Keyed db) {runner : Runner} {leaseSeconds : ℕ} :
    Outcome.Holds (runnerTaskHeartbeat now runner taskId leaseToken leaseSeconds db)
      (fun p ↦ RowStep (fun _ ↦ False) db p.2 ∧ (p.1 = true → ∃ t, findTask db.tasks taskId = some t ∧
        p.2 = db ∧ t.lockedBy = some runner.id ∧ t.leaseToken = some leaseToken ∧
          (t.status ≠ .running ∨ db.run.status.isTerminal = true)))
      (fun _ ↦ ∀ t, findTask db.tasks taskId = some t →
        ¬(t.lockedBy = some runner.id ∧ t.leaseToken = some leaseToken)) := by
  unfold runnerTaskHeartbeat
  split
  · next t ht =>
    refine Outcome.Holds.ite (fun hstale ↦ ?_) fun howned ↦ ?_
    · rintro u hu ⟨hlocked, htoken⟩
      rw [ht] at hu
      cases hu
      exact hstale.elim (fun h ↦ h hlocked) fun h ↦ h htoken
    · rw [not_or, not_not, not_not] at howned
      refine Outcome.Holds.ite (fun hstop ↦ ?_) fun _ ↦ ?_
      · exact ⟨.refl db, fun _ ↦ ⟨t, ht, rfl, howned.1, howned.2, hstop⟩⟩
      · refine ⟨.of_task hk ht rfl rfl rfl ?_, fun h ↦ (by cases h)⟩
        exact ⟨rfl, rfl, rfl, fun h ↦ .inl ⟨h, rfl, rfl⟩, .inl, .inl⟩
  · next hnone =>
    intro t ht
    rw [hnone] at ht
    cases ht

/-- A submission that is accepted puts the task back for a retry, or ends it and
writes the result to its workspace. -/
structure Submitted (env : Env) (now : Time) (result : Dict) (taskId : TaskId)
    (db db' : RunRecord) (t : ExecutionTask) : Prop where
  found : findTask db.tasks taskId = some t
  active : db.run.status.isTerminal = false
  status : db'.run.status = db.run.status
  rows : ∃ f, db'.tasks = Table.modify ExecutionTask.id taskId f db.tasks ∧
    (∀ u, (f u).nodeRunId = u.nodeRunId ∧ (f u).payload = u.payload ∧
      (f u).requiredCapability = u.requiredCapability) ∧
    ((∀ u, (f u).status = .retryWait) ∧ db'.workspaces = db.workspaces ∨
      (∀ u, (f u).status.isTerminal = true) ∧ db'.workspaces =
        match workspaceOf t with
        | some id => Table.modify Workspace.id id (syncWorkspace env now result) db.workspaces
        | none => db.workspaces)

theorem applySubmission_rows {runnerId : String} {t : ExecutionTask} {result output metadata : Dict}
    {references : List Json} :
    Returns (applySubmission env now runnerId t result output metadata references db) fun db' ↦
      db'.run.status = db.run.status ∧ db'.workspaces = db.workspaces ∧
        ∃ f, db'.tasks = Table.modify ExecutionTask.id t.id f db.tasks ∧
          (∀ u, (f u).nodeRunId = u.nodeRunId ∧ (f u).payload = u.payload ∧
            (f u).requiredCapability = u.requiredCapability) ∧
          ((∀ u, (f u).status = .retryWait) ∧ shouldRetry env t result = true ∨
            (∀ u, (f u).status.isTerminal = true) ∧ shouldRetry env t result = false) := by
  refine Outcome.Holds.ite (fun hok ↦ ?_) fun _ ↦ Outcome.Holds.ite (fun hretry ↦ ?_) fun hretry ↦ ?_
  · refine Outcome.Holds.bind (returns_any _) fun _ _ ↦ ?_
    refine Outcome.Holds.bind advanceNode_kept fun db' h ↦ ?_
    refine ⟨h.status, h.workspaces, _, h.tasks, fun _ ↦ ⟨rfl, rfl, rfl⟩, .inr ⟨fun _ ↦ rfl, ?_⟩⟩
    simp [shouldRetry, hok]
  · refine Outcome.Holds.bind (returns_any _) fun _ _ ↦ ?_
    refine Outcome.Holds.bind nodeStatus_kept fun db' h ↦ ?_
    exact ⟨h.status, h.workspaces, _, h.tasks, fun _ ↦ ⟨rfl, rfl, rfl⟩, .inl ⟨fun _ ↦ rfl, hretry⟩⟩
  · refine Outcome.Holds.bind (returns_any _) fun _ _ ↦ ?_
    have hkept : shouldRetry env t result = false := by simpa using hretry
    refine Outcome.Holds.ite (fun _ ↦ ?_) fun _ ↦ ?_
    · exact ⟨rfl, rfl, _, rfl, fun _ ↦ ⟨rfl, rfl, rfl⟩, .inr ⟨fun _ ↦ rfl, hkept⟩⟩
    · refine Outcome.Holds.bind advanceNode_kept fun db' h ↦ ?_
      exact ⟨h.status, h.workspaces, _, h.tasks, fun _ ↦ ⟨rfl, rfl, rfl⟩, .inr ⟨fun _ ↦ rfl, hkept⟩⟩

theorem runnerSubmit_rows {runnerId : String} {result : Dict} :
    Returns (runnerSubmit env now runnerId taskId leaseToken result db) fun p ↦
      p = (false, db) ∨ p.1 = true ∧ ∃ t, Submitted env now result taskId db p.2 t := by
  unfold runnerSubmit
  split
  · next t ht =>
    obtain rfl := findTask_id ht
    refine Outcome.Holds.ite (fun _ ↦ .inl rfl) fun hactive ↦ ?_
    refine Outcome.Holds.ite (fun _ ↦ .inl rfl) fun _ ↦ ?_
    refine Outcome.Holds.bind (returns_any _) fun p _ ↦ ?_
    refine Outcome.Holds.bind applySubmission_rows fun db' h ↦ ?_
    obtain ⟨hstatus, hworkspaces, f, htasks, hsame, hf⟩ := h
    split
    · next id hid =>
      rcases hf with ⟨hwait, hretry⟩ | ⟨hterminal, hretry⟩
      · rw [if_pos hretry]
        exact .inr ⟨rfl, t, ht, by simpa using hactive, hstatus, f, htasks, hsame,
          .inl ⟨hwait, hworkspaces⟩⟩
      · rw [if_neg (by simp [hretry])]
        refine .inr ⟨rfl, t, ht, by simpa using hactive, hstatus, f, htasks, hsame,
          .inr ⟨hterminal, ?_⟩⟩
        rw [hid]
        exact congrArg (Table.modify Workspace.id id _) hworkspaces
    · next hnone =>
      refine .inr ⟨rfl, t, ht, by simpa using hactive, hstatus, f, htasks, hsame, ?_⟩
      rw [hnone]
      rcases hf with ⟨hwait, -⟩ | ⟨hterminal, -⟩
      · exact .inl ⟨hwait, hworkspaces⟩
      · exact .inr ⟨hterminal, hworkspaces⟩
  · exact .inl rfl

end Relayvia
