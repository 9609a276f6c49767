import Relayvia.Concurrency.Transactions
import Relayvia.Operations.Reconciliation

/-!
# Updates in place

The worker calls, the Runner calls and the first transactions of the human actions keep
the run row and the set of tasks.
-/

namespace Relayvia

variable {env : Env} {now : Time} {db db' : RunRecord} {id : NodeId} {taskId : TaskId}
  {workerId leaseToken : String}

/-- The run row is kept, and tasks are only updated. -/
structure RunKept (db db' : RunRecord) : Prop where
  run : db'.run = db.run
  taskNodes : db'.tasks.map ExecutionTask.nodeRunId = db.tasks.map ExecutionTask.nodeRunId

namespace RunKept

theorem refl (db : RunRecord) : RunKept db db := ⟨rfl, rfl⟩

theorem trans {db₁ db₂ db₃ : RunRecord} (h : RunKept db₁ db₂) (h' : RunKept db₂ db₃) :
    RunKept db₁ db₃ :=
  ⟨h'.run.trans h.run, h'.taskNodes.trans h.taskNodes⟩

theorem modifyTask (taskId : TaskId) {f : ExecutionTask → ExecutionTask}
    (hf : ∀ t, (f t).nodeRunId = t.nodeRunId) : RunKept db (db.modifyTask taskId f) := by
  refine ⟨rfl, ?_⟩
  rw [RunRecord.modifyTask_tasks, Table.modify]
  exact Table.map_key_map (fun t ↦ by split <;> simp [hf]) db.tasks

theorem of_task {f : ExecutionTask → ExecutionTask} (h : RunKept (db.modifyTask taskId f) db')
    (hf : ∀ t, (f t).nodeRunId = t.nodeRunId) : RunKept db db' :=
  (modifyTask taskId hf).trans h

theorem record (h : RunKept db db') (e : RunEvent) : RunKept db (db'.recordEvent e) :=
  ⟨h.run, h.taskNodes⟩

theorem advanceNode {target : NodeRunStatus} {f : NodeRun → NodeRun} :
    Returns (advanceNode db id target f) (RunKept db) := by
  unfold Relayvia.advanceNode
  split
  · exact Outcome.Holds.bind (returns_any _) fun _ _ ↦ ⟨rfl, rfl⟩
  · exact refl db

theorem nodeStatus {target : NodeRunStatus} : Returns (nodeStatus db id target) (RunKept db) :=
  Outcome.Holds.ite (fun _ ↦ refl db) fun _ ↦ advanceNode

theorem advanceOpenNode {target : NodeRunStatus} {f : NodeRun → NodeRun} :
    Returns (advanceOpenNode db id target f) (RunKept db) :=
  Outcome.Holds.ite (fun _ ↦ refl db) fun _ ↦ advanceNode

theorem withLease {body : ExecutionTask → Except Raised RunRecord}
    (hbody : ∀ t, Returns (body t) (RunKept db)) :
    Returns (withLease now taskId workerId leaseToken db body) fun p ↦ RunKept db p.2 := by
  unfold Relayvia.withLease
  split
  · next t _ =>
    refine Outcome.Holds.ite (fun _ ↦ refl db) fun _ ↦ ?_
    exact (hbody t).bind fun _ h ↦ h
  · exact refl db

end RunKept

theorem complete_runKept {output executionMetadata : Dict} {artifacts : List Json} :
    Returns (complete now taskId workerId leaseToken output executionMetadata artifacts db)
      fun p ↦ RunKept db p.2 := by
  refine RunKept.withLease fun t ↦ Outcome.Holds.bind (returns_any _) fun _ _ ↦ ?_
  exact Outcome.Holds.bind RunKept.advanceNode fun _ h ↦ (h.record _).of_task fun _ ↦ rfl

theorem fail_runKept {error executionMetadata : Dict} {artifacts : List Json} :
    Returns (fail now taskId workerId leaseToken error executionMetadata artifacts db)
      fun p ↦ RunKept db p.2 := by
  refine RunKept.withLease fun t ↦ Outcome.Holds.bind (returns_any _) fun _ _ ↦ ?_
  exact Outcome.Holds.bind RunKept.advanceOpenNode fun _ h ↦ (h.record _).of_task fun _ ↦ rfl

theorem waitNode_runKept {waitingReason : String} {waitingMetadata : Dict} :
    Returns (waitNode now taskId workerId leaseToken waitingReason waitingMetadata db)
      fun p ↦ RunKept db p.2 := by
  refine RunKept.withLease fun t ↦ Outcome.Holds.bind (returns_any _) fun _ _ ↦ ?_
  refine Outcome.Holds.bind RunKept.advanceNode fun _ h ↦ ?_
  exact Outcome.Holds.ite (fun _ ↦ trivial) fun _ ↦ (h.record _).of_task fun _ ↦ rfl

theorem scheduleRetry_runKept {backoffSeconds : ℕ} :
    Returns (scheduleRetry now taskId workerId leaseToken backoffSeconds db)
      fun p ↦ RunKept db p.2 := by
  refine RunKept.withLease fun t ↦ Outcome.Holds.bind (returns_any _) fun _ _ ↦ ?_
  exact Outcome.Holds.bind RunKept.nodeStatus fun _ h ↦ (h.record _).of_task fun _ ↦ rfl

theorem renewLease_runKept {leaseSeconds : ℕ} :
    Returns (renewLease now taskId workerId leaseToken leaseSeconds db)
      fun p ↦ RunKept db p.2 :=
  RunKept.withLease fun _ ↦ RunKept.modifyTask taskId fun _ ↦ rfl

theorem claim_runKept {leaseSeconds : ℕ} {capabilities : Option (List String)} {autoStart : Bool} :
    Returns (claim now workerId leaseToken leaseSeconds capabilities autoStart taskId db)
      fun p ↦ RunKept db p.2 := by
  have hgrant : RunKept db
      (db.modifyTask taskId (grantLease now workerId leaseToken leaseSeconds)) :=
    .modifyTask taskId fun _ ↦ rfl
  unfold claim
  split
  · refine Outcome.Holds.ite (fun _ ↦ .refl db) fun _ ↦ Outcome.Holds.ite (fun _ ↦ hgrant) fun _ ↦ ?_
    refine Outcome.Holds.bind (returns_any _) fun _ _ ↦ ?_
    refine Outcome.Holds.bind RunKept.nodeStatus fun _ h ↦ ?_
    exact hgrant.trans ((h.record _).of_task fun _ ↦ rfl)
  · exact .refl db

theorem start_runKept :
    Returns (start now taskId workerId leaseToken db) fun p ↦ RunKept db p.2 := by
  unfold start
  split
  · next t _ =>
    have hrelease : Returns (releaseOrCancelForRunState now db t) (RunKept db) := by
      refine Outcome.Holds.ite (fun _ ↦ ?_) fun _ ↦ ?_
      · exact Outcome.Holds.bind (returns_any _) fun _ _ ↦ .modifyTask t.id fun _ ↦ rfl
      · refine Outcome.Holds.bind (returns_any _) fun _ _ ↦ ?_
        exact RunKept.advanceOpenNode.weaken fun _ h ↦ h.of_task fun _ ↦ rfl
    refine Outcome.Holds.ite (fun _ ↦ .refl db) fun _ ↦ Outcome.Holds.ite (fun _ ↦ ?_) fun _ ↦ ?_
    · exact hrelease.bind fun _ h ↦ h
    · refine Outcome.Holds.bind (returns_any _) fun _ _ ↦ ?_
      exact Outcome.Holds.bind RunKept.nodeStatus fun _ h ↦ (h.record _).of_task fun _ ↦ rfl
  · exact .refl db

theorem recoverExpired_runKept : RunKept db (recoverExpired now db) :=
  ⟨rfl, Table.map_key_map (fun _ ↦ by split <;> rfl) db.tasks⟩

theorem promoteDueRetries_runKept : Returns (promoteDueRetries now db) (RunKept db) := by
  let kept (_ : List ExecutionTask) (db' : RunRecord) : Prop := RunKept db db'
  have hstep (t : ExecutionTask) (ts : List ExecutionTask) (db' : RunRecord)
      (h : kept (t :: ts) db') : Returns (promoteRetry db' t) (kept ts) :=
    Outcome.Holds.bind RunKept.nodeStatus fun _ h' ↦
      h.trans ((h'.record _).of_task fun _ ↦ rfl)
  exact Outcome.holds_foldlM hstep _ db (.refl db)

theorem runnerClaim_runKept {runner : Runner} {leaseSeconds : ℕ} :
    Returns (runnerClaim now runner leaseToken leaseSeconds taskId db)
      fun p ↦ RunKept db p.2 := by
  have hgrant : RunKept db
      (db.modifyTask taskId (grantLease now runner.id leaseToken leaseSeconds)) :=
    .modifyTask taskId fun _ ↦ rfl
  unfold runnerClaim
  split
  · next t _ =>
    refine Outcome.Holds.ite (fun _ ↦ .refl db) fun _ ↦ ?_
    refine Outcome.Holds.bind (returns_any _) fun _ _ ↦ ?_
    have hstart {db₀ : RunRecord} {attempt : ℕ} (h₀ : RunKept db db₀) :
        Returns (startNodeOnRunner now attempt db₀ t.nodeRunId) (RunKept db) :=
      RunKept.nodeStatus.bind fun _ h ↦ h₀.trans ⟨h.run, h.taskNodes⟩
    refine (hstart (hgrant.trans (.modifyTask taskId ?_))).bind fun _ h ↦ ?_
    · exact fun _ ↦ rfl
    · dsimp only
      split
      · exact Outcome.holds_pure.mpr ⟨h.run, h.taskNodes⟩
      · exact Outcome.holds_pure.mpr (h.record _)
  · exact .refl db

theorem runnerTaskHeartbeat_runKept {runner : Runner} {leaseSeconds : ℕ} :
    Returns (runnerTaskHeartbeat now runner taskId leaseToken leaseSeconds db)
      fun p ↦ RunKept db p.2 := by
  unfold runnerTaskHeartbeat
  split
  · refine Outcome.Holds.ite (fun _ ↦ trivial) fun _ ↦ Outcome.Holds.ite (fun _ ↦ .refl db) fun _ ↦ ?_
    exact RunKept.modifyTask taskId fun _ ↦ rfl
  · trivial

theorem runnerSubmit_runKept {runnerId : String} {result : Dict} :
    Returns (runnerSubmit env now runnerId taskId leaseToken result db)
      fun p ↦ RunKept db p.2 := by
  have happly {task : ExecutionTask} {output metadata : Dict} {references : List Json}
      {db₀ : RunRecord} (h₀ : RunKept db db₀) :
      Returns (applySubmission env now runnerId task result output metadata references db₀)
        (RunKept db) := by
    suffices h : Returns (applySubmission env now runnerId task result output metadata references db₀)
        (RunKept db₀) from h.weaken fun _ h ↦ h₀.trans h
    refine Outcome.Holds.ite (fun _ ↦ ?_) fun _ ↦ Outcome.Holds.ite (fun _ ↦ ?_) fun _ ↦ ?_
    · refine Outcome.Holds.bind (returns_any _) fun _ _ ↦ ?_
      exact Outcome.Holds.bind RunKept.advanceNode fun _ h ↦ (h.record _).of_task fun _ ↦ rfl
    · refine Outcome.Holds.bind (returns_any _) fun _ _ ↦ ?_
      exact Outcome.Holds.bind RunKept.nodeStatus fun _ h ↦ (h.record _).of_task fun _ ↦ rfl
    · refine Outcome.Holds.bind (returns_any _) fun _ _ ↦ ?_
      refine Outcome.Holds.ite (fun _ ↦ ?_) fun _ ↦ ?_
      · refine Outcome.holds_pure.mpr (RunKept.record (RunKept.modifyTask task.id ?_) _)
        exact fun _ ↦ rfl
      · exact Outcome.Holds.bind RunKept.advanceNode fun _ h ↦ (h.record _).of_task fun _ ↦ rfl
  unfold runnerSubmit
  split
  · refine Outcome.Holds.ite (fun _ ↦ .refl db) fun _ ↦ Outcome.Holds.ite (fun _ ↦ .refl db) fun _ ↦ ?_
    refine Outcome.Holds.bind (returns_any _) fun artifacts _ ↦ ?_
    refine Outcome.Holds.bind (happly ?_) fun _ h ↦ ?_
    · exact ⟨rfl, rfl⟩
    split
    · exact Outcome.Holds.ite (fun _ ↦ h) fun _ ↦ ⟨h.run, h.taskNodes⟩
    · exact h
  · exact .refl db

theorem applyHumanResult_runKept {result : HumanResult} :
    Returns (applyHumanResult now db id result) (RunKept db) :=
  Outcome.Holds.bind (returns_any _) fun _ _ ↦ Outcome.holds_pure.mpr ⟨rfl, rfl⟩

theorem HumanAction.apply_runKept (action : HumanAction) :
    Returns (action.apply env now id db) (RunKept db) := by
  cases action with
  | approve =>
      refine Outcome.Holds.bind (returns_any _) fun _ _ ↦ Outcome.Holds.bind (returns_any _) fun _ _ ↦ ?_
      exact Outcome.Holds.bind (returns_any _) fun _ _ ↦ applyHumanResult_runKept
  | reject =>
      refine Outcome.Holds.bind (returns_any _) fun _ _ ↦ Outcome.Holds.bind (returns_any _) fun _ _ ↦ ?_
      refine Outcome.Holds.bind (returns_any _) fun _ _ ↦ ?_
      exact Outcome.Holds.ite (fun _ ↦ trivial) fun _ ↦ applyHumanResult_runKept
  | submit input =>
      refine Outcome.Holds.bind (returns_any _) fun _ _ ↦ Outcome.Holds.bind (returns_any _) fun _ _ ↦ ?_
      refine Outcome.Holds.bind (returns_any _) fun _ _ ↦ Outcome.Holds.bind (returns_any _) fun _ _ ↦ ?_
      exact applyHumanResult_runKept

end Relayvia
