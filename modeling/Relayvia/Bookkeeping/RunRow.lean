import Relayvia.Concurrency.Updates
import Relayvia.Fencing
import Relayvia.Operations.Settling

/-!
# What each operation writes to the run row

The lifecycle operations and reconciliation write it, and only `start_run` records
WORKFLOW_STARTED.
-/

namespace Relayvia

variable {env : Env} {now : Time} {db db' db'' : RunRecord} {s s' : Session} {id : NodeId}
  {taskId : TaskId} {workerId leaseToken runnerId : String} {runner : Runner}

/-! ## Events -/

/-- The appended events do not start the workflow. -/
def Quiet (db db' : RunRecord) : Prop :=
  ∃ new, db'.events = db.events ++ new ∧ ∀ e ∈ new, e.eventType ≠ .workflowStarted

namespace Quiet

theorem of_eq (h : db'.events = db.events) : Quiet db db' :=
  ⟨[], by simpa using h, by simp⟩

theorem refl (db : RunRecord) : Quiet db db := of_eq rfl

theorem trans (h : Quiet db db') (h' : Quiet db' db'') : Quiet db db'' := by
  obtain ⟨new, hevents, hnew⟩ := h
  obtain ⟨new', hevents', hnew'⟩ := h'
  refine ⟨new ++ new', by rw [hevents', hevents, List.append_assoc], fun e he ↦ ?_⟩
  rcases List.mem_append.mp he with he | he
  · exact hnew e he
  · exact hnew' e he

theorem congr (h : Quiet db db') (hevents : db''.events = db'.events) : Quiet db db'' :=
  h.trans (of_eq hevents)

theorem append {new : List RunEvent} (hevents : db'.events = db.events ++ new)
    (hnew : ∀ e ∈ new, e.eventType ≠ .workflowStarted) : Quiet db db' :=
  ⟨new, hevents, hnew⟩

theorem record {e : RunEvent} (hevents : db'.events = db.events)
    (he : e.eventType ≠ .workflowStarted) : Quiet db (db'.recordEvent e) := by
  refine ⟨[e], ?_, fun e' he' ↦ ?_⟩
  · rw [RunRecord.recordEvent, hevents]
  · rwa [List.mem_singleton.mp he']

theorem countP (h : Quiet db db') :
    db'.events.countP (·.eventType = .workflowStarted) =
      db.events.countP (·.eventType = .workflowStarted) := by
  obtain ⟨new, hevents, hnew⟩ := h
  rw [hevents, List.countP_append, Nat.add_eq_left, List.countP_eq_zero]
  intro e he
  simpa using hnew e he

end Quiet

theorem advanceNode_events {target : NodeRunStatus} {f : NodeRun → NodeRun} :
    Returns (advanceNode db id target f) fun db' ↦ db'.events = db.events := by
  unfold advanceNode
  split
  · exact Outcome.Holds.bind (returns_any _) fun _ _ ↦ rfl
  · rfl

theorem nodeStatus_events {target : NodeRunStatus} :
    Returns (nodeStatus db id target) fun db' ↦ db'.events = db.events :=
  Outcome.Holds.ite (fun _ ↦ rfl) fun _ ↦ advanceNode_events

theorem advanceOpenNode_events {target : NodeRunStatus} {f : NodeRun → NodeRun} :
    Returns (advanceOpenNode db id target f) fun db' ↦ db'.events = db.events :=
  Outcome.Holds.ite (fun _ ↦ rfl) fun _ ↦ advanceNode_events

theorem withLease_quiet {body : ExecutionTask → Except Raised RunRecord}
    (hbody : ∀ t, Returns (body t) (Quiet db)) :
    Returns (withLease now taskId workerId leaseToken db body) fun p ↦ Quiet db p.2 := by
  unfold withLease
  split
  · next t _ =>
    exact Outcome.Holds.ite (fun _ ↦ .refl db) fun _ ↦ (hbody t).bind fun _ h ↦ h
  · exact .refl db

theorem complete_quiet {output executionMetadata : Dict} {artifacts : List Json} :
    Returns (complete now taskId workerId leaseToken output executionMetadata artifacts db)
      fun p ↦ Quiet db p.2 := by
  refine withLease_quiet fun t ↦ Outcome.Holds.bind (returns_any _) fun _ _ ↦ ?_
  exact Outcome.Holds.bind advanceNode_events fun db' h ↦
    Quiet.record (h : db'.events = db.events) (by simp [traceEvent])

theorem fail_quiet {error executionMetadata : Dict} {artifacts : List Json} :
    Returns (fail now taskId workerId leaseToken error executionMetadata artifacts db)
      fun p ↦ Quiet db p.2 := by
  refine withLease_quiet fun t ↦ Outcome.Holds.bind (returns_any _) fun _ _ ↦ ?_
  exact Outcome.Holds.bind advanceOpenNode_events fun db' h ↦
    Quiet.record (h : db'.events = db.events) (by simp [traceEvent])

theorem waitNode_quiet {waitingReason : String} {waitingMetadata : Dict} :
    Returns (waitNode now taskId workerId leaseToken waitingReason waitingMetadata db)
      fun p ↦ Quiet db p.2 := by
  refine withLease_quiet fun t ↦ Outcome.Holds.bind (returns_any _) fun _ _ ↦ ?_
  refine Outcome.Holds.bind advanceNode_events fun db' h ↦ ?_
  exact Outcome.Holds.ite (fun _ ↦ trivial) fun _ ↦
    Quiet.record (h : db'.events = db.events) (by simp [traceEvent])

theorem scheduleRetry_quiet {backoffSeconds : ℕ} :
    Returns (scheduleRetry now taskId workerId leaseToken backoffSeconds db)
      fun p ↦ Quiet db p.2 := by
  refine withLease_quiet fun t ↦ Outcome.Holds.bind (returns_any _) fun _ _ ↦ ?_
  exact Outcome.Holds.bind nodeStatus_events fun db' h ↦
    Quiet.record (h : db'.events = db.events) (by simp [traceEvent])

theorem renewLease_quiet {leaseSeconds : ℕ} :
    Returns (renewLease now taskId workerId leaseToken leaseSeconds db) fun p ↦ Quiet db p.2 :=
  withLease_quiet fun _ ↦ Outcome.holds_pure.mpr (Quiet.of_eq rfl)

theorem claim_quiet {leaseSeconds : ℕ} {capabilities : Option (List String)} {autoStart : Bool} :
    Returns (claim now workerId leaseToken leaseSeconds capabilities autoStart taskId db)
      fun p ↦ Quiet db p.2 := by
  unfold claim
  split
  · refine Outcome.Holds.ite (fun _ ↦ .refl db) fun _ ↦ Outcome.Holds.ite (fun _ ↦ .of_eq rfl) fun _ ↦ ?_
    refine Outcome.Holds.bind (returns_any _) fun _ _ ↦ ?_
    exact Outcome.Holds.bind nodeStatus_events fun db' h ↦
      Quiet.record (h : db'.events = db.events) (by simp [traceEvent])
  · exact .refl db

theorem start_quiet :
    Returns (start now taskId workerId leaseToken db) fun p ↦ Quiet db p.2 := by
  unfold start
  split
  · next t _ =>
    have hrelease : Returns (releaseOrCancelForRunState now db t) (Quiet db) := by
      refine Outcome.Holds.ite (fun _ ↦ ?_) fun _ ↦ ?_
      · exact Outcome.Holds.bind (returns_any _) fun _ _ ↦ Outcome.holds_pure.mpr (.of_eq rfl)
      · refine Outcome.Holds.bind (returns_any _) fun _ _ ↦ ?_
        exact advanceOpenNode_events.weaken fun db' h ↦ Quiet.of_eq (h : db'.events = db.events)
    refine Outcome.Holds.ite (fun _ ↦ .refl db) fun _ ↦ Outcome.Holds.ite (fun _ ↦ ?_) fun _ ↦ ?_
    · exact hrelease.bind fun _ h ↦ h
    · refine Outcome.Holds.bind (returns_any _) fun _ _ ↦ ?_
      exact Outcome.Holds.bind nodeStatus_events fun db' h ↦
        Quiet.record (h : db'.events = db.events) (by simp [traceEvent])
  · exact .refl db

theorem promoteDueRetries_quiet : Returns (promoteDueRetries now db) (Quiet db) := by
  let quiet (_ : List ExecutionTask) (db' : RunRecord) : Prop := Quiet db db'
  have hstep (t : ExecutionTask) (ts : List ExecutionTask) (db₁ : RunRecord)
      (h : quiet (t :: ts) db₁) : Returns (promoteRetry db₁ t) (quiet ts) :=
    Outcome.Holds.bind nodeStatus_events fun db₂ h' ↦
      h.trans (Quiet.record (h' : db₂.events = db₁.events) (by simp [traceEvent]))
  exact Outcome.holds_foldlM hstep _ db (.refl db)

theorem runnerClaim_quiet {leaseSeconds : ℕ} :
    Returns (runnerClaim now runner leaseToken leaseSeconds taskId db) fun p ↦ Quiet db p.2 := by
  unfold runnerClaim
  split
  · next t _ =>
    refine Outcome.Holds.ite (fun _ ↦ .refl db) fun _ ↦ ?_
    refine Outcome.Holds.bind (returns_any _) fun _ _ ↦ ?_
    have hstart {db₀ : RunRecord} {attempt : ℕ} (h₀ : db₀.events = db.events) :
        Returns (startNodeOnRunner now attempt db₀ t.nodeRunId) fun db' ↦
          db'.events = db.events :=
      nodeStatus_events.bind fun db' h ↦ (h : db'.events = db₀.events).trans h₀
    refine (hstart ?_).bind fun db' h ↦ ?_
    · rfl
    · dsimp only
      split <;> exact Outcome.holds_pure.mpr (Quiet.record h (by simp [traceEvent]))
  · exact .refl db

theorem runnerTaskHeartbeat_quiet {leaseSeconds : ℕ} :
    Returns (runnerTaskHeartbeat now runner taskId leaseToken leaseSeconds db)
      fun p ↦ Quiet db p.2 := by
  unfold runnerTaskHeartbeat
  split
  · exact Outcome.Holds.ite (fun _ ↦ trivial) fun _ ↦
      Outcome.Holds.ite (fun _ ↦ .refl db) fun _ ↦ Outcome.holds_pure.mpr (.of_eq rfl)
  · trivial

theorem logEvents_quiet {t : ExecutionTask} {stream : String} {text : Option Json} :
    ∀ e ∈ logEvents t runnerId stream text, e.eventType ≠ .workflowStarted := by
  unfold logEvents
  split
  · split <;> simp
  · simp

theorem applySubmission_quiet {t : ExecutionTask} {result output metadata : Dict}
    {references : List Json} :
    Returns (applySubmission env now runnerId t result output metadata references db)
      (Quiet db) := by
  refine Outcome.Holds.ite (fun _ ↦ ?_) fun _ ↦ Outcome.Holds.ite (fun _ ↦ ?_) fun _ ↦ ?_
  · refine Outcome.Holds.bind (returns_any _) fun _ _ ↦ ?_
    exact Outcome.Holds.bind advanceNode_events fun db' h ↦
      Quiet.record (h : db'.events = db.events) (by simp [traceEvent])
  · refine Outcome.Holds.bind (returns_any _) fun _ _ ↦ ?_
    exact Outcome.Holds.bind nodeStatus_events fun db' h ↦
      Quiet.record (h : db'.events = db.events) (by simp [traceEvent])
  · refine Outcome.Holds.bind (returns_any _) fun _ _ ↦ ?_
    refine Outcome.Holds.ite (fun _ ↦ ?_) fun _ ↦ ?_
    · exact Outcome.holds_pure.mpr (Quiet.record rfl (by simp [traceEvent]))
    · exact Outcome.Holds.bind advanceNode_events fun db' h ↦
        Quiet.record (h : db'.events = db.events) (by simp [traceEvent])

theorem runnerSubmit_quiet {result : Dict} :
    Returns (runnerSubmit env now runnerId taskId leaseToken result db) fun p ↦ Quiet db p.2 := by
  unfold runnerSubmit
  split
  · refine Outcome.Holds.ite (fun _ ↦ .refl db) fun _ ↦ Outcome.Holds.ite (fun _ ↦ .refl db) fun _ ↦ ?_
    refine Outcome.Holds.bind (returns_any _) fun artifacts _ ↦ ?_
    refine Outcome.Holds.bind applySubmission_quiet fun db' h ↦ ?_
    have hquiet : Quiet db db' := by
      refine Quiet.trans (Quiet.append rfl fun e he ↦ ?_) h
      rcases List.mem_append.mp he with he | he <;> exact logEvents_quiet e he
    split
    · exact Outcome.Holds.ite (fun _ ↦ hquiet) fun _ ↦ hquiet.congr rfl
    · exact hquiet
  · exact .refl db

theorem applyHumanResult_quiet {result : HumanResult}
    (h : result = approval ∨ result = rejection ∨ ∃ input, result = submission input) :
    Returns (applyHumanResult now db id result) (Quiet db) := by
  refine Outcome.Holds.bind (returns_any _) fun _ _ ↦ Outcome.holds_pure.mpr ?_
  refine Quiet.trans (Quiet.record ?_ ?_) (Quiet.record rfl ?_)
  · rfl
  · simp
  · rcases h with rfl | rfl | ⟨input, rfl⟩ <;> simp [approval, rejection, submission]

theorem approveNodeRun_quiet : Returns (approveNodeRun now id db) (Quiet db) :=
  Outcome.Holds.bind (returns_any _) fun _ _ ↦ Outcome.Holds.bind (returns_any _) fun _ _ ↦
    Outcome.Holds.bind (returns_any _) fun _ _ ↦ applyHumanResult_quiet (.inl rfl)

theorem rejectNodeRun_quiet : Returns (rejectNodeRun now id db) (Quiet db) :=
  Outcome.Holds.bind (returns_any _) fun _ _ ↦ Outcome.Holds.bind (returns_any _) fun _ _ ↦
    Outcome.Holds.bind (returns_any _) fun _ _ ↦
      Outcome.Holds.ite (fun _ ↦ trivial) fun _ ↦ applyHumanResult_quiet (.inr (.inl rfl))

theorem submitNodeRun_quiet {input : Dict} :
    Returns (submitNodeRun env now id input db) (Quiet db) :=
  Outcome.Holds.bind (returns_any _) fun _ _ ↦ Outcome.Holds.bind (returns_any _) fun _ _ ↦
    Outcome.Holds.bind (returns_any _) fun _ _ ↦ Outcome.Holds.bind (returns_any _) fun _ _ ↦
      applyHumanResult_quiet (.inr (.inr ⟨input, rfl⟩))

/-! ### Scheduling and reconciliation -/

theorem flush_events : Returns s.flush fun s' ↦ s'.events = s.events :=
  Outcome.Holds.bind (returns_any _) fun _ _ ↦ rfl

theorem attachWorkspace_events {node : WorkflowNode} {payload : Dict} {target : Option String} :
    Returns (attachWorkspace env s node payload target) fun p ↦ p.1.events = s.events := by
  unfold attachWorkspace
  split
  · split
    · refine Outcome.Holds.ite (fun _ ↦ rfl) fun _ ↦ ?_
      exact Outcome.Holds.bind flush_events fun s' h ↦ Outcome.holds_pure.mpr h
    · rfl
  · rfl

theorem enqueue_quiet {n : NodeRun} {node : WorkflowNode} {payload : Dict}
    {requiredCapability target : Option String} :
    Returns (enqueue env now s n node payload requiredCapability target) fun s' ↦
      Quiet s.toRunRecord s'.toRunRecord := by
  refine Outcome.Holds.bind (returns_any _) fun _ _ ↦ Outcome.holds_pure.mpr ?_
  exact Quiet.record rfl (by simp)

theorem scheduleNode_quiet :
    Returns (scheduleNode env now s id) fun r ↦
      ∀ s', r = some s' → Quiet s.toRunRecord s'.toRunRecord := by
  unfold scheduleNode
  split
  · refine Outcome.Holds.ite (fun _ ↦ Outcome.holds_pure.mpr (by simp)) fun _ ↦ ?_
    dsimp only
    split
    · exact Outcome.holds_pure.mpr (by simp)
    · refine Outcome.Holds.bind enqueue_quiet fun s₁ hs₁ ↦ Outcome.holds_pure.mpr ?_
      rintro s' ⟨⟩
      exact hs₁
    · refine Outcome.Holds.bind attachWorkspace_events ?_
      rintro ⟨s₁, payload⟩ hs₁
      refine Outcome.Holds.bind enqueue_quiet fun s₂ hs₂ ↦ Outcome.holds_pure.mpr ?_
      rintro s' ⟨⟩
      exact (Quiet.of_eq hs₁).trans hs₂
  · exact Outcome.holds_pure.mpr (by simp)

theorem scheduleLoop_quiet (ids : List NodeId) :
    Returns (scheduleLoop env now s ids) fun s' ↦ Quiet s.toRunRecord s'.toRunRecord := by
  induction ids generalizing s with
  | nil => exact .refl _
  | cons id ids ih =>
      refine Outcome.Holds.bind scheduleNode_quiet fun r hr ↦ ?_
      cases r with
      | none => exact ih
      | some s₁ => exact ih.weaken fun s' h ↦ (hr s₁ rfl).trans h

theorem scheduleReadyNodes_quiet :
    Returns (scheduleReadyNodes env now s) fun s' ↦ Quiet s.toRunRecord s'.toRunRecord := by
  refine Outcome.Holds.ite (fun _ ↦ .refl _) fun _ ↦ ?_
  refine (scheduleLoop_quiet _).weaken fun s' h ↦ Quiet.trans (Quiet.append rfl ?_) h
  intro e he
  obtain ⟨n, -, rfl⟩ := List.mem_map.mp he
  simp

theorem promoteDueWaits_quiet :
    Returns (promoteDueWaits env now s) fun s' ↦ Quiet s.toRunRecord s'.toRunRecord := by
  refine Outcome.Holds.ite (fun _ ↦ trivial) fun _ ↦ Outcome.holds_pure.mpr (Quiet.append rfl ?_)
  intro e he
  obtain ⟨n, -, he⟩ := List.mem_flatMap.mp he
  unfold promoteEvents at he
  split at he
  · simp only [List.mem_cons, List.not_mem_nil, or_false] at he
    rcases he with rfl | rfl <;> simp
  · simp at he

theorem cancelRunTasks_quiet (now : Time) (s : Session) :
    Quiet s.toRunRecord (cancelRunTasks now s).toRunRecord := by
  refine Quiet.append rfl fun e he ↦ ?_
  obtain ⟨t, -, rfl⟩ := List.mem_map.mp he
  simp

theorem workflowEvent_quiet (derived : WorkflowRunStatus) (reason : Option String) :
    Quiet s.toRunRecord (workflowEvent s derived reason).toRunRecord := by
  unfold workflowEvent
  split
  · next eventType heq =>
    refine Quiet.record rfl fun h ↦ ?_
    cases derived <;> simp_all [workflowEventType]
  · exact .refl _

theorem recordDerived_quiet (current derived : WorkflowRunStatus) :
    Quiet s.toRunRecord (recordDerived now current derived s).toRunRecord := by
  unfold recordDerived
  split
  · exact .refl _
  · dsimp only
    split
    · exact (cancelRunTasks_quiet now s).trans (workflowEvent_quiet _ _)
    · exact workflowEvent_quiet _ _

theorem commit_quiet : Returns s.commit fun db' ↦ Quiet s.toRunRecord db' :=
  Outcome.Holds.bind flush_events fun _ h ↦ Outcome.holds_pure.mpr (Quiet.of_eq h)

theorem scheduleRun_quiet : Returns (scheduleRun env now db) (Quiet db) :=
  Outcome.Holds.bind scheduleReadyNodes_quiet fun _ h ↦ commit_quiet.weaken fun _ h' ↦ h.trans h'

theorem advanceRun_events {target : WorkflowRunStatus} {f : WorkflowRun → WorkflowRun} :
    Returns (advanceRun db target f) fun db' ↦ db'.events = db.events :=
  Outcome.Holds.bind (returns_any _) fun _ _ ↦ rfl

theorem cancelRun_quiet : Returns (cancelRun now db) (Quiet db) := by
  have hstatus : Returns (cancelRunStatus now db) (Quiet db) := by
    refine Outcome.Holds.ite (fun _ ↦ trivial) fun _ ↦ ?_
    exact Outcome.Holds.bind advanceRun_events fun db₁ h ↦
      Outcome.holds_pure.mpr (Quiet.record (h : db₁.events = db.events) (by simp))
  refine hstatus.bind fun db₁ h ↦ ?_
  exact commit_quiet.weaken fun db₂ h' ↦
    h.trans ((cancelRunTasks_quiet now { cancelOpenNodes now db₁ with }).trans h')

theorem reconcileDerive_quiet :
    Returns (reconcileDerive env now s) fun p ↦ Quiet s.toRunRecord p.2.toRunRecord := by
  refine Outcome.Holds.bind promoteDueWaits_quiet fun s₁ h₁ ↦ ?_
  refine Outcome.Holds.bind scheduleReadyNodes_quiet fun s₂ h₂ ↦ ?_
  refine Outcome.Holds.ite (fun _ ↦ h₁.trans h₂) fun _ ↦ ?_
  exact Outcome.Holds.bind (returns_any _) fun _ _ ↦ (h₁.trans h₂).congr rfl

theorem reconcileFinish_quiet {current derived : WorkflowRunStatus} :
    Returns (reconcileFinish env now current derived s) fun s' ↦
      Quiet s.toRunRecord s'.toRunRecord := by
  have hrecorded : Quiet s.toRunRecord (recordDerived now current derived s).toRunRecord :=
    recordDerived_quiet current derived
  refine Outcome.Holds.ite (fun _ ↦ ?_) fun _ ↦ hrecorded.congr rfl
  exact Outcome.Holds.bind scheduleReadyNodes_quiet fun _ h ↦ (hrecorded.trans h).congr rfl

theorem reconcile_quiet : Returns (reconcile env now db) (Quiet db) := by
  have hrun : Returns (reconcileRun env now { db with }) fun p ↦ Quiet db p.2.toRunRecord := by
    unfold reconcileRun
    split
    · exact cancelRunTasks_quiet now { db with }
    · exact .refl db
    · exact .refl db
    · exact .refl db
    · refine Outcome.Holds.bind reconcileDerive_quiet fun p h ↦ ?_
      exact Outcome.Holds.bind reconcileFinish_quiet fun _ h' ↦ h.trans h'
  exact hrun.bind fun p h ↦ commit_quiet.weaken fun _ h' ↦ h.trans h'

/-- Only `start_run` records WORKFLOW_STARTED. -/
theorem RunOp.exec_quiet {op : RunOp} {returned : Bool} (h : op.exec env db = .ok (returned, db'))
    (hop : ∀ now, op ≠ .startRun now) : Quiet db db' := by
  have hreturns {x : Except Raised (Bool × RunRecord)} (hx : Returns x fun p ↦ Quiet db p.2)
      (h : x = .ok (returned, db')) : Quiet db db' := hx.of_ok h
  have hreturning {x : Except Raised RunRecord} (hx : Returns x (Quiet db))
      (h : returning x = .ok (returned, db')) : Quiet db db' :=
    hx.of_ok (returning_eq_ok_iff.mp h).2
  cases op with
  | startRun now => exact absurd rfl (hop now)
  | schedule => exact hreturning scheduleRun_quiet h
  | pauseRun => exact hreturning (advanceRun_events.weaken fun _ ↦ Quiet.of_eq) h
  | resumeRun => exact hreturning (advanceRun_events.weaken fun _ ↦ Quiet.of_eq) h
  | reconcile => exact hreturning reconcile_quiet h
  | cancelRun => exact hreturning cancelRun_quiet h
  | approve => exact hreturning approveNodeRun_quiet h
  | reject => exact hreturning rejectNodeRun_quiet h
  | submit => exact hreturning submitNodeRun_quiet h
  | claim => exact hreturns claim_quiet h
  | start => exact hreturns start_quiet h
  | complete => exact hreturns complete_quiet h
  | fail => exact hreturns fail_quiet h
  | waitNode => exact hreturns waitNode_quiet h
  | scheduleRetry => exact hreturns scheduleRetry_quiet h
  | renewLease => exact hreturns renewLease_quiet h
  | recoverExpired =>
      cases h
      exact .of_eq rfl
  | promoteDueRetries => exact hreturning promoteDueRetries_quiet h
  | runnerClaim => exact hreturns runnerClaim_quiet h
  | runnerTaskHeartbeat => exact hreturns runnerTaskHeartbeat_quiet h
  | runnerSubmit => exact hreturns runnerSubmit_quiet h

theorem startRun_events (h : startRun now db = .ok db') : ∃ e : RunEvent,
    db'.events = db.events ++ [e] ∧ e.eventType = .workflowStarted := by
  obtain ⟨db₁, hrun, h⟩ := Outcome.bind_eq_ok_iff.mp h
  cases h
  have hevents : db₁.events = db.events := advanceRun_events.of_ok hrun
  exact ⟨_, by rw [RunRecord.recordEvent, hevents], rfl⟩

/-! ## The run row -/

/-- The run row that an operation leaves. -/
inductive RunChange : RunOp → WorkflowRun → WorkflowRun → Prop
  | kept {op : RunOp} {r : WorkflowRun} (hop : op.movesRun = false) : RunChange op r r
  | start {now : Time} {r : WorkflowRun} (hlegal : .running ∈ r.status.transitions) :
      RunChange (.startRun now) r
        { r with status := .running, startedAt := r.startedAt.or (some now) }
  | pause {now : Time} {r : WorkflowRun} (hlegal : .paused ∈ r.status.transitions) :
      RunChange (.pauseRun now) r { r with status := .paused, pausedAt := some now }
  | resume {r : WorkflowRun} (hlegal : .running ∈ r.status.transitions) :
      RunChange .resumeRun r { r with status := .running, pausedAt := none }
  | cancel {now : Time} {r : WorkflowRun} (hlegal : .cancelled ∈ r.status.transitions) :
      RunChange (.cancelRun now) r
        { r with status := .cancelled, cancelledAt := some now, finishedAt := some now }
  | frozen {now : Time} {r : WorkflowRun} (hr : r.status.isTerminal = true ∨ r.status = .paused) :
      RunChange (.reconcile now) r r
  | reconcile {now : Time} {r : WorkflowRun} {derived : WorkflowRunStatus}
      {reason : Option String}
      (hr : r.status = .created ∨ r.status = .running ∨ r.status = .waiting)
      (hderived : derived = r.status ∨ derived ∈ r.status.transitions)
      (hne : derived ≠ .created ∧ derived ≠ .paused ∧ derived ≠ .cancelled)
      (hreason : reason ≠ none → derived = .waiting) :
      RunChange (.reconcile now) r
        { r with
          status := derived, waitingReason := reason,
          finishedAt := if derived.isTerminal then some now else r.finishedAt }

theorem advanceRun_run {target : WorkflowRunStatus} {f : WorkflowRun → WorkflowRun} :
    Returns (advanceRun db target f) fun db' ↦ target ∈ db.run.status.transitions ∧
      db'.run = { f db.run with status := target } :=
  Outcome.Holds.bind transitionWorkflowRun_sound.returns fun _ h ↦ Outcome.holds_pure.mpr ⟨h, rfl⟩

theorem cancelRun_run (h : cancelRun now db = .ok db') :
    .cancelled ∈ db.run.status.transitions ∧
      db'.run =
        { db.run with status := .cancelled, cancelledAt := some now, finishedAt := some now } := by
  obtain ⟨db₁, hstatus, h⟩ := Outcome.bind_eq_ok_iff.mp h
  obtain ⟨s, hflush, h⟩ := Outcome.bind_eq_ok_iff.mp h
  obtain ⟨rows, -, hflush⟩ := Outcome.bind_eq_ok_iff.mp hflush
  cases h
  cases hflush
  unfold cancelRunStatus at hstatus
  split at hstatus
  · cases hstatus
  · obtain ⟨db₂, hrun, hstatus⟩ := Outcome.bind_eq_ok_iff.mp hstatus
    cases hstatus
    exact advanceRun_run.of_ok hrun

theorem deriveWorkflowState_ne (g : WorkflowGraph) (nodeRuns : List NodeRun) :
    deriveWorkflowState g nodeRuns ≠ .created ∧ deriveWorkflowState g nodeRuns ≠ .paused ∧
      deriveWorkflowState g nodeRuns ≠ .cancelled := by
  unfold deriveWorkflowState
  repeat' split
  all_goals simp

/-- The first half writes the derived status, with the time when it ends the run. -/
theorem reconcileDerive_run (hc : Coupled s.settled) :
    Returns (reconcileDerive env now s) fun p ↦
      (p.1 = s.run.status ∨ p.1 ∈ s.run.status.transitions) ∧
        (p.1 ≠ .created ∧ p.1 ≠ .paused ∧ p.1 ≠ .cancelled) ∧ Coupled p.2.settled ∧
          p.2.run =
            { s.run with
              status := p.1,
              finishedAt :=
                if p.1 = s.run.status then s.run.finishedAt
                else if p.1.isTerminal then some now else s.run.finishedAt } := by
  refine Outcome.Holds.bind ((promoteDueWaits_sound Rights.all hc trivial).returns.and
    (Outcome.holds_of_forall (fun _ ↦ promoteDueWaits_ok) fun _ _ ↦ trivial)) ?_
  rintro s₁ ⟨⟨-, -, hpromote⟩, hrun₁, -⟩
  have hc₁ := hpromote.coupled hc
  refine Outcome.Holds.bind (scheduleReadyNodes_sound Rights.all hc₁).returns fun s₂ hschedule ↦ ?_
  have hc₂ := hschedule.coupled hc₁
  have hrun₂ : s₂.run = s.run := hschedule.run.trans hrun₁
  have hne := deriveWorkflowState_ne s₂.run.graph.toWorkflowGraph s₂.nodeRuns
  dsimp only
  split
  · next heq =>
    rw [hrun₂] at heq
    refine Outcome.holds_pure.mpr ⟨.inl ?_, hne, hc₂, ?_⟩
    · rw [hrun₂, heq]
    · rw [hrun₂, heq, if_pos rfl]
  · next hother =>
    refine Outcome.Holds.bind transitionWorkflowRun_sound.returns fun _ hlegal ↦ ?_
    refine Outcome.holds_pure.mpr ⟨.inr ?_, hne, ?_, ?_⟩
    · rw [← hrun₂]
      exact hlegal
    · have hstep : RunStep s₂.settled ({ s₂ with
          run := { s₂.run with
            status := deriveWorkflowState s₂.run.graph.toWorkflowGraph s₂.nodeRuns,
            finishedAt :=
              if (deriveWorkflowState s₂.run.graph.toWorkflowGraph s₂.nodeRuns).isTerminal
              then some now else s₂.run.finishedAt } } : Session).settled :=
        ⟨rfl, rfl, rfl, .inr hlegal, fun _ _ ↦ rfl⟩
      exact hstep.coupled hc₂
    · rw [hrun₂] at hother ⊢
      rw [if_neg hother]

theorem reconcileFinish_run (hc : Coupled s.settled) {current derived : WorkflowRunStatus}
    (hstatus : s.run.status = derived) :
    Returns (reconcileFinish env now current derived s) fun s' ↦
      ∃ reason, (reason ≠ none → derived = .waiting) ∧
        s'.run = { s.run with waitingReason := reason } := by
  refine Outcome.holds_of_forall (fun s' h ↦ ?_) fun _ _ ↦ trivial
  obtain ⟨s₁, rfl, hlast⟩ := reconcileFinish_ok h
  have hrun : s₁.run = s.run := by
    rcases hlast with ⟨-, rfl⟩ | ⟨-, hschedule⟩
    · exact recordDerived_run _ _
    · have hrun := (Outcome.Holds.of_ok (scheduleReadyNodes_sound Rights.all
        (recordDerived_coupled hc hstatus)) hschedule).run
      exact hrun.trans (recordDerived_run _ _)
  refine ⟨if derived = .waiting then waitingReason s₁.nodeRuns else none, fun h ↦ ?_, ?_⟩
  · by_contra hother
    exact h (if_neg hother)
  · rw [hrun]

theorem reconcile_run (hc : Coupled db) (h : reconcile env now db = .ok db') :
    RunChange (.reconcile now) db.run db'.run := by
  have hc₀ : Coupled ({ db with } : Session).settled := by rwa [Session.settled_flushed]
  obtain ⟨⟨status, s'⟩, hrun, hcommit⟩ := Outcome.bind_eq_ok_iff.mp h
  have hrow : db'.run = s'.run := by
    obtain ⟨s₁, hflush, hcommit⟩ := Outcome.bind_eq_ok_iff.mp hcommit
    obtain ⟨rows, -, hflush⟩ := Outcome.bind_eq_ok_iff.mp hflush
    cases hcommit
    cases hflush
    rfl
  rw [hrow]
  rcases reconcileRun_ok hrun with ⟨hstatus, rfl⟩ | ⟨hstatus, rfl⟩ | ⟨hr, s₁, hderive, hfinish⟩
  · exact .frozen (.inl (by rw [hstatus]; rfl))
  · rcases hstatus with hstatus | hstatus | hpaused
    · exact .frozen (.inl (by rw [hstatus]; rfl))
    · exact .frozen (.inl (by rw [hstatus]; rfl))
    · exact .frozen (.inr hpaused)
  · obtain ⟨hlegal, hne, hc₁, hrun₁⟩ := (reconcileDerive_run hc₀).of_ok hderive
    dsimp only at hr hlegal hne hc₁ hrun₁
    have hstatus : s₁.run.status = status := by rw [hrun₁]
    obtain ⟨reason, hreason, hrun₂⟩ := (reconcileFinish_run hc₁ hstatus).of_ok hfinish
    have hfinished : (if status = db.run.status then db.run.finishedAt
        else if status.isTerminal then some now else db.run.finishedAt) =
          if status.isTerminal then some now else db.run.finishedAt := by
      split
      · next heq =>
        rw [if_neg]
        rw [heq]
        rcases hr with h | h | h <;> simp [h, WorkflowRunStatus.isTerminal]
      · rfl
    rw [hrun₂, hrun₁, hfinished]
    exact .reconcile hr hlegal hne hreason

/-- Every operation changes the run row as `RunChange` says. -/
theorem RunOp.exec_runChange {op : RunOp} {returned : Bool} (hc : Coupled db)
    (h : op.exec env db = .ok (returned, db')) : RunChange op db.run db'.run := by
  by_cases hcells : op.movesRun = false
  · have hsteps := (RunOp.exec_cells hc (RunOp.promised_all db op) hcells).of_ok h
    rw [show db'.run = db.run from CellSteps.run hsteps]
    exact .kept hcells
  cases op with
  | startRun now =>
      obtain ⟨db₁, hrun, h⟩ := Outcome.bind_eq_ok_iff.mp (returning_eq_ok_iff.mp h).2
      cases h
      obtain ⟨hlegal, hrow⟩ := advanceRun_run.of_ok hrun
      rw [RunRecord.recordEvent_run, hrow]
      exact .start hlegal
  | pauseRun now =>
      obtain ⟨hlegal, hrow⟩ := advanceRun_run.of_ok (returning_eq_ok_iff.mp h).2
      rw [hrow]
      exact .pause hlegal
  | resumeRun =>
      obtain ⟨hlegal, hrow⟩ := advanceRun_run.of_ok (returning_eq_ok_iff.mp h).2
      rw [hrow]
      exact .resume hlegal
  | reconcile now => exact reconcile_run hc (returning_eq_ok_iff.mp h).2
  | cancelRun now =>
      obtain ⟨hlegal, hrow⟩ := cancelRun_run (returning_eq_ok_iff.mp h).2
      rw [hrow]
      exact .cancel hlegal
  | _ => exact absurd rfl hcells

end Relayvia
