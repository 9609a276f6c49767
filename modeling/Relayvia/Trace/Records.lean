import Relayvia.Library.EventLog
import Relayvia.Operations.Runners
import Relayvia.Operations.Runs

/-!
# Recorded status changes

A transaction records its changes when replaying the events that it appends, for
each NodeRun, leads from the status before to the status after.
-/

namespace Relayvia

variable {env : Env} {now : Time} {db db' db'' : RunRecord} {id : NodeId} {new : List RunEvent}

/-- The NodeRun status that an event reports. -/
def RunEventType.nodeStatus : RunEventType → Option NodeRunStatus
  | nodeQueued => some .queued
  | nodeStarted | nodeResumed => some .running
  | nodeRetrying => some .retrying
  | nodeWaiting => some .waiting
  | nodeCompleted => some .completed
  | nodeFailed => some .failed
  | nodeSkipped => some .skipped
  | nodeCancelled => some .cancelled
  | workflowStarted | workflowWaiting | workflowResumed | workflowCompleted | workflowFailed
  | workflowCancelled | nodeLog => none

def RunEvent.effect (e : RunEvent) (s : NodeRunStatus) : NodeRunStatus :=
  e.eventType.nodeStatus.getD s

/-- Replay the events of one NodeRun. -/
def replayNode (id : NodeId) (events : List RunEvent) (s : NodeRunStatus) : NodeRunStatus :=
  EventLog.replay RunEvent.nodeRunId RunEvent.effect id events s

theorem replayNode_append (events events' : List RunEvent) (s : NodeRunStatus) :
    replayNode id (events ++ events') s = replayNode id events' (replayNode id events s) :=
  EventLog.replay_append _ _

theorem replayNode_nil (s : NodeRunStatus) : replayNode id [] s = s := rfl

/-- Events that report no NodeRun status are not seen. -/
theorem replayNode_silent {s : NodeRunStatus} (h : ∀ e ∈ new, e.eventType.nodeStatus = none) :
    replayNode id new s = s := by
  induction new with
  | nil => rfl
  | cons e events ih =>
      have hstep : (if e.nodeRunId = some id then e.effect s else s) = s := by
        simp [RunEvent.effect, h e (by simp)]
      rw [replayNode, EventLog.replay_cons, hstep]
      exact ih fun e he ↦ h e (by simp [he])

/-- One event about `id`. -/
theorem replayNode_one {e : RunEvent} {target s : NodeRunStatus} (hnode : e.nodeRunId = some id)
    (htarget : e.eventType.nodeStatus = some target) : replayNode id [e] s = target := by
  simp [replayNode, EventLog.replay_cons, hnode, RunEvent.effect, htarget]

/-- One event for each row that satisfies `p`. -/
theorem replayNode_rows {α : Type} {key : α → NodeId} {event : α → RunEvent} {p : α → Bool}
    {target s : NodeRunStatus} (rows : List α) (habout : ∀ r, (event r).nodeRunId = some (key r))
    (htarget : ∀ r, (event r).eventType.nodeStatus = some target) :
    replayNode id ((rows.filter p).map event) s =
      if ∃ r ∈ rows, key r = id ∧ p r = true then target else s :=
  EventLog.replay_map_filter rows habout fun r s ↦ by rw [RunEvent.effect, htarget, Option.getD_some]

/-- The appended events lead from the statuses before to the statuses after. -/
structure Records (db db' : RunRecord) : Prop where
  nodeIds : db'.nodeRuns.map NodeRun.nodeId = db.nodeRuns.map NodeRun.nodeId
  traced : ∃ new, db'.events = db.events ++ new ∧
    ∀ id n, findNodeRun db.nodeRuns id = some n → ∃ n', findNodeRun db'.nodeRuns id = some n' ∧
      n'.isInput = n.isInput ∧ replayNode id new n.status = n'.status

namespace Records

theorem refl (db : RunRecord) : Records db db :=
  ⟨rfl, [], by simp, fun _ n hn ↦ ⟨n, hn, rfl, rfl⟩⟩

theorem trans (h : Records db db') (h' : Records db' db'') : Records db db'' := by
  obtain ⟨hids, new, hevents, hrows⟩ := h
  obtain ⟨hids', new', hevents', hrows'⟩ := h'
  refine ⟨hids'.trans hids, new ++ new', by rw [hevents', hevents, List.append_assoc],
    fun id n hn ↦ ?_⟩
  obtain ⟨n', hn', hinput, hstatus⟩ := hrows id n hn
  obtain ⟨n'', hn'', hinput', hstatus'⟩ := hrows' id n' hn'
  exact ⟨n'', hn'', hinput'.trans hinput, by rw [replayNode_append, hstatus, hstatus']⟩

/-- Only NodeRuns and events matter. -/
theorem congr (h : Records db db') (hnodes : db''.nodeRuns = db'.nodeRuns)
    (hevents : db''.events = db'.events) : Records db db'' := by
  obtain ⟨hids, new, hnew, hrows⟩ := h
  exact ⟨by rw [hnodes, hids], new, by rw [hevents, hnew], by rwa [hnodes]⟩

/-- Two transactions, with a change of other rows in between. -/
theorem join {db₁ : RunRecord} (h : Records db db') (h' : Records db₁ db'')
    (hnodes : db₁.nodeRuns = db'.nodeRuns) (hevents : db₁.events = db'.events) :
    Records db db'' :=
  (h.congr hnodes hevents).trans h'

/-- A transaction that changes no NodeRun and appends events about none. -/
theorem silent (hnodes : db'.nodeRuns = db.nodeRuns) (hevents : db'.events = db.events ++ new)
    (hnew : ∀ e ∈ new, e.eventType.nodeStatus = none) : Records db db' := by
  refine ⟨by rw [hnodes], new, hevents, fun id n hn ↦ ?_⟩
  rw [hnodes]
  exact ⟨n, hn, rfl, replayNode_silent hnew⟩

theorem after_silent (h : Records { db with events := db.events ++ new } db')
    (hnew : ∀ e ∈ new, e.eventType.nodeStatus = none) : Records db db' := by
  have hlogs : Records db { db with events := db.events ++ new } := silent rfl rfl hnew
  exact hlogs.trans h

theorem same (hnodes : db'.nodeRuns = db.nodeRuns) (hevents : db'.events = db.events) :
    Records db db' :=
  (refl db).congr hnodes hevents

/-- A transaction that updates all NodeRuns alike. -/
theorem of_rows {fn : NodeRun → NodeRun} (hnodes : db'.nodeRuns = db.nodeRuns.map fn)
    (hid : ∀ r, (fn r).nodeId = r.nodeId) (hinput : ∀ r, (fn r).isInput = r.isInput)
    (hevents : db'.events = db.events ++ new)
    (hstatus : ∀ n ∈ db.nodeRuns, replayNode n.nodeId new n.status = (fn n).status) :
    Records db db' := by
  refine ⟨by rw [hnodes, Table.map_key_map hid], new, hevents, fun id n hn ↦ ⟨fn n, ?_, hinput n, ?_⟩⟩
  · rw [hnodes]
    exact (Table.find?_map hid _ _).trans (congrArg (Option.map fn) hn)
  · obtain rfl : n.nodeId = id := Table.key_of_find? hn
    exact hstatus n (Table.mem_of_find? hn)

/-- A transaction that brings one NodeRun to `target` and says so. -/
theorem of_update {fn : NodeRun → NodeRun} {target : NodeRunStatus}
    (hnodes : db'.nodeRuns = Table.modify NodeRun.nodeId id fn db.nodeRuns)
    (hfn : ∀ r, (fn r).nodeId = r.nodeId ∧ (fn r).isInput = r.isInput ∧ (fn r).status = target)
    (hevents : db'.events = db.events ++ new) (habout : ∀ e ∈ new, e.nodeRunId = some id)
    (htarget : ∀ s, replayNode id new s = target) : Records db db' := by
  refine of_rows hnodes (fun r ↦ ?_) (fun r ↦ ?_) hevents fun n hn ↦ ?_
  · split
    · exact (hfn r).1
    · rfl
  · split
    · exact (hfn r).2.1
    · rfl
  · by_cases hid : n.nodeId = id
    · rw [hid, htarget, if_pos rfl, (hfn n).2.2]
    · rw [if_neg hid]
      exact EventLog.replay_other fun e he heq ↦ hid (Option.some.inj (heq.symm.trans (habout e he)))

/-- The same with one event. -/
theorem of_event {fn : NodeRun → NodeRun} {target : NodeRunStatus} {e : RunEvent}
    (hnodes : db'.nodeRuns = Table.modify NodeRun.nodeId id fn db.nodeRuns)
    (hfn : ∀ r, (fn r).nodeId = r.nodeId ∧ (fn r).isInput = r.isInput ∧ (fn r).status = target)
    (hevents : db'.events = db.events ++ [e]) (habout : e.nodeRunId = some id)
    (htarget : e.eventType.nodeStatus = some target) : Records db db' :=
  of_update hnodes hfn hevents (by simpa using habout) fun _ ↦ replayNode_one habout htarget

end Records

/-! ## The execution backend -/

variable {taskId : TaskId} {workerId leaseToken : String}

theorem withLease_records (hc : Coupled db) {body : ExecutionTask → Except Raised RunRecord}
    (hbody : ∀ t n, findNodeRun db.nodeRuns t.nodeRunId = some n →
      Coupling n.isInput (n.status, some t.status) →
      (t.status = .claimed ∨ t.status = .running) → Sound (body t) (Records db)) :
    Sound (withLease now taskId workerId leaseToken db body) fun p ↦ Records db p.2 := by
  unfold withLease
  split
  · next t ht =>
    obtain ⟨n, hn, hmem, -, hcoupling⟩ := hc.cell_of_task ht
    split
    · exact .refl db
    · next howns =>
      exact (hbody t n hn hcoupling (hc.leased hmem (by simpa using howns))).bind fun _ h ↦ h
  · exact .refl db

theorem complete_records (hc : Coupled db) {output executionMetadata : Dict}
    {artifacts : List Json} :
    Sound (complete now taskId workerId leaseToken output executionMetadata artifacts db)
      fun p ↦ Records db p.2 := by
  refine withLease_records hc fun t n hn hcoupling hleased ↦ ?_
  refine transitionExecutionTask_sound.bind fun _ hlegal ↦ ?_
  obtain ⟨hnode, -⟩ := running_of_legal hcoupling hleased hlegal (by simp)
  refine Outcome.Holds.bind (advanceNode_sound (n := n) hn ?_) ?_
  · simp [hnode, NodeRunStatus.transitions]
  rintro _ rfl
  exact .of_event rfl (fun _ ↦ ⟨rfl, rfl, rfl⟩) rfl rfl rfl

theorem fail_records (hc : Coupled db) {error executionMetadata : Dict} {artifacts : List Json} :
    Sound (fail now taskId workerId leaseToken error executionMetadata artifacts db)
      fun p ↦ Records db p.2 := by
  refine withLease_records hc fun t n hn hcoupling hleased ↦ ?_
  refine transitionExecutionTask_sound.bind fun _ hlegal ↦ ?_
  obtain ⟨hnode, -⟩ := running_of_legal hcoupling hleased hlegal (by simp)
  refine Outcome.Holds.bind (advanceOpenNode_sound (n := n) hn (by rw [hnode]; rfl) ?_) ?_
  · simp [hnode, NodeRunStatus.transitions]
  rintro _ rfl
  exact .of_event rfl (fun _ ↦ ⟨rfl, rfl, rfl⟩) rfl rfl rfl

theorem waitNode_records (hc : Coupled db) {waitingReason : String} {waitingMetadata : Dict} :
    Sound (waitNode now taskId workerId leaseToken waitingReason waitingMetadata db)
      fun p ↦ Records db p.2 := by
  refine withLease_records hc fun t n hn hcoupling hleased ↦ ?_
  refine transitionExecutionTask_sound.bind fun _ hlegal ↦ ?_
  obtain ⟨hnode, -⟩ := running_of_legal hcoupling hleased hlegal (by simp)
  refine Outcome.Holds.bind (advanceNode_sound (n := n) hn ?_) ?_
  · simp [hnode, NodeRunStatus.transitions]
  rintro _ rfl
  refine Outcome.Holds.ite (fun _ ↦ Outcome.holds_throw_bind.mpr id) fun _ ↦ ?_
  exact .of_event rfl (fun _ ↦ ⟨rfl, rfl, rfl⟩) rfl rfl rfl

theorem scheduleRetry_records (hc : Coupled db) {backoffSeconds : ℕ} :
    Sound (scheduleRetry now taskId workerId leaseToken backoffSeconds db)
      fun p ↦ Records db p.2 := by
  refine withLease_records hc fun t n hn hcoupling hleased ↦ ?_
  refine transitionExecutionTask_sound.bind fun _ hlegal ↦ ?_
  obtain ⟨hnode, -⟩ := running_of_legal hcoupling hleased hlegal (by simp)
  refine Outcome.Holds.bind (nodeStatus_sound (n := n) hc.nodeIds_nodup hn (.inr ?_)) ?_
  · simp [hnode, NodeRunStatus.transitions]
  rintro _ rfl
  exact .of_event rfl (fun _ ↦ ⟨rfl, rfl, rfl⟩) rfl rfl rfl

theorem renewLease_records (hc : Coupled db) {leaseSeconds : ℕ} :
    Sound (renewLease now taskId workerId leaseToken leaseSeconds db) fun p ↦ Records db p.2 :=
  withLease_records hc fun _ _ _ _ _ ↦ .same rfl rfl

theorem claim_records (hc : Coupled db) {leaseSeconds : ℕ} {capabilities : Option (List String)}
    {autoStart : Bool} :
    Sound (claim now workerId leaseToken leaseSeconds capabilities autoStart taskId db)
      fun p ↦ Records db p.2 := by
  unfold claim
  split
  · next t ht =>
    obtain ⟨n, hn, -, -, hcoupling⟩ := hc.cell_of_task ht
    refine Outcome.Holds.ite (fun _ ↦ .refl db) fun hcandidate ↦ ?_
    have hpending := isCandidate_pending (by simpa using hcandidate)
    refine Outcome.Holds.ite (fun _ ↦ .same rfl rfl) fun _ ↦ ?_
    refine transitionExecutionTask_sound.bind fun _ _ ↦ ?_
    refine Outcome.Holds.bind (nodeStatus_sound (n := n) hc.nodeIds_nodup hn
      (launch_legal hcoupling (.inl hpending))) ?_
    rintro _ rfl
    exact .of_event rfl (fun _ ↦ ⟨rfl, rfl, rfl⟩) rfl rfl rfl
  · exact .refl db

/-- A start records its change unless it cancels the task of an ended run. -/
theorem start_records (hc : Coupled db)
    (hactive : db.run.status = .running ∨ db.run.status = .paused ∨ db.run.status = .waiting) :
    Sound (start now taskId workerId leaseToken db) fun p ↦ Records db p.2 := by
  unfold start
  split
  · next t ht =>
    obtain ⟨n, hn, hmem, -, hcoupling⟩ := hc.cell_of_task ht
    refine Outcome.Holds.ite (fun _ ↦ .refl db) fun howns ↦ ?_
    refine Outcome.Holds.ite (fun hother ↦ ?_) fun _ ↦ ?_
    · have hkept : db.run.status = .paused ∨ db.run.status = .waiting :=
        hactive.resolve_left hother
      unfold releaseOrCancelForRunState
      rw [if_pos hkept]
      have hkeep : Sound (do
          transitionExecutionTask t.status .pending
          return db.modifyTask t.id fun t ↦ { clearLease t with status := .pending })
          (Records db) :=
        transitionExecutionTask_sound.bind fun _ _ ↦ .same rfl rfl
      exact hkeep.bind fun _ h ↦ h
    · refine transitionExecutionTask_sound.bind fun _ hlegal ↦ ?_
      have hclaimed : t.status = .claimed := by
        rcases hc.leased hmem (by simpa using howns) with h | h
        · exact h
        · simp [h, ExecutionTaskStatus.transitions] at hlegal
      refine Outcome.Holds.bind (nodeStatus_sound (n := n) hc.nodeIds_nodup hn
        (launch_legal hcoupling (.inr hclaimed))) ?_
      rintro _ rfl
      exact .of_event rfl (fun _ ↦ ⟨rfl, rfl, rfl⟩) rfl rfl rfl
  · exact .refl db

theorem promoteRetry_records (hc : Coupled db) {t : ExecutionTask} (hmem : t ∈ db.tasks)
    (hretry : t.status = .retryWait) : Sound (promoteRetry db t) (Records db) := by
  obtain ⟨n, hn, -, -, hcoupling⟩ := hc.cell_of_task (hc.findTask_eq_some_iff.mpr ⟨hmem, rfl⟩)
  rw [hretry] at hcoupling
  have hnode : n.status = .retrying := hcoupling
  refine Outcome.Holds.bind (nodeStatus_sound (n := n) hc.nodeIds_nodup hn (.inr ?_)) ?_
  · simp [hnode, NodeRunStatus.transitions]
  rintro _ rfl
  exact .of_event rfl (fun _ ↦ ⟨rfl, rfl, rfl⟩) rfl rfl rfl

/-- The loop over the due retries, with what it recorded. -/
def RecordedLoop (db : RunRecord) (rest : List ExecutionTask) (db' : RunRecord) : Prop :=
  RetryLoop Rights.all db rest db' ∧ Records db db'

theorem RecordedLoop.next (hc : Coupled db) {t : ExecutionTask} {rest : List ExecutionTask}
    (h : RecordedLoop db (t :: rest) db') : Sound (promoteRetry db' t) (RecordedLoop db rest) := by
  obtain ⟨hmem, hretry⟩ := h.1.due t (by simp)
  have hone : Sound (promoteRetry db' t) (Records db') :=
    promoteRetry_records (h.1.steps.coupled hc) hmem hretry
  exact ((RetryLoop.next hc h.1).and hone).weaken fun _ h' ↦ ⟨h'.1, h.2.trans h'.2⟩

theorem promoteDueRetries_records (hc : Coupled db) :
    Sound (promoteDueRetries now db) (Records db) := by
  have hstart : RecordedLoop db (db.tasks.filter (retryDue now)) db := ⟨.start hc, .refl db⟩
  exact Outcome.Holds.weaken (Outcome.holds_foldlM (fun _ _ _ ↦ RecordedLoop.next hc) _ _ hstart)
    fun _ h ↦ h.2

/-! ## The Runner service -/

variable {runner : Runner} {runnerId : String}

theorem runnerClaim_records (hc : Coupled db) {leaseSeconds : ℕ} :
    Sound (runnerClaim now runner leaseToken leaseSeconds taskId db) fun p ↦ Records db p.2 := by
  unfold runnerClaim
  split
  · next t ht =>
    obtain ⟨n, hn, -, -, hcoupling⟩ := hc.cell_of_task ht
    refine Outcome.Holds.ite (fun _ ↦ .refl db) fun hcandidate ↦ ?_
    have hpending := isCandidate_pending (by simpa using hcandidate)
    refine transitionExecutionTask_sound.bind fun _ _ ↦ ?_
    refine Outcome.Holds.bind (startNodeOnRunner_sound (n := n) hc.nodeIds_nodup hn
      (launch_legal hcoupling (.inl hpending))) ?_
    rintro _ rfl
    split <;> exact .of_event rfl (fun _ ↦ ⟨rfl, rfl, rfl⟩) rfl rfl rfl
  · exact .refl db

theorem runnerTaskHeartbeat_records {leaseSeconds : ℕ} :
    Sound (runnerTaskHeartbeat now runner taskId leaseToken leaseSeconds db)
      fun p ↦ Records db p.2 := by
  have hstale : ¬StatusFault (.relayvia runnerTaskStale) := by
    simp [StatusFault, runnerTaskStale]
  unfold runnerTaskHeartbeat
  split
  · refine Outcome.Holds.ite (fun _ ↦ hstale) fun _ ↦ ?_
    exact Outcome.Holds.ite (fun _ ↦ .refl db) fun _ ↦ .same rfl rfl
  · exact hstale

theorem applySubmission_records (hc : Coupled db) {t : ExecutionTask} {n : NodeRun}
    {result output metadata : Dict} {references : List Json} {events : List RunEvent}
    (hn : findNodeRun db.nodeRuns t.nodeRunId = some n)
    (hcoupling : Coupling n.isInput (n.status, some t.status))
    (hleased : t.status = .claimed ∨ t.status = .running) :
    Sound (applySubmission env now runnerId t result output metadata references
      { db with events := events }) (Records { db with events := events }) := by
  refine Outcome.Holds.ite (fun _ ↦ ?_) fun _ ↦ Outcome.Holds.ite (fun _ ↦ ?_) fun _ ↦ ?_
  · refine transitionExecutionTask_sound.bind fun _ hlegal ↦ ?_
    obtain ⟨hnode, -⟩ := running_of_legal hcoupling hleased hlegal (by simp)
    refine Outcome.Holds.bind (advanceNode_sound (n := n) hn ?_) ?_
    · simp [hnode, NodeRunStatus.transitions]
    rintro _ rfl
    exact .of_event rfl (fun _ ↦ ⟨rfl, rfl, rfl⟩) rfl rfl rfl
  · refine transitionExecutionTask_sound.bind fun _ hlegal ↦ ?_
    obtain ⟨hnode, -⟩ := running_of_legal hcoupling hleased hlegal (by simp)
    refine Outcome.Holds.bind (nodeStatus_sound (n := n) hc.nodeIds_nodup hn (.inr ?_)) ?_
    · simp [hnode, NodeRunStatus.transitions]
    rintro _ rfl
    exact .of_event rfl (fun _ ↦ ⟨rfl, rfl, rfl⟩) rfl rfl rfl
  · refine transitionExecutionTask_sound.bind fun _ hlegal ↦ ?_
    obtain ⟨hnode, -⟩ := running_of_legal hcoupling hleased hlegal (by simp)
    have hstatus : statusOf db.nodeRuns t.nodeRunId ≠ some .failed := by
      simp [statusOf_eq hn, hnode]
    refine Outcome.Holds.ite (fun h ↦ absurd h hstatus) fun _ ↦ ?_
    refine Outcome.Holds.bind (advanceNode_sound (n := n) hn ?_) ?_
    · simp [hnode, NodeRunStatus.transitions]
    rintro _ rfl
    exact .of_event rfl (fun _ ↦ ⟨rfl, rfl, rfl⟩) rfl rfl rfl

/-- The log events of a submission report no status. -/
theorem logEvents_silent {t : ExecutionTask} {stream : String} {text : Option Json} :
    ∀ e ∈ logEvents t runnerId stream text, e.eventType.nodeStatus = none := by
  intro e he
  unfold logEvents at he
  split at he
  · split at he
    · cases he
    · obtain rfl := List.mem_singleton.mp he
      rfl
  · cases he

theorem runnerSubmit_records (hc : Coupled db) {result : Dict} :
    Sound (runnerSubmit env now runnerId taskId leaseToken result db) fun p ↦ Records db p.2 := by
  unfold runnerSubmit
  split
  · next t ht =>
    obtain ⟨n, hn, hmem, -, hcoupling⟩ := hc.cell_of_task ht
    refine Outcome.Holds.ite (fun _ ↦ .refl db) fun _ ↦ ?_
    refine Outcome.Holds.ite (fun _ ↦ .refl db) fun howns ↦ ?_
    have hleased := hc.leased hmem (by simpa using howns)
    refine submittedArtifacts_sound.bind fun p _ ↦ ?_
    refine Outcome.Holds.bind (applySubmission_records hc hn hcoupling hleased) fun db' hdb' ↦ ?_
    have hlogs : Records db db' := by
      refine hdb'.after_silent fun e he ↦ ?_
      rcases List.mem_append.mp he with he | he
      · exact logEvents_silent e he
      · exact logEvents_silent e he
    split
    · exact Outcome.Holds.ite (fun _ ↦ hlogs) fun _ ↦ hlogs.congr rfl rfl
    · exact hlogs
  · exact .refl db

/-! ## The run service -/

/-- The status writes of the run alone. -/
theorem advanceRun_records {target : WorkflowRunStatus} {f : WorkflowRun → WorkflowRun} :
    Sound (advanceRun db target f) fun db' ↦
      db'.nodeRuns = db.nodeRuns ∧ db'.tasks = db.tasks ∧ db'.events = db.events :=
  transitionWorkflowRun_sound.bind fun _ _ ↦ ⟨rfl, rfl, rfl⟩

theorem startRun_records : Sound (startRun now db) (Records db) := by
  refine advanceRun_records.bind ?_
  rintro db' ⟨hnodes, -, hevents⟩
  exact .silent hnodes (by rw [RunRecord.recordEvent, hevents]) (by simp [RunEventType.nodeStatus])

theorem pauseRun_records : Sound (pauseRun now db) (Records db) :=
  advanceRun_records.weaken fun _ h ↦ .same h.1 h.2.2

theorem resumeRun_records : Sound (resumeRun db) (Records db) :=
  advanceRun_records.weaken fun _ h ↦ .same h.1 h.2.2

/-- A human action records NODE_RESUMED and then the status that it writes. -/
theorem applyHumanResult_records {result : HumanResult}
    (hfinished : result.finishedType.nodeStatus = some result.target)
    (hlegal : result.target ∈ NodeRunStatus.waiting.transitions) :
    Sound (applyHumanResult now db id result) (Records db) := by
  unfold applyHumanResult
  rw [liftM_transitionNodeRun hlegal]
  refine Records.of_update rfl (fun _ ↦ ⟨rfl, rfl, rfl⟩) (List.append_assoc _ _ _) (by simp)
    fun s ↦ ?_
  rw [replayNode_append]
  exact replayNode_one rfl hfinished

theorem approveNodeRun_records : Sound (approveNodeRun now id db) (Records db) := by
  refine lockNodeRun_sound.bind fun n _ ↦ ?_
  refine requireWaiting_sound.bind fun _ _ ↦ ?_
  refine waitingNode_sound.bind fun _ _ ↦ ?_
  exact applyHumanResult_records rfl (by decide)

theorem rejectNodeRun_records : Sound (rejectNodeRun now id db) (Records db) := by
  refine lockNodeRun_sound.bind fun n _ ↦ ?_
  refine requireWaiting_sound.bind fun _ _ ↦ ?_
  refine waitingNode_sound.bind fun _ _ ↦ ?_
  refine Outcome.Holds.ite (fun _ ↦ Outcome.holds_throw_bind.mpr ?_) fun _ ↦ ?_
  · simp [StatusFault]
  · exact applyHumanResult_records rfl (by decide)

theorem submitNodeRun_records {input : Dict} :
    Sound (submitNodeRun env now id input db) (Records db) := by
  refine lockNodeRun_sound.bind fun n _ ↦ ?_
  refine requireWaiting_sound.bind fun _ _ ↦ ?_
  refine waitingNode_sound.bind fun _ _ ↦ ?_
  refine checkHumanInput_sound.bind fun _ _ ↦ ?_
  exact applyHumanResult_records rfl (by simp [submission, NodeRunStatus.transitions])

end Relayvia
