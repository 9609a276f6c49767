import Relayvia.Operations.Runners
import Relayvia.Operations.Runs

/-!
# What each operation writes to a cell

`CellChange` lists, for every operation, the NodeRun and the task that it leaves,
field by field, with the guards under which it writes them.
-/

namespace Relayvia

variable {env : Env} {now : Time} {db db' after : RunRecord} {taskId : TaskId}
  {workerId leaseToken : String} {P Q : NodeRun × Option ExecutionTask →
    NodeRun × Option ExecutionTask → Prop}

/-- A NodeRun and its task. -/
abbrev Cell := NodeRun × Option ExecutionTask

/-! ## Cells of the settled rows -/

/-- A task as the scheduler creates it. -/
structure FreshTask (now : Time) (n : NodeRun) (t : ExecutionTask) : Prop where
  nodeRunId : t.nodeRunId = n.nodeId
  status : t.status = .pending
  attempt : t.attempt = 0
  maxAttempts : 1 ≤ t.maxAttempts
  availableAt : t.availableAt = now
  lockedBy : t.lockedBy = none
  leaseToken : t.leaseToken = none
  leaseExpiresAt : t.leaseExpiresAt = none
  startedAt : t.startedAt = none
  finishedAt : t.finishedAt = none

/-- What scheduling, timers and cancellation do to a cell.  `queues` and `cancels` are
the conditions under which the operation queues and cancels. -/
inductive Settling (queues cancels : Prop) (now : Time) : Cell → Cell → Prop
  | queue {n : NodeRun} {t : ExecutionTask} {input : Dict} (hqueues : queues)
      (hn : n.status = .pending) (ht : FreshTask now n t) :
      Settling queues cancels now (n, none) ({ n with status := .queued, input := input }, some t)
  | skip {n : NodeRun} (hn : n.status = .pending) :
      Settling queues cancels now (n, none)
        ({ n with status := .skipped, finishedAt := some now }, none)
  | promote {n : NodeRun} {t : Option ExecutionTask} (hn : n.status = .waiting) :
      Settling queues cancels now (n, t)
        ({ n with
          status := .completed, output := some n.waitingMetadata, finishedAt := some now }, t)
  | cancel {n : NodeRun} {t : Option ExecutionTask} {finishedAt : Option Time} (hcancels : cancels)
      (hn : n.status.isTerminal = false)
      (hfinished : finishedAt = some now ∨ finishedAt = n.finishedAt.or (some now)) :
      Settling queues cancels now (n, t)
        ({ n with status := .cancelled, finishedAt := finishedAt }, t.map (cancelTask now))

/-- The NodeRun, the time and the result of a human action. -/
def RunOp.resolution : RunOp → Option (Time × NodeId × HumanResult)
  | .approve now node => some (now, node, approval)
  | .reject now node => some (now, node, rejection)
  | .submit now node input => some (now, node, submission input)
  | _ => none

/-- The values that `runner_submit` computes from a result. -/
structure SubmittedValues (env : Env) (task : ExecutionTask) (result : Dict) where
  references : List Json
  outputMap : Dict
  artifacts : submittedArtifacts env result (shouldRetry env task result) =
    .ok (references, outputMap)

namespace SubmittedValues

variable {task : ExecutionTask} {result : Dict}

def output (s : SubmittedValues env task result) : Dict :=
  Dict.merge (env.sanitizeOutput (valueOrEmpty result "output")) s.outputMap

def metadata (_ : SubmittedValues env task result) : Dict :=
  env.sanitizeMetadata (valueOrEmpty result "metadata")

end SubmittedValues

/-- The change of one cell by one operation, from the rows `before` to the rows
`after`. -/
inductive CellChange (env : Env) (before after : RunRecord) : RunOp → Cell → Cell → Prop
  | claim {now : Time} {workerId leaseToken : String} {leaseSeconds : ℕ}
      {capabilities : Option (List String)} {n : NodeRun} {t : ExecutionTask}
      (hcandidate : isCandidate now workerId capabilities before t = true) :
      CellChange env before after
        (.claim now workerId leaseToken leaseSeconds capabilities false t.id) (n, some t)
        (n, some (grantLease now workerId leaseToken leaseSeconds t))
  | autoStart {now : Time} {workerId leaseToken : String} {leaseSeconds : ℕ}
      {capabilities : Option (List String)} {n : NodeRun} {t : ExecutionTask}
      (hcandidate : isCandidate now workerId capabilities before t = true) :
      CellChange env before after
        (.claim now workerId leaseToken leaseSeconds capabilities true t.id) (n, some t)
        ({ n with status := .running },
          some { grantLease now workerId leaseToken leaseSeconds t with
            status := .running, attempt := t.attempt + 1, startedAt := some now })
  | runnerClaim {now : Time} {runner : Runner} {leaseToken : String} {leaseSeconds : ℕ}
      {n : NodeRun} {t : ExecutionTask}
      (hcandidate : isCandidate now runner.id (some runner.capabilities) before t = true) :
      CellChange env before after (.runnerClaim now runner leaseToken leaseSeconds t.id) (n, some t)
        ({ n with
          status := .running, attempt := t.attempt + 1, startedAt := n.startedAt.or (some now) },
          some { grantLease now runner.id leaseToken leaseSeconds t with
            status := .running, attempt := t.attempt + 1, startedAt := some now })
  | start {now : Time} {workerId leaseToken : String} {n : NodeRun} {t : ExecutionTask}
      (howns : owns now workerId leaseToken t = true) (hclaimed : t.status = .claimed)
      (hrunning : before.run.status = .running) :
      CellChange env before after (.start now t.id workerId leaseToken) (n, some t)
        ({ n with status := .running },
          some { t with status := .running, attempt := t.attempt + 1, startedAt := some now })
  | release {now : Time} {workerId leaseToken : String} {n : NodeRun} {t : ExecutionTask}
      (howns : owns now workerId leaseToken t = true)
      (hrun : before.run.status = .paused ∨ before.run.status = .waiting) :
      CellChange env before after (.start now t.id workerId leaseToken) (n, some t)
        (n, some { clearLease t with status := .pending })
  | abandon {now : Time} {workerId leaseToken : String} {n : NodeRun} {t : ExecutionTask}
      (howns : owns now workerId leaseToken t = true) (hopen : n.status.isTerminal = false)
      (hrun : before.run.status = .created ∨ before.run.status.isTerminal = true) :
      CellChange env before after (.start now t.id workerId leaseToken) (n, some t)
        ({ n with status := .cancelled, finishedAt := some now },
          some { t with status := .cancelled, finishedAt := some now })
  | complete {now : Time} {workerId leaseToken : String} {output executionMetadata : Dict}
      {artifacts : List Json} {n : NodeRun} {t : ExecutionTask}
      (howns : owns now workerId leaseToken t = true) (hn : n.status = .running)
      (hrunning : t.status = .running) :
      CellChange env before after
        (.complete now t.id workerId leaseToken output executionMetadata artifacts) (n, some t)
        ({ n with
          status := .completed, output := some output, executionMetadata := executionMetadata,
          artifactRefs := artifacts, finishedAt := some now },
          some { t with status := .completed, finishedAt := some now, lastError := none })
  | fail {now : Time} {workerId leaseToken : String} {error executionMetadata : Dict}
      {artifacts : List Json} {n : NodeRun} {t : ExecutionTask}
      (howns : owns now workerId leaseToken t = true) (hn : n.status = .running)
      (hrunning : t.status = .running) :
      CellChange env before after
        (.fail now t.id workerId leaseToken error executionMetadata artifacts) (n, some t)
        ({ n with
          status := .failed, error := some error, executionMetadata := executionMetadata,
          artifactRefs := artifacts, finishedAt := some now },
          some { t with status := .failed, finishedAt := some now, lastError := some error })
  | waitNode {now : Time} {workerId leaseToken waitingReason : String} {waitingMetadata : Dict}
      {n : NodeRun} {t : ExecutionTask}
      (howns : owns now workerId leaseToken t = true) (hn : n.status = .running)
      (hrunning : t.status = .running) :
      CellChange env before after
        (.waitNode now t.id workerId leaseToken waitingReason waitingMetadata) (n, some t)
        ({ n with
          status := .waiting, waitingReason := some waitingReason,
          waitingMetadata := waitingMetadata },
          some { t with status := .completed, finishedAt := some now })
  | scheduleRetry {now : Time} {workerId leaseToken : String} {backoffSeconds : ℕ} {n : NodeRun}
      {t : ExecutionTask} (howns : owns now workerId leaseToken t = true)
      (hn : n.status = .running) (hrunning : t.status = .running) :
      CellChange env before after (.scheduleRetry now t.id workerId leaseToken backoffSeconds)
        (n, some t)
        ({ n with status := .retrying },
          some { clearLease t with
            status := .retryWait, availableAt := now + seconds backoffSeconds })
  | renewLease {now : Time} {workerId leaseToken : String} {leaseSeconds : ℕ} {n : NodeRun}
      {t : ExecutionTask} (howns : owns now workerId leaseToken t = true) :
      CellChange env before after (.renewLease now t.id workerId leaseToken leaseSeconds)
        (n, some t) (n, some { t with leaseExpiresAt := some (now + seconds leaseSeconds) })
  | recover {now : Time} {n : NodeRun} {t : ExecutionTask} (hexpired : leaseExpired now t = true) :
      CellChange env before after (.recoverExpired now) (n, some t)
        (n, some { clearLease t with status := .pending })
  | requeue {now : Time} {n : NodeRun} {t : ExecutionTask} (hn : n.status = .retrying)
      (hdue : retryDue now t = true) :
      CellChange env before after (.promoteDueRetries now) (n, some t)
        ({ n with status := .queued }, some { t with status := .pending })
  | heartbeat {now : Time} {runner : Runner} {leaseToken : String} {leaseSeconds : ℕ}
      {n : NodeRun} {t : ExecutionTask}
      (hholder : t.lockedBy = some runner.id ∧ t.leaseToken = some leaseToken)
      (hrunning : t.status = .running) (hopen : before.run.status.isTerminal = false) :
      CellChange env before after (.runnerTaskHeartbeat now runner t.id leaseToken leaseSeconds)
        (n, some t) (n, some { t with leaseExpiresAt := some (now + seconds leaseSeconds) })
  | submitCompleted {now : Time} {runnerId leaseToken : String} {result : Dict} {n : NodeRun}
      {t : ExecutionTask} (howns : owns now runnerId leaseToken t = true)
      (hn : n.status = .running) (hrunning : t.status = .running)
      (hopen : before.run.status.isTerminal = false) (s : SubmittedValues env t result)
      (hresult : Dict.truthyAt result "ok" = true) :
      CellChange env before after (.runnerSubmit now runnerId t.id leaseToken result) (n, some t)
        ({ n with
          status := .completed, output := some s.output, executionMetadata := s.metadata,
          artifactRefs := s.references, finishedAt := some now },
          some { t with status := .completed, finishedAt := some now, lastError := none })
  | submitRetry {now : Time} {runnerId leaseToken : String} {result : Dict} {n : NodeRun}
      {t : ExecutionTask} (howns : owns now runnerId leaseToken t = true)
      (hn : n.status = .running) (hrunning : t.status = .running)
      (hopen : before.run.status.isTerminal = false) (hretry : shouldRetry env t result = true) :
      CellChange env before after (.runnerSubmit now runnerId t.id leaseToken result) (n, some t)
        ({ n with status := .retrying },
          some { clearLease t with
            status := .retryWait,
            availableAt := now + seconds (retryBackoffSeconds env t.payload).toNat,
            lastError := some (submittedError env result) })
  | submitFailed {now : Time} {runnerId leaseToken : String} {result : Dict} {n : NodeRun}
      {t : ExecutionTask} (howns : owns now runnerId leaseToken t = true)
      (hn : n.status = .running) (hrunning : t.status = .running)
      (hopen : before.run.status.isTerminal = false) (s : SubmittedValues env t result)
      (hresult : Dict.truthyAt result "ok" = false) (hretry : shouldRetry env t result = false) :
      CellChange env before after (.runnerSubmit now runnerId t.id leaseToken result) (n, some t)
        ({ n with
          status := .failed, error := some (submittedError env result),
          executionMetadata := s.metadata, artifactRefs := env.sanitizeArtifacts s.references,
          finishedAt := some now },
          some { t with
            status := .failed, finishedAt := some now,
            lastError := some (submittedError env result) })
  | resolve {op : RunOp} {now : Time} {result : HumanResult} {n : NodeRun}
      {t : Option ExecutionTask} (hop : op.resolution = some (now, n.nodeId, result))
      (hn : n.status = .waiting) :
      CellChange env before after op (n, t)
        ({ n with
          status := result.target, output := result.output.or n.output,
          error := result.error.or n.error, finishedAt := some now }, t)
  | schedule {now : Time} {c c' : Cell}
      (h : Relation.ReflTransGen (Settling (before.run.status = .running) False now) c c') :
      CellChange env before after (.schedule now) c c'
  | reconcile {now : Time} {c c' : Cell}
      (h : Relation.ReflTransGen
        (Settling (before.run.status = .running ∨ after.run.status = .running)
          (before.run.status = .cancelled ∨ after.run.status = .failed) now) c c') :
      CellChange env before after (.reconcile now) c c'
  | cancelRun {now : Time} {c c' : Cell}
      (h : Relation.ReflTransGen (Settling False True now) c c') :
      CellChange env before after (.cancelRun now) c c'

/-! ## Rows -/

/-- Every cell stays or changes by `P`. -/
def Cellwise (P : Cell → Cell → Prop) (db db' : RunRecord) : Prop :=
  ∀ id n, findNodeRun db.nodeRuns id = some n → ∃ n', findNodeRun db'.nodeRuns id = some n' ∧
    ((n', taskOfNode db'.tasks id) = (n, taskOfNode db.tasks id) ∨
      P (n, taskOfNode db.tasks id) (n', taskOfNode db'.tasks id))

namespace Cellwise

theorem refl (P : Cell → Cell → Prop) (db : RunRecord) : Cellwise P db db :=
  fun _ n hn ↦ ⟨n, hn, .inl rfl⟩

theorem mono (h : Cellwise P db db') (hPQ : ∀ c c', P c c' → Q c c') : Cellwise Q db db' := by
  intro id n hn
  obtain ⟨n', hn', hchange⟩ := h id n hn
  exact ⟨n', hn', hchange.imp_right (hPQ _ _)⟩

theorem congr (h : Cellwise P db db') {db₁ : RunRecord} (hnodes : db₁.nodeRuns = db'.nodeRuns)
    (htasks : db₁.tasks = db'.tasks) : Cellwise P db db₁ := by
  intro id n hn
  rw [hnodes, htasks]
  exact h id n hn

/-- One task and its NodeRun are updated. -/
theorem of_update (hc : Keyed db) {t : ExecutionTask} {n : NodeRun} (ht : t ∈ db.tasks)
    (hn : findNodeRun db.nodeRuns t.nodeRunId = some n) {fn : NodeRun → NodeRun}
    {ft : ExecutionTask → ExecutionTask}
    (hnodes : db'.nodeRuns = Table.modify NodeRun.nodeId t.nodeRunId fn db.nodeRuns)
    (htasks : db'.tasks = Table.modify ExecutionTask.id t.id ft db.tasks)
    (hid : ∀ r, (fn r).nodeId = r.nodeId) (htnode : ∀ r, (ft r).nodeRunId = r.nodeRunId)
    (hchange : P (n, some t) (fn n, some (ft t))) : Cellwise P db db' := by
  intro id n' hn'
  rw [Table.modify_eq_modify hc.taskIds_nodup hc.taskNodes ht] at htasks
  have htask : taskOfNode db.tasks t.nodeRunId = some t := Table.find?_of_mem hc.taskNodes ht
  have hnode' : findNodeRun db'.nodeRuns id =
      if id = t.nodeRunId then (findNodeRun db.nodeRuns t.nodeRunId).map fn
      else findNodeRun db.nodeRuns id := by
    rw [hnodes]
    exact Table.find?_modify hid _ _ _
  have htask' : taskOfNode db'.tasks id =
      if id = t.nodeRunId then (taskOfNode db.tasks t.nodeRunId).map ft
      else taskOfNode db.tasks id := by
    rw [htasks]
    exact Table.find?_modify htnode _ _ _
  rw [hnode', htask']
  by_cases hcell : id = t.nodeRunId
  · subst hcell
    rw [hn] at hn'
    cases hn'
    refine ⟨fn n, by simp [hn], .inr ?_⟩
    rw [if_pos rfl, htask]
    exact hchange
  · exact ⟨n', by simp [hcell, hn'], .inl (by simp [hcell])⟩

/-- Only the task is updated. -/
theorem of_task (hc : Keyed db) {t : ExecutionTask} {n : NodeRun} (ht : t ∈ db.tasks)
    (hn : findNodeRun db.nodeRuns t.nodeRunId = some n) {ft : ExecutionTask → ExecutionTask}
    (hnodes : db'.nodeRuns = db.nodeRuns)
    (htasks : db'.tasks = Table.modify ExecutionTask.id t.id ft db.tasks)
    (htnode : ∀ r, (ft r).nodeRunId = r.nodeRunId) (hchange : P (n, some t) (n, some (ft t))) :
    Cellwise P db db' :=
  of_update hc ht hn (hnodes.trans (Table.modify_id _ _).symm) htasks (fun _ ↦ rfl) htnode hchange

end Cellwise

/-! ## The execution backend -/

/-- What a fenced write finds: a claimed or running task and its NodeRun. -/
structure Leased (db : RunRecord) (now : Time) (taskId : TaskId) (workerId leaseToken : String)
    (t : ExecutionTask) (n : NodeRun) : Prop where
  mem : t ∈ db.tasks
  id : t.id = taskId
  node : findNodeRun db.nodeRuns t.nodeRunId = some n
  owns : owns now workerId leaseToken t = true
  coupling : Coupling n.isInput (n.status, some t.status)
  leased : t.status = .claimed ∨ t.status = .running

theorem withLease_cells (hc : Coupled db) {post : RunRecord → Prop}
    {body : ExecutionTask → Except Raised RunRecord} (hdb : post db)
    (hbody : ∀ t n, Leased db now taskId workerId leaseToken t n → Sound (body t) post) :
    Sound (withLease now taskId workerId leaseToken db body) fun p ↦ post p.2 := by
  unfold withLease
  split
  · next t ht =>
    obtain ⟨n, hn, hmem, hid, hcoupling⟩ := hc.cell_of_task ht
    refine Outcome.Holds.ite (fun _ ↦ hdb) fun howns ↦ ?_
    have howns : Relayvia.owns now workerId leaseToken t = true := by simpa using howns
    refine Outcome.Holds.bind (hbody t n ?_) fun _ h ↦ h
    exact ⟨hmem, hid, hn, howns, hcoupling, hc.leased hmem howns⟩
  · exact hdb

/-- A fenced result: both rows run, and both are updated. -/
theorem Leased.result {t : ExecutionTask} {n : NodeRun}
    (h : Leased db now taskId workerId leaseToken t n) {target : ExecutionTaskStatus}
    {rest : Except Raised RunRecord} {post : RunRecord → Prop}
    (htarget : target = .completed ∨ target = .failed ∨ target = .retryWait)
    (hrest : n.status = .running → t.status = .running → Sound rest post) :
    Sound (do transitionExecutionTask t.status target; rest) post := by
  refine transitionExecutionTask_sound.bind fun _ hlegal ↦ ?_
  obtain ⟨hnode, hrunning⟩ := running_of_legal h.coupling h.leased hlegal htarget
  exact hrest hnode hrunning

theorem complete_cells (hc : Coupled db) {output executionMetadata : Dict} {artifacts : List Json} :
    Sound (complete now taskId workerId leaseToken output executionMetadata artifacts db) fun p ↦
      Cellwise (CellChange env db after
        (.complete now taskId workerId leaseToken output executionMetadata artifacts)) db p.2 := by
  refine withLease_cells hc (.refl _ db) fun t n h ↦ h.result (.inl rfl) fun hnode hrunning ↦ ?_
  obtain rfl := h.id
  refine Outcome.Holds.bind (advanceNode_sound (n := n) h.node ?_) ?_
  · simp [hnode, NodeRunStatus.transitions]
  rintro _ rfl
  exact Cellwise.of_update hc.toKeyed h.mem h.node rfl rfl (fun _ ↦ rfl) (fun _ ↦ rfl)
    (.complete h.owns hnode hrunning)

theorem fail_cells (hc : Coupled db) {error executionMetadata : Dict} {artifacts : List Json} :
    Sound (fail now taskId workerId leaseToken error executionMetadata artifacts db) fun p ↦
      Cellwise (CellChange env db after
        (.fail now taskId workerId leaseToken error executionMetadata artifacts)) db p.2 := by
  refine withLease_cells hc (.refl _ db) fun t n h ↦
    h.result (.inr (.inl rfl)) fun hnode hrunning ↦ ?_
  obtain rfl := h.id
  refine Outcome.Holds.bind (advanceOpenNode_sound (n := n) h.node (by rw [hnode]; rfl) ?_) ?_
  · simp [hnode, NodeRunStatus.transitions]
  rintro _ rfl
  exact Cellwise.of_update hc.toKeyed h.mem h.node rfl rfl (fun _ ↦ rfl) (fun _ ↦ rfl)
    (.fail h.owns hnode hrunning)

theorem waitNode_cells (hc : Coupled db) {waitingReason : String} {waitingMetadata : Dict} :
    Sound (waitNode now taskId workerId leaseToken waitingReason waitingMetadata db) fun p ↦
      Cellwise (CellChange env db after
        (.waitNode now taskId workerId leaseToken waitingReason waitingMetadata)) db p.2 := by
  refine withLease_cells hc (.refl _ db) fun t n h ↦ h.result (.inl rfl) fun hnode hrunning ↦ ?_
  obtain rfl := h.id
  refine Outcome.Holds.bind (advanceNode_sound (n := n) h.node ?_) ?_
  · simp [hnode, NodeRunStatus.transitions]
  rintro _ rfl
  refine Outcome.Holds.ite (fun _ ↦ Outcome.holds_throw_bind.mpr id) fun _ ↦ ?_
  exact Cellwise.of_update hc.toKeyed h.mem h.node rfl rfl (fun _ ↦ rfl) (fun _ ↦ rfl)
    (.waitNode h.owns hnode hrunning)

theorem scheduleRetry_cells (hc : Coupled db) {backoffSeconds : ℕ} :
    Sound (scheduleRetry now taskId workerId leaseToken backoffSeconds db) fun p ↦
      Cellwise (CellChange env db after
        (.scheduleRetry now taskId workerId leaseToken backoffSeconds)) db p.2 := by
  refine withLease_cells hc (.refl _ db) fun t n h ↦
    h.result (.inr (.inr rfl)) fun hnode hrunning ↦ ?_
  obtain rfl := h.id
  refine Outcome.Holds.bind (nodeStatus_sound (n := n) hc.nodeIds_nodup h.node (.inr ?_)) ?_
  · simp [hnode, NodeRunStatus.transitions]
  rintro _ rfl
  exact Cellwise.of_update hc.toKeyed h.mem h.node rfl rfl (fun _ ↦ rfl) (fun _ ↦ rfl)
    (.scheduleRetry h.owns hnode hrunning)

theorem renewLease_cells (hc : Coupled db) {leaseSeconds : ℕ} :
    Sound (renewLease now taskId workerId leaseToken leaseSeconds db) fun p ↦
      Cellwise (CellChange env db after
        (.renewLease now taskId workerId leaseToken leaseSeconds)) db p.2 := by
  refine withLease_cells hc (.refl _ db) fun t n h ↦ ?_
  obtain rfl := h.id
  exact Cellwise.of_task hc.toKeyed h.mem h.node rfl rfl (fun _ ↦ rfl) (.renewLease h.owns)

theorem claim_cells (hc : Coupled db) {leaseSeconds : ℕ} {capabilities : Option (List String)}
    {autoStart : Bool} :
    Sound (claim now workerId leaseToken leaseSeconds capabilities autoStart taskId db) fun p ↦
      Cellwise (CellChange env db after
        (.claim now workerId leaseToken leaseSeconds capabilities autoStart taskId)) db p.2 := by
  unfold claim
  split
  · next t ht =>
    obtain ⟨n, hn, hmem, rfl, hcoupling⟩ := hc.cell_of_task ht
    refine Outcome.Holds.ite (fun _ ↦ .refl _ db) fun hcandidate ↦ ?_
    have hcandidate : isCandidate now workerId capabilities db t = true := by simpa using hcandidate
    cases autoStart with
    | false =>
        exact Cellwise.of_task hc.toKeyed hmem hn rfl rfl (fun _ ↦ rfl) (.claim hcandidate)
    | true =>
        refine transitionExecutionTask_sound.bind fun _ _ ↦ ?_
        refine Outcome.Holds.bind (nodeStatus_sound (n := n) hc.nodeIds_nodup hn
          (launch_legal hcoupling (.inl (isCandidate_pending hcandidate)))) ?_
        rintro _ rfl
        refine Cellwise.of_update hc.toKeyed hmem hn rfl (Table.modify_modify ?_ _ _)
          (fun _ ↦ rfl) (fun _ ↦ rfl) (.autoStart hcandidate)
        exact fun _ ↦ rfl
  · exact .refl _ db

theorem releaseOrCancelForRunState_cells (hc : Coupled db) {t : ExecutionTask} {n : NodeRun}
    (h : Leased db now taskId workerId leaseToken t n) (hrun : db.run.status ≠ .running) :
    Sound (releaseOrCancelForRunState now db t)
      (Cellwise (CellChange env db after (.start now taskId workerId leaseToken)) db) := by
  obtain rfl := h.id
  refine Outcome.Holds.ite (fun hheld ↦ ?_) fun hother ↦ ?_
  · refine transitionExecutionTask_sound.bind fun _ _ ↦ ?_
    exact Cellwise.of_task hc.toKeyed h.mem h.node rfl rfl (fun _ ↦ rfl) (.release h.owns hheld)
  · refine transitionExecutionTask_sound.bind fun _ _ ↦ ?_
    have hlive : t.status.isTerminal = false := by
      rcases h.leased with hs | hs <;> rw [hs] <;> rfl
    have hopen : n.status.isTerminal = false := h.coupling.open_of_live hlive
    refine (nodeCancelled_sound (n := n) ?_ hopen).weaken ?_
    · exact h.node
    rintro _ rfl
    refine Cellwise.of_update hc.toKeyed h.mem h.node rfl rfl (fun _ ↦ rfl) (fun _ ↦ rfl)
      (.abandon h.owns hopen ?_)
    cases hstatus : db.run.status <;> simp_all [WorkflowRunStatus.isTerminal]

theorem start_cells (hc : Coupled db) :
    Sound (start now taskId workerId leaseToken db) fun p ↦
      Cellwise (CellChange env db after (.start now taskId workerId leaseToken)) db p.2 := by
  unfold start
  split
  · next t ht =>
    obtain ⟨n, hn, hmem, hid, hcoupling⟩ := hc.cell_of_task ht
    refine Outcome.Holds.ite (fun _ ↦ .refl _ db) fun howns ↦ ?_
    have howns : owns now workerId leaseToken t = true := by simpa using howns
    have hleased : Leased db now taskId workerId leaseToken t n :=
      ⟨hmem, hid, hn, howns, hcoupling, hc.leased hmem howns⟩
    refine Outcome.Holds.ite (fun hrun ↦ ?_) fun hrun ↦ ?_
    · exact (releaseOrCancelForRunState_cells hc hleased hrun).bind fun _ h ↦ h
    · refine Outcome.Holds.bind transitionExecutionTask_sound fun _ hlegal ↦ ?_
      obtain rfl := hid
      have hclaimed : t.status = .claimed := by
        rcases hleased.leased with h | h
        · exact h
        · simp [h, ExecutionTaskStatus.transitions] at hlegal
      refine Outcome.Holds.bind (nodeStatus_sound (n := n) hc.nodeIds_nodup hn
        (launch_legal hcoupling (.inr hclaimed))) ?_
      rintro _ rfl
      exact Cellwise.of_update hc.toKeyed hmem hn rfl rfl (fun _ ↦ rfl) (fun _ ↦ rfl)
        (.start howns hclaimed (by simpa using hrun))
  · exact .refl _ db

theorem recoverExpired_cells :
    Cellwise (CellChange env db after (.recoverExpired now)) db (recoverExpired now db) := by
  intro id n hn
  have htask : taskOfNode (recoverExpired now db).tasks id = (taskOfNode db.tasks id).map fun t ↦
      if leaseExpired now t then { clearLease t with status := .pending } else t :=
    Table.find?_map (fun t ↦ by split <;> rfl) _ _
  refine ⟨n, hn, ?_⟩
  rw [htask]
  cases taskOfNode db.tasks id with
  | none => exact .inl rfl
  | some t =>
      by_cases hexpired : leaseExpired now t = true
      · rw [Option.map_some, if_pos hexpired]
        exact .inr (.recover hexpired)
      · rw [Option.map_some, if_neg hexpired]
        exact .inl rfl

/-- The cell of a task whose retry is due. -/
def RequeuesCell (t : ExecutionTask) (c c' : Cell) : Prop :=
  ∃ n : NodeRun, n.status = .retrying ∧ c = (n, some t) ∧
    c' = ({ n with status := .queued }, some { t with status := .pending })

/-- One due retry changes the cell of its task only. -/
theorem promoteRetry_cells (hc : Coupled db) {t : ExecutionTask} (hmem : t ∈ db.tasks)
    (hretry : t.status = .retryWait) :
    Sound (promoteRetry db t) (Cellwise (RequeuesCell t) db) := by
  obtain ⟨n, hn, -, -, hcoupling⟩ := hc.cell_of_task (hc.findTask_eq_some_iff.mpr ⟨hmem, rfl⟩)
  rw [hretry] at hcoupling
  have hnode : n.status = .retrying := hcoupling
  refine Outcome.Holds.bind (nodeStatus_sound (n := n) hc.nodeIds_nodup hn (.inr ?_)) ?_
  · simp [hnode, NodeRunStatus.transitions]
  rintro _ rfl
  exact Cellwise.of_update hc.toKeyed hmem hn rfl rfl (fun _ ↦ rfl) (fun _ ↦ rfl)
    ⟨n, hnode, rfl, rfl⟩

/-- In the loop over the due retries a changed cell is never met again. -/
structure Requeuing (env : Env) (now : Time) (db after : RunRecord) (rest : List ExecutionTask)
    (db' : RunRecord) : Prop where
  loop : RetryLoop Rights.all db rest db'
  due : ∀ t ∈ rest, retryDue now t = true
  cells : ∀ id n, findNodeRun db.nodeRuns id = some n → ∃ n', findNodeRun db'.nodeRuns id = some n' ∧
    ((n', taskOfNode db'.tasks id) = (n, taskOfNode db.tasks id) ∨
      CellChange env db after (.promoteDueRetries now) (n, taskOfNode db.tasks id)
        (n', taskOfNode db'.tasks id) ∧ ∀ t ∈ rest, taskOfNode db'.tasks id ≠ some t)

theorem Requeuing.next (hc : Coupled db) {t : ExecutionTask} {rest : List ExecutionTask}
    (h : Requeuing env now db after (t :: rest) db') :
    Sound (promoteRetry db' t) (Requeuing env now db after rest) := by
  have hc' : Coupled db' := h.loop.steps.coupled hc
  obtain ⟨hmem, hretry⟩ := h.loop.due t (by simp)
  have htask : taskOfNode db'.tasks t.nodeRunId = some t := Table.find?_of_mem hc'.taskNodes hmem
  have hnext : Sound (promoteRetry db' t) (RetryLoop Rights.all db rest) := h.loop.next hc
  refine (hnext.and (promoteRetry_cells hc' hmem hretry)).weaken ?_
  rintro db'' ⟨hloop, hcells⟩
  refine ⟨hloop, fun u hu ↦ h.due u (by simp [hu]), fun id n hn ↦ ?_⟩
  obtain ⟨n₁, hn₁, hbefore⟩ := h.cells id n hn
  obtain ⟨n₂, hn₂, hstep⟩ := hcells id n₁ hn₁
  refine ⟨n₂, hn₂, ?_⟩
  rcases hstep with hsame | ⟨m, hm, hcell, hcell'⟩
  · rw [hsame]
    refine hbefore.imp_right fun ⟨hchange, hne⟩ ↦ ⟨hchange, fun u hu ↦ ?_⟩
    rw [(Prod.mk.inj hsame).2]
    exact hne u (by simp [hu])
  · rcases hbefore with hsame | ⟨-, hne⟩
    · refine .inr ⟨?_, fun u hu heq ↦ ?_⟩
      · rw [← hsame, hcell, hcell']
        exact .requeue hm (h.due t (by simp))
      · rw [(Prod.mk.inj hcell').2] at heq
        obtain rfl := Option.some.inj heq
        have hwait := (hloop.due _ hu).2
        cases hwait
    · exact absurd (Prod.mk.inj hcell).2 (hne t (by simp))

theorem promoteDueRetries_cells (hc : Coupled db) :
    Sound (promoteDueRetries now db)
      (Cellwise (CellChange env db after (.promoteDueRetries now)) db) := by
  have hstart : Requeuing env now db after (db.tasks.filter (retryDue now)) db :=
    ⟨.start hc, fun t ht ↦ (List.mem_filter.mp ht).2, fun _ n hn ↦ ⟨n, hn, .inl rfl⟩⟩
  refine Outcome.Holds.weaken (Outcome.holds_foldlM (fun _ _ _ ↦ Requeuing.next hc) _ _ hstart)
    fun db' h id n hn ↦ ?_
  obtain ⟨n', hn', hcell⟩ := h.cells id n hn
  exact ⟨n', hn', hcell.imp_right And.left⟩

/-! ## The Runner service -/

variable {runner : Runner} {runnerId : String}

theorem runnerClaim_cells (hc : Coupled db) {leaseSeconds : ℕ} :
    Sound (runnerClaim now runner leaseToken leaseSeconds taskId db) fun p ↦
      Cellwise (CellChange env db after (.runnerClaim now runner leaseToken leaseSeconds taskId))
        db p.2 := by
  unfold runnerClaim
  split
  · next t ht =>
    obtain ⟨n, hn, hmem, rfl, hcoupling⟩ := hc.cell_of_task ht
    refine Outcome.Holds.ite (fun _ ↦ .refl _ db) fun hcandidate ↦ ?_
    have hcandidate : isCandidate now runner.id (some runner.capabilities) db t = true := by
      simpa using hcandidate
    refine transitionExecutionTask_sound.bind fun _ _ ↦ ?_
    refine Outcome.Holds.bind (startNodeOnRunner_sound (n := n) hc.nodeIds_nodup hn
      (launch_legal hcoupling (.inl (isCandidate_pending hcandidate)))) ?_
    rintro _ rfl
    split
    all_goals
      refine Cellwise.of_update hc.toKeyed hmem hn rfl (Table.modify_modify ?_ _ _)
        (fun _ ↦ rfl) (fun _ ↦ rfl) (.runnerClaim hcandidate)
      exact fun _ ↦ rfl
  · exact .refl _ db

theorem runnerTaskHeartbeat_cells (hc : Coupled db) {leaseSeconds : ℕ} :
    Sound (runnerTaskHeartbeat now runner taskId leaseToken leaseSeconds db) fun p ↦
      Cellwise (CellChange env db after
        (.runnerTaskHeartbeat now runner taskId leaseToken leaseSeconds)) db p.2 := by
  have hstale : ¬StatusFault (.relayvia runnerTaskStale) := by
    simp [StatusFault, runnerTaskStale]
  unfold runnerTaskHeartbeat
  split
  · next t ht =>
    obtain ⟨n, hn, hmem, rfl, -⟩ := hc.cell_of_task ht
    refine Outcome.Holds.ite (fun _ ↦ hstale) fun hholder ↦ ?_
    refine Outcome.Holds.ite (fun _ ↦ .refl _ db) fun hlive ↦ ?_
    push Not at hholder hlive
    exact Cellwise.of_task hc.toKeyed hmem hn rfl rfl (fun _ ↦ rfl)
      (.heartbeat hholder hlive.1 (by simpa using hlive.2))
  · exact hstale

variable (after) in
theorem applySubmission_cells (hc : Coupled db) {t : ExecutionTask} {n : NodeRun} {result : Dict}
    {events : List RunEvent} (h : Leased db now taskId runnerId leaseToken t n)
    (hopen : db.run.status.isTerminal = false) (s : SubmittedValues env t result) :
    Sound (applySubmission env now runnerId t result s.output s.metadata s.references
      { db with events := events })
      (Cellwise (CellChange env db after (.runnerSubmit now runnerId taskId leaseToken result))
        db) := by
  obtain rfl := h.id
  refine Outcome.Holds.ite (fun hok ↦ ?_) fun hok ↦ Outcome.Holds.ite (fun hretry ↦ ?_)
    fun hretry ↦ ?_
  · refine h.result (.inl rfl) fun hnode hrunning ↦ ?_
    refine Outcome.Holds.bind (advanceNode_sound (n := n) h.node ?_) ?_
    · simp [hnode, NodeRunStatus.transitions]
    rintro _ rfl
    exact Cellwise.of_update hc.toKeyed h.mem h.node rfl rfl (fun _ ↦ rfl) (fun _ ↦ rfl)
      (.submitCompleted h.owns hnode hrunning hopen s hok)
  · refine h.result (.inr (.inr rfl)) fun hnode hrunning ↦ ?_
    refine Outcome.Holds.bind (nodeStatus_sound (n := n) hc.nodeIds_nodup h.node (.inr ?_)) ?_
    · simp [hnode, NodeRunStatus.transitions]
    rintro _ rfl
    exact Cellwise.of_update hc.toKeyed h.mem h.node rfl rfl (fun _ ↦ rfl) (fun _ ↦ rfl)
      (.submitRetry h.owns hnode hrunning hopen hretry)
  · refine h.result (.inr (.inl rfl)) fun hnode hrunning ↦ ?_
    have hstatus : statusOf db.nodeRuns t.nodeRunId ≠ some .failed := by
      simp [statusOf_eq h.node, hnode]
    refine Outcome.Holds.ite (fun h ↦ absurd h hstatus) fun _ ↦ ?_
    refine Outcome.Holds.bind (advanceNode_sound (n := n) h.node ?_) ?_
    · simp [hnode, NodeRunStatus.transitions]
    rintro _ rfl
    exact Cellwise.of_update hc.toKeyed h.mem h.node rfl rfl (fun _ ↦ rfl) (fun _ ↦ rfl)
      (.submitFailed h.owns hnode hrunning hopen s (by simpa using hok) (by simpa using hretry))

theorem runnerSubmit_cells (hc : Coupled db) {result : Dict} :
    Sound (runnerSubmit env now runnerId taskId leaseToken result db) fun p ↦
      Cellwise (CellChange env db after (.runnerSubmit now runnerId taskId leaseToken result))
        db p.2 := by
  unfold runnerSubmit
  split
  · next t ht =>
    obtain ⟨n, hn, hmem, hid, hcoupling⟩ := hc.cell_of_task ht
    refine Outcome.Holds.ite (fun _ ↦ .refl _ db) fun hopen ↦ ?_
    refine Outcome.Holds.ite (fun _ ↦ .refl _ db) fun howns ↦ ?_
    have howns : owns now runnerId leaseToken t = true := by simpa using howns
    refine submittedArtifacts_sound.with_eq.bind ?_
    rintro ⟨references, outputMap⟩ ⟨hartifacts, -⟩
    refine Outcome.Holds.bind (applySubmission_cells after hc
      ⟨hmem, hid, hn, howns, hcoupling, hc.leased hmem howns⟩ (by simpa using hopen)
      ⟨references, outputMap, hartifacts⟩) fun db' hdb' ↦ ?_
    split
    · exact Outcome.Holds.ite (fun _ ↦ hdb') fun _ ↦ hdb'.congr rfl rfl
    · exact hdb'
  · exact .refl _ db

/-! ## Human actions -/

theorem applyHumanResult_cells (hc : Coupled db) {op : RunOp} {id : NodeId} {n : NodeRun}
    {result : HumanResult} (hop : op.resolution = some (now, id, result))
    (hn : findNodeRun db.nodeRuns id = some n) (hwaiting : n.status = .waiting) :
    Sound (applyHumanResult now db id result) (Cellwise (CellChange env db after op) db) := by
  obtain ⟨t, ht, -⟩ := hc.waiting_task hn hwaiting
  obtain ⟨hmem, rfl⟩ := hc.taskOfNode_eq_some_iff.mp ht
  have hkept : db.tasks = Table.modify ExecutionTask.id t.id (fun u ↦ u) db.tasks :=
    (Table.modify_id _ _).symm
  have hlegal : result.target ∈ NodeRunStatus.waiting.transitions := by
    cases op <;> cases hop <;> simp [approval, rejection, submission, NodeRunStatus.transitions]
  unfold applyHumanResult
  rw [liftM_transitionNodeRun hlegal]
  refine Cellwise.of_update hc.toKeyed hmem hn rfl hkept (fun _ ↦ rfl) (fun _ ↦ rfl)
    (.resolve ?_ hwaiting)
  rw [hop, (hc.findNodeRun_eq_some_iff.mp hn).2]

theorem approveNodeRun_cells (hc : Coupled db) {id : NodeId} :
    Sound (approveNodeRun now id db) (Cellwise (CellChange env db after (.approve now id)) db) := by
  refine lockNodeRun_sound.bind fun n hn ↦ ?_
  refine requireWaiting_sound.bind fun _ hwaiting ↦ ?_
  refine waitingNode_sound.bind fun _ _ ↦ ?_
  exact applyHumanResult_cells hc rfl hn hwaiting

theorem rejectNodeRun_cells (hc : Coupled db) {id : NodeId} :
    Sound (rejectNodeRun now id db) (Cellwise (CellChange env db after (.reject now id)) db) := by
  refine lockNodeRun_sound.bind fun n hn ↦ ?_
  refine requireWaiting_sound.bind fun _ hwaiting ↦ ?_
  refine waitingNode_sound.bind fun _ _ ↦ ?_
  refine Outcome.Holds.ite (fun _ ↦ Outcome.holds_throw_bind.mpr ?_) fun _ ↦ ?_
  · simp [StatusFault]
  · exact applyHumanResult_cells hc rfl hn hwaiting

theorem submitNodeRun_cells (hc : Coupled db) {id : NodeId} {input : Dict} :
    Sound (submitNodeRun env now id input db)
      (Cellwise (CellChange env db after (.submit now id input)) db) := by
  refine lockNodeRun_sound.bind fun n hn ↦ ?_
  refine requireWaiting_sound.bind fun _ hwaiting ↦ ?_
  refine waitingNode_sound.bind fun _ _ ↦ ?_
  refine checkHumanInput_sound.bind fun _ _ ↦ ?_
  exact applyHumanResult_cells hc rfl hn hwaiting

end Relayvia
