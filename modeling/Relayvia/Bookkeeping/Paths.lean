import Relayvia.Bookkeeping.Nodes

/-!
# Two paths of one execution

What a Worker leaves after claim, start and report, and what a Runner leaves after
`runner_claim` and `runner_submit` of the same result.
-/

namespace Relayvia

variable {env : Env} {now : Time} {db db' : RunRecord} {op : RunOp} {task : TaskId}

/-! ## Calls that move a task -/

/-- The task that a successful call moves. -/
def RunOp.moves : RunOp → Option TaskId
  | .claim _ _ _ _ _ false task | .runnerClaim _ _ _ _ task | .start _ task ..
  | .complete _ task .. | .fail _ task .. | .waitNode _ task .. | .scheduleRetry _ task ..
  | .runnerSubmit _ _ task .. => some task
  | _ => none

theorem ne_of_transition {s target : ExecutionTaskStatus} {u : Unit}
    (h : (liftM (transitionExecutionTask s target) : Except Raised Unit) = .ok u) :
    s ≠ target := by
  have hlegal := transitionExecutionTask_sound.of_ok h
  rintro rfl
  cases s <;> simp [ExecutionTaskStatus.transitions] at hlegal

theorem withLease_true {party token : String} {body : ExecutionTask → Except Raised RunRecord}
    (h : withLease now task party token db body = .ok (true, db')) :
    ∃ t, findTask db.tasks task = some t ∧ body t = .ok db' := by
  unfold withLease at h
  split at h
  · next t ht =>
    split at h
    · cases h
    · obtain ⟨db₁, hbody, h⟩ := Outcome.bind_eq_ok_iff.mp h
      cases h
      exact ⟨t, ht, hbody⟩
  · cases h

theorem advanceOpenNode_tasks {id : NodeId} {target : NodeRunStatus} {f : NodeRun → NodeRun}
    (h : advanceOpenNode db id target f = .ok db') : db'.tasks = db.tasks := by
  unfold advanceOpenNode at h
  split at h
  · cases h
    rfl
  · exact advanceNode_tasks h

/-- The status that every row of the task has after an update. -/
theorem status_of_modify {f : ExecutionTask → ExecutionTask} {s : ExecutionTaskStatus}
    {rows : List ExecutionTask} (h : db'.tasks = Table.modify ExecutionTask.id task f rows)
    (hf : ∀ t, (f t).status = s) : ∀ t' ∈ db'.tasks, t'.id = task → t'.status = s := by
  intro t' ht' hid
  rw [h] at ht'
  obtain ⟨t, -, -, rfl⟩ := Table.mem_modify_self ht' hid
  exact hf t

/-- The task leaves its status. -/
def Moved (task : TaskId) (db db' : RunRecord) : Prop :=
  ∃ t s, findTask db.tasks task = some t ∧ t.status ≠ s ∧ ∀ t' ∈ db'.tasks, t'.id = task →
    t'.status = s

theorem applySubmission_moved {now : Time} {runnerId : String} {t : ExecutionTask}
    {result output metadata : Dict} {references : List Json} {events : List RunEvent}
    (ht : findTask db.tasks task = some t)
    (h : applySubmission env now runnerId t result output metadata references
      { db with events := events } = .ok db') : Moved task db db' := by
  have hid : t.id = task := Table.key_of_find? ht
  subst hid
  unfold applySubmission at h
  split at h
  · obtain ⟨_, hlegal, h⟩ := Outcome.bind_eq_ok_iff.mp h
    obtain ⟨db₁, hdb₁, h⟩ := Outcome.bind_eq_ok_iff.mp h
    cases h
    refine ⟨t, _, ht, ne_of_transition hlegal, ?_⟩
    exact status_of_modify (advanceNode_tasks hdb₁) fun _ ↦ rfl
  · split at h
    · obtain ⟨_, hlegal, h⟩ := Outcome.bind_eq_ok_iff.mp h
      obtain ⟨db₁, hdb₁, h⟩ := Outcome.bind_eq_ok_iff.mp h
      cases h
      refine ⟨t, _, ht, ne_of_transition hlegal, ?_⟩
      exact status_of_modify (nodeStatus_tasks hdb₁) fun _ ↦ rfl
    · obtain ⟨_, hlegal, h⟩ := Outcome.bind_eq_ok_iff.mp h
      refine ⟨t, .failed, ht, ne_of_transition hlegal, ?_⟩
      dsimp only at h
      split at h
      · cases h
        exact status_of_modify rfl fun _ ↦ rfl
      · obtain ⟨db₁, hdb₁, h⟩ := Outcome.bind_eq_ok_iff.mp h
        cases h
        exact status_of_modify (advanceNode_tasks hdb₁) fun _ ↦ rfl

theorem RunOp.exec_moved (hop : op.moves = some task) (h : op.exec env db = .ok (true, db')) :
    Moved task db db' := by
  cases op with
  | claim now workerId leaseToken leaseSeconds capabilities autoStart id =>
      cases autoStart <;> simp only [moves, Option.some.injEq, reduceCtorEq] at hop
      subst hop
      simp only [exec, Relayvia.claim] at h
      split at h
      · next t ht =>
        split at h
        · cases h
        · next hcandidate =>
          cases h
          refine ⟨t, .claimed, ht, ?_, status_of_modify rfl fun _ ↦ rfl⟩
          simp [isCandidate_pending (by simpa using hcandidate)]
      · cases h
  | runnerClaim now runner leaseToken leaseSeconds id =>
      simp only [moves, Option.some.injEq] at hop
      subst hop
      simp only [exec, Relayvia.runnerClaim] at h
      split at h
      · next t ht =>
        split at h
        · cases h
        · next hcandidate =>
          obtain ⟨_, -, h⟩ := Outcome.bind_eq_ok_iff.mp h
          obtain ⟨db₁, hdb₁, h⟩ := Outcome.bind_eq_ok_iff.mp h
          obtain ⟨db₂, hdb₂, hstarted⟩ := Outcome.bind_eq_ok_iff.mp hdb₁
          cases hstarted
          refine ⟨t, .running, ht, ?_, ?_⟩
          · simp [isCandidate_pending (by simpa using hcandidate)]
          · split at h <;> cases h <;> exact status_of_modify (nodeStatus_tasks hdb₂) fun _ ↦ rfl
      · cases h
  | start now id workerId leaseToken =>
      simp only [moves, Option.some.injEq] at hop
      subst hop
      have htasks := start_true h
      simp only [exec, Relayvia.start] at h
      split at h
      · next t ht =>
        split at h
        · cases h
        · split at h
          · obtain ⟨_, -, h⟩ := Outcome.bind_eq_ok_iff.mp h
            cases h
          · obtain ⟨_, hlegal, -⟩ := Outcome.bind_eq_ok_iff.mp h
            exact ⟨t, _, ht, ne_of_transition hlegal, status_of_modify htasks fun _ ↦ rfl⟩
      · cases h
  | complete =>
      simp only [moves, Option.some.injEq] at hop
      subst hop
      obtain ⟨t, ht, h⟩ := withLease_true h
      obtain ⟨_, hlegal, h⟩ := Outcome.bind_eq_ok_iff.mp h
      obtain ⟨db₁, hdb₁, h⟩ := Outcome.bind_eq_ok_iff.mp h
      cases h
      refine ⟨t, _, ht, ne_of_transition hlegal, ?_⟩
      exact status_of_modify (advanceNode_tasks hdb₁) fun _ ↦ rfl
  | fail =>
      simp only [moves, Option.some.injEq] at hop
      subst hop
      obtain ⟨t, ht, h⟩ := withLease_true h
      obtain ⟨_, hlegal, h⟩ := Outcome.bind_eq_ok_iff.mp h
      obtain ⟨db₁, hdb₁, h⟩ := Outcome.bind_eq_ok_iff.mp h
      cases h
      refine ⟨t, _, ht, ne_of_transition hlegal, ?_⟩
      exact status_of_modify (advanceOpenNode_tasks hdb₁) fun _ ↦ rfl
  | scheduleRetry =>
      simp only [moves, Option.some.injEq] at hop
      subst hop
      obtain ⟨t, ht, h⟩ := withLease_true h
      obtain ⟨_, hlegal, h⟩ := Outcome.bind_eq_ok_iff.mp h
      obtain ⟨db₁, hdb₁, h⟩ := Outcome.bind_eq_ok_iff.mp h
      cases h
      refine ⟨t, _, ht, ne_of_transition hlegal, ?_⟩
      exact status_of_modify (nodeStatus_tasks hdb₁) fun _ ↦ rfl
  | waitNode =>
      simp only [moves, Option.some.injEq] at hop
      subst hop
      obtain ⟨t, ht, h⟩ := withLease_true h
      obtain ⟨_, hlegal, h⟩ := Outcome.bind_eq_ok_iff.mp h
      obtain ⟨db₁, hdb₁, h⟩ := Outcome.bind_eq_ok_iff.mp h
      split at h
      · cases h
      · cases h
        refine ⟨t, _, ht, ne_of_transition hlegal, ?_⟩
        exact status_of_modify (advanceNode_tasks hdb₁) fun _ ↦ rfl
  | runnerSubmit =>
      simp only [moves, Option.some.injEq] at hop
      subst hop
      simp only [exec, Relayvia.runnerSubmit] at h
      split at h
      · next t ht =>
        split at h
        · cases h
        · split at h
          · cases h
          · obtain ⟨_, -, h⟩ := Outcome.bind_eq_ok_iff.mp h
            obtain ⟨db₁, hdb₁, h⟩ := Outcome.bind_eq_ok_iff.mp h
            have hmoved := applySubmission_moved ht hdb₁
            split at h
            · split at h <;> cases h <;> exact hmoved
            · cases h
              exact hmoved
      · cases h
  | _ => cases hop

/-- The rows of a task and of its NodeRun. -/
structure RunRecord.Rows (db : RunRecord) (task : TaskId) (n : NodeRun) (t : ExecutionTask) :
    Prop where
  task : findTask db.tasks task = some t
  node : findNodeRun db.nodeRuns t.nodeRunId = some n

theorem RunRecord.Rows.unique {n n' : NodeRun} {t t' : ExecutionTask} (h : db.Rows task n t)
    (h' : db.Rows task n' t') : n' = n ∧ t' = t := by
  obtain rfl := Option.some.inj (h'.task.symm.trans h.task)
  exact ⟨Option.some.inj (h'.node.symm.trans h.node), rfl⟩

/-- A successful call changes the cell of its task. -/
theorem RunOp.exec_moved_cell (hc : Coupled db) (hop : op.moves = some task)
    (h : op.exec env db = .ok (true, db')) : ∃ n t n' t', db.Rows task n t ∧
      db'.Rows task n' t' ∧ CellChange env db db' op (n, some t) (n', some t') := by
  obtain ⟨t, s, ht, hleft, hlands⟩ := RunOp.exec_moved hop h
  have hc' := RunOp.exec_coupled env op hc h
  obtain ⟨n, hn, hmem, hid, -⟩ := hc.cell_of_task ht
  have htask := hc.taskOfNode_eq_some_iff.mpr ⟨hmem, rfl⟩
  obtain ⟨n', hn', hcell⟩ := RunOp.exec_cellChange hc h _ n hn
  rw [htask] at hcell
  rcases hcell with hsame | hchange
  · have hkept := (hc'.taskOfNode_eq_some_iff.mp (Prod.mk.inj hsame).2).1
    exact absurd (hlands t hkept hid) hleft
  · obtain ⟨t', ht', hid'⟩ : ∃ t', taskOfNode db'.tasks t.nodeRunId = some t' ∧ t'.id = t.id :=
      hchange.task_present rfl
    obtain ⟨hmem', hnode'⟩ := hc'.taskOfNode_eq_some_iff.mp ht'
    rw [ht'] at hchange
    refine ⟨n, t, n', t', ⟨ht, hn⟩, ⟨?_, ?_⟩, hchange⟩
    · exact hc'.findTask_eq_some_iff.mpr ⟨hmem', hid'.trans hid⟩
    · rwa [hnode']

/-! ## Durable state -/

/-- The durable columns of a NodeRun and of its task.  Lease ids and clock values are
left out, `available_at` is counted from the report. -/
structure DurableState where
  taskStatus : ExecutionTaskStatus
  taskAttempt : ℕ
  delay : Option Time
  lastError : Option Dict
  leased : Bool
  leaseExpires : Bool
  nodeStatus : NodeRunStatus
  output : Option Dict
  error : Option Dict
  executionMetadata : Dict
  artifactRefs : List Json
  attempt : ℕ
  started : Bool
  finished : Bool
  deriving DecidableEq

def durableState (finish : Time) (n : NodeRun) (t : ExecutionTask) : DurableState where
  taskStatus := t.status
  taskAttempt := t.attempt
  delay := if t.status = .retryWait then some (t.availableAt - finish) else none
  lastError := t.lastError
  leased := t.lockedBy.isSome ∧ t.leaseToken.isSome ∧ t.lockedAt.isSome
  leaseExpires := t.leaseExpiresAt.isSome
  nodeStatus := n.status
  output := n.output
  error := n.error
  executionMetadata := n.executionMetadata
  artifactRefs := n.artifactRefs
  attempt := n.attempt
  started := n.startedAt.isSome
  finished := n.finishedAt.isSome

/-- The same work, in the same durable state. -/
structure SameWork (n n' : NodeRun) (t t' : ExecutionTask) : Prop where
  payload : t'.payload = t.payload
  maxAttempts : t'.maxAttempts = t.maxAttempts
  durable : durableState 0 n' t' = durableState 0 n t

/-- The report of a Worker on the outcome that `result` describes. -/
def workerReport (env : Env) (now : Time) (task : TaskId) (workerId leaseToken : String)
    (t : ExecutionTask) (result : Dict) (s : SubmittedValues env t result) : RunOp :=
  if Dict.truthyAt result "ok" then
    .complete now task workerId leaseToken s.output s.metadata s.references
  else if shouldRetry env t result then
    .scheduleRetry now task workerId leaseToken (retryBackoffSeconds env t.payload).toNat
  else
    .fail now task workerId leaseToken (submittedError env result) s.metadata
      (env.sanitizeArtifacts s.references)

/-- A Worker claims the task, starts it and reports. -/
inductive WorkerPath (env : Env) (result : Dict) (task : TaskId) (finish : Time)
    (db db' : RunRecord) : Prop
  | intro {now now' : Time} {workerId leaseToken : String} {leaseSeconds : ℕ}
      {capabilities : Option (List String)} {claimed started : RunRecord} {t : ExecutionTask}
      (s : SubmittedValues env t result)
      (hclaim : RunOp.exec env (.claim now workerId leaseToken leaseSeconds capabilities false task)
        db = .ok (true, claimed))
      (hstart : RunOp.exec env (.start now' task workerId leaseToken) claimed = .ok (true, started))
      (ht : findTask started.tasks task = some t)
      (hreport : RunOp.exec env (workerReport env finish task workerId leaseToken t result s) started =
        .ok (true, db'))

/-- A Runner claims the task and submits. -/
inductive RunnerPath (env : Env) (result : Dict) (task : TaskId) (finish : Time)
    (db db' : RunRecord) : Prop
  | intro {now : Time} {runner : Runner} {leaseToken : String} {leaseSeconds : ℕ}
      {started : RunRecord}
      (hclaim : RunOp.exec env (.runnerClaim now runner leaseToken leaseSeconds task) db =
        .ok (true, started))
      (hsubmit : RunOp.exec env (.runnerSubmit finish runner.id task leaseToken result) started =
        .ok (true, db'))

/-- The retry decision after the start of `t`. -/
def retries (env : Env) (t : ExecutionTask) (result : Dict) : Bool :=
  shouldRetry env { t with attempt := t.attempt + 1 } result

/-- The durable state after the outcome that `result` describes.  `attempt` and `started`
are what the start leaves on the NodeRun, `retried` is the error that a retry leaves. -/
def outcomeState (env : Env) (result : Dict) (n : NodeRun) (t : ExecutionTask)
    (s : SubmittedValues env { t with attempt := t.attempt + 1 } result)
    (attempt : ℕ) (started : Bool) (retried : Option Dict) : DurableState :=
  let base := { durableState 0 n t with taskAttempt := t.attempt + 1, attempt, started }
  if Dict.truthyAt result "ok" then
    { base with
      taskStatus := .completed, delay := none, lastError := none, leased := true
      leaseExpires := true, nodeStatus := .completed, output := some s.output
      executionMetadata := s.metadata, artifactRefs := s.references, finished := true }
  else if retries env t result then
    { base with
      taskStatus := .retryWait
      delay := some (seconds (retryBackoffSeconds env t.payload).toNat)
      lastError := retried, leased := false, leaseExpires := false, nodeStatus := .retrying }
  else
    { base with
      taskStatus := .failed, delay := none, lastError := some (submittedError env result)
      leased := true, leaseExpires := true, nodeStatus := .failed
      error := some (submittedError env result), executionMetadata := s.metadata
      artifactRefs := env.sanitizeArtifacts s.references, finished := true }

/-! ## The Worker -/

variable {result : Dict} {finish : Time} {n n' : NodeRun} {t t' : ExecutionTask}

theorem CellChange.of_claim {workerId leaseToken : String} {leaseSeconds : ℕ}
    {capabilities : Option (List String)}
    (h : CellChange env db db' (.claim now workerId leaseToken leaseSeconds capabilities false task)
      (n, some t) (n', some t')) :
    n' = n ∧ t' = grantLease now workerId leaseToken leaseSeconds t := by
  cases h with
  | claim => exact ⟨rfl, rfl⟩
  | resolve hop => cases hop

theorem CellChange.of_start {workerId leaseToken : String}
    (h : CellChange env db db' (.start now task workerId leaseToken) (n, some t) (n', some t'))
    (hrunning : t'.status = .running) : n' = { n with status := .running } ∧
      t' = { t with status := .running, attempt := t.attempt + 1, startedAt := some now } := by
  cases h with
  | start => exact ⟨rfl, rfl⟩
  | release => cases hrunning
  | abandon => cases hrunning
  | resolve hop => cases hop

/-- A task that was claimed and started. -/
structure Launched (t t' : ExecutionTask) : Prop where
  payload : t'.payload = t.payload
  attempt : t'.attempt = t.attempt + 1
  maxAttempts : t'.maxAttempts = t.maxAttempts
  lastError : t'.lastError = t.lastError
  leased : t'.lockedBy.isSome = true ∧ t'.leaseToken.isSome = true ∧ t'.lockedAt.isSome = true
  expires : t'.leaseExpiresAt.isSome = true

theorem started_by_worker (hc : Coupled db) {claimed started : RunRecord} {now' : Time}
    {workerId leaseToken : String} {leaseSeconds : ℕ} {capabilities : Option (List String)}
    (hrows : db.Rows task n t)
    (hclaim : RunOp.exec env (.claim now workerId leaseToken leaseSeconds capabilities false task)
      db = .ok (true, claimed))
    (hstart : RunOp.exec env (.start now' task workerId leaseToken) claimed = .ok (true, started)) :
    ∃ t', started.Rows task { n with status := .running } t' ∧ Launched t t' := by
  have hc₁ := RunOp.exec_coupled env _ hc hclaim
  obtain ⟨n₀, t₀, n₁, t₁, hrows₀, hrows₁, hchange₁⟩ := RunOp.exec_moved_cell hc rfl hclaim
  obtain ⟨rfl, rfl⟩ := hrows.unique hrows₀
  obtain ⟨rfl, rfl⟩ := hchange₁.of_claim
  obtain ⟨n₀, t₀, n₂, t₂, hrows₀, hrows₂, hchange₂⟩ := RunOp.exec_moved_cell hc₁ rfl hstart
  obtain ⟨rfl, rfl⟩ := hrows₁.unique hrows₀
  have hrunning : t₂.status = .running := by
    obtain ⟨hmem, hid⟩ := (RunOp.exec_coupled env _ hc₁ hstart).findTask_eq_some_iff.mp hrows₂.task
    exact status_of_modify (start_true hstart) (fun _ ↦ rfl) t₂ hmem hid
  obtain ⟨rfl, rfl⟩ := hchange₂.of_start hrunning
  exact ⟨_, hrows₂, rfl, rfl, rfl, rfl, ⟨rfl, rfl, rfl⟩, rfl⟩

theorem shouldRetry_congr (hattempt : t'.attempt = t.attempt)
    (hmax : t'.maxAttempts = t.maxAttempts) :
    shouldRetry env t' result = shouldRetry env t result := by
  simp only [shouldRetry, hattempt, hmax]

/-- What the report on a result leaves, outcome by outcome. -/
def Reported (now : Time) (s : SubmittedValues env t result) (retried : Option Dict)
    (n n' : NodeRun) (t' : ExecutionTask) : Prop :=
  if Dict.truthyAt result "ok" then
    n' = { n with
      status := .completed, output := some s.output, executionMetadata := s.metadata,
      artifactRefs := s.references, finishedAt := some now } ∧
    t' = { t with status := .completed, finishedAt := some now, lastError := none }
  else if shouldRetry env t result then
    n' = { n with status := .retrying } ∧
    t' = { clearLease t with
      status := .retryWait, lastError := retried,
      availableAt := now + seconds (retryBackoffSeconds env t.payload).toNat }
  else
    n' = { n with
      status := .failed, error := some (submittedError env result),
      executionMetadata := s.metadata, artifactRefs := env.sanitizeArtifacts s.references,
      finishedAt := some now } ∧
    t' = { t with
      status := .failed, finishedAt := some now, lastError := some (submittedError env result) }

theorem CellChange.of_report {workerId leaseToken : String} (s : SubmittedValues env t result)
    (h : CellChange env db db' (workerReport env now task workerId leaseToken t result s)
      (n, some t) (n', some t')) : Reported now s t.lastError n n' t' := by
  unfold workerReport at h
  unfold Reported
  split
  · next hok =>
    rw [if_pos hok] at h
    cases h with
    | complete => exact ⟨rfl, rfl⟩
    | resolve hop => cases hop
  · next hok =>
    rw [if_neg hok] at h
    split
    · next hretry =>
      rw [if_pos hretry] at h
      cases h with
      | scheduleRetry => exact ⟨rfl, rfl⟩
      | resolve hop => cases hop
    · next hretry =>
      rw [if_neg hretry] at h
      cases h with
      | fail => exact ⟨rfl, rfl⟩
      | resolve hop => cases hop

/-- A retry registers nothing. -/
def SubmittedValues.ofRetry (hretry : shouldRetry env t result = true) :
    SubmittedValues env t result where
  references := []
  outputMap := []
  artifacts := by
    rw [hretry]
    unfold submittedArtifacts
    split <;> rfl

theorem CellChange.of_submit {runnerId leaseToken : String}
    (h : CellChange env db db' (.runnerSubmit now runnerId task leaseToken result)
      (n, some t) (n', some t')) :
    ∃ s : SubmittedValues env t result,
      Reported now s (some (submittedError env result)) n n' t' := by
  cases h with
  | submitCompleted _ _ _ _ s hok =>
      refine ⟨s, ?_⟩
      rw [Reported, if_pos hok]
      exact ⟨rfl, rfl⟩
  | submitRetry _ _ _ _ hretry =>
      have hok : ¬Dict.truthyAt result "ok" = true := by
        simp only [shouldRetry, Bool.decide_and, Bool.and_eq_true, decide_eq_true_eq] at hretry
        exact hretry.1
      refine ⟨.ofRetry hretry, ?_⟩
      rw [Reported, if_neg hok, if_pos hretry]
      exact ⟨rfl, rfl⟩
  | submitFailed _ _ _ _ s hok hretry =>
      refine ⟨s, ?_⟩
      rw [Reported, if_neg (by simp [hok]), if_neg (by simp [hretry])]
      exact ⟨rfl, rfl⟩
  | resolve hop => cases hop

variable (now task) in
theorem workerReport_moves {workerId leaseToken : String} (s : SubmittedValues env t result) :
    (workerReport env now task workerId leaseToken t result s).moves = some task := by
  unfold workerReport
  split
  · rfl
  · split <;> rfl

/-- The values of a result do not depend on the lease. -/
def SubmittedValues.cast (s : SubmittedValues env t result) (hattempt : t'.attempt = t.attempt)
    (hmax : t'.maxAttempts = t.maxAttempts) : SubmittedValues env t' result where
  references := s.references
  outputMap := s.outputMap
  artifacts := by
    rw [shouldRetry_congr hattempt hmax]
    exact s.artifacts

theorem Launched.retries (h : Launched t t') :
    retries env t result = shouldRetry env t' result := by
  apply shouldRetry_congr
  · exact h.attempt.symm
  · exact h.maxAttempts.symm

/-- The durable state after the report on a task that was launched. -/
theorem Reported.durable {t₁ : ExecutionTask} {s : SubmittedValues env t₁ result}
    {attempt : ℕ} {startedAt : Option Time} {retried : Option Dict}
    (h : Reported finish s retried { n with status := .running, attempt, startedAt } n' t')
    (hlaunched : Launched t t₁) : durableState finish n' t' =
      outcomeState env result n t
        (s.cast hlaunched.attempt.symm hlaunched.maxAttempts.symm) attempt startedAt.isSome
        retried := by
  unfold outcomeState
  rw [hlaunched.retries]
  unfold Reported at h
  split at h
  · next hok =>
    obtain ⟨rfl, rfl⟩ := h
    simp only [durableState, hok, hlaunched.attempt, hlaunched.leased, hlaunched.expires]
    rfl
  · next hok =>
    split at h
    · next hretry =>
      obtain ⟨rfl, rfl⟩ := h
      simp [durableState, clearLease, hok, hretry, hlaunched.attempt, hlaunched.payload]
    · next hretry =>
      obtain ⟨rfl, rfl⟩ := h
      simp only [durableState, hok, hretry, hlaunched.attempt, hlaunched.leased, hlaunched.expires]
      rfl

theorem WorkerPath.durable (h : WorkerPath env result task finish db db') (hc : Coupled db)
    (hrows : db.Rows task n t) : ∃ n' t' s, db'.Rows task n' t' ∧
      durableState finish n' t' =
        outcomeState env result n t s n.attempt n.startedAt.isSome t.lastError := by
  obtain ⟨s, hclaim, hstart, ht, hreport⟩ := h
  obtain ⟨t₁, hstarted, hlaunched⟩ := started_by_worker hc hrows hclaim hstart
  obtain rfl := Option.some.inj (ht.symm.trans hstarted.task)
  have hcoupled := RunOp.exec_coupled env _ (RunOp.exec_coupled env _ hc hclaim) hstart
  obtain ⟨n₀, t₀, n', t', hrows₀, hrows', hchange⟩ :=
    RunOp.exec_moved_cell hcoupled (workerReport_moves finish task s) hreport
  obtain ⟨rfl, rfl⟩ := hstarted.unique hrows₀
  have hreported := hchange.of_report
  rw [hlaunched.lastError] at hreported
  exact ⟨n', t', _, hrows', hreported.durable hlaunched⟩

/-! ## The Runner -/

theorem CellChange.of_runnerClaim {runner : Runner} {leaseToken : String} {leaseSeconds : ℕ}
    (h : CellChange env db db' (.runnerClaim now runner leaseToken leaseSeconds task)
      (n, some t) (n', some t')) :
    n' = { n with
      status := .running, attempt := t.attempt + 1, startedAt := n.startedAt.or (some now) } ∧
    Launched t t' := by
  cases h with
  | runnerClaim => exact ⟨rfl, rfl, rfl, rfl, rfl, ⟨rfl, rfl, rfl⟩, rfl⟩
  | resolve hop => cases hop

theorem RunnerPath.durable (h : RunnerPath env result task finish db db') (hc : Coupled db)
    (hrows : db.Rows task n t) : ∃ n' t' s, db'.Rows task n' t' ∧
      durableState finish n' t' =
        outcomeState env result n t s (t.attempt + 1) true (some (submittedError env result)) := by
  obtain ⟨hclaim, hsubmit⟩ := h
  obtain ⟨n₀, t₀, n₁, t₁, hrows₀, hrows₁, hchange₁⟩ := RunOp.exec_moved_cell hc rfl hclaim
  obtain ⟨rfl, rfl⟩ := hrows.unique hrows₀
  obtain ⟨rfl, hlaunched⟩ := hchange₁.of_runnerClaim
  obtain ⟨n₂, t₂, n', t', hrows₂, hrows', hchange⟩ :=
    RunOp.exec_moved_cell (RunOp.exec_coupled env _ hc hclaim) rfl hsubmit
  obtain ⟨rfl, rfl⟩ := hrows₁.unique hrows₂
  obtain ⟨s, hreported⟩ := hchange.of_submit
  have hdurable := hreported.durable hlaunched
  simp only [Option.isSome_or, Option.isSome_some, Bool.or_true] at hdurable
  exact ⟨n', t', _, hrows', hdurable⟩

/-! ## Both paths -/

/-- The values of a result are determined by the retry decision. -/
theorem SubmittedValues.unique (s : SubmittedValues env t result)
    (s' : SubmittedValues env t' result)
    (h : shouldRetry env t' result = shouldRetry env t result) :
    s'.references = s.references ∧ s'.output = s.output := by
  have hvalues := s'.artifacts
  rw [h, s.artifacts] at hvalues
  obtain ⟨hreferences, hmap⟩ := Prod.mk.inj (Except.ok.inj hvalues)
  refine ⟨hreferences.symm, ?_⟩
  simp only [SubmittedValues.output, hmap]

theorem SameWork.outcome (h : SameWork n n' t t')
    (s : SubmittedValues env { t with attempt := t.attempt + 1 } result)
    (s' : SubmittedValues env { t' with attempt := t'.attempt + 1 } result) (attempt : ℕ)
    (started : Bool) (retried : Option Dict) :
    outcomeState env result n' t' s' attempt started retried =
      outcomeState env result n t s attempt started retried := by
  have hattempt : t'.attempt = t.attempt := congrArg DurableState.taskAttempt h.durable
  have hretries : retries env t' result = retries env t result := by
    apply shouldRetry_congr
    · rw [hattempt]
    · exact h.maxAttempts
  obtain ⟨hreferences, houtput⟩ := s.unique s' hretries
  have hmetadata : s'.metadata = s.metadata := rfl
  simp only [outcomeState, hretries, h.durable, hattempt, h.payload, hreferences, houtput,
    hmetadata]

/-- In a reachable state the NodeRun has counted no more starts than its task. -/
theorem Reachable.attempt_le (h : Reachable env db) (hrows : db.Rows task n t) :
    n.attempt ≤ t.attempt := by
  have hc := h.coupled
  have hmem := (hc.findTask_eq_some_iff.mp hrows.task).1
  have hcell : n.attempt ≤ Cell.attempt (n, taskOfNode db.tasks t.nodeRunId) := by
    apply ReachableBy.cells (I := fun c ↦ c.1.attempt ≤ Cell.attempt c) _ _ h hrows.node
    · intro input node
      exact Nat.le_refl _
    · intro db db' op c c' hchange hcoupled hle
      have hattempt := hchange.attempt
      have hkept (hsame : c'.1.attempt = c.1.attempt) : c'.1.attempt ≤ Cell.attempt c' := by
        rw [hsame]
        omega
      cases hchange with
      | runnerClaim => exact Nat.le_refl _
      | schedule h | reconcile h | cancelRun h => exact hkept (written_of_settles h).2.1
      | _ => exact hkept rfl
  rw [hc.taskOfNode_eq_some_iff.mpr ⟨hmem, rfl⟩] at hcell
  exact hcell

/-- A Worker and a Runner that end the same work with the same result never leave the
same durable state: the Worker leaves the attempt and the start of the NodeRun, and on a
retry the last error of the task.  In all other columns they agree. -/
theorem paths_differ {dbW dbW' dbR dbR' : RunRecord} {taskW taskR : TaskId}
    {finishW finishR : Time} {nW nR : NodeRun} {tW tR : ExecutionTask}
    (hW : Reachable env dbW) (hR : Reachable env dbR) (hrowsW : dbW.Rows taskW nW tW)
    (hrowsR : dbR.Rows taskR nR tR) (hsame : SameWork nW nR tW tR)
    (hworker : WorkerPath env result taskW finishW dbW dbW')
    (hrunner : RunnerPath env result taskR finishR dbR dbR') :
    ∃ w r, (∃ n t, dbW'.Rows taskW n t ∧ durableState finishW n t = w) ∧
      (∃ n t, dbR'.Rows taskR n t ∧ durableState finishR n t = r) ∧ w ≠ r ∧
      w.attempt < w.taskAttempt ∧
      r = { w with
        attempt := w.taskAttempt, started := true,
        lastError := if w.taskStatus = .retryWait then some (submittedError env result)
          else w.lastError } := by
  obtain ⟨n, t, s, hrows, hw⟩ := hworker.durable hW.coupled hrowsW
  obtain ⟨n', t', s', hrows', hr⟩ := hrunner.durable hR.coupled hrowsR
  have hattempt : tR.attempt = tW.attempt := congrArg DurableState.taskAttempt hsame.durable
  have hle := hW.attempt_le hrowsW
  rw [hsame.outcome s s', hattempt] at hr
  have hcount (attempt : ℕ) (started : Bool) (retried : Option Dict) :
      (outcomeState env result nW tW s attempt started retried).attempt = attempt ∧
      (outcomeState env result nW tW s attempt started retried).taskAttempt = tW.attempt + 1 := by
    unfold outcomeState
    split
    · exact ⟨rfl, rfl⟩
    · split <;> exact ⟨rfl, rfl⟩
  refine ⟨_, _, ⟨n, t, hrows, hw⟩, ⟨n', t', hrows', hr⟩, ?_, ?_, ?_⟩
  · intro heq
    have hcounts := congrArg DurableState.attempt heq
    rw [(hcount _ _ _).1, (hcount _ _ _).1] at hcounts
    omega
  · rw [(hcount _ _ _).1, (hcount _ _ _).2]
    omega
  · unfold outcomeState
    split
    · rfl
    · split <;> rfl

/-! ## A concrete task -/

def okResult : Dict := [("ok", .bool true)]

def okValues (t : ExecutionTask) : SubmittedValues plainEnv t okResult where
  references := []
  outputMap := []
  artifacts := rfl

/-- A Worker and a Runner end the scheduled tool of `shellRun`. -/
theorem paths_shellRun : ∃ db n t dbW dbR, Reachable plainEnv db ∧ db.Rows 0 n t ∧
    WorkerPath plainEnv okResult 0 8 db dbW ∧ RunnerPath plainEnv okResult 0 8 db dbR ∧
    (∃ n t, dbW.Rows 0 n t ∧ t.attempt = 1 ∧ n.attempt = 0 ∧ n.startedAt = none) ∧
    ∃ n t, dbR.Rows 0 n t ∧ t.attempt = 1 ∧ n.attempt = 1 ∧ n.startedAt = some 6 := by
  obtain ⟨db₁, h₁, db₂, h₂, t, ht, n, hn, claimed, hclaim, started, hstart, t₁, ht₁, dbW, hreport,
      startedR, hclaimR, dbR, hsubmit, hends⟩ :
      ∃ db₁, RunOp.exec plainEnv (.startRun 3) shellRun = .ok (true, db₁) ∧
        ∃ db₂, RunOp.exec plainEnv (.schedule 4) db₁ = .ok (true, db₂) ∧
        ∃ t, findTask db₂.tasks 0 = some t ∧
        ∃ n, findNodeRun db₂.nodeRuns t.nodeRunId = some n ∧
        ∃ claimed, RunOp.exec plainEnv (.claim 5 "w" "t" 60 (some ["shell"]) false 0) db₂ =
          .ok (true, claimed) ∧
        ∃ started, RunOp.exec plainEnv (.start 6 0 "w" "t") claimed = .ok (true, started) ∧
        ∃ t₁, findTask started.tasks 0 = some t₁ ∧
        ∃ dbW, RunOp.exec plainEnv (workerReport plainEnv 8 0 "w" "t" t₁ okResult (okValues t₁))
          started = .ok (true, dbW) ∧
        ∃ startedR, RunOp.exec plainEnv (.runnerClaim 6 makeRunner "t" 60 0) db₂ =
          .ok (true, startedR) ∧
        ∃ dbR, RunOp.exec plainEnv (.runnerSubmit 8 "r" 0 "t" okResult) startedR =
          .ok (true, dbR) ∧
        (∃ t, findTask dbW.tasks 0 = some t ∧ ∃ n, findNodeRun dbW.nodeRuns t.nodeRunId = some n ∧
          t.attempt = 1 ∧ n.attempt = 0 ∧ n.startedAt = none) ∧
        ∃ t, findTask dbR.tasks 0 = some t ∧ ∃ n, findNodeRun dbR.nodeRuns t.nodeRunId = some n ∧
          t.attempt = 1 ∧ n.attempt = 1 ∧ n.startedAt = some 6 := by
    refine ⟨_, rfl, _, rfl, _, rfl, _, rfl, _, rfl, _, rfl, _, rfl, _, rfl, _, rfl, _, rfl, ?_⟩
    constructor
    · refine ⟨_, rfl, _, rfl, ?_⟩
      decide
    · refine ⟨_, rfl, _, rfl, ?_⟩
      decide
  obtain ⟨⟨tW, htW, nW, hnW, hW⟩, tR, htR, nR, hnR, hR⟩ := hends
  have hreachable := (((History.created createRun_shellRun).step h₁).step h₂).reachable
  exact ⟨db₂, n, t, dbW, dbR, hreachable, ⟨ht, hn⟩, .intro (okValues t₁) hclaim hstart ht₁ hreport,
    .intro hclaimR hsubmit, ⟨nW, tW, ⟨htW, hnW⟩, hW⟩, nR, tR, ⟨htR, hnR⟩, hR⟩

/-- Both have ended the same work, in durable states that differ. -/
theorem paths_differ_shellRun : ∃ db dbW dbR w r, Reachable plainEnv db ∧
    WorkerPath plainEnv okResult 0 8 db dbW ∧ RunnerPath plainEnv okResult 0 8 db dbR ∧
    (∃ n t, dbW.Rows 0 n t ∧ durableState 8 n t = w) ∧
    (∃ n t, dbR.Rows 0 n t ∧ durableState 8 n t = r) ∧ w ≠ r := by
  obtain ⟨db, n, t, dbW, dbR, hreachable, hrows, hworker, hrunner, -⟩ := paths_shellRun
  obtain ⟨w, r, hw, hr, hne, -⟩ := paths_differ hreachable hreachable hrows hrows ⟨rfl, rfl, rfl⟩
    hworker hrunner
  exact ⟨db, dbW, dbR, w, r, hreachable, hworker, hrunner, hw, hr, hne⟩

/-- The Worker leaves the NodeRun with attempt 0 and without a start, the Runner with
attempt 1 and a start. -/
theorem not_paths_agree : ∃ db dbW dbR nW tW nR tR, Reachable plainEnv db ∧
    WorkerPath plainEnv okResult 0 8 db dbW ∧ RunnerPath plainEnv okResult 0 8 db dbR ∧
    dbW.Rows 0 nW tW ∧ dbR.Rows 0 nR tR ∧ nW.attempt = 0 ∧ nR.attempt = 1 ∧
    nW.startedAt = none ∧ nR.startedAt = some 6 ∧ durableState 8 nW tW ≠ durableState 8 nR tR := by
  obtain ⟨db, n, t, dbW, dbR, hreachable, -, hworker, hrunner, ⟨nW, tW, hrowsW, -, hW, hstartW⟩,
    nR, tR, hrowsR, -, hR, hstartR⟩ := paths_shellRun
  refine ⟨db, dbW, dbR, nW, tW, nR, tR, hreachable, hworker, hrunner, hrowsW, hrowsR, hW, hR,
    hstartW, hstartR, fun heq ↦ ?_⟩
  have hattempt : nW.attempt = nR.attempt := congrArg DurableState.attempt heq
  omega

end Relayvia
