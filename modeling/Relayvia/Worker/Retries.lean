import Relayvia.Bookkeeping.Nodes
import Relayvia.Worker.LostLease

/-!
# Attempts and retries

A task enters RUNNING once for its first attempt, once for every retry and once for every
lease that is recovered while it runs.  The Worker decides about a retry by the attempt that
it claimed, a Runner by the attempt that runs; both count the same.
-/

namespace Relayvia

variable {env : Env} {now : Time} {db db' : RunRecord} {op : RunOp} {c c' : Cell}
  {queues cancels : Prop}

/-! ## Leases -/

/-- The lease stays on the task, and its attempt too. -/
structure SameLease (t t' : ExecutionTask) : Prop where
  id : t'.id = t.id
  lockedBy : t'.lockedBy = t.lockedBy
  leaseToken : t'.leaseToken = t.leaseToken
  attempt : t'.attempt = t.attempt
  maxAttempts : t'.maxAttempts = t.maxAttempts
  status : t'.status = t.status ∨ t'.status.isTerminal = true

namespace SameLease

theorem refl (t : ExecutionTask) : SameLease t t :=
  ⟨rfl, rfl, rfl, rfl, rfl, .inl rfl⟩

theorem trans {t t' t'' : ExecutionTask} (h : SameLease t t') (h' : SameLease t' t'') :
    SameLease t t'' where
  id := h'.id.trans h.id
  lockedBy := h'.lockedBy.trans h.lockedBy
  leaseToken := h'.leaseToken.trans h.leaseToken
  attempt := h'.attempt.trans h.attempt
  maxAttempts := h'.maxAttempts.trans h.maxAttempts
  status := by
    rcases h'.status with heq | hended
    · rw [heq]
      exact h.status
    · exact .inr hended

theorem cancelTask (now : Time) (t : ExecutionTask) : SameLease t (cancelTask now t) := by
  unfold Relayvia.cancelTask
  split
  · exact .refl t
  · exact ⟨rfl, rfl, rfl, rfl, rfl, .inr rfl⟩

end SameLease

/-- What an operation makes of the lease of a task. -/
inductive LeaseChange (op : RunOp) (t t' : ExecutionTask) : Prop
  | freed (h : t'.lockedBy = none)
  | kept (h : SameLease t t')
  | issued {g : Grant} (hop : op.issues = some g) (hid : g.task = t.id)
      (htoken : t'.leaseToken = some g.token)
      (hmax : t'.maxAttempts = t.maxAttempts)
      (hclaimed : (∃ now worker token seconds capabilities task,
        op = .claim now worker token seconds capabilities false task) →
          t'.attempt = t.attempt ∧ t'.status = .claimed)
  | started {now : Time} {workerId leaseToken : String}
      (hop : op = .start now t.id workerId leaseToken)
      (howns : owns now workerId leaseToken t = true)
      (hlease : t'.lockedBy = t.lockedBy ∧ t'.leaseToken = t.leaseToken)

theorem Settling.lease (h : Settling queues cancels now c c') {t' : ExecutionTask}
    (ht' : c'.2 = some t') : t'.lockedBy = none ∨ ∃ t, c.2 = some t ∧ SameLease t t' := by
  cases h with
  | queue _ _ ht =>
      cases ht'
      exact .inl ht.lockedBy
  | skip => cases ht'
  | promote => exact .inr ⟨t', ht', .refl t'⟩
  | cancel =>
      obtain ⟨t, ht, rfl⟩ := Option.map_eq_some_iff.mp ht'
      exact .inr ⟨t, ht, .cancelTask _ t⟩

theorem lease_of_settles (h : Relation.ReflTransGen (Settling queues cancels now) c c')
    {t' : ExecutionTask} (ht' : c'.2 = some t') :
    t'.lockedBy = none ∨ ∃ t, c.2 = some t ∧ SameLease t t' := by
  induction h generalizing t' with
  | refl => exact .inr ⟨t', ht', .refl t'⟩
  | tail _ hstep ih =>
      rcases hstep.lease ht' with hfree | ⟨u, hu, hkept'⟩
      · exact .inl hfree
      · rcases ih hu with hfree | ⟨t, ht, hkept⟩
        · exact .inl (hkept'.lockedBy.trans hfree)
        · exact .inr ⟨t, ht, hkept.trans hkept'⟩

/-- A task with a lease after an operation. -/
theorem CellChange.lease (h : CellChange env db db' op c c')
    (hfree : ∀ t, c.2 = some t → t.status = .retryWait → t.lockedBy = none) {t' : ExecutionTask}
    (ht' : c'.2 = some t') :
    t'.lockedBy = none ∨ ∃ t, c.2 = some t ∧ LeaseChange op t t' := by
  have hsettles (h : t'.lockedBy = none ∨ ∃ t, c.2 = some t ∧ SameLease t t') :
      t'.lockedBy = none ∨ ∃ t, c.2 = some t ∧ LeaseChange op t t' := by
    rcases h with hnone | ⟨t, ht, hkept⟩
    · exact .inl hnone
    · exact .inr ⟨t, ht, .kept hkept⟩
  cases h with
  | claim =>
      cases ht'
      refine .inr ⟨_, rfl, .issued rfl rfl rfl rfl fun _ ↦ ⟨rfl, rfl⟩⟩
  | autoStart | runnerClaim =>
      cases ht'
      exact .inr ⟨_, rfl, .issued rfl rfl rfl rfl (by simp)⟩
  | start howns =>
      cases ht'
      exact .inr ⟨_, rfl, .started rfl howns ⟨rfl, rfl⟩⟩
  | release | scheduleRetry | recover | submitRetry =>
      cases ht'
      exact .inl rfl
  | @requeue _ n t _ hdue =>
      cases ht'
      simp only [retryDue, Bool.decide_and, Bool.and_eq_true, decide_eq_true_eq] at hdue
      exact .inl (hfree t rfl hdue.1)
  | abandon | complete | fail | waitNode | submitCompleted | submitFailed =>
      cases ht'
      exact .inr ⟨_, rfl, .kept ⟨rfl, rfl, rfl, rfl, rfl, .inr rfl⟩⟩
  | renewLease | heartbeat =>
      cases ht'
      exact .inr ⟨_, rfl, .kept ⟨rfl, rfl, rfl, rfl, rfl, .inl rfl⟩⟩
  | resolve => exact .inr ⟨t', ht', .kept (.refl t')⟩
  | schedule h | reconcile h | cancelRun h => exact hsettles (lease_of_settles h ht')

/-! ## Counting -/

namespace Cell

def retrying (c : Cell) : Bool :=
  c.2.any (·.status = .retryWait)

/-- Whether the task of a cell enters RETRY_WAIT. -/
def retries (c c' : Cell) : Bool :=
  Cell.retrying c' && !Cell.retrying c

/-- Whether the recovery of leases returns the task of a cell from RUNNING. -/
def recovers (op : RunOp) (c c' : Cell) : Bool :=
  match op with
  | .recoverExpired _ => Cell.executing c && !Cell.executing c'
  | _ => false

end Cell

theorem Cell.recovers_of_same (op : RunOp) (h : c'.2 = c.2) : Cell.recovers op c c' = false := by
  cases op <;> simp [Cell.recovers, Cell.executing, h]

/-- The bounds of a task that has entered RETRY_WAIT `k` times and was recovered from
RUNNING `r` times.  Every retry and every recovery is preceded by an attempt, and every
attempt but the one that runs or ended the task is followed by one of them. -/
structure RetryBound (k r : ℕ) (t : ExecutionTask) : Prop where
  permitted : (k : ℤ) + 1 ≤ t.maxAttempts
  preceded : k + (if t.status = .running then 1 else 0) ≤ t.attempt
  followed : t.attempt ≤ k + r + (if t.status = .running ∨ t.status.isTerminal = true then 1 else 0)

/-- The bounds of a cell. -/
structure CellBound (k r : ℕ) (c : Cell) : Prop where
  idle : c.2 = none → k = 0 ∧ r = 0
  task : ∀ t, c.2 = some t → RetryBound k r t

namespace RetryBound

variable {k r : ℕ} {t t' : ExecutionTask}

/-- The task waits for an attempt, before and after. -/
theorem waits (h : RetryBound k r t) (ht : t.status ≠ .running ∧ t.status.isTerminal = false)
    (ht' : t'.status ≠ .running) (hattempt : t'.attempt = t.attempt)
    (hmax : t'.maxAttempts = t.maxAttempts) : RetryBound k r t' := by
  obtain ⟨hpermitted, hpreceded, hfollowed⟩ := h
  simp only [ht.1, ht.2, if_false, or_self, Bool.false_eq_true] at hpreceded hfollowed
  constructor
  · rwa [hmax]
  · simp only [ht', if_false]
    omega
  · split <;> omega

theorem launch (h : RetryBound k r t) (ht : t.status ≠ .running ∧ t.status.isTerminal = false)
    (ht' : t'.status = .running) (hattempt : t'.attempt = t.attempt + 1)
    (hmax : t'.maxAttempts = t.maxAttempts) : RetryBound k r t' := by
  obtain ⟨hpermitted, hpreceded, hfollowed⟩ := h
  simp only [ht.1, ht.2, if_false, or_self, Bool.false_eq_true] at hpreceded hfollowed
  constructor
  · rwa [hmax]
  · simp only [ht', if_true]
    omega
  · simp only [ht', true_or, if_true]
    omega

theorem finish (h : RetryBound k r t) (ht' : t'.status.isTerminal = true)
    (hattempt : t'.attempt = t.attempt) (hmax : t'.maxAttempts = t.maxAttempts) :
    RetryBound k r t' := by
  obtain ⟨hpermitted, hpreceded, hfollowed⟩ := h
  have hstopped : t'.status ≠ .running := by
    intro hrunning
    rw [hrunning] at ht'
    cases ht'
  constructor
  · rwa [hmax]
  · simp only [hstopped, if_false]
    omega
  · simp only [ht', or_true, if_true]
    split at hfollowed <;> omega

theorem retry (h : RetryBound k r t) (ht : t.status = .running)
    (hdecided : (t.attempt : ℤ) < t.maxAttempts) (ht' : t'.status = .retryWait)
    (hattempt : t'.attempt = t.attempt) (hmax : t'.maxAttempts = t.maxAttempts) :
    RetryBound (k + 1) r t' := by
  obtain ⟨-, hpreceded, hfollowed⟩ := h
  simp only [ht, if_true, true_or] at hpreceded hfollowed
  constructor
  · omega
  · simp only [ht', reduceCtorEq, if_false]
    omega
  · omega

theorem recover (h : RetryBound k r t) (ht : t.status = .running) (ht' : t'.status = .pending)
    (hattempt : t'.attempt = t.attempt) (hmax : t'.maxAttempts = t.maxAttempts) :
    RetryBound k (r + 1) t' := by
  obtain ⟨hpermitted, hpreceded, hfollowed⟩ := h
  simp only [ht, if_true, true_or] at hpreceded hfollowed
  constructor
  · rwa [hmax]
  · simp only [ht', reduceCtorEq, if_false]
    omega
  · omega

end RetryBound

theorem cancelTask_maxAttempts (t : ExecutionTask) :
    (cancelTask now t).maxAttempts = t.maxAttempts := by
  unfold cancelTask
  split <;> rfl

theorem Settling.bound (h : Settling queues cancels now c c') {k r : ℕ} (hb : CellBound k r c) :
    CellBound k r c' := by
  cases h with
  | queue _ _ ht =>
      obtain ⟨rfl, rfl⟩ := hb.idle rfl
      constructor
      · intro hnone
        cases hnone
      · rintro _ ⟨⟩
        have hmax := ht.maxAttempts
        constructor
        · simpa using hmax
        · simp [ht.status]
        · simp [ht.attempt]
  | skip => exact ⟨hb.idle, by simp⟩
  | promote => exact ⟨hb.idle, hb.task⟩
  | @cancel n t =>
      constructor
      · intro hnone
        exact hb.idle (Option.map_eq_none_iff.mp hnone)
      · intro t' ht'
        obtain ⟨u, hu, rfl⟩ := Option.map_eq_some_iff.mp ht'
        exact (hb.task u hu).finish (cancelTask_terminal now u) (cancelTask_attempt u)
          (cancelTask_maxAttempts u)

theorem Settling.retries (h : Settling queues cancels now c c') :
    Cell.retrying c' = true → Cell.retrying c = true := by
  cases h with
  | queue _ _ ht => simp [Cell.retrying, ht.status]
  | skip => exact id
  | promote => exact id
  | @cancel n t =>
      cases t with
      | none => exact id
      | some t =>
          intro hretrying
          have hended := cancelTask_terminal now t
          simp only [Cell.retrying, Option.map_some, Option.any_some, decide_eq_true_eq] at hretrying
          rw [hretrying] at hended
          cases hended

theorem bound_of_settles (h : Relation.ReflTransGen (Settling queues cancels now) c c') {k r : ℕ}
    (hb : CellBound k r c) :
    CellBound k r c' ∧ (Cell.retrying c' = true → Cell.retrying c = true) := by
  induction h with
  | refl => exact ⟨hb, id⟩
  | tail _ hstep ih => exact ⟨hstep.bound ih.1, fun h ↦ ih.2 (hstep.retries h)⟩

/-- An operation keeps the bounds if a retry is permitted by the attempt of the task and
no running task is started. -/
theorem CellChange.bound (h : CellChange env db db' op c c') {k r : ℕ} (hb : CellBound k r c)
    (hretry : ∀ t now workerId leaseToken backoffSeconds,
      op = .scheduleRetry now t.id workerId leaseToken backoffSeconds → c.2 = some t →
        owns now workerId leaseToken t = true → (t.attempt : ℤ) < t.maxAttempts)
    (hstart : ∀ t now workerId leaseToken, op = .start now t.id workerId leaseToken →
      c.2 = some t → owns now workerId leaseToken t = true → t.status = .claimed) :
    CellBound (k + (Cell.retries c c').toNat) (r + (Cell.recovers op c c').toNat) c' := by
  have hkept {c c' : Cell} {k r : ℕ} (hb : CellBound k r c')
      (hretries : Cell.retrying c' = true → Cell.retrying c = true)
      (hrecovers : Cell.recovers op c c' = false) :
      CellBound (k + (Cell.retries c c').toNat) (r + (Cell.recovers op c c').toNat) c' := by
    have hnone : Cell.retries c c' = false := by
      cases hc : Cell.retrying c' with
      | false => simp [Cell.retries, hc]
      | true => simp [Cell.retries, hretries hc]
    rw [hnone, hrecovers]
    exact hb
  have hone {n' : NodeRun} {t' : ExecutionTask} {k r : ℕ} (ht : RetryBound k r t') :
      CellBound k r (n', some t') := by
    constructor
    · intro hnone
      cases hnone
    · rintro _ ⟨⟩
      exact ht
  have hretried {n n' : NodeRun} {t t' : ExecutionTask} (ht : t.status = .running)
      (ht' : t'.status = .retryWait)
      (hrecovers : Cell.recovers op (n, some t) (n', some t') = false)
      (hbound : RetryBound (k + 1) r t') :
      CellBound (k + (Cell.retries (n, some t) (n', some t')).toNat)
        (r + (Cell.recovers op (n, some t) (n', some t')).toNat) (n', some t') := by
    have hretries : Cell.retries (n, some t) (n', some t') = true := by
      simp [Cell.retries, Cell.retrying, ht, ht']
    rw [hretries, hrecovers]
    exact hone hbound
  have hwaits {t : ExecutionTask} (h : t.status = .pending ∨ t.status = .claimed ∨
      t.status = .retryWait) : t.status ≠ .running ∧ t.status.isTerminal = false := by
    rcases h with h | h | h <;> rw [h] <;> exact ⟨by simp, rfl⟩
  cases h with
  | claim hcandidate =>
      apply hkept (hone ?_) (by simp [Cell.retrying, grantLease]) rfl
      exact (hb.task _ rfl).waits (hwaits (.inl (isCandidate_pending hcandidate)))
        (by simp [grantLease]) rfl rfl
  | autoStart hcandidate | runnerClaim hcandidate =>
      apply hkept (hone ?_) (by simp [Cell.retrying]) rfl
      exact (hb.task _ rfl).launch (hwaits (.inl (isCandidate_pending hcandidate))) rfl rfl rfl
  | start _ hclaimed =>
      apply hkept (hone ?_) (by simp [Cell.retrying]) rfl
      exact (hb.task _ rfl).launch (hwaits (.inr (.inl hclaimed))) rfl rfl rfl
  | release howns =>
      apply hkept (hone ?_) (by simp [Cell.retrying]) rfl
      have hclaimed := hstart _ _ _ _ rfl rfl howns
      exact (hb.task _ rfl).waits (hwaits (.inr (.inl hclaimed))) (by simp) rfl rfl
  | abandon | complete | fail | waitNode | submitCompleted | submitFailed =>
      apply hkept (hone ?_) (by simp [Cell.retrying]) rfl
      exact (hb.task _ rfl).finish rfl rfl rfl
  | scheduleRetry howns _ hrunning =>
      have hdecided := hretry _ _ _ _ _ rfl rfl howns
      apply hretried hrunning rfl rfl
      exact (hb.task _ rfl).retry hrunning hdecided rfl rfl rfl
  | submitRetry _ _ hrunning _ hshould =>
      simp only [shouldRetry, Bool.decide_and, Bool.and_eq_true, decide_eq_true_eq] at hshould
      apply hretried hrunning rfl rfl
      exact (hb.task _ rfl).retry hrunning hshould.2.2 rfl rfl rfl
  | renewLease | heartbeat =>
      have ht := hb.task _ rfl
      exact hkept (hone ⟨ht.permitted, ht.preceded, ht.followed⟩) id rfl
  | @recover _ n t hexpired =>
      simp only [leaseExpired, Bool.decide_and, Bool.and_eq_true, decide_eq_true_eq] at hexpired
      rcases hexpired.1 with hclaimed | hrunning
      · have hidle : Cell.executing (n, some t) = false := by simp [Cell.executing, hclaimed]
        apply hkept (hone ?_) (by simp [Cell.retrying]) (by simp [Cell.recovers, hidle])
        exact (hb.task _ rfl).waits (hwaits (.inr (.inl hclaimed))) (by simp) rfl rfl
      · have hbound : RetryBound k (r + 1) { clearLease t with status := .pending } :=
          (hb.task _ rfl).recover hrunning rfl rfl rfl
        simpa [Cell.retries, Cell.retrying, Cell.recovers, Cell.executing, hrunning] using
          hone hbound
  | requeue _ hdue =>
      simp only [retryDue, Bool.decide_and, Bool.and_eq_true, decide_eq_true_eq] at hdue
      apply hkept (hone ?_) (by simp [Cell.retrying]) rfl
      exact (hb.task _ rfl).waits (hwaits (.inr (.inr hdue.1))) (by simp) rfl rfl
  | resolve hop => exact hkept ⟨hb.idle, hb.task⟩ id (Cell.recovers_of_same op rfl)
  | schedule h | reconcile h | cancelRun h =>
      obtain ⟨hbound, hretries⟩ := bound_of_settles h hb
      exact hkept hbound hretries rfl

/-! ## Processes -/

namespace WorkerProcess

/-- The task carries the lease of the process. -/
def Holds (p : WorkerProcess) (t : ExecutionTask) : Prop :=
  t.id = p.task ∧ t.lockedBy = some p.workerId ∧ t.leaseToken = some p.leaseToken

/-- The process has not called `start` yet. -/
def Fresh (p : WorkerProcess) : Prop :=
  p.phase = .claimed

/-- What the process knows about the task that it holds. -/
structure Tracks (p : WorkerProcess) (t : ExecutionTask) : Prop where
  maxAttempts : t.maxAttempts = p.maxAttempts
  claimed : p.Fresh → t.attempt = p.attempt ∧
    (t.status = .claimed ∨ t.status.isTerminal = true)
  started : ¬p.Fresh → t.attempt = p.attempt + 1

theorem Tracks.of_same {p : WorkerProcess} {t t' : ExecutionTask} (h : p.Tracks t)
    (hsame : SameLease t t') : p.Tracks t' where
  maxAttempts := hsame.maxAttempts.trans h.maxAttempts
  claimed hp := by
    obtain ⟨hattempt, hstatus⟩ := h.claimed hp
    refine ⟨hsame.attempt.trans hattempt, ?_⟩
    rcases hsame.status with heq | hended
    · rwa [heq]
    · exact .inr hended
  started hp := hsame.attempt.trans (h.started hp)

theorem Holds.of_same {p : WorkerProcess} {t t' : ExecutionTask} (hsame : SameLease t t')
    (h : p.Holds t') : p.Holds t :=
  ⟨hsame.id ▸ h.1, hsame.lockedBy ▸ h.2.1, hsame.leaseToken ▸ h.2.2⟩

end WorkerProcess

/-- No task and no process carries the token. -/
def FreshToken (s : WorkerWorld) (token : String) : Prop :=
  (∀ t ∈ s.db.tasks, t.leaseToken ≠ some token) ∧
    ∀ pid p, s.processes pid = some p → p.leaseToken ≠ token

/-- The calls that only `_process_task` makes. -/
def RunOp.byWorker : RunOp → Bool
  | .claim .. | .start .. | .complete .. | .fail .. | .waitNode .. | .scheduleRetry ..
  | .renewLease .. => true
  | _ => false

/-- Workers act through their processes, and `uuid4` repeats no token. -/
def WorkerStep.Played (s : WorkerWorld) : WorkerStep → Prop
  | .run op => op.byWorker = false ∧ ∀ g, op.issues = some g → FreshToken s g.token
  | .claim _ _ _ leaseToken _ _ => FreshToken s leaseToken
  | _ => True

/-- Tokens tell processes apart, a process that holds its lease knows the attempt, and
one that schedules a retry may. -/
structure ProcessesSound (s : WorkerWorld) : Prop where
  tracks : ∀ pid p, s.processes pid = some p → ∀ t ∈ s.db.tasks, p.Holds t → p.Tracks t
  decided : ∀ pid p backoffSeconds, s.processes pid = some p →
    p.phase = .reporting (.scheduleRetry backoffSeconds) → (p.attempt : ℤ) + 1 < p.maxAttempts
  distinct : ∀ pid pid' p p', s.processes pid = some p → s.processes pid' = some p' →
    p.leaseToken = p'.leaseToken → pid = pid'

/-- What a step makes of the process `pid`. -/
inductive ProcessChange (env : WorkerEnv) (s s' : WorkerWorld) (step : WorkerStep) (pid : ℕ) :
    WorkerProcess → Prop
  | kept {p : WorkerProcess} (hp : s.processes pid = some p)
      (hstart : p.Fresh → step.pid? = some pid →
        ∀ now, step.op s ≠ some (.start now p.task p.workerId p.leaseToken)) :
      ProcessChange env s s' step pid p
  | claimed {now : Time} {workerId leaseToken : String} {leaseSeconds : ℕ} {task : TaskId}
      {t : ExecutionTask} (hstep : step = .claim pid now workerId leaseToken leaseSeconds task)
      (ht : findTask s.db.tasks task = some t)
      (hexec : (RunOp.claim now workerId leaseToken leaseSeconds none false task).exec env.toEnv
        s.db = .ok (true, s'.db)) :
      ProcessChange env s s' step pid
        { workerId := workerId
          leaseToken := leaseToken
          task := task
          nodeRunId := t.nodeRunId
          payload := t.payload
          attempt := t.attempt
          maxAttempts := t.maxAttempts }
  | started {now : Time} {p : WorkerProcess} {attempt : ℕ} (hp : s.processes pid = some p)
      (hfresh : p.Fresh) (hexec : (RunOp.start now p.task p.workerId p.leaseToken).exec env.toEnv
        s.db = .ok (true, s'.db)) :
      ProcessChange env s s' step pid { p with startedAttempt := attempt, phase := .started }
  | moved {p : WorkerProcess} {phase : WorkerPhase} (hp : s.processes pid = some p)
      (hfresh : ¬p.Fresh) (hphase : phase ≠ .claimed)
      (hdecided : ∀ backoffSeconds, phase = .reporting (.scheduleRetry backoffSeconds) →
        (p.attempt : ℤ) + 1 < p.maxAttempts) :
      ProcessChange env s s' step pid { p with phase := phase }

variable {env : WorkerEnv} {s s' : WorkerWorld}

theorem WorkerWorld.setProcess_cases {s₀ : WorkerWorld} {pid pid₀ : ℕ}
    {x : Option WorkerProcess} {p' : WorkerProcess}
    (h : (s₀.setProcess pid₀ x).processes pid = some p') :
    (pid = pid₀ ∧ x = some p') ∨ (pid ≠ pid₀ ∧ s₀.processes pid = some p') := by
  rw [setProcess_processes] at h
  split at h
  · next heq => exact .inl ⟨heq, h⟩
  · next hne => exact .inr ⟨hne, h⟩

theorem WorkerProcess.not_claimed_of_call {p : WorkerProcess} {op : RunOp}
    (h : p.call now = some op) : p.phase ≠ .claimed := by
  intro hphase
  simp [call, hphase] at h

theorem WorkerProcess.call_ne_start {p : WorkerProcess} {now now' : Time} {task : TaskId}
    {workerId leaseToken : String} : p.call now ≠ some (.start now' task workerId leaseToken) := by
  unfold call
  split <;> simp

theorem WorkerProcess.call_scheduleRetry {p : WorkerProcess} {now now' : Time} {task : TaskId}
    {workerId leaseToken : String} {b : ℕ}
    (h : p.call now = some (.scheduleRetry now' task workerId leaseToken b)) :
    p.phase = .reporting (.scheduleRetry b) ∧ p.task = task ∧ p.workerId = workerId ∧
      p.leaseToken = leaseToken := by
  unfold call at h
  split at h
  · cases h
  · cases h
  · cases h
  · next hphase =>
    simp only [Option.some.injEq, RunOp.scheduleRetry.injEq] at h
    obtain ⟨-, htask, hworker, htoken, rfl⟩ := h
    exact ⟨hphase, htask, hworker, htoken⟩
  · cases h

/-- The phase after the commit of the input. -/
theorem WorkerProcess.proceed_phase {node : WorkflowNode}
    {config : Except UnresolvedContextReference Dict} :
    proceed env.toEnv now node config ≠ .claimed ∧
      ∀ b, proceed env.toEnv now node config ≠ .reporting (.scheduleRetry b) := by
  unfold proceed
  split
  · split <;> simp
  · simp [unresolved, failure]

theorem WorkerProcess.load_phase {p : WorkerProcess} :
    p.load env.toEnv db ≠ .claimed ∧ ∀ b, p.load env.toEnv db ≠ .reporting (.scheduleRetry b) := by
  unfold load
  dsimp only
  split
  · split <;> simp [unresolved, failure]
  · simp [failure]

theorem WorkerProcess.failedReport_decided {p : WorkerProcess} {result : ExecutionResult} {b : ℕ}
    (h : WorkerPhase.reporting (p.failedReport env.toEnv result) = .reporting (.scheduleRetry b)) :
    (p.attempt : ℤ) + 1 < p.maxAttempts := by
  unfold failedReport at h
  split at h
  · next hdecided => exact hdecided.2
  · cases h

variable (env) in
theorem WorkerStep.exec_process (step : WorkerStep) (s : WorkerWorld) {pid : ℕ} {p' : WorkerProcess}
    (hp' : (step.exec env s).processes pid = some p') :
    ProcessChange env s (step.exec env s) step pid p' := by
  have hother {step : WorkerStep} {s' : WorkerWorld} {pid₀ : ℕ} (hstep : step.pid? = some pid₀)
      (h : pid ≠ pid₀ ∧ s.processes pid = some p') : ProcessChange env s s' step pid p' := by
    refine .kept h.2 fun _ hpid ↦ ?_
    rw [hstep] at hpid
    exact absurd (Option.some.inj hpid).symm h.1
  have hidle {step : WorkerStep} {s' : WorkerWorld} (hp : s.processes pid = some p')
      (hstart : ∀ now, step.op s ≠ some (.start now p'.task p'.workerId p'.leaseToken)) :
      ProcessChange env s s' step pid p' :=
    .kept hp fun _ _ ↦ hstart
  have hmoved {step : WorkerStep} {s₀ s' : WorkerWorld} {pid₀ : ℕ} {p : WorkerProcess}
      {phase : WorkerPhase} (hstep : step.pid? = some pid₀) (hp : s.processes pid₀ = some p)
      (hs₀ : s₀.processes = s.processes) (hfresh : p.phase ≠ .claimed) (hphase : phase ≠ .claimed)
      (hdecided : ∀ b, phase = .reporting (.scheduleRetry b) →
        (p.attempt : ℤ) + 1 < p.maxAttempts)
      (h : (s₀.setProcess pid₀ (some { p with phase := phase })).processes pid = some p') :
      ProcessChange env s s' step pid p' := by
    rcases WorkerWorld.setProcess_cases h with ⟨rfl, hx⟩ | hne
    · cases hx
      exact .moved hp hfresh hphase hdecided
    · rw [hs₀] at hne
      exact hother hstep hne
  have hgone {step : WorkerStep} {s₀ s' : WorkerWorld} {pid₀ : ℕ} (hstep : step.pid? = some pid₀)
      (hs₀ : s₀.processes = s.processes)
      (h : (s₀.setProcess pid₀ none).processes pid = some p') :
      ProcessChange env s s' step pid p' := by
    rcases WorkerWorld.setProcess_cases h with ⟨-, hx⟩ | hne
    · cases hx
    · rw [hs₀] at hne
      exact hother hstep hne
  cases step with
  | run op =>
      simp only [exec] at hp' ⊢
      split at hp' <;> exact .kept hp' (by simp [pid?])
  | upload artifact =>
      simp only [exec] at hp' ⊢
      split at hp' <;> exact hidle hp' (by simp [op])
  | claim pid₀ now workerId leaseToken leaseSeconds task =>
      simp only [exec] at hp' ⊢
      split at hp'
      · next t db _ ht hexec =>
        rcases WorkerWorld.setProcess_cases hp' with ⟨rfl, hx⟩ | hne
        · cases hx
          exact .claimed rfl ht hexec
        · exact hother rfl hne
      · exact hidle hp' (by simp [op])
  | start pid₀ now =>
      simp only [exec] at hp' ⊢
      split at hp'
      · next p hp =>
        split at hp'
        · next db hphase hexec =>
          rcases WorkerWorld.setProcess_cases hp' with ⟨rfl, hx⟩ | hne
          · cases hx
            exact .started hp hphase hexec
          · exact hother rfl hne
        · exact hgone rfl rfl hp'
        · exact hgone rfl rfl hp'
        · next htrue hfalse herror =>
          have hclaimed : p.phase ≠ .claimed := by
            intro hphase
            cases hexec : (RunOp.start now p.task p.workerId p.leaseToken).exec env.toEnv s.db with
            | error e => exact herror e hphase hexec
            | ok r =>
                obtain ⟨returned, db⟩ := r
                cases returned with
                | true => exact htrue db hphase hexec
                | false => exact hfalse db hphase hexec
          refine hidle hp' fun now' hop ↦ ?_
          simp only [op, hp, Option.bind_some] at hop
          cases hop
      · next hnone => exact hidle hp' (by simp [op, hnone])
  | load pid₀ =>
      simp only [exec] at hp' ⊢
      split at hp'
      · next p hp =>
        split at hp'
        · next hphase =>
          exact hmoved rfl hp rfl (by simp [hphase]) WorkerProcess.load_phase.1
            (fun b hb ↦ absurd hb (WorkerProcess.load_phase.2 b)) hp'
        · exact hidle hp' (by simp [op])
      · exact hidle hp' (by simp [op])
  | persist pid₀ now =>
      simp only [exec] at hp' ⊢
      split at hp'
      · next p hp =>
        split at hp'
        · next hphase =>
          exact hmoved rfl hp rfl (by simp [hphase]) WorkerProcess.proceed_phase.1
            (fun b hb ↦ absurd hb (WorkerProcess.proceed_phase.2 b)) hp'
        · exact hidle hp' (by simp [op])
      · exact hidle hp' (by simp [op])
  | renew pid₀ now leaseSeconds =>
      simp only [exec] at hp' ⊢
      split at hp'
      · split at hp' <;> exact hidle hp' (by simp [op])
      · exact hidle hp' (by simp [op])
  | execute pid₀ result =>
      simp only [exec] at hp' ⊢
      split at hp'
      · next p hp =>
        split at hp'
        · next hphase => exact hmoved rfl hp rfl (by simp [hphase]) (by simp) (by simp) hp'
        · exact hidle hp' (by simp [op])
      · exact hidle hp' (by simp [op])
  | settle pid₀ ids cleanup =>
      simp only [exec] at hp' ⊢
      split at hp'
      · next p hp =>
        split at hp'
        · next result hphase =>
          split at hp'
          · exact hmoved rfl hp rfl (by simp [hphase]) (by simp)
              (fun b hb ↦ WorkerProcess.failedReport_decided hb) hp'
          · split at hp'
            · unfold settleOk at hp' ⊢
              split at hp'
              · exact hmoved rfl hp rfl (by simp [hphase]) (by simp) (by simp) hp'
              · dsimp only at hp' ⊢
                split at hp'
                · exact hmoved rfl hp rfl (by simp [hphase]) (by simp [WorkerProcess.failure])
                    (by simp [WorkerProcess.failure]) hp'
                · exact hgone rfl rfl hp'
            · exact hidle hp' (by simp [op])
        · exact hidle hp' (by simp [op])
      · exact hidle hp' (by simp [op])
  | report pid₀ now =>
      simp only [exec] at hp' ⊢
      split at hp'
      · next p hp =>
        split at hp'
        · next call hcall =>
          split at hp'
          · unfold WorkerProcess.afterCall at hp' ⊢
            split at hp'
            · exact hgone rfl rfl hp'
            · exact hmoved rfl hp rfl (WorkerProcess.not_claimed_of_call hcall) (by simp) (by simp) hp'
          · exact hgone rfl rfl hp'
        · exact hidle hp' (by simp [op, hp, WorkerProcess.call_ne_start])
      · next hnone => exact hidle hp' (by simp [op, hnone])
  | reconcile pid₀ now =>
      simp only [exec] at hp' ⊢
      split at hp'
      · split at hp'
        · exact hgone rfl rfl hp'
        · exact hgone rfl rfl hp'
        · exact hidle hp' (by simp [op])
      · exact hidle hp' (by simp [op])
  | crash pid₀ => exact hgone rfl rfl hp'

/-! ## The invariant of the processes -/

/-- The rows after a transaction, each with the row that it was and what became of its
lease. -/
theorem RunOp.exec_lease (hc : Coupled db) {returned : Bool} {env : Env}
    (h : op.exec env db = .ok (returned, db')) {t' : ExecutionTask} (ht' : t' ∈ db'.tasks) :
    t'.lockedBy = none ∨ ∃ t ∈ db.tasks, LeaseChange op t t' := by
  have hc' := RunOp.exec_coupled env op hc h
  have htask' := hc'.taskOfNode_eq_some_iff.mpr ⟨ht', rfl⟩
  obtain ⟨n', hn', -⟩ := hc'.cell_of_task (hc'.findTask_eq_some_iff.mpr ⟨ht', rfl⟩)
  obtain ⟨n, -, hcell⟩ := RunOp.exec_cell_back hc h hn'
  rcases hcell with hsame | hchange
  · have htask : taskOfNode db.tasks t'.nodeRunId = some t' := (Prod.mk.inj hsame).2.symm.trans htask'
    exact .inr ⟨t', (hc.taskOfNode_eq_some_iff.mp htask).1, .kept (.refl t')⟩
  · have hfree : ∀ t, taskOfNode db.tasks t'.nodeRunId = some t → t.status = .retryWait →
        t.lockedBy = none := by
      intro t ht hstatus
      exact hc.unleased t (hc.taskOfNode_eq_some_iff.mp ht).1 (by rw [hstatus]; rfl)
    rcases hchange.lease hfree htask' with hnone | ⟨t, ht, hlease⟩
    · exact .inl hnone
    · exact .inr ⟨t, (hc.taskOfNode_eq_some_iff.mp ht).1, hlease⟩

variable {pid : ℕ} {p : WorkerProcess} {step : WorkerStep}

variable (env step) in
/-- The rows after a step, with what became of their leases. -/
theorem WorkerStep.exec_task (hc : Coupled s.db) {t' : ExecutionTask}
    (ht' : t' ∈ (step.exec env s).db.tasks) : t'.lockedBy = none ∨ ∃ t ∈ s.db.tasks,
      SameLease t t' ∨ ∃ op, step.op s = some op ∧ LeaseChange op t t' := by
  rcases step.exec_db env s with hsame | ⟨op, returned, hop, hexec⟩ | ⟨id, input, hinput⟩
  · rw [hsame] at ht'
    exact .inr ⟨t', ht', .inl (.refl t')⟩
  · rcases RunOp.exec_lease hc hexec ht' with hnone | ⟨t, ht, hlease⟩
    · exact .inl hnone
    · exact .inr ⟨t, ht, .inr ⟨op, hop, hlease⟩⟩
  · rw [hinput] at ht'
    exact .inr ⟨t', ht', .inl (.refl t')⟩

/-- A lease is issued under a fresh token. -/
theorem WorkerStep.Played.fresh (h : step.Played s) {op : RunOp} (hop : step.op s = some op)
    {g : Grant} (hissues : op.issues = some g) : FreshToken s g.token := by
  cases step with
  | run =>
      cases hop
      exact h.2 g hissues
  | claim =>
      cases hop
      cases hissues
      exact h
  | start pid now =>
      obtain ⟨p, -, hop⟩ := Option.bind_eq_some_iff.mp hop
      split at hop <;> cases hop
      cases hissues
  | renew =>
      obtain ⟨p, -, rfl⟩ := Option.map_eq_some_iff.mp hop
      cases hissues
  | report =>
      obtain ⟨p, -, hop⟩ := Option.bind_eq_some_iff.mp hop
      unfold WorkerProcess.call at hop
      split at hop <;> cases hop <;> cases hissues
  | reconcile =>
      cases hop
      cases hissues
  | _ => cases hop

/-- A task is started by the process that holds its lease. -/
theorem WorkerStep.Played.start (h : step.Played s) {task : TaskId} {workerId leaseToken : String}
    (hop : step.op s = some (.start now task workerId leaseToken)) :
    ∃ pid p, step.pid? = some pid ∧ s.processes pid = some p ∧ p.Fresh ∧ p.task = task ∧
      p.workerId = workerId ∧ p.leaseToken = leaseToken := by
  cases step with
  | run =>
      cases hop
      cases h.1
  | start pid now =>
      obtain ⟨p, hp, hop⟩ := Option.bind_eq_some_iff.mp hop
      split at hop <;> cases hop
      next hphase => exact ⟨pid, p, rfl, hp, hphase, rfl, rfl, rfl⟩
  | report =>
      obtain ⟨p, -, hop⟩ := Option.bind_eq_some_iff.mp hop
      exact absurd hop WorkerProcess.call_ne_start
  | renew =>
      obtain ⟨p, -, hop⟩ := Option.map_eq_some_iff.mp hop
      cases hop
  | _ => cases hop

/-- A task that a process holds after a step of others, or after one that is not its
start, was held by it before. -/
theorem ProcessesSound.held (hs : ProcessesSound s) (hc : Coupled s.db) (hplayed : step.Played s)
    (hp : s.processes pid = some p)
    (hstart : p.Fresh → step.pid? = some pid →
      ∀ now, step.op s ≠ some (.start now p.task p.workerId p.leaseToken))
    {t' : ExecutionTask} (ht' : t' ∈ (step.exec env s).db.tasks) (hholds : p.Holds t') :
    ∃ t ∈ s.db.tasks, SameLease t t' := by
  have hlocked : t'.lockedBy ≠ none := by simp [hholds.2.1]
  rcases step.exec_task env hc ht' with hnone | ⟨t, ht, hsame | ⟨op, hop, hlease⟩⟩
  · exact absurd hnone hlocked
  · exact ⟨t, ht, hsame⟩
  · cases hlease with
    | freed hnone => exact absurd hnone hlocked
    | kept hsame => exact ⟨t, ht, hsame⟩
    | issued hissues _ htoken =>
        have heq : p.leaseToken = _ := Option.some.inj (hholds.2.2.symm.trans htoken)
        exact absurd heq ((hplayed.fresh hop hissues).2 pid p hp)
    | started hstarted howns hkept =>
        subst hstarted
        obtain ⟨pid₀, q, hpid, hq, hfresh, htask, hworker, htoken⟩ := hplayed.start hop
        have howned := owns_iff.mp howns
        have heq : p.leaseToken = q.leaseToken := by
          have h := hholds.2.2.symm.trans (hkept.2.trans howned.2.2.1)
          rw [htoken]
          exact Option.some.inj h
        obtain rfl := hs.distinct pid pid₀ p q hp hq heq
        rw [hp] at hq
        cases hq
        rw [← htask, ← hworker, ← htoken] at hop
        exact absurd hop (hstart hfresh hpid _)

theorem ProcessesSound.tracked (hs : ProcessesSound s) (hc : Coupled s.db)
    (hplayed : step.Played s) {p' : WorkerProcess}
    (h : ProcessChange env s (step.exec env s) step pid p') {t' : ExecutionTask}
    (ht' : t' ∈ (step.exec env s).db.tasks) (hholds : p'.Holds t') : p'.Tracks t' := by
  cases h with
  | kept hp hstart =>
      obtain ⟨t, ht, hsame⟩ := hs.held hc hplayed hp hstart ht' hholds
      exact (hs.tracks pid p' hp t ht (hholds.of_same hsame)).of_same hsame
  | @claimed now workerId leaseToken leaseSeconds task t₀ hstep ht₀ hexec =>
      subst hstep
      obtain ⟨hfresh, -⟩ : FreshToken s leaseToken := hplayed
      have hlocked : t'.lockedBy ≠ none := by simp [hholds.2.1]
      have hnot {t : ExecutionTask} (ht : t ∈ s.db.tasks) (hsame : SameLease t t') : False :=
        hfresh t ht (hsame.leaseToken.symm.trans hholds.2.2)
      rcases RunOp.exec_lease hc hexec ht' with hnone | ⟨t, ht, hlease⟩
      · exact absurd hnone hlocked
      · cases hlease with
        | freed hnone => exact absurd hnone hlocked
        | kept hsame => exact (hnot ht hsame).elim
        | issued hissues hid _ hmax hclaimed =>
            cases hissues
            obtain rfl : t = t₀ := by
              have hfind := hc.findTask_eq_some_iff.mpr ⟨ht, hid.symm⟩
              exact Option.some.inj (hfind.symm.trans ht₀)
            obtain ⟨hattempt, hstatus⟩ := hclaimed ⟨_, _, _, _, _, _, rfl⟩
            exact
              { maxAttempts := hmax
                claimed := fun _ ↦ ⟨hattempt, .inl hstatus⟩
                started := fun hnotFresh ↦ absurd rfl hnotFresh }
        | started hop => cases hop
  | @started now p attempt hp hfresh hexec =>
      rw [start_true hexec] at ht'
      obtain ⟨t, ht, hid, rfl⟩ := Table.mem_modify_self ht' hholds.1
      have htracks := hs.tracks pid p hp t ht ⟨hid, hholds.2⟩
      exact
        { maxAttempts := htracks.maxAttempts
          claimed := fun h ↦ by cases h
          started := fun _ ↦ congrArg (· + 1) (htracks.claimed hfresh).1 }
  | @moved p phase hp hfresh hphase =>
      obtain ⟨t, ht, hsame⟩ := hs.held hc hplayed hp (fun h ↦ absurd h hfresh) ht' hholds
      have htracks := hs.tracks pid p hp t ht (hholds.of_same hsame)
      exact
        { maxAttempts := hsame.maxAttempts.trans htracks.maxAttempts
          claimed := fun h ↦ absurd h hphase
          started := fun _ ↦ hsame.attempt.trans (htracks.started hfresh) }

/-- The token of a process is that of the process it was, or fresh. -/
theorem ProcessChange.token {s' : WorkerWorld} {p' : WorkerProcess} (hplayed : step.Played s)
    (h : ProcessChange env s s' step pid p') :
    (∃ p, s.processes pid = some p ∧ p'.leaseToken = p.leaseToken) ∨
      step.pid? = some pid ∧ FreshToken s p'.leaseToken := by
  cases h with
  | kept hp => exact .inl ⟨_, hp, rfl⟩
  | claimed hstep =>
      subst hstep
      exact .inr ⟨rfl, hplayed⟩
  | started hp => exact .inl ⟨_, hp, rfl⟩
  | moved hp => exact .inl ⟨_, hp, rfl⟩

variable (env) in
theorem WorkerStep.processesSound (hs : ProcessesSound s) (hc : Coupled s.db)
    (hplayed : step.Played s) : ProcessesSound (step.exec env s) := by
  constructor
  · intro pid p' hp' t' ht' hholds
    exact hs.tracked hc hplayed (step.exec_process env s hp') ht' hholds
  · intro pid p' b hp' hphase
    cases step.exec_process env s hp' with
    | kept hp => exact hs.decided pid p' b hp hphase
    | claimed => cases hphase
    | started => cases hphase
    | moved _ _ _ hdecided => exact hdecided b hphase
  · intro pid pid' p p' hp hp' htoken
    rcases (step.exec_process env s hp).token hplayed with ⟨q, hq, heq⟩ | ⟨hpid, hfresh⟩
    · rcases (step.exec_process env s hp').token hplayed with ⟨q', hq', heq'⟩ | ⟨-, hfresh'⟩
      · exact hs.distinct pid pid' q q' hq hq' (heq.symm.trans (htoken.trans heq'))
      · exact absurd (heq.symm.trans htoken) (hfresh'.2 pid q hq)
    · rcases (step.exec_process env s hp').token hplayed with ⟨q', hq', heq'⟩ | ⟨hpid', -⟩
      · exact absurd (heq'.symm.trans htoken.symm) (hfresh.2 pid' q' hq')
      · rw [hpid] at hpid'
        exact Option.some.inj hpid'

/-! ## Histories -/

/-- One step of a history. -/
structure WorkerEntry where
  step : WorkerStep
  before : RunRecord
  after : RunRecord

/-- The history of a run with its Workers, newest entry first. -/
inductive WorkerHistory (env : WorkerEnv) : List WorkerEntry → WorkerWorld → Prop
  | created {now : Time} {id : String} {graph : ParsedGraph} {executionSnapshot input : Dict}
      {db : RunRecord} (h : createRun env.toEnv now id graph executionSnapshot input = .ok db) :
      WorkerHistory env [] { db := db }
  | step {log : List WorkerEntry} {s : WorkerWorld} (step : WorkerStep)
      (hlog : WorkerHistory env log s) (hplayed : step.Played s) :
      WorkerHistory env (⟨step, s.db, (step.exec env s).db⟩ :: log) (step.exec env s)

namespace WorkerEntry

/-- In this step the task of the node entered the status. -/
def enters (status : ExecutionTaskStatus) (id : NodeId) (e : WorkerEntry) : Bool :=
  (taskOfNode e.after.tasks id).any (·.status = status) &&
    !(taskOfNode e.before.tasks id).any (·.status = status)

/-- In this step the recovery of leases returned the task of the node from RUNNING. -/
def recovers (id : NodeId) (e : WorkerEntry) : Bool :=
  match e.step with
  | .run (.recoverExpired _) => e.before.executing id && !e.after.executing id
  | _ => false

end WorkerEntry

/-- How often the task of the node has entered the status. -/
def entries (status : ExecutionTaskStatus) (log : List WorkerEntry) (id : NodeId) : ℕ :=
  log.countP (WorkerEntry.enters status id)

/-- How often the recovery of leases has returned the task of the node from RUNNING. -/
def recoveries (log : List WorkerEntry) (id : NodeId) : ℕ :=
  log.countP (WorkerEntry.recovers id)

theorem countP_cons_toNat {α : Type*} (f : α → Bool) (a : α) (l : List α) :
    (a :: l).countP f = l.countP f + (f a).toNat := by
  rw [List.countP_cons]
  cases f a <;> rfl

namespace WorkerHistory

variable {log : List WorkerEntry}

theorem coupled (h : WorkerHistory env log s) : Coupled s.db := by
  induction h with
  | created h => exact createRun_coupled h
  | step step _ _ ih => exact step.coupled ih

theorem processesSound (h : WorkerHistory env log s) : ProcessesSound s := by
  induction h with
  | created h =>
      constructor
      · intro pid p hp
        cases hp
      · intro pid p b hp
        cases hp
      · intro pid pid' p p' hp
        cases hp
  | step step hlog hplayed ih => exact step.processesSound env ih hlog.coupled hplayed

end WorkerHistory

/-- A retry that a process reports is permitted by the attempt of the task. -/
theorem ProcessesSound.permitted (hs : ProcessesSound s) (hplayed : step.Played s)
    {t : ExecutionTask} (ht : t ∈ s.db.tasks) {workerId leaseToken : String} {b : ℕ}
    (hop : step.op s = some (.scheduleRetry now t.id workerId leaseToken b))
    (howns : owns now workerId leaseToken t = true) : (t.attempt : ℤ) < t.maxAttempts := by
  have howned := owns_iff.mp howns
  cases step with
  | run =>
      cases hop
      cases hplayed.1
  | report pid now =>
      obtain ⟨p, hp, hcall⟩ := Option.bind_eq_some_iff.mp hop
      have hfresh : ¬p.Fresh := WorkerProcess.not_claimed_of_call hcall
      obtain ⟨hphase, htask, rfl, rfl⟩ := WorkerProcess.call_scheduleRetry hcall
      have htracks := hs.tracks pid p hp t ht ⟨htask.symm, howned.2.1, howned.2.2.1⟩
      have hdecided := hs.decided pid p _ hp hphase
      have hattempt := htracks.started hfresh
      have hmax := htracks.maxAttempts
      omega
  | start =>
      obtain ⟨p, -, hop⟩ := Option.bind_eq_some_iff.mp hop
      split at hop <;> cases hop
  | renew =>
      obtain ⟨p, -, hop⟩ := Option.map_eq_some_iff.mp hop
      cases hop
  | _ => cases hop

/-- A task that a process starts is claimed. -/
theorem ProcessesSound.claimed (hs : ProcessesSound s) (hplayed : step.Played s)
    {t : ExecutionTask} (ht : t ∈ s.db.tasks) {workerId leaseToken : String}
    (hop : step.op s = some (.start now t.id workerId leaseToken))
    (howns : owns now workerId leaseToken t = true) : t.status = .claimed := by
  obtain ⟨hopen, hlocked, htoken, -⟩ := owns_iff.mp howns
  obtain ⟨pid, p, -, hp, hfresh, htask, rfl, rfl⟩ := hplayed.start hop
  rcases ((hs.tracks pid p hp t ht ⟨htask.symm, hlocked, htoken⟩).claimed hfresh).2 with h | hended
  · exact h
  · rw [hopen] at hended
    cases hended

/-- The counters of a task. -/
structure CellCounted (log : List WorkerEntry) (id : NodeId) (c : Cell) : Prop where
  attempt : Cell.attempt c = entries .running log id
  bound : CellBound (entries .retryWait log id) (recoveries log id) c

theorem WorkerEntry.recovers_eq {op : RunOp} {n n' : NodeRun} {id : NodeId}
    (hop : step.op s = some op) :
    WorkerEntry.recovers id ⟨step, s.db, db'⟩ =
      Cell.recovers op (n, taskOfNode s.db.tasks id) (n', taskOfNode db'.tasks id) := by
  have hnone {op : RunOp} (h : ∀ now, op ≠ .recoverExpired now) {c c' : Cell} :
      Cell.recovers op c c' = false := by
    unfold Cell.recovers
    split
    · next now => exact absurd rfl (h now)
    · rfl
  cases step with
  | run op =>
      cases hop
      cases op <;> rfl
  | claim | reconcile =>
      cases hop
      rfl
  | start =>
      obtain ⟨p, -, hop⟩ := Option.bind_eq_some_iff.mp hop
      split at hop <;> cases hop
      rfl
  | renew =>
      obtain ⟨p, -, rfl⟩ := Option.map_eq_some_iff.mp hop
      rfl
  | report =>
      obtain ⟨p, -, hcall⟩ := Option.bind_eq_some_iff.mp hop
      unfold WorkerProcess.call at hcall
      split at hcall <;> cases hcall <;> rfl
  | _ => cases hop

/-- A step that leaves the task counts nothing. -/
theorem CellCounted.idle {log : List WorkerEntry} {id : NodeId} {n n' : NodeRun}
    (h : CellCounted log id (n, taskOfNode s.db.tasks id))
    (htask : taskOfNode db'.tasks id = taskOfNode s.db.tasks id) :
    CellCounted (⟨step, s.db, db'⟩ :: log) id (n', taskOfNode db'.tasks id) := by
  have henters (status : ExecutionTaskStatus) :
      WorkerEntry.enters status id ⟨step, s.db, db'⟩ = false := by
    simp [WorkerEntry.enters, htask]
  have hrecovers : WorkerEntry.recovers id ⟨step, s.db, db'⟩ = false := by
    unfold WorkerEntry.recovers
    split
    · simp [RunRecord.executing, htask]
    · rfl
  constructor
  · rw [entries, countP_cons_toNat, henters, htask]
    exact h.attempt
  · rw [entries, recoveries, countP_cons_toNat, countP_cons_toNat, henters, hrecovers, htask]
    exact ⟨h.bound.idle, h.bound.task⟩

theorem WorkerHistory.counted {log : List WorkerEntry} (h : WorkerHistory env log s)
    {id : NodeId} {n : NodeRun} (hn : findNodeRun s.db.nodeRuns id = some n) :
    CellCounted log id (n, taskOfNode s.db.tasks id) := by
  induction h generalizing n with
  | created h =>
      have htasks := (createRun_ok h).2.2.1
      simp only [htasks]
      constructor
      · rfl
      · exact ⟨fun _ ↦ ⟨rfl, rfl⟩, fun t ht ↦ by cases ht⟩
  | @step log s step hlog hplayed ih =>
      have hc := hlog.coupled
      have hs := hlog.processesSound
      rcases step.exec_db env s with hsame | ⟨op, returned, hop, hexec⟩ | ⟨id', input, hinput⟩
      · rw [hsame] at hn
        apply (ih hn).idle
        rw [hsame]
      · obtain ⟨m, hm, hcell⟩ := RunOp.exec_cell_back hc hexec hn
        rcases hcell with hsame | hchange
        · exact (ih hm).idle (Prod.mk.inj hsame).2
        · have hcounted := ih hm
          constructor
          · rw [entries, countP_cons_toNat, ← entries, ← hcounted.attempt]
            exact hchange.attempt
          · rw [entries, recoveries, countP_cons_toNat, countP_cons_toNat, ← entries, ← recoveries,
              WorkerEntry.recovers_eq hop]
            apply hchange.bound hcounted.bound
            · intro t now workerId leaseToken b heq ht howns
              subst heq
              exact hs.permitted hplayed (hc.taskOfNode_eq_some_iff.mp ht).1 hop howns
            · intro t now workerId leaseToken heq ht howns
              subst heq
              exact hs.claimed hplayed (hc.taskOfNode_eq_some_iff.mp ht).1 hop howns
      · obtain ⟨m, hm⟩ : ∃ m, findNodeRun s.db.nodeRuns id = some m := by
          have hfind : findNodeRun (step.exec env s).db.nodeRuns id = if id = id' then
              (findNodeRun s.db.nodeRuns id').map fun r ↦ { r with input := input }
              else findNodeRun s.db.nodeRuns id := by
            rw [hinput]
            apply Table.find?_modify
            exact fun _ ↦ rfl
          rw [hfind] at hn
          split at hn
          · next heq =>
            obtain ⟨m, hm, -⟩ := Option.map_eq_some_iff.mp hn
            exact ⟨m, heq ▸ hm⟩
          · exact ⟨n, hn⟩
        apply (ih hm).idle
        rw [hinput]
        rfl

/-- The account of a task: its attempt counts the entries into RUNNING, and retries and
attempts are bounded. -/
structure AttemptAccount (log : List WorkerEntry) (t : ExecutionTask) : Prop where
  attempt : t.attempt = entries .running log t.nodeRunId
  retries : (entries .retryWait log t.nodeRunId : ℤ) ≤ t.maxAttempts - 1
  bounded : (t.attempt : ℤ) ≤ t.maxAttempts + recoveries log t.nodeRunId

theorem WorkerHistory.account {log : List WorkerEntry} (h : WorkerHistory env log s)
    {t : ExecutionTask} (ht : t ∈ s.db.tasks) : AttemptAccount log t := by
  have hc := h.coupled
  obtain ⟨n, hn, -, -⟩ := hc.cell_of_task (hc.findTask_eq_some_iff.mpr ⟨ht, rfl⟩)
  have hcounted := h.counted hn
  rw [hc.taskOfNode_eq_some_iff.mpr ⟨ht, rfl⟩] at hcounted
  obtain ⟨hpermitted, -, hfollowed⟩ := hcounted.bound.task t rfl
  constructor
  · exact hcounted.attempt
  · omega
  · split at hfollowed <;> omega

/-- A process that has started its task and still holds it decides about a retry as a
Runner that submits the same failure would. -/
theorem ProcessesSound.retries_iff (hs : ProcessesSound s) (hp : s.processes pid = some p)
    (hfresh : ¬p.Fresh) {t : ExecutionTask} (ht : t ∈ s.db.tasks) (hholds : p.Holds t)
    {result : ExecutionResult} {submitted : Dict} (hfailed : Dict.truthyAt submitted "ok" = false)
    (hretryable :
      Dict.truthyAt (submittedError env.toEnv submitted) "retryable" = result.retryable) :
    (∃ b, p.failedReport env.toEnv result = .scheduleRetry b) ↔
      shouldRetry env.toEnv t submitted = true := by
  have htracks := hs.tracks pid p hp t ht hholds
  have hattempt := htracks.started hfresh
  have hmax := htracks.maxAttempts
  have hsame : (p.attempt : ℤ) + 1 < p.maxAttempts ↔ (t.attempt : ℤ) < t.maxAttempts := by
    constructor <;> intro h <;> omega
  simp only [shouldRetry, hfailed, hretryable, WorkerProcess.failedReport, hsame,
    Bool.false_eq_true, not_false_eq_true, true_and, decide_eq_true_eq]
  constructor
  · rintro ⟨b, hb⟩
    split at hb
    · next h => exact h
    · cases hb
  · intro h
    rw [if_pos h]
    exact ⟨_, rfl⟩

/-- The attempt of a task is the number of its entries into RUNNING; it is retried at most
`max_attempts - 1` times and attempted at most once more for each recovery; and Workers and
Runners permit a retry in the same states of a task. -/
theorem retry_accounting {log : List WorkerEntry} (h : WorkerHistory env log s) :
    (∀ t ∈ s.db.tasks, AttemptAccount log t) ∧
    ∀ pid p, s.processes pid = some p → ¬p.Fresh → ∀ t ∈ s.db.tasks, p.Holds t →
      ∀ result submitted, Dict.truthyAt submitted "ok" = false →
        Dict.truthyAt (submittedError env.toEnv submitted) "retryable" = result.retryable →
        ((∃ b, p.failedReport env.toEnv result = .scheduleRetry b) ↔
          shouldRetry env.toEnv t submitted = true) := by
  constructor
  · intro t ht
    exact h.account ht
  · intro pid p hp hfresh t ht hholds result submitted hfailed hretryable
    exact h.processesSound.retries_iff hp hfresh ht hholds hfailed hretryable

/-! ## A retried service -/

/-- Data Input, a service with one retry, Data Output. -/
def retryGraph : ParsedGraph where
  nodes :=
    [{ id := "in", type := .data, subtype := "input", name := "Input" },
      { id := "act", type := .service, subtype := "http", name := "Service"
        config := [("retry", .obj [("max_retries", .int 1)])] },
      { id := "out", type := .data, subtype := "output", name := "Output" }]
  edges :=
    [{ id := "e1", source := "in", target := "act" }, { id := "e2", source := "act", target := "out" }]
  nodeIds_nodup := by decide
  edges_closed := by decide

def retryRun : RunRecord where
  run := { id := "run", graph := retryGraph }
  nodeRuns := retryGraph.nodes.map (createNodeRun [])

theorem createRun_retryRun : createRun plainEnv 0 "run" retryGraph [] [] = .ok retryRun :=
  rfl

/-- The execution fails and the Worker schedules a retry. -/
theorem retry_accounting_retryRun : ∃ log s, WorkerHistory plainWorkerEnv log s ∧
    ∃ t ∈ s.db.tasks, t.status = .retryWait ∧ t.attempt = 1 ∧ t.maxAttempts = 2 ∧
      entries .running log "act" = 1 ∧ entries .retryWait log "act" ≤ 1 := by
  have hcreated : WorkerHistory plainWorkerEnv [] { db := retryRun } := .created createRun_retryRun
  have hqueued := (hcreated.step (.run (.startRun 0)) ⟨rfl, by simp [RunOp.issues]⟩).step
    (.run (.schedule 0)) ⟨rfl, by simp [RunOp.issues]⟩
  have hclaimed := hqueued.step (.claim 0 0 "w" "t" 60 0) (by
    constructor
    · decide
    · intro pid p hp
      cases hp)
  have hreported := (((((hclaimed.step (.start 0 0) trivial).step (.load 0) trivial).step
    (.persist 0 0) trivial).step (.execute 0 { ok := false, retryable := true }) trivial).step
      (.settle 0 [] false) trivial).step (.report 0 0) trivial
  obtain ⟨t, ht, hstatus, hattempt, hmax, hkey⟩ :
      ∃ t ∈ (WorkerStep.execAll plainWorkerEnv
          [.run (.startRun 0), .run (.schedule 0), .claim 0 0 "w" "t" 60 0, .start 0 0, .load 0,
            .persist 0 0, .execute 0 { ok := false, retryable := true }, .settle 0 [] false,
            .report 0 0] { db := retryRun }).db.tasks,
        t.status = .retryWait ∧ t.attempt = 1 ∧ t.maxAttempts = 2 ∧ t.nodeRunId = "act" := by
    decide
  have haccount := (retry_accounting hreported).1 t ht
  have hentries := haccount.attempt
  have hretries := haccount.retries
  rw [hkey] at hentries hretries
  refine ⟨_, _, hreported, t, ht, hstatus, hattempt, hmax, ?_, ?_⟩ <;> omega

end Relayvia
