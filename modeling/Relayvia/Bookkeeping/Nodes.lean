import Relayvia.Bookkeeping.Runs
import Relayvia.Gating

/-!
# The bookkeeping of the NodeRuns

The attempt of a task counts how often it entered RUNNING.  A NodeRun follows its task as
long as no server Worker starts one: `start` writes neither its attempt nor its time.
-/

namespace Relayvia

variable {env : Env} {now : Time} {db db' : RunRecord} {log : List Entry} {op : RunOp}
  {returned : Bool} {queues cancels : Prop} {c c' : Cell} {id : NodeId}

/-! ## Attempts -/

def RunRecord.executing (db : RunRecord) (id : NodeId) : Bool :=
  (taskOfNode db.tasks id).any (·.status = .running)

/-- In this step the task of the node entered RUNNING. -/
def Entry.starts (id : NodeId) (e : Entry) : Bool :=
  e.after.executing id && !e.before.executing id

/-- How often the task of the node has entered RUNNING. -/
def starts (log : List Entry) (id : NodeId) : ℕ :=
  log.countP (Entry.starts id)

namespace Cell

def attempt (c : Cell) : ℕ :=
  c.2.elim 0 ExecutionTask.attempt

def executing (c : Cell) : Bool :=
  c.2.any (·.status = .running)

end Cell

theorem cancelTask_attempt (t : ExecutionTask) : (cancelTask now t).attempt = t.attempt := by
  unfold cancelTask
  split <;> rfl

theorem cancelTask_running (t : ExecutionTask) : (cancelTask now t).status ≠ .running := by
  intro hrunning
  have hended := cancelTask_terminal now t
  rw [hrunning] at hended
  cases hended

theorem Settling.attempt (h : Settling queues cancels now c c') :
    Cell.attempt c' = Cell.attempt c ∧ (Cell.executing c' = true → Cell.executing c = true) := by
  cases h with
  | queue _ _ ht =>
      constructor
      · exact ht.attempt
      · simp [Cell.executing, ht.status]
  | skip => exact ⟨rfl, id⟩
  | promote => exact ⟨rfl, id⟩
  | @cancel n t =>
      cases t with
      | none => exact ⟨rfl, id⟩
      | some t => exact ⟨cancelTask_attempt t, by simp [Cell.executing, cancelTask_running]⟩

theorem attempt_of_settles (h : Relation.ReflTransGen (Settling queues cancels now) c c') :
    Cell.attempt c' = Cell.attempt c ∧ (Cell.executing c' = true → Cell.executing c = true) := by
  induction h with
  | refl => exact ⟨rfl, id⟩
  | tail _ hstep ih =>
      obtain ⟨hattempt, hexecuting⟩ := hstep.attempt
      exact ⟨hattempt.trans ih.1, fun h ↦ ih.2 (hexecuting h)⟩

/-- Whether the task of a cell enters RUNNING. -/
def Cell.starts (c c' : Cell) : Bool :=
  Cell.executing c' && !Cell.executing c

theorem Cell.starts_eq_false (h : Cell.executing c' = true → Cell.executing c = true) :
    Cell.starts c c' = false := by
  cases hc : Cell.executing c' with
  | false => simp [Cell.starts, hc]
  | true => simp [Cell.starts, h hc]

/-- An operation counts the attempt exactly when the task enters RUNNING. -/
theorem CellChange.attempt (h : CellChange env db db' op c c') :
    Cell.attempt c' = Cell.attempt c + (Cell.starts c c').toNat := by
  have hkept {c c' : Cell} (hattempt : Cell.attempt c' = Cell.attempt c)
      (hexecuting : Cell.executing c' = true → Cell.executing c = true) :
      Cell.attempt c' = Cell.attempt c + (Cell.starts c c').toNat := by
    rw [Cell.starts_eq_false hexecuting, hattempt, Bool.toNat_false, Nat.add_zero]
  cases h with
  | autoStart hcandidate | runnerClaim hcandidate =>
      simp [Cell.attempt, Cell.starts, Cell.executing, isCandidate_pending hcandidate]
  | start _ hclaimed => simp [Cell.attempt, Cell.starts, Cell.executing, hclaimed]
  | resolve => exact hkept rfl id
  | schedule h | reconcile h | cancelRun h =>
      obtain ⟨hattempt, hexecuting⟩ := attempt_of_settles h
      exact hkept hattempt hexecuting
  | renewLease | heartbeat => exact hkept rfl id
  | _ => exact hkept rfl (by simp [Cell.executing, grantLease])

/-! ## Times -/

/-- The clock reading of an operation. -/
def RunOp.time : RunOp → Option Time
  | .startRun now | .schedule now | .pauseRun now | .reconcile now | .cancelRun now
  | .approve now _ | .reject now _ | .submit now _ _ | .claim now .. | .start now ..
  | .complete now .. | .fail now .. | .waitNode now .. | .scheduleRetry now ..
  | .renewLease now .. | .recoverExpired now | .promoteDueRetries now | .runnerClaim now ..
  | .runnerTaskHeartbeat now .. | .runnerSubmit now .. => some now
  | .resumeRun => none

theorem RunOp.time_of_resolution {result : HumanResult}
    (h : op.resolution = some (now, id, result)) : op.time = some now := by
  cases op <;> cases h <;> rfl

/-- What is written to the two times of a NodeRun. -/
structure Clocked (time : Option Time) (n n' : NodeRun) : Prop where
  startedAt : n'.startedAt = n.startedAt ∨
    n.startedAt = none ∧ n'.startedAt = time ∧ n'.status = .running
  finishedAt : n'.finishedAt = n.finishedAt ∧ n'.status.isTerminal = n.status.isTerminal ∨
    n'.status.isTerminal = true ∧
      ∃ f, n'.finishedAt = some f ∧ (time = some f ∨ n.finishedAt = some f)

/-- A NodeRun that settles was open; settling leaves its attempt and its start. -/
theorem Settling.written (h : Settling queues cancels now c c') :
    c.1.status.isTerminal = false ∧ c'.1.attempt = c.1.attempt ∧
      c'.1.startedAt = c.1.startedAt := by
  cases h with
  | queue _ hn | skip hn | promote hn =>
      rw [hn]
      exact ⟨rfl, rfl, rfl⟩
  | cancel _ hn => exact ⟨hn, rfl, rfl⟩

theorem Settling.clocked (h : Settling queues cancels now c c') : Clocked (some now) c.1 c'.1 := by
  refine ⟨.inl h.written.2.2, ?_⟩
  cases h with
  | queue _ hn => exact .inl ⟨rfl, by simp [hn, NodeRunStatus.isTerminal]⟩
  | skip | promote => exact .inr ⟨rfl, now, rfl, .inl rfl⟩
  | @cancel n t _ _ _ hfinished =>
      refine .inr ⟨rfl, ?_⟩
      rcases hfinished with rfl | rfl
      · exact ⟨now, rfl, .inl rfl⟩
      · cases hn : n.finishedAt with
        | none => exact ⟨now, rfl, .inl rfl⟩
        | some f => exact ⟨f, rfl, .inr rfl⟩

theorem written_of_settles (h : Relation.ReflTransGen (Settling queues cancels now) c c') :
    (c' = c ∨ c.1.status.isTerminal = false) ∧ c'.1.attempt = c.1.attempt ∧
      c'.1.startedAt = c.1.startedAt := by
  induction h using Relation.ReflTransGen.head_induction_on with
  | refl => exact ⟨.inl rfl, rfl, rfl⟩
  | head hstep _ ih =>
      obtain ⟨hopen, hattempt, hstarted⟩ := hstep.written
      exact ⟨.inr hopen, ih.2.1.trans hattempt, ih.2.2.trans hstarted⟩

theorem clocked_of_settles (h : Relation.ReflTransGen (Settling queues cancels now) c c') :
    Clocked (some now) c.1 c'.1 := by
  induction h with
  | refl => exact ⟨.inl rfl, .inl ⟨rfl, rfl⟩⟩
  | tail hrest hstep ih =>
      refine ⟨.inl ((written_of_settles hrest).2.2 ▸ hstep.written.2.2), ?_⟩
      rcases hstep.clocked.finishedAt with ⟨hsame, hterminal⟩ | ⟨hterminal, f, hf, hfrom⟩
      · rcases ih.finishedAt with ⟨hsame', hterminal'⟩ | ⟨hterminal', f, hf, hfrom⟩
        · exact .inl ⟨hsame.trans hsame', hterminal.trans hterminal'⟩
        · exact .inr ⟨hterminal.trans hterminal', f, hsame.trans hf, hfrom⟩
      · rcases ih.finishedAt with ⟨hsame', -⟩ | ⟨hterminal', -⟩
        · exact .inr ⟨hterminal, f, hf, hsame' ▸ hfrom⟩
        · simp [hstep.written.1] at hterminal'

/-- The statuses of a cell are coupled. -/
def CellCoupled (c : Cell) : Prop :=
  Coupling c.1.isInput (c.1.status, c.2.map ExecutionTask.status)

theorem owns_live {workerId leaseToken : String} {t : ExecutionTask}
    (h : owns now workerId leaseToken t = true) : t.status.isTerminal = false := by
  simp only [owns, Bool.decide_and, Bool.and_eq_true, decide_eq_true_eq] at h
  simpa using h.1

/-- Only an open NodeRun is changed. -/
theorem CellChange.open_of (h : CellChange env db db' op c c') (hc : CellCoupled c) :
    c' = c ∨ c.1.status.isTerminal = false := by
  have hlive {n : NodeRun} {t : ExecutionTask} (hc : CellCoupled (n, some t))
      (ht : t.status.isTerminal = false) : n.status.isTerminal = false := hc.open_of_live ht
  cases h with
  | claim h | autoStart h | runnerClaim h =>
      exact .inr (hlive hc (by rw [isCandidate_pending h]; rfl))
  | start h | release h | abandon h | complete h | fail h | waitNode h | scheduleRetry h
  | renewLease h | submitCompleted h | submitRetry h | submitFailed h =>
      exact .inr (hlive hc (owns_live h))
  | recover hexpired =>
      refine .inr (hlive hc ?_)
      simp only [leaseExpired, Bool.decide_and, Bool.and_eq_true, decide_eq_true_eq] at hexpired
      rcases hexpired.1 with h | h <;> rw [h] <;> rfl
  | heartbeat _ hrunning =>
      refine .inr (hlive hc ?_)
      rw [hrunning]
      rfl
  | requeue hn | resolve _ hn =>
      rw [hn]
      exact .inr rfl
  | schedule h | reconcile h | cancelRun h => exact (written_of_settles h).1

theorem CellChange.clocked (h : CellChange env db db' op c c') (hc : CellCoupled c) :
    Clocked op.time c.1 c'.1 := by
  rcases h.open_of hc with rfl | hopen
  · exact ⟨.inl rfl, .inl ⟨rfl, rfl⟩⟩
  cases h with
  | @runnerClaim _ _ _ _ n =>
      refine ⟨?_, .inl ⟨rfl, hopen.symm⟩⟩
      cases hn : n.startedAt with
      | none => exact .inr ⟨rfl, by simp [RunOp.time], rfl⟩
      | some s => exact .inl rfl
  | abandon | complete | fail | submitCompleted | submitFailed =>
      exact ⟨.inl rfl, .inr ⟨rfl, _, rfl, .inl rfl⟩⟩
  | resolve hop =>
      refine ⟨.inl rfl, .inr ⟨?_, _, rfl, .inl (RunOp.time_of_resolution hop)⟩⟩
      rcases RunOp.resolution_target hop with h | h <;> rw [h] <;> rfl
  | schedule h | reconcile h | cancelRun h => exact clocked_of_settles h
  | claim | release | renewLease | recover | heartbeat => exact ⟨.inl rfl, .inl ⟨rfl, rfl⟩⟩
  | _ => exact ⟨.inl rfl, .inl ⟨rfl, hopen.symm⟩⟩

/-! ## Cells -/

/-- What holds of a cell whoever executes it. -/
structure CellSound (c : Cell) : Prop where
  idle : c.2 = none → c.1.attempt = 0 ∧ c.1.startedAt = none
  finished : c.1.finishedAt.isSome = true → c.1.status.isTerminal = true
  ended : c.2.isSome = true → c.1.status.isTerminal = true → c.1.finishedAt.isSome = true

/-- A NodeRun without a task is not started. -/
theorem CellChange.idle (h : CellChange env db db' op c c') (hnone : c'.2 = none) :
    c.2 = none ∧ c'.1.attempt = c.1.attempt ∧ c'.1.startedAt = c.1.startedAt := by
  have hbefore : c.2 = none := by
    cases htask : c.2 with
    | none => rfl
    | some t =>
        obtain ⟨t', ht', -⟩ := h.task_present htask
        rw [hnone] at ht'
        cases ht'
  refine ⟨hbefore, ?_⟩
  cases h with
  | resolve => exact ⟨rfl, rfl⟩
  | schedule h | reconcile h | cancelRun h => exact (written_of_settles h).2
  | _ => cases hbefore

theorem CellChange.sound (h : CellChange env db db' op c c') (hc : CellCoupled c)
    (hs : CellSound c) : CellSound c' := by
  rcases h.open_of hc with rfl | hopen
  · exact hs
  have hfresh : c.1.finishedAt = none := by
    by_contra hset
    have hterminal := hs.finished (Option.isSome_iff_ne_none.mpr hset)
    rw [hopen] at hterminal
    cases hterminal
  have hfinished := (h.clocked hc).finishedAt
  rw [hfresh, hopen] at hfinished
  constructor
  · intro hnone
    obtain ⟨hbefore, hattempt, hstarted⟩ := h.idle hnone
    rw [hattempt, hstarted]
    exact hs.idle hbefore
  · intro hset
    rcases hfinished with ⟨hkept, -⟩ | ⟨hterminal, -⟩
    · rw [hkept] at hset
      cases hset
    · exact hterminal
  · intro _ hterminal
    rcases hfinished with ⟨-, hkept⟩ | ⟨-, f, hf, -⟩
    · rw [hkept] at hterminal
      cases hterminal
    · rw [hf]
      rfl

/-- What every new NodeRun satisfies and every change of a coupled cell keeps holds of
every cell of a reachable run. -/
theorem ReachableBy.cells {allowed : RunRecord → RunOp → Prop} {I : Cell → Prop}
    (hcreated : ∀ input node, I (createNodeRun input node, none))
    (hstep : ∀ {db db' op c c'}, CellChange env db db' op c c' → CellCoupled c → I c → I c')
    (h : ReachableBy env allowed db) {n : NodeRun} (hn : findNodeRun db.nodeRuns id = some n) :
    I (n, taskOfNode db.tasks id) := by
  induction h generalizing n with
  | created h =>
      obtain ⟨-, -, htasks, hnodes⟩ := createRun_ok h
      have hmem := Table.mem_of_find? hn
      rw [hnodes] at hmem
      obtain ⟨node, -, rfl⟩ := List.mem_map.mp hmem
      rw [htasks]
      exact hcreated _ node
  | step hdb _ h ih =>
      obtain ⟨m, hm, hcell⟩ := RunOp.exec_cell_back hdb.coupled h hn
      rcases hcell with hsame | hchange
      · rw [hsame]
        exact ih hm
      · exact hstep hchange (hdb.coupled.coupling _ m hm) (ih hm)

theorem ReachableBy.cellSound {allowed : RunRecord → RunOp → Prop} (h : ReachableBy env allowed db)
    {n : NodeRun} (hn : findNodeRun db.nodeRuns id = some n) :
    CellSound (n, taskOfNode db.tasks id) := by
  apply h.cells (I := CellSound) _ _ hn
  · intro input node
    constructor <;> simp [createNodeRun]
  · exact fun h hc hs ↦ h.sound hc hs

/-! ## Server Workers -/

/-- The operation starts a task for a server Worker. -/
def RunOp.startsOnServer (db : RunRecord) : RunOp → Bool
  | .start now task workerId leaseToken =>
      (findTask db.tasks task).any (owns now workerId leaseToken) && db.run.status = .running
  | .claim now workerId _ _ capabilities true task =>
      (findTask db.tasks task).any (isCandidate now workerId capabilities db)
  | _ => false

/-- The NodeRun follows its task. -/
structure CellFollows (c : Cell) : Prop where
  attempt : c.1.attempt = Cell.attempt c
  startedAt : c.1.startedAt.isSome = true ↔ 0 < Cell.attempt c

theorem Settling.follows (h : Settling queues cancels now c c') (hf : CellFollows c) :
    CellFollows c' := by
  obtain ⟨-, hattempt, hstarted⟩ := h.written
  constructor
  · rw [hattempt, h.attempt.1]
    exact hf.attempt
  · rw [hstarted, h.attempt.1]
    exact hf.startedAt

theorem follows_of_settles (h : Relation.ReflTransGen (Settling queues cancels now) c c')
    (hf : CellFollows c) : CellFollows c' := by
  induction h with
  | refl => exact hf
  | tail _ hstep ih => exact hstep.follows ih

theorem CellChange.follows (h : CellChange env db db' op c c')
    (hop : op.startsOnServer db = false)
    (htask : ∀ t, c.2 = some t → findTask db.tasks t.id = some t) (hf : CellFollows c) :
    CellFollows c' := by
  cases h with
  | autoStart hcandidate => simp [RunOp.startsOnServer, htask _ rfl, hcandidate] at hop
  | start howns _ hrunning => simp [RunOp.startsOnServer, htask _ rfl, howns, hrunning] at hop
  | @runnerClaim _ _ _ _ n =>
      constructor
      · rfl
      · cases n.startedAt <;> simp [Cell.attempt]
  | schedule h | reconcile h | cancelRun h => exact follows_of_settles h hf
  | _ => exact ⟨hf.attempt, hf.startedAt⟩

/-- The rows after a successful `start`. -/
theorem start_true {task : TaskId} {workerId leaseToken : String}
    (h : start now task workerId leaseToken db = .ok (true, db')) :
    db'.tasks = Table.modify ExecutionTask.id task
      (fun t ↦ { t with status := .running, attempt := t.attempt + 1, startedAt := some now })
      db.tasks := by
  unfold start at h
  split at h
  · split at h
    · cases h
    · split at h
      · obtain ⟨_, -, h⟩ := Outcome.bind_eq_ok_iff.mp h
        cases h
      · obtain ⟨_, -, h⟩ := Outcome.bind_eq_ok_iff.mp h
        obtain ⟨db₁, hdb₁, h⟩ := Outcome.bind_eq_ok_iff.mp h
        cases h
        exact nodeStatus_tasks hdb₁
  · cases h

/-- The task that a server Worker starts is counted. -/
theorem RunOp.exec_startsOnServer (hc : Coupled db) (h : op.exec env db = .ok (returned, db'))
    (hop : op.startsOnServer db = true) : ∃ t ∈ db.tasks, ∃ t' ∈ db'.tasks,
      t'.nodeRunId = t.nodeRunId ∧ t'.attempt = t.attempt + 1 := by
  have hcounted {id : TaskId} {t : ExecutionTask} {f : ExecutionTask → ExecutionTask}
      (ht : findTask db.tasks id = some t)
      (htasks : db'.tasks = Table.modify ExecutionTask.id id f db.tasks)
      (hf : (f t).nodeRunId = t.nodeRunId ∧ (f t).attempt = t.attempt + 1) :
      ∃ t ∈ db.tasks, ∃ t' ∈ db'.tasks, t'.nodeRunId = t.nodeRunId ∧
        t'.attempt = t.attempt + 1 := by
    obtain ⟨hmem, hid⟩ := hc.findTask_eq_some_iff.mp ht
    refine ⟨t, hmem, f t, ?_, hf⟩
    rw [htasks]
    exact Table.mem_modify.mpr (.inl ⟨t, hmem, hid, rfl⟩)
  cases op with
  | start now task workerId leaseToken =>
      simp only [startsOnServer, Bool.and_eq_true, Option.any_eq_true, decide_eq_true_eq] at hop
      obtain ⟨⟨t, ht, howns⟩, hrunning⟩ := hop
      simp only [exec, Relayvia.start, ht, howns, hrunning, not_true_eq_false, if_false, ne_eq] at h
      obtain ⟨_, -, h⟩ := Outcome.bind_eq_ok_iff.mp h
      obtain ⟨db₁, hdb₁, h⟩ := Outcome.bind_eq_ok_iff.mp h
      cases h
      apply hcounted ht (nodeStatus_tasks hdb₁)
      exact ⟨rfl, rfl⟩
  | claim now workerId leaseToken leaseSeconds capabilities autoStart task =>
      cases autoStart with
      | false => cases hop
      | true =>
          obtain ⟨t, ht, hcandidate⟩ := (Option.any_eq_true _ _).mp hop
          simp only [exec, Relayvia.claim, ht, hcandidate, not_true_eq_false, if_false] at h
          obtain ⟨_, -, h⟩ := Outcome.bind_eq_ok_iff.mp h
          obtain ⟨db₁, hdb₁, h⟩ := Outcome.bind_eq_ok_iff.mp h
          cases h
          apply hcounted ht ((nodeStatus_tasks hdb₁).trans (Table.modify_modify ?_ _ _))
          · exact ⟨rfl, rfl⟩
          · exact fun _ ↦ rfl
  | _ => cases hop

/-- A server Worker leaves the attempt of the NodeRun. -/
theorem CellChange.attempt_of_server (h : CellChange env db db' op c c')
    (hop : op.startsOnServer db = true) : c'.1.attempt = c.1.attempt := by
  cases h with
  | runnerClaim | schedule | reconcile | cancelRun => cases hop
  | _ => rfl

/-! ## Histories -/

theorem starts_cons {e : Entry} : starts (e :: log) id = starts log id + (e.starts id).toNat := by
  rw [starts, List.countP_cons]
  cases e.starts id <;> rfl

/-- In every reachable state the attempt of a task is the number of times that it
entered RUNNING. -/
theorem History.attempt_eq (h : History env log db) {n : NodeRun}
    (hn : findNodeRun db.nodeRuns id = some n) :
    Cell.attempt (n, taskOfNode db.tasks id) = starts log id := by
  induction h generalizing n with
  | created h =>
      rw [(createRun_ok h).2.2.1]
      rfl
  | @step log db db' op returned hlog h ih =>
      obtain ⟨m, hm, hcell⟩ := RunOp.exec_cell_back hlog.coupled h hn
      rw [starts_cons, ← ih hm]
      rcases hcell with hsame | hchange
      · have htask := (Prod.mk.inj hsame).2
        have hidle : Entry.starts id ⟨op, returned, db, db'⟩ = false := by
          simp [Entry.starts, RunRecord.executing, htask]
        rw [hsame, hidle]
        rfl
      · exact hchange.attempt

theorem History.cellSound (h : History env log db) {n : NodeRun}
    (hn : findNodeRun db.nodeRuns id = some n) : CellSound (n, taskOfNode db.tasks id) :=
  h.reachable.cellSound hn

/-- The fields of a NodeRun whose task entered RUNNING `starts` times. -/
structure NodeTiming (starts : ℕ) (n : NodeRun) (t : ExecutionTask) : Prop where
  attempt : n.attempt = t.attempt
  startedAt : n.startedAt.isSome = true ↔ 0 < starts
  finishedAt : n.finishedAt.isSome = true ↔ n.status.isTerminal = true

/-- Every NodeRun with a task follows it. -/
def Followed (log : List Entry) (db : RunRecord) : Prop :=
  ∀ n ∈ db.nodeRuns, ∀ t ∈ db.tasks, t.nodeRunId = n.nodeId → NodeTiming (starts log n.nodeId) n t

theorem Followed.cell (hf : Followed log db) (h : History env log db) {n : NodeRun}
    (hn : findNodeRun db.nodeRuns id = some n) : CellFollows (n, taskOfNode db.tasks id) := by
  have hc := h.coupled
  obtain ⟨hmem, rfl⟩ := hc.findNodeRun_eq_some_iff.mp hn
  have hattempt := h.attempt_eq hn
  cases htask : taskOfNode db.tasks n.nodeId with
  | none =>
      obtain ⟨hzero, hnone⟩ := (h.cellSound hn).idle htask
      constructor
      · exact hzero
      · have hstarted : n.startedAt = none := hnone
        simp [hstarted, Cell.attempt]
  | some t =>
      obtain ⟨ht, hkey⟩ := hc.taskOfNode_eq_some_iff.mp htask
      have htiming := hf n hmem t ht hkey
      rw [htask] at hattempt
      constructor
      · exact htiming.attempt
      · rw [hattempt]
        exact htiming.startedAt

theorem Followed.of_cells (h : History env log db)
    (hcells : ∀ id n, findNodeRun db.nodeRuns id = some n →
      CellFollows (n, taskOfNode db.tasks id)) : Followed log db := by
  have hc := h.coupled
  intro n hn t ht hkey
  have hfind := hc.findNodeRun_eq_some_iff.mpr ⟨hn, rfl⟩
  have htask := hc.taskOfNode_eq_some_iff.mpr ⟨ht, hkey⟩
  have hattempt := h.attempt_eq hfind
  have hsound := h.cellSound hfind
  have hfollows := hcells _ n hfind
  rw [htask] at hattempt hsound hfollows
  constructor
  · exact hfollows.attempt
  · rw [← hattempt]
    exact hfollows.startedAt
  · exact ⟨hsound.finished, hsound.ended rfl⟩

theorem createRun_followed {now : Time} {id : String} {graph : ParsedGraph}
    {executionSnapshot input : Dict}
    (h : createRun env now id graph executionSnapshot input = .ok db) : Followed [] db := by
  intro n _ t ht
  simp [(createRun_ok h).2.2.1] at ht

theorem Followed.step_iff (hf : Followed log db) (hlog : History env log db)
    (h : op.exec env db = .ok (returned, db')) :
    Followed (⟨op, returned, db, db'⟩ :: log) db' ↔ op.startsOnServer db = false := by
  have hc := hlog.coupled
  have hhistory : History env (⟨op, returned, db, db'⟩ :: log) db' := hlog.step h
  constructor
  · intro hf'
    by_contra hserver
    have hserver : op.startsOnServer db = true := by simpa using hserver
    obtain ⟨t, ht, t', ht', hkey, hattempt⟩ := RunOp.exec_startsOnServer hc h hserver
    obtain ⟨n, hn, -, -⟩ := hc.cell_of_task (hc.findTask_eq_some_iff.mpr ⟨ht, rfl⟩)
    obtain ⟨n', hn', hcell⟩ := RunOp.exec_cellChange hc h t.nodeRunId n hn
    have hkept : n'.attempt = n.attempt := by
      rcases hcell with hsame | hchange
      · rw [(Prod.mk.inj hsame).1]
      · exact hchange.attempt_of_server hserver
    have hbefore := (hf.cell hlog hn).attempt
    have hafter := (hf'.cell hhistory hn').attempt
    rw [hc.taskOfNode_eq_some_iff.mpr ⟨ht, rfl⟩] at hbefore
    rw [hhistory.coupled.taskOfNode_eq_some_iff.mpr ⟨ht', hkey⟩] at hafter
    simp only [Cell.attempt, Option.elim_some] at hbefore hafter
    omega
  · intro hop
    apply Followed.of_cells hhistory
    intro id n' hn'
    obtain ⟨n, hn, hcell⟩ := RunOp.exec_cell_back hc h hn'
    rcases hcell with hsame | hchange
    · rw [hsame]
      exact hf.cell hlog hn
    · refine hchange.follows hop (fun t ht ↦ ?_) (hf.cell hlog hn)
      exact hc.findTask_eq_some_iff.mpr ⟨(hc.taskOfNode_eq_some_iff.mp ht).1, rfl⟩

/-! ## The order of the times -/

/-- The clock readings of the operations are in their order. -/
def Timed (log : List Entry) : Prop :=
  log.Pairwise fun later earlier ↦
    ∀ x ∈ later.op.time, ∀ y ∈ earlier.op.time, y ≤ x

/-- A NodeRun starts at the time of a step and not after its end. -/
structure Ordered (log : List Entry) (n : NodeRun) : Prop where
  started : ∀ s, n.startedAt = some s → ∃ e ∈ log, e.op.time = some s
  order : ∀ s f, n.startedAt = some s → n.finishedAt = some f → s ≤ f

theorem Ordered.cons {e : Entry} {n n' : NodeRun} (ho : Ordered log n)
    (htimed : ∀ earlier ∈ log, ∀ x ∈ e.op.time, ∀ y ∈ earlier.op.time, y ≤ x)
    (h : Clocked e.op.time n n') (hfinished : n'.finishedAt.isSome = true → n'.status.isTerminal = true) :
    Ordered (e :: log) n' := by
  rcases h.startedAt with hkept | ⟨-, hset, hrunning⟩
  · constructor
    · intro s hs
      rw [hkept] at hs
      obtain ⟨earlier, hmem, htime⟩ := ho.started s hs
      exact ⟨earlier, by simp [hmem], htime⟩
    · intro s f hs hf
      rw [hkept] at hs
      rcases h.finishedAt with ⟨hsame, -⟩ | ⟨-, f', hf', htime | hbefore⟩
      · exact ho.order s f hs (hsame ▸ hf)
      · obtain rfl : f' = f := Option.some.inj (hf'.symm.trans hf)
        obtain ⟨earlier, hmem, hs'⟩ := ho.started s hs
        exact htimed earlier hmem f' htime s hs'
      · obtain rfl : f' = f := Option.some.inj (hf'.symm.trans hf)
        exact ho.order s f' hs hbefore
  · constructor
    · intro s hs
      exact ⟨e, by simp, hset.symm.trans hs⟩
    · intro s f _ hf
      have hended := hfinished (by rw [hf]; rfl)
      rw [hrunning] at hended
      cases hended

theorem History.ordered (h : History env log db) (htimed : Timed log) {n : NodeRun}
    (hn : findNodeRun db.nodeRuns id = some n) : Ordered log n := by
  induction h generalizing n with
  | created h =>
      have hmem := Table.mem_of_find? hn
      rw [(createRun_ok h).2.2.2] at hmem
      obtain ⟨node, -, rfl⟩ := List.mem_map.mp hmem
      constructor <;> simp [createNodeRun]
  | @step log db db' op returned hlog h ih =>
      obtain ⟨hlast, hrest⟩ := List.pairwise_cons.mp htimed
      obtain ⟨m, hm, hcell⟩ := RunOp.exec_cell_back hlog.coupled h hn
      have hclocked : Clocked op.time m n := by
        rcases hcell with hsame | hchange
        · rw [(Prod.mk.inj hsame).1]
          exact ⟨.inl rfl, .inl ⟨rfl, rfl⟩⟩
        · exact hchange.clocked (hlog.coupled.coupling _ m hm)
      exact (ih hrest hm).cons hlast hclocked ((hlog.step h).cellSound hn).finished

/-- No step changes a start that is set. -/
theorem RunOp.exec_startedAt (hc : Coupled db) (h : op.exec env db = .ok (returned, db'))
    {n : NodeRun} (hn : n ∈ db.nodeRuns) {s : Time} (hs : n.startedAt = some s) :
    ∃ n' ∈ db'.nodeRuns, n'.nodeId = n.nodeId ∧ n'.startedAt = some s := by
  have hfind := hc.findNodeRun_eq_some_iff.mpr ⟨hn, rfl⟩
  obtain ⟨n', hn', hcell⟩ := RunOp.exec_cellChange hc h _ n hfind
  obtain ⟨hmem, hkey⟩ := (RunOp.exec_coupled env op hc h).findNodeRun_eq_some_iff.mp hn'
  refine ⟨n', hmem, hkey, ?_⟩
  rcases hcell with hsame | hchange
  · rw [(Prod.mk.inj hsame).1]
    exact hs
  · rcases (hchange.clocked (hc.coupling _ n hfind)).startedAt with hkept | ⟨hnone, -⟩
    · exact hkept.trans hs
    · rw [hs] at hnone
      cases hnone

/-- The NodeRuns with a task follow it in every state that a run reaches if and only if
no server Worker starts a task.  A start that is set stays, and it is not after the end. -/
theorem node_bookkeeping_iff (h : History env log db) :
    (Throughout Followed log db ↔ ∀ e ∈ log, e.op.startsOnServer e.before = false) ∧
    (∀ e ∈ log, ∀ n ∈ e.before.nodeRuns, ∀ s, n.startedAt = some s →
      ∃ n' ∈ e.after.nodeRuns, n'.nodeId = n.nodeId ∧ n'.startedAt = some s) ∧
    (Timed log → ∀ n ∈ db.nodeRuns, ∀ s f, n.startedAt = some s → n.finishedAt = some f →
      s ≤ f) := by
  refine ⟨h.throughout_iff createRun_followed Followed.step_iff, ?_, ?_⟩
  · intro e he n hn s hs
    obtain ⟨later, earlier, rfl⟩ := List.append_of_mem he
    obtain ⟨hearlier, hexec⟩ := h.entry
    exact RunOp.exec_startedAt hearlier.coupled hexec hn hs
  · intro htimed n hn
    exact (h.ordered htimed (h.coupled.findNodeRun_eq_some_iff.mpr ⟨hn, rfl⟩)).order

/-! ## Concrete runs -/

/-- Data Input, shell tool, Data Output. -/
def shellGraph : ParsedGraph where
  nodes :=
    [{ id := "in", type := .data, subtype := "input", name := "Input" },
      { id := "tool", type := .tool, subtype := "shell", name := "Tool"
        config := [("command", .str "make")] },
      { id := "out", type := .data, subtype := "output", name := "Output" }]
  edges :=
    [{ id := "e1", source := "in", target := "tool" },
      { id := "e2", source := "tool", target := "out" }]
  nodeIds_nodup := by decide
  edges_closed := by decide

def shellRun : RunRecord where
  run := { id := "run", graph := shellGraph }
  nodeRuns := shellGraph.nodes.map (createNodeRun [])

theorem createRun_shellRun : createRun plainEnv 0 "run" shellGraph [] [] = .ok shellRun :=
  rfl

/-- A Runner with the capability of `shellRun`. -/
def makeRunner : Runner where
  id := "r"
  name := "Runner"
  capabilities := ["shell"]

/-- A Runner starts the tool. -/
theorem node_bookkeeping_iff_shellRun : ∃ log db, History plainEnv log db ∧
    (∃ n ∈ db.nodeRuns, n.attempt = 1 ∧ n.startedAt = some 5) ∧ Throughout Followed log db := by
  obtain ⟨db₁, h₁, db₂, h₂, db₃, h₃, hstarted⟩ :
      ∃ db₁, RunOp.exec plainEnv (.startRun 3) shellRun = .ok (true, db₁) ∧
        ∃ db₂, RunOp.exec plainEnv (.schedule 4) db₁ = .ok (true, db₂) ∧
          ∃ db₃, RunOp.exec plainEnv (.runnerClaim 5 makeRunner "t" 60 0) db₂ = .ok (true, db₃) ∧
            ∃ n ∈ db₃.nodeRuns, n.attempt = 1 ∧ n.startedAt = some 5 :=
    ⟨_, rfl, _, rfl, _, rfl, by decide⟩
  have hhistory := ((History.created createRun_shellRun).step h₁).step h₂ |>.step h₃
  refine ⟨_, db₃, hhistory, hstarted, (node_bookkeeping_iff hhistory).1.mpr ?_⟩
  simp [RunOp.startsOnServer]

/-- A server Worker starts the service: its NodeRun is RUNNING with attempt 0 and without
a start, its task with attempt 1. -/
theorem not_node_bookkeeping : ∃ log db, History plainEnv log db ∧
    (∃ n ∈ db.nodeRuns, ∃ t ∈ db.tasks, t.nodeRunId = n.nodeId ∧ n.status = .running ∧
      n.attempt = 0 ∧ t.attempt = 1 ∧ n.startedAt = none ∧ t.startedAt = some 3) ∧
    ¬Followed log db := by
  obtain ⟨db₁, h₁, db₂, h₂, db₃, h₃, db₄, h₄, n, hn, t, ht, hfields⟩ :
      ∃ db₁, RunOp.exec plainEnv (.startRun 0) serviceRun = .ok (true, db₁) ∧
        ∃ db₂, RunOp.exec plainEnv (.schedule 1) db₁ = .ok (true, db₂) ∧
          ∃ db₃, RunOp.exec plainEnv (.claim 2 "w" "t" 60 none false 0) db₂ = .ok (true, db₃) ∧
            ∃ db₄, RunOp.exec plainEnv (.start 3 0 "w" "t") db₃ = .ok (true, db₄) ∧
              ∃ n ∈ db₄.nodeRuns, ∃ t ∈ db₄.tasks, t.nodeRunId = n.nodeId ∧ n.status = .running ∧
                n.attempt = 0 ∧ t.attempt = 1 ∧ n.startedAt = none ∧ t.startedAt = some 3 :=
    ⟨_, rfl, _, rfl, _, rfl, _, rfl, by decide⟩
  have hhistory :=
    (((History.created createRun_serviceRun).step h₁).step h₂).step h₃ |>.step h₄
  refine ⟨_, db₄, hhistory, ⟨n, hn, t, ht, hfields⟩, fun hf ↦ ?_⟩
  have hattempt := (hf n hn t ht hfields.1).attempt
  omega

end Relayvia
