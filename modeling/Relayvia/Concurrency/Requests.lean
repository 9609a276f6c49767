import Relayvia.Concurrency.Inserts
import Relayvia.Concurrency.LockOrder

/-!
# Ordered requests

Which transactions request the row locks in the order `WorkflowRun → ExecutionTask →
NodeRun`, and which of them begin with the run.
-/

namespace Relayvia

open WaitFor (Request)

variable {env : Env} {now : Time} {view : View} {db rows : RunRecord} {s : Session}
  {caller : Caller}

/-! ## Reconciliations -/

theorem reconcileFlushes_running (h : reconcileFlushes env now rows ≠ []) :
    rows.run.status = .running := by
  unfold reconcileFlushes at h
  split at h
  · next hstatus _ => exact hstatus
  · exact absurd rfl h

/-- A reconciliation that derives FAILED or does nothing schedules nothing more. -/
theorem finishFlushes_eq_nil
    (h : rows.run.status = .cancelled ∨ derivesFailed env now rows = true) :
    finishFlushes env now rows = [] := by
  unfold finishFlushes
  split
  · rfl
  · rfl
  · rfl
  · rfl
  · next hcancelled hcompleted hfailed hpaused =>
    split
    · next s hderive =>
      rcases h with h | h
      · exact absurd h hcancelled
      · unfold derivesFailed at h
        split at h <;> simp_all
    · rfl

/-- A reconciliation that does not cancel the tasks keeps them. -/
theorem reconcileOn_kept (hcancelled : rows.run.status ≠ .cancelled)
    (hfailed : derivesFailed env now rows = false) (h : reconcileOn env now view rows = .ok s) :
    s.tasks.take rows.tasks.length = rows.tasks := by
  have hstart : ({ rows with } : Session).tasks.take rows.tasks.length = rows.tasks :=
    List.take_length
  rcases reconcileOn_ok h with hstatus | ⟨-, rfl⟩ | ⟨hstatus, derived, s₁, hderived, h⟩
  · exact absurd hstatus hcancelled
  · exact hstart
  · have hne : derived ≠ .failed := by
      intro heq
      unfold derivesFailed at hfailed
      rcases hstatus with hstatus | hstatus | hstatus <;>
        simp [hstatus, hderived, heq] at hfailed
    have hs₁ := (reconcileDerive_inserted (.start rows)).of_ok hderived
    rw [if_neg hne] at h
    obtain ⟨s₂, rfl, hs₂⟩ := reconcileFinish_ok h
    rcases hs₂ with ⟨-, rfl⟩ | ⟨-, hschedule⟩
    · exact (recordDerived_inserting hs₁ hne).kept
    · exact ((scheduleReadyNodes_inserted (recordDerived_inserting hs₁ hne)).of_ok hschedule).1.kept

/-- The tasks of a reconciliation are changed only when they are locked. -/
theorem updates_reconcile (hcancelled : (view.rows db).run.status ≠ .cancelled)
    (hfailed : derivesFailed env now (view.rows db) = false) (htasks : view.tasks = none) :
    (Transaction.reconcile now caller).updates env view db = [] := by
  unfold Transaction.updates
  split
  · next s hrun =>
    apply taskUpdates_of_kept
    rw [Transaction.base, htasks]
    exact reconcileOn_kept hcancelled hfailed hrun
  · rfl

theorem updates_of_no_tasks {tx : Transaction} (htasks : view.tasks = some []) :
    tx.updates env view db = [] := by
  unfold Transaction.updates
  split
  · simp [taskUpdates, Transaction.base, htasks]
  · rfl

/-- The rows that a reconciliation requests after that of the run, phase by phase. -/
structure Phases where
  /-- the tasks of a CANCELLED run -/
  cancelled : List RowLock
  /-- the flushes before it derives the status -/
  flushed : List RowLock
  /-- the tasks of a run that fails -/
  failed : List RowLock
  /-- the flushes before the commit -/
  late : List RowLock
  updated : List RowLock
  written : List RowLock

namespace Phases

def requested (p : Phases) : List RowLock :=
  .run :: (p.cancelled ++ (p.flushed ++ p.failed ++ (p.late ++ p.updated ++ p.written)))

/-- The phases of a reconciliation of `rows` that finds the tasks `tasks`. -/
structure Of (env : Env) (now : Time) (rows : RunRecord) (tasks : List ExecutionTask)
    (p : Phases) : Prop where
  ofTasks : ∀ row ∈ p.cancelled ++ p.failed ++ p.updated, row.level = 1
  ofOthers : ∀ row ∈ p.flushed ++ p.late ++ p.written, row.level ≠ 1
  cancelled : rows.run.status ≠ .cancelled → p.cancelled = []
  flushed : reconcileFlushes env now rows = [] → p.flushed = []
  node : reconcileFlushes env now rows ≠ [] → ∃ row ∈ p.flushed, row.level = 2
  failed : p.failed =
    if derivesFailed env now rows then tasks.map (RowLock.task ·.id) else []
  late : finishFlushes env now rows = [] → p.late = []
  updated : rows.run.status ≠ .cancelled → derivesFailed env now rows = false → p.updated = []
  updated_of_no_tasks : derivesFailed env now rows = true → tasks = [] → p.updated = []

variable {p : Phases} {tasks : List ExecutionTask}

/-- Nothing is flushed before a task is requested, or no task is. -/
theorem Of.ordered (h : p.Of env now rows tasks)
    (hphases : p.flushed = [] ∧ p.late = [] ∨ p.cancelled = [] ∧ p.failed = [] ∧ p.updated = []) :
    LockOrdered p.requested := by
  have hsplit : p.requested =
      .run :: ((p.cancelled ++ p.failed ++ p.updated) ++ (p.flushed ++ p.late ++ p.written)) := by
    rcases hphases with ⟨hflushed, hlate⟩ | ⟨hcancelled, hfailed, hupdated⟩
    · simp [requested, hflushed, hlate]
    · simp [requested, hcancelled, hfailed, hupdated]
  rw [hsplit]
  exact LockOrdered.of_run h.ofTasks h.ofOthers

theorem Of.ordered_iff (h : p.Of env now rows tasks) :
    LockOrdered p.requested ↔
      ¬(reconcileFlushes env now rows ≠ [] ∧ derivesFailed env now rows = true ∧ tasks ≠ []) := by
  constructor
  · rintro hordered ⟨hflushes, hfails, htasks⟩
    obtain ⟨late, hlate, hlevel⟩ := h.node hflushes
    have hcancelled : p.cancelled = [] :=
      h.cancelled (by rw [reconcileFlushes_running hflushes]; decide)
    have hfailed : p.failed = tasks.map (RowLock.task ·.id) := by rw [h.failed, if_pos hfails]
    apply @not_ordered_of_split _ (.run :: p.flushed)
      (p.failed ++ (p.late ++ p.updated ++ p.written)) 1 late _ _
      (List.mem_cons_of_mem _ hlate) _ _ hordered
    · simp [requested, hcancelled]
    · intro row hrow
      rcases List.mem_cons.mp hrow with rfl | hrow
      · exact Nat.zero_ne_one
      · exact h.ofOthers row (by simp [hrow])
    · omega
    · obtain ⟨t, ts, hcons⟩ := List.exists_cons_of_ne_nil htasks
      exact ⟨.task t.id, by simp [hfailed, hcons], rfl⟩
  · intro hnot
    by_cases hfails : derivesFailed env now rows = true
    · have hlate : p.late = [] := h.late (finishFlushes_eq_nil (.inr hfails))
      by_cases hflushes : reconcileFlushes env now rows = []
      · exact h.ordered (.inl ⟨h.flushed hflushes, hlate⟩)
      · have htasks : tasks = [] := by
          by_contra hne
          exact hnot ⟨hflushes, hfails, hne⟩
        have hcancelled : p.cancelled = [] :=
          h.cancelled (by rw [reconcileFlushes_running hflushes]; decide)
        have hfailed : p.failed = [] := by rw [h.failed, if_pos hfails, htasks, List.map_nil]
        exact h.ordered (.inr ⟨hcancelled, hfailed, h.updated_of_no_tasks hfails htasks⟩)
    · have hfails : derivesFailed env now rows = false := by simpa using hfails
      have hfailed : p.failed = [] := by rw [h.failed, hfails]; rfl
      by_cases hcancelled : rows.run.status = .cancelled
      · have hflushes : reconcileFlushes env now rows = [] := by
          by_contra hne
          rw [reconcileFlushes_running hne] at hcancelled
          cases hcancelled
        have hlate := h.late (finishFlushes_eq_nil (.inl hcancelled))
        exact h.ordered (.inl ⟨h.flushed hflushes, hlate⟩)
      · have hupdated := h.updated hcancelled hfails
        exact h.ordered (.inr ⟨h.cancelled hcancelled, hfailed, hupdated⟩)

end Phases

/-- The statements of a reconciliation from the lock on the run on. -/
def lockedStatements (now : Time) : List Statement :=
  [.lockRun, .lockTasksOfCancelled, .select, .lockTasksOfFailed now]

theorem level_taskRows {c : Prop} [Decidable c] {tasks : List ExecutionTask} {row : RowLock}
    (h : row ∈ if c then tasks.map (RowLock.task ·.id) else []) : row.level = 1 := by
  split at h
  · obtain ⟨t, -, rfl⟩ := List.mem_map.mp h
    rfl
  · cases h

/-- A flush with a workspace requests the row of its node. -/
theorem Transaction.exists_node_flushRequests
    (h : reconcileFlushes env now rows ≠ []) :
    ∃ row ∈ (flushRequests view db (reconcileFlushes env now rows)).map Request.row,
      row.level = 2 := by
  obtain ⟨flushed, hflushed⟩ := List.exists_mem_of_ne_nil _ h
  obtain ⟨r, hr, hlevel⟩ := @level_of_workspace (base view db) _
    (workspaces_of_reconcileFlush flushed hflushed)
  exact ⟨r.row, List.mem_map_of_mem (List.mem_flatMap.mpr ⟨flushed, hflushed, hr⟩), hlevel⟩

theorem reconcile_phases (htasks : view.tasks = none) (rows : ℕ → RunRecord) :
    ∃ p : Phases,
      ((Transaction.reconcile now caller).acquire env view (lockedStatements now) rows).map
        Request.row = p.requested ∧
      p.Of env now
        { run := view.run.getD (rows 0).run
          nodeRuns := (view.snapshot.getD (rows 2)).nodeRuns
          tasks := (view.snapshot.getD (rows 2)).tasks } (rows 3).tasks := by
  let work : RunRecord :=
    { run := view.run.getD (rows 0).run
      nodeRuns := (view.snapshot.getD (rows 2)).nodeRuns
      tasks := (view.snapshot.getD (rows 2)).tasks }
  let v₁ := Statement.read env view (rows 0) .lockRun
  let v₂ := Statement.read env v₁ (rows 1) .lockTasksOfCancelled
  let v₃ := Statement.read env v₂ (rows 2) .select
  let v₄ := Statement.read env v₃ (rows 3) (.lockTasksOfFailed now)
  have hrun₁ : v₁.run = some work.run := by
    cases hrun : view.run with
    | none | some => simp [v₁, work, Statement.read, hrun]
  have hwork₁ : (v₁.rows (rows 1)).run = work.run := by simp [View.rows, hrun₁]
  have hv₂ : v₂ = if work.run.status = .cancelled then { v₁ with tasks := some (rows 1).tasks }
      else v₁ := by
    simp [v₂, Statement.read, Statement.locksTasks, hwork₁]
  have hwork₃ (db : RunRecord) : v₃.rows db = work := by
    have hrun₂ : v₂.run = some work.run ∧ v₂.snapshot = view.snapshot := by
      rw [hv₂]
      split <;> exact ⟨hrun₁, rfl⟩
    have hsnapshot : v₃.snapshot = some (view.snapshot.getD (rows 2)) := by
      cases hsnapshot : view.snapshot with
      | none | some => simp [v₃, Statement.read, View.pin, hrun₂.2, hsnapshot]
    simp only [View.rows, hsnapshot, Option.getD_some, work]
    rw [show v₃.run = some work.run from hrun₂.1]
    rfl
  have hv₄ : v₄ = if derivesFailed env now work = true then
      { v₃ with tasks := some (rows 3).tasks } else v₃ := by
    simp only [v₄, Statement.read, Statement.locksTasks, hwork₃]
  have hwork₄ (db : RunRecord) : v₄.rows db = work := by
    rw [hv₄]
    split <;> exact hwork₃ db
  let tx := Transaction.reconcile now caller
  let p : Phases :=
    { cancelled :=
        if work.run.status = .cancelled then (rows 1).tasks.map (RowLock.task ·.id) else []
      flushed := (Transaction.flushRequests v₃ (rows 3) (reconcileFlushes env now work)).map
        Request.row
      failed := if derivesFailed env now work then (rows 3).tasks.map (RowLock.task ·.id) else []
      late := (Transaction.flushRequests v₄ (rows 4) (finishFlushes env now work)).map Request.row
      updated := (tx.updates env v₄ (rows 4)).map Request.row
      written := (tx.writes env v₄ (rows 4)).map Request.row }
  have hcancelled : Statement.locks env v₁ (rows 1) .lockTasksOfCancelled = p.cancelled := by
    simp [Statement.locks, Statement.locksTasks, hwork₁, p]
  have hfailed : Statement.locks env v₃ (rows 3) (.lockTasksOfFailed now) = p.failed := by
    simp [Statement.locks, Statement.locksTasks, hwork₃, p]
  have hclosing : tx.closing env v₄ (rows 4) =
      Transaction.flushRequests v₄ (rows 4) (finishFlushes env now work) ++
        tx.updates env v₄ (rows 4) ++ tx.writes env v₄ (rows 4) := by
    simp only [Transaction.closing, Transaction.lateFlushes, tx, hwork₄]
  have hacquire : tx.acquire env view (lockedStatements now) rows =
      exclusive .run :: (p.cancelled.map exclusive ++
        (Transaction.flushRequests v₃ (rows 3) (reconcileFlushes env now work) ++
          p.failed.map exclusive ++ tx.closing env v₄ (rows 4))) := by
    rw [← hcancelled, ← hfailed, ← hwork₃ (rows 3)]
    rfl
  have htasks₄ (hne : work.run.status ≠ .cancelled) (hfails : derivesFailed env now work = false) :
      v₄.tasks = none := by
    rw [hv₄, if_neg (by simp [hfails])]
    have htasks₂ : v₂.tasks = none := by
      rw [hv₂, if_neg hne]
      exact htasks
    exact htasks₂
  refine ⟨p, ?_, ?_⟩
  · rw [hacquire, hclosing]
    simp [Phases.requested, p, exclusive, Function.comp_def]
  · constructor
    · intro row hrow
      simp only [List.mem_append] at hrow
      rcases hrow with (hrow | hrow) | hrow
      · exact level_taskRows hrow
      · exact level_taskRows hrow
      · obtain ⟨r, hr, rfl⟩ := List.mem_map.mp hrow
        exact Transaction.level_updates r hr
    · intro row hrow
      simp only [List.mem_append] at hrow
      rcases hrow with (hrow | hrow) | hrow
      · obtain ⟨r, hr, rfl⟩ := List.mem_map.mp hrow
        exact Transaction.level_flushRequests r hr
      · obtain ⟨r, hr, rfl⟩ := List.mem_map.mp hrow
        exact Transaction.level_flushRequests r hr
      · obtain ⟨r, hr, rfl⟩ := List.mem_map.mp hrow
        exact Transaction.level_writes r hr
    · intro hne
      exact if_neg hne
    · intro hnone
      simp [p, work, hnone, Transaction.flushRequests]
    · intro hflushes
      exact Transaction.exists_node_flushRequests hflushes
    · rfl
    · intro hnone
      simp [p, work, hnone, Transaction.flushRequests]
    · intro hne hfails
      have hnone : tx.updates env v₄ (rows 4) = [] :=
        updates_reconcile (by rwa [hwork₄]) (by rwa [hwork₄]) (htasks₄ hne hfails)
      simp [p, hnone]
    · intro hfails hno
      have hnone : tx.updates env v₄ (rows 4) = [] := by
        apply updates_of_no_tasks
        rw [hv₄, if_pos hfails, hno]
      simp [p, hnone]

/-! ## Reports -/

section Reports

variable {id : NodeId} {task : TaskId} {workerId leaseToken : String}
  {body : ExecutionTask → Except Raised RunRecord} {target : ExecutionTaskStatus}
  {nodeTarget : NodeRunStatus} {legal : NodeId → Prop} {f : NodeRun → NodeRun}

theorem transitionExecutionTask_decides {status : ExecutionTaskStatus} :
    Outcome.Decides (liftM (transitionExecutionTask status target) : Except Raised Unit)
      (target ∈ status.transitions) := by
  apply holds_liftM
  apply Outcome.holds_of_forall
  · intro _ h
    exact transitionExecutionTask_ok_iff.mp h
  · intro e h hmem
    rw [transitionExecutionTask_ok_iff.mpr hmem] at h
    cases h

theorem transitionNodeRun_decides {status : NodeRunStatus} :
    Outcome.Decides (liftM (transitionNodeRun status nodeTarget) : Except Raised Unit)
      (nodeTarget ∈ status.transitions) := by
  apply holds_liftM
  apply Outcome.holds_of_forall
  · intro _ h
    exact transitionNodeRun_ok_iff.mp h
  · intro e h hmem
    rw [transitionNodeRun_ok_iff.mpr hmem] at h
    cases h

theorem advanceNode_decides :
    Outcome.Decides (advanceNode db id nodeTarget f)
      (∀ n, findNodeRun db.nodeRuns id = some n → nodeTarget ∈ n.status.transitions) := by
  unfold advanceNode
  split
  · next n hn =>
    apply (transitionNodeRun_decides.bind fun _ _ ↦ Outcome.decides_pure).congr
    simp [hn]
  · next hn =>
    apply Outcome.decides_pure.congr
    simp [hn]

theorem nodeStatus_decides :
    Outcome.Decides (nodeStatus db id nodeTarget)
      (∀ n, findNodeRun db.nodeRuns id = some n →
        n.status = nodeTarget ∨ nodeTarget ∈ n.status.transitions) := by
  unfold nodeStatus
  split
  · next heq =>
    apply Outcome.decides_pure.congr
    obtain ⟨n, hn, hstatus⟩ := Option.map_eq_some_iff.mp heq
    simp [hn, hstatus]
  · next hne =>
    apply advanceNode_decides.congr
    constructor
    · exact fun h n hn ↦ .inr (h n hn)
    · intro h n hn
      apply (h n hn).resolve_left
      rintro rfl
      exact hne (by simp [statusOf, hn])

theorem advanceOpenNode_decides :
    Outcome.Decides (advanceOpenNode db id nodeTarget f)
      (∀ n, findNodeRun db.nodeRuns id = some n →
        n.status.isTerminal = true ∨ nodeTarget ∈ n.status.transitions) := by
  unfold advanceOpenNode
  split
  · next hterminal =>
    apply Outcome.decides_pure.congr
    simp only [true_iff]
    intro n hn
    left
    simpa [statusOf, hn] using hterminal
  · next hopen =>
    apply advanceNode_decides.congr
    constructor
    · exact fun h n hn ↦ .inr (h n hn)
    · intro h n hn
      apply (h n hn).resolve_left
      intro hterminal
      exact hopen (by simp [statusOf, hn, hterminal])

/-- A report inserts an event when `c` holds, and changes nothing otherwise. -/
def ReportsWhen (db : RunRecord) (x : Except Raised (Bool × RunRecord)) (c : Prop) : Prop :=
  (c ∧ ∃ p, x = .ok p ∧ p.2.events ≠ []) ∨ (¬c ∧ ∀ p, x = .ok p → p.2 = db)

theorem withLease_report
    (hbody : ∀ t, Outcome.Decides (body t) (target ∈ t.status.transitions ∧ legal t.nodeRunId))
    (hevents : ∀ t, Returns (body t) fun db' ↦ db'.events ≠ []) :
    ReportsWhen db (withLease now task workerId leaseToken db body)
      (Accepts db now task workerId leaseToken target legal) := by
  cases htask : findTask db.tasks task with
  | none =>
      right
      constructor
      · rintro ⟨t, ht, -⟩
        rw [htask] at ht
        cases ht
      · intro p hp
        simp only [withLease, htask] at hp
        cases hp
        rfl
  | some t =>
      by_cases howns : owns now workerId leaseToken t = true
      · have haccepts : Accepts db now task workerId leaseToken target legal ↔
            target ∈ t.status.transitions ∧ legal t.nodeRunId := by
          simp [Accepts, htask, howns]
        have hwith : withLease now task workerId leaseToken db body =
            (do return (true, ← body t)) := by
          simp [withLease, htask, howns]
        have hlegal := hbody t
        have hinserts := hevents t
        rw [hwith, haccepts]
        cases hbody : body t with
        | ok db' =>
            rw [hbody] at hlegal hinserts
            exact .inl ⟨hlegal, (true, db'), rfl, hinserts⟩
        | error e =>
            rw [hbody] at hlegal
            refine .inr ⟨hlegal, ?_⟩
            intro p hp
            cases hp
      · right
        constructor
        · rintro ⟨t', ht', howns', -⟩
          rw [htask] at ht'
          cases ht'
          exact howns howns'
        · intro p hp
          simp only [withLease, htask, howns] at hp
          cases hp
          rfl

theorem recordEvent_ne_nil (db : RunRecord) (event : RunEvent) :
    (db.recordEvent event).events ≠ [] :=
  List.append_ne_nil_of_right_ne_nil _ (List.cons_ne_nil _ _)

theorem complete_report {output executionMetadata : Dict} {artifacts : List Json} :
    ReportsWhen db (complete now task workerId leaseToken output executionMetadata artifacts db)
      (Accepts db now task workerId leaseToken .completed fun id ↦
        ∀ n, findNodeRun db.nodeRuns id = some n → .completed ∈ n.status.transitions) := by
  apply withLease_report
  · intro t
    apply transitionExecutionTask_decides.bind
    intro _ _
    apply (advanceNode_decides.bind fun _ _ ↦ Outcome.decides_pure).congr
    exact iff_of_eq (and_true _)
  · intro t
    refine Outcome.Holds.bind (returns_any _) fun _ _ ↦ Outcome.Holds.bind (returns_any _) ?_
    exact fun db' _ ↦ recordEvent_ne_nil db' _

theorem fail_report {error executionMetadata : Dict} {artifacts : List Json} :
    ReportsWhen db (fail now task workerId leaseToken error executionMetadata artifacts db)
      (Accepts db now task workerId leaseToken .failed fun id ↦
        ∀ n, findNodeRun db.nodeRuns id = some n →
          n.status.isTerminal = true ∨ .failed ∈ n.status.transitions) := by
  apply withLease_report
  · intro t
    apply transitionExecutionTask_decides.bind
    intro _ _
    apply (advanceOpenNode_decides.bind fun _ _ ↦ Outcome.decides_pure).congr
    exact iff_of_eq (and_true _)
  · intro t
    refine Outcome.Holds.bind (returns_any _) fun _ _ ↦ Outcome.Holds.bind (returns_any _) ?_
    exact fun db' _ ↦ recordEvent_ne_nil db' _

theorem waitNode_report {waitingReason : String} {waitingMetadata : Dict} :
    ReportsWhen db (waitNode now task workerId leaseToken waitingReason waitingMetadata db)
      (Accepts db now task workerId leaseToken .completed fun id ↦
        (∀ n, findNodeRun db.nodeRuns id = some n → .waiting ∈ n.status.transitions) ∧
          ¬waitingMetadata.any (·.1 ∈ reservedTraceKeywords)) := by
  apply withLease_report
  · intro t
    apply transitionExecutionTask_decides.bind
    intro _ _
    apply advanceNode_decides.bind
    intro db' _
    by_cases hreserved : waitingMetadata.any (·.1 ∈ reservedTraceKeywords) = true
    · rw [if_pos hreserved]
      exact fun hnot ↦ hnot hreserved
    · rw [if_neg hreserved]
      exact hreserved
  · intro t
    refine Outcome.Holds.bind (returns_any _) fun _ _ ↦ Outcome.Holds.bind (returns_any _) ?_
    exact fun db' _ ↦ Outcome.Holds.ite (fun _ ↦ trivial) fun _ ↦ recordEvent_ne_nil db' _

theorem scheduleRetry_report {backoffSeconds : ℕ} :
    ReportsWhen db (scheduleRetry now task workerId leaseToken backoffSeconds db)
      (Accepts db now task workerId leaseToken .retryWait fun id ↦
        ∀ n, findNodeRun db.nodeRuns id = some n →
          n.status = .retrying ∨ .retrying ∈ n.status.transitions) := by
  apply withLease_report
  · intro t
    apply transitionExecutionTask_decides.bind
    intro _ _
    apply (nodeStatus_decides.bind fun _ _ ↦ Outcome.decides_pure).congr
    exact iff_of_eq (and_true _)
  · intro t
    refine Outcome.Holds.bind (returns_any _) fun _ _ ↦ Outcome.Holds.bind (returns_any _) ?_
    exact fun db' _ ↦ recordEvent_ne_nil db' _

/-- The requests of a report after its task. -/
theorem closing_report {tx : Transaction} {x : Except Raised (Bool × RunRecord)} {c : Prop}
    (hclosing : tx.closing env view db = tx.updates env view db ++ tx.writes env view db)
    (hrun : tx.run env view db = x.map fun p ↦ { p.2 with })
    (hx : ReportsWhen (Transaction.base view db) x c) :
    (c ∧ ∃ r ∈ tx.closing env view db, r.row = .run) ∨ (¬c ∧ tx.closing env view db = []) := by
  rcases hx with ⟨hc, p, rfl, hevents⟩ | ⟨hc, hkept⟩
  · left
    obtain ⟨r, hr, hrow⟩ := @run_mem_flushWrites (Transaction.base view db) { p.2 with } hevents
    refine ⟨hc, r, ?_, hrow⟩
    rw [hclosing, Transaction.writes, hrun]
    exact List.mem_append_right _ hr
  · refine .inr ⟨hc, ?_⟩
    rw [hclosing, Transaction.updates, Transaction.writes, hrun]
    cases x with
    | error e => rfl
    | ok p =>
        have hbase := hkept p rfl
        have hupdates : taskUpdates (Transaction.base view db) { p.2 with } = [] := by
          apply taskUpdates_of_kept
          rw [hbase]
          exact List.take_length
        have hwrites : flushWrites (Transaction.base view db) { p.2 with } = [] := by
          apply flushWrites_of_kept <;> rw [hbase] <;> rfl
        simp [Except.map, hupdates, hwrites]

end Reports

/-! ## All transactions -/

variable {tx : Transaction}

/-- The run, tasks, and the flush of the commit. -/
theorem ordered_runFirst {requested first : List (Request RowLock)}
    (hfirst : ∀ r ∈ first, r.row.level = 1)
    (h : requested =
      exclusive .run :: (first ++ (tx.updates env view db ++ tx.writes env view db))) :
    LockOrdered (requested.map Request.row) := by
  have hsplit : requested.map Request.row =
      .run :: ((first ++ tx.updates env view db).map Request.row ++
        (tx.writes env view db).map Request.row) := by
    simp [h, exclusive]
  rw [hsplit]
  apply LockOrdered.of_run
  · intro row hrow
    obtain ⟨r, hr, rfl⟩ := List.mem_map.mp hrow
    rcases List.mem_append.mp hr with hr | hr
    · exact hfirst r hr
    · exact Transaction.level_updates r hr
  · intro row hrow
    obtain ⟨r, hr, rfl⟩ := List.mem_map.mp hrow
    exact Transaction.level_writes r hr

theorem HumanAction.apply_tasks {id : NodeId} (action : HumanAction) :
    Returns (action.apply env now id db) fun db' ↦ db'.tasks = db.tasks := by
  have happly {result : HumanResult} :
      Returns (applyHumanResult now db id result) fun db' ↦ db'.tasks = db.tasks :=
    Outcome.Holds.bind (returns_any _) fun _ _ ↦ Outcome.holds_pure.mpr rfl
  cases action with
  | approve =>
      refine Outcome.Holds.bind (returns_any _) fun _ _ ↦ Outcome.Holds.bind (returns_any _) fun _ _ ↦ ?_
      exact Outcome.Holds.bind (returns_any _) fun _ _ ↦ happly
  | reject =>
      refine Outcome.Holds.bind (returns_any _) fun _ _ ↦ Outcome.Holds.bind (returns_any _) fun _ _ ↦ ?_
      refine Outcome.Holds.bind (returns_any _) fun _ _ ↦ ?_
      exact Outcome.Holds.ite (fun _ ↦ trivial) fun _ ↦ happly
  | submit input =>
      refine Outcome.Holds.bind (returns_any _) fun _ _ ↦ Outcome.Holds.bind (returns_any _) fun _ _ ↦ ?_
      refine Outcome.Holds.bind (returns_any _) fun _ _ ↦ Outcome.Holds.bind (returns_any _) fun _ _ ↦ ?_
      exact happly

theorem updates_human {id : NodeId} {action : HumanAction} :
    (Transaction.human now id action).updates env view db = [] := by
  unfold Transaction.updates
  split
  · next s hrun =>
    apply taskUpdates_of_kept
    rw [Transaction.run] at hrun
    cases haction : action.apply env now id (Transaction.base view db) with
    | error e =>
        rw [haction] at hrun
        cases hrun
    | ok db' =>
        rw [haction] at hrun
        cases hrun
        rw [show db'.tasks = _ from action.apply_tasks.of_ok haction]
        exact List.take_length
  · rfl

theorem renewLease_modifies {task : TaskId} {workerId leaseToken : String} {leaseSeconds : ℕ} :
    Returns (renewLease now task workerId leaseToken leaseSeconds db) fun p ↦
      ∃ f, p.2 = db.modifyTask task f := by
  have hkept : ∃ f, db = db.modifyTask task f :=
    ⟨fun t ↦ t, by simp [RunRecord.modifyTask, Table.modify]⟩
  unfold renewLease withLease
  split
  · exact Outcome.Holds.ite (fun _ ↦ hkept) fun _ ↦ ⟨_, rfl⟩
  · exact hkept

/-- A renewed lease locks and updates its task only. -/
theorem closing_renewLease {task : TaskId} {workerId leaseToken : String} {leaseSeconds : ℕ} :
    ∀ r ∈ (Transaction.renewLease now task workerId leaseToken leaseSeconds).closing env view db,
      r = exclusive (.task task) := by
  intro r hr
  simp only [Transaction.closing, Transaction.lateFlushes, Transaction.flushRequests,
    Transaction.updates, Transaction.writes, Transaction.run, List.flatMap_nil,
    List.nil_append] at hr
  cases hrenew : renewLease now task workerId leaseToken leaseSeconds (Transaction.base view db) with
  | error e =>
      rw [hrenew] at hr
      cases hr
  | ok p =>
      obtain ⟨f, hf⟩ := renewLease_modifies.of_ok hrenew
      have hwrites : flushWrites (Transaction.base view db) { p.2 with } = [] := by
        rw [hf]
        apply flushWrites_of_kept
        · exact List.length_map _
        all_goals rfl
      rw [hrenew] at hr
      simp only [Except.map, hwrites, List.append_nil] at hr
      exact taskUpdates_modify (by rw [hf]; rfl) r hr

namespace Transaction

/-- The run, its node, and the flush of the commit. -/
theorem ordered_human {id : NodeId} {action : HumanAction} {requested : List (Request RowLock)}
    (h : requested = exclusive .run :: exclusive (.node id) ::
      ((human now id action).updates env view db ++ (human now id action).writes env view db)) :
    LockOrdered (requested.map Request.row) := by
  rw [h, updates_human]
  apply @LockOrdered.of_run []
  · intro row hrow
    cases hrow
  · intro row hrow
    rcases List.mem_cons.mp hrow with rfl | hrow
    · exact Nat.succ_ne_self 1
    · obtain ⟨r, hr, rfl⟩ := List.mem_map.mp hrow
      exact level_writes r hr

theorem findTask_filter (tasks : List ExecutionTask) (task : TaskId) :
    findTask (tasks.filter (·.id = task)) task = findTask tasks task := by
  simp only [findTask, Table.find?, List.find?_filter]
  congr 1
  funext t
  simp

/-- What a report has read before its commit. -/
def reportView (rows : ℕ → RunRecord) (task : TaskId) : View :=
  { snapshot := some (rows 1), tasks := some ((rows 0).tasks.filter (·.id = task)) }

theorem accepts_base {rows : ℕ → RunRecord} {task : TaskId} {workerId leaseToken : String}
    {target : ExecutionTaskStatus} {legal : NodeId → Prop} :
    Accepts (base (reportView rows task) db) now task workerId leaseToken target legal ↔
      Accepts (rows 0) now task workerId leaseToken target legal := by
  simp [Accepts, base, reportView, findTask_filter]

def isReport : Transaction → Bool
  | complete .. | fail .. | waitNode .. | scheduleRetry .. => true
  | _ => false

/-- A report requests the row of the run, after its task, exactly when it is accepted. -/
theorem report_requests (hreport : tx.isReport = true) (rows : ℕ → RunRecord) :
    ∃ task rest, tx.acquisitions env rows = exclusive (.task task) :: rest ∧
      ((tx.Reports rows ∧ ∃ r ∈ rest, r.row = .run) ∨ (¬tx.Reports rows ∧ rest = [])) := by
  have hrequests {tx : Transaction} {task : TaskId} {view : View} {db : RunRecord} {c : Prop}
      (hrequested : tx.acquisitions env rows = exclusive (.task task) :: tx.closing env view db)
      (hclosing : (c ∧ ∃ r ∈ tx.closing env view db, r.row = .run) ∨
        (¬c ∧ tx.closing env view db = []))
      (hc : c ↔ tx.Reports rows) :
      ∃ task rest, tx.acquisitions env rows = exclusive (.task task) :: rest ∧
        ((tx.Reports rows ∧ ∃ r ∈ rest, r.row = .run) ∨ (¬tx.Reports rows ∧ rest = [])) := by
    rw [hc] at hclosing
    exact ⟨task, _, hrequested, hclosing⟩
  cases tx with
  | complete =>
      apply hrequests rfl (closing_report rfl rfl complete_report)
      exact accepts_base
  | fail =>
      apply hrequests rfl (closing_report rfl rfl fail_report)
      exact accepts_base
  | waitNode =>
      apply hrequests rfl (closing_report rfl rfl waitNode_report)
      exact accepts_base
  | scheduleRetry =>
      apply hrequests rfl (closing_report rfl rfl scheduleRetry_report)
      exact accepts_base
  | _ => cases hreport

theorem ordered_report (hreport : tx.isReport = true) (rows : ℕ → RunRecord) :
    LockOrdered ((tx.acquisitions env rows).map Request.row) ↔ ¬tx.Reports rows := by
  obtain ⟨task, rest, hrequested, ⟨hreports, r, hr, hrow⟩ | ⟨hreports, hnone⟩⟩ :=
    @report_requests env tx hreport rows
  · have hlate : ¬LockOrdered ((exclusive (.task task) :: rest).map Request.row) := by
      apply @not_ordered_of_split _ [.task task] (rest.map Request.row) 0 _ rfl _
        List.mem_cons_self Nat.zero_lt_one
      · exact ⟨r.row, List.mem_map_of_mem hr, by rw [hrow]; rfl⟩
      · simp [RowLock.level]
    rw [hrequested]
    exact iff_of_false hlate fun hnot ↦ hnot hreports
  · rw [hrequested, hnone]
    exact iff_of_true (LockOrdered.of_tasks (by simp [exclusive, RowLock.level])) hreports

theorem ordered_reconcile (rows : ℕ → RunRecord) :
    LockOrdered (((reconcile now caller).acquisitions env rows).map Request.row) ↔
      ¬(reconcile now caller).LocksTasksLate env rows := by
  cases caller with
  | worker =>
      obtain ⟨p, hrequested, hp⟩ := @reconcile_phases env now {} .worker rfl rows
      exact hrequested ▸ hp.ordered_iff
  | action =>
      obtain ⟨p, hrequested, hp⟩ := @reconcile_phases env now
        { snapshot := some (rows 0), run := some (rows 0).run } .action rfl fun n ↦ rows (n + 1)
      exact hrequested ▸ hp.ordered_iff
  | other =>
      obtain ⟨p, hrequested, hp⟩ := @reconcile_phases env now
        { snapshot := some (rows 0) } .other rfl fun n ↦ rows (n + 1)
      exact hrequested ▸ hp.ordered_iff

theorem ordered_iff (hcompetes : tx.competes = true) (rows : ℕ → RunRecord) :
    LockOrdered ((tx.acquisitions env rows).map Request.row) ↔
      ¬tx.Reports rows ∧ ¬tx.LocksTasksLate env rows := by
  -- no report, and no reconciliation
  have hfirst {tx : Transaction} (hreports : tx.Reports rows → False)
      (hlate : tx.LocksTasksLate env rows → False)
      (hordered : LockOrdered ((tx.acquisitions env rows).map Request.row)) :
      LockOrdered ((tx.acquisitions env rows).map Request.row) ↔
        ¬tx.Reports rows ∧ ¬tx.LocksTasksLate env rows :=
    iff_of_true hordered ⟨hreports, hlate⟩
  cases tx with
  | claim _ _ _ _ _ _ task | start _ task | runnerClaim _ _ _ _ task
  | runnerTaskHeartbeat _ _ task | runnerSubmit _ _ task =>
      apply hfirst False.elim False.elim
      apply @ordered_runFirst _ _ _ _ _ [_] _ rfl
      intro r hr
      rw [List.mem_singleton.mp hr]
      rfl
  | cancelRun now =>
      apply hfirst False.elim False.elim
      apply @ordered_runFirst _ _ _ _ _ (((rows 2).tasks.map (RowLock.task ·.id)).map exclusive) _ rfl
      simp [exclusive, RowLock.level]
  | human now id action =>
      apply hfirst False.elim False.elim
      apply ordered_human rfl
  | renewLease now task workerId leaseToken leaseSeconds =>
      apply hfirst False.elim False.elim
      apply LockOrdered.of_tasks
      intro row hrow
      obtain ⟨r, hr, rfl⟩ := List.mem_map.mp hrow
      rcases List.mem_cons.mp hr with rfl | hr
      · rfl
      · rw [closing_renewLease r hr]
        rfl
  | complete | fail | waitNode | scheduleRetry =>
      rw [ordered_report rfl]
      exact (and_iff_left False.elim).symm
  | reconcile now caller =>
      rw [ordered_reconcile]
      exact (and_iff_right False.elim).symm
  | _ => cases hcompetes

/-- A transaction that competes and does not report begins with the run, or locks its
task only. -/
theorem gated (hcompetes : tx.competes = true) {rows : ℕ → RunRecord} (hreports : ¬tx.Reports rows) :
    WaitFor.Gated .run (tx.acquisitions env rows) := by
  have hreport (h : tx.isReport = true) : WaitFor.Gated .run (tx.acquisitions env rows) := by
    obtain ⟨task, rest, hrequested, ⟨haccepted, -⟩ | ⟨-, hnone⟩⟩ := report_requests h rows
    · exact absurd haccepted hreports
    · refine .inr ⟨.task task, ?_⟩
      rw [hrequested, hnone]
      simp [exclusive]
  cases tx with
  | claim | start | runnerClaim | runnerTaskHeartbeat | runnerSubmit | cancelRun | human =>
      exact .inl ⟨_, rfl⟩
  | reconcile now caller =>
      cases caller <;> exact .inl ⟨_, rfl⟩
  | renewLease now task workerId leaseToken leaseSeconds =>
      refine .inr ⟨.task task, ?_⟩
      intro r hr
      rcases List.mem_cons.mp hr with rfl | hr
      · exact ⟨rfl, rfl⟩
      · rw [closing_renewLease r hr]
        exact ⟨rfl, rfl⟩
  | complete | fail | waitNode | scheduleRetry => exact hreport rfl
  | _ => cases hcompetes

end Transaction

end Relayvia
