import Relayvia.Trace.Reconciliation

/-!
# The trace of a run

Replaying the events of a NodeRun gives its status, as long as no transaction
cancels a NodeRun without a live task.
-/

namespace Relayvia

variable {env : Env} {db db' : RunRecord}

/-- The transaction cancels no NodeRun silently: a cancellation finds no PENDING and no
WAITING NodeRun, a failing reconciliation no PENDING one, and a start finds the run
RUNNING, PAUSED or WAITING. -/
def RunOp.Recorded (env : Env) (db : RunRecord) : RunOp → Prop
  | .cancelRun _ => ∀ n ∈ db.nodeRuns, n.status ≠ .pending ∧ n.status ≠ .waiting
  | .reconcile now => ReconcileRecorded env now db
  | .start now task workerId leaseToken =>
      (∃ t, findTask db.tasks task = some t ∧ owns now workerId leaseToken t = true) →
        db.run.status = .running ∨ db.run.status = .paused ∨ db.run.status = .waiting
  | _ => True

theorem start_unowned {now : Time} {task : TaskId} {workerId leaseToken : String}
    (h : ¬∃ t, findTask db.tasks task = some t ∧ owns now workerId leaseToken t = true) :
    start now task workerId leaseToken db = .ok (false, db) := by
  unfold start
  split
  · next t ht =>
    rw [if_pos fun howns ↦ h ⟨t, ht, howns⟩]
    rfl
  · rfl

/-- Every transaction records the changes of NodeRuns that it makes. -/
theorem RunOp.exec_records {op : RunOp} {returned : Bool} (hc : Coupled db)
    (hrecorded : op.Recorded env db) (h : op.exec env db = .ok (returned, db')) :
    Records db db' := by
  have hsound {x : Except Raised (Bool × RunRecord)} (hx : Sound x fun p ↦ Records db p.2)
      (h : x = .ok (returned, db')) : Records db db' := hx.of_ok h
  have hreturning {x : Except Raised RunRecord} (hx : Sound x (Records db))
      (h : returning x = .ok (returned, db')) : Records db db' :=
    hx.of_ok (returning_eq_ok_iff.mp h).2
  cases op with
  | startRun => exact hreturning startRun_records h
  | schedule => exact scheduleRun_records hc (returning_eq_ok_iff.mp h).2
  | pauseRun => exact hreturning pauseRun_records h
  | resumeRun => exact hreturning resumeRun_records h
  | reconcile => exact reconcile_records hc hrecorded (returning_eq_ok_iff.mp h).2
  | cancelRun => exact (cancelRun_records hc hrecorded).of_ok (returning_eq_ok_iff.mp h).2
  | approve => exact hreturning approveNodeRun_records h
  | reject => exact hreturning rejectNodeRun_records h
  | submit => exact hreturning submitNodeRun_records h
  | claim => exact hsound (claim_records hc) h
  | start now task workerId leaseToken =>
      by_cases howned : ∃ t, findTask db.tasks task = some t ∧ owns now workerId leaseToken t = true
      · exact hsound (start_records hc (hrecorded howned)) h
      · have hidle := (start_unowned howned).symm.trans h
        cases hidle
        exact .refl db
  | complete => exact hsound (complete_records hc) h
  | fail => exact hsound (fail_records hc) h
  | waitNode => exact hsound (waitNode_records hc) h
  | scheduleRetry => exact hsound (scheduleRetry_records hc) h
  | renewLease => exact hsound (renewLease_records hc) h
  | recoverExpired =>
      cases h
      exact .same rfl rfl
  | promoteDueRetries => exact hreturning (promoteDueRetries_records hc) h
  | runnerClaim => exact hsound (runnerClaim_records hc) h
  | runnerTaskHeartbeat => exact hsound runnerTaskHeartbeat_records h
  | runnerSubmit => exact hsound (runnerSubmit_records hc) h

/-- The status of a NodeRun at the creation of its run. -/
def NodeRun.initialStatus (n : NodeRun) : NodeRunStatus :=
  if n.isInput then .completed else .pending

/-- Replaying the events of every NodeRun gives its status. -/
def Traced (db : RunRecord) : Prop :=
  ∀ n ∈ db.nodeRuns, replayNode n.nodeId db.events n.initialStatus = n.status

theorem createRun_traced {now : Time} {id : String} {graph : ParsedGraph}
    {executionSnapshot input : Dict}
    (h : createRun env now id graph executionSnapshot input = .ok db) : Traced db := by
  obtain ⟨_, -, h⟩ := Outcome.bind_eq_ok_iff.mp h
  cases h
  intro n hn
  obtain ⟨node, -, rfl⟩ := List.mem_map.mp hn
  rfl

theorem Records.traced_of (h : Records db db') (hc : Coupled db) (hc' : Coupled db')
    (ht : Traced db) : Traced db' := by
  obtain ⟨hids, new, hevents, hrows⟩ := h
  intro n' hn'
  have hmem : n'.nodeId ∈ db.nodeRuns.map NodeRun.nodeId := by
    rw [← hids]
    exact List.mem_map_of_mem hn'
  obtain ⟨n, hn, hid⟩ := List.mem_map.mp hmem
  obtain ⟨n'', hn'', hinput, hstatus⟩ :=
    hrows n'.nodeId n (hc.findNodeRun_eq_some_iff.mpr ⟨hn, hid⟩)
  rw [hc'.findNodeRun_eq_some_iff.mpr ⟨hn', rfl⟩] at hn''
  cases hn''
  rw [hevents, replayNode_append, ← hstatus, ← ht n hn, hid, NodeRun.initialStatus, hinput]
  rfl

/-- When no step cancels a NodeRun silently, the trace tells the status of every
NodeRun in every state of the run. -/
theorem trace_complete (h : ReachableBy env (RunOp.Recorded env) db) :
    ∀ n ∈ db.nodeRuns, replayNode n.nodeId db.events n.initialStatus = n.status := by
  induction h with
  | created h => exact createRun_traced h
  | step hdb hop h ih =>
      have hc' := Steps.coupled ((RunOp.exec_sound hdb.coupled (RunOp.promised_all _ _)).of_ok h)
        hdb.coupled
      exact (RunOp.exec_records hdb.coupled hop h).traced_of hdb.coupled hc' ih

/-- The approval is parked. -/
def parkOps : List RunOp :=
  [.startRun 0, .schedule 0, .claim 0 "w" "t0" 60 none true 0,
    .waitNode 0 0 "w" "t0" "HUMAN_APPROVAL" []]

/-- It is approved, and the Data Output is executed. -/
def approveOps : List RunOp :=
  parkOps ++ [.approve 1 "ask", .schedule 1, .claim 1 "w" "t1" 60 none true 1,
    .complete 1 1 "w" "t1" [] [] []]

theorem trace_complete_reviewRun : ∃ db, execAll plainEnv approveOps reviewRun = .ok db ∧
    db.nodeRuns.map NodeRun.status = [.completed, .completed, .completed] ∧
      ∀ n ∈ db.nodeRuns, replayNode n.nodeId db.events n.initialStatus = n.status := by
  obtain ⟨db, hdb, hstatus⟩ : ∃ db, execAll plainEnv approveOps reviewRun = .ok db ∧
      db.nodeRuns.map NodeRun.status = [.completed, .completed, .completed] :=
    ⟨_, rfl, by decide⟩
  have hops : ∀ op ∈ approveOps, ∀ db, op.Recorded plainEnv db := by
    simp [approveOps, parkOps, RunOp.Recorded]
  exact ⟨db, hdb, hstatus, trace_complete (.execAll hops (.created createRun_reviewRun) hdb)⟩

/-- Cancelling the run while the approval waits and the Data Output is not queued yet
leaves both CANCELLED, with a trace that says WAITING and PENDING. -/
theorem not_trace_complete : ∃ db, Reachable plainEnv db ∧
    statusOf db.nodeRuns "ask" = some .cancelled ∧ replayNode "ask" db.events .pending = .waiting ∧
      statusOf db.nodeRuns "out" = some .cancelled ∧ replayNode "out" db.events .pending = .pending ∧
        ∃ n ∈ db.nodeRuns, replayNode n.nodeId db.events n.initialStatus ≠ n.status := by
  obtain ⟨db, hdb, hrows⟩ : ∃ db,
      execAll plainEnv (parkOps ++ [.cancelRun 1]) reviewRun = .ok db ∧
        statusOf db.nodeRuns "ask" = some .cancelled ∧
          replayNode "ask" db.events .pending = .waiting ∧
            statusOf db.nodeRuns "out" = some .cancelled ∧
              replayNode "out" db.events .pending = .pending ∧
                ∃ n ∈ db.nodeRuns, replayNode n.nodeId db.events n.initialStatus ≠ n.status :=
    ⟨_, rfl, by decide, by decide, by decide, by decide, by decide⟩
  exact ⟨db, .execAll (fun _ _ _ ↦ trivial) (.created createRun_reviewRun) hdb, hrows⟩

end Relayvia
