import Relayvia.Coupling

/-!
# Terminal runs and fail fast

Completion and cancellation leave no live work, and nothing moves after them.
Failing fast misses the WAITING NodeRuns and the task that the same
reconciliation added last.
-/

namespace Relayvia

variable {env : Env} {now : Time} {db db' : RunRecord}

/-- Every NodeRun and every task is terminal. -/
structure Ended (db : RunRecord) : Prop where
  nodeRuns : ∀ n ∈ db.nodeRuns, n.status.isTerminal = true
  tasks : ∀ t ∈ db.tasks, t.status.isTerminal = true

/-- When all NodeRuns are terminal, so are their tasks. -/
theorem Coupled.ended_of_nodeRuns (hc : Coupled db)
    (hnodes : ∀ n ∈ db.nodeRuns, n.status.isTerminal = true) : Ended db := by
  refine ⟨hnodes, fun t ht ↦ ?_⟩
  obtain ⟨n, hn, -, -, hcoupling⟩ := hc.cell_of_task (hc.findTask_eq_some_iff.mpr ⟨ht, rfl⟩)
  have hnode := hnodes n (hc.findNodeRun_eq_some_iff.mp hn).1
  by_contra hlive
  have hopen : n.status.isTerminal = false := hcoupling.open_of_live (by simpa using hlive)
  simp [hnode] at hopen

/-- No step of the cells revives an ended run. -/
theorem Evolves.ended {R : Rights} (h : Evolves R db db') (hc : Coupled db)
    (hended : Ended db) : Ended db' := by
  refine (h.coupled hc).ended_of_nodeRuns fun n' hn' ↦ ?_
  obtain ⟨n, hn, hstep⟩ := h.cell_back hc.toKeyed (h.keyed.findNodeRun_eq_some_iff.mpr ⟨hn', rfl⟩)
  have hterminal := hended.nodeRuns n (hc.findNodeRun_eq_some_iff.mp hn).1
  rw [(hstep.frozen (hc.coupling _ n hn) hterminal).1]
  exact hterminal

theorem CellSteps.ended {R : Rights} (h : CellSteps R db db')
    (hc : Coupled db) (hended : Ended db) : Ended db' := by
  induction h with
  | refl => exact hended
  | tail hrest hstep ih => exact hstep.ended (CellSteps.coupled hrest hc) ih

/-! ## The condition -/

/-- The rows after `promote_due_waits` and `mark_unreachable_condition_nodes`. -/
def promotedAndSkipped (env : Env) (now : Time) (db : RunRecord) : Session :=
  skipInactive now { db with nodeRuns := db.nodeRuns.map (promoteWait env now) }

/-- The ready nodes that a reconciliation queues before it derives the status. -/
def dispatchable (env : Env) (now : Time) (db : RunRecord) : List NodeId :=
  (readyNodes (promotedAndSkipped env now db)).filter
    (dispatches env (promotedAndSkipped env now db).toRunRecord)

/-- When a NodeRun has FAILED, no other one is parked in WAITING and, in a RUNNING
run, no ready node is there to be queued. -/
def FailsCleanly (env : Env) (now : Time) (db : RunRecord) : Prop :=
  (∃ n ∈ db.nodeRuns, n.status = .failed) →
    (∀ n ∈ db.nodeRuns, n.status = .waiting → waitElapsed env now n = true) ∧
      (db.run.status = .running → dispatchable env now db = [])

instance : Decidable (FailsCleanly env now db) :=
  inferInstanceAs (Decidable ((∃ n ∈ db.nodeRuns, _) → _ ∧ _))

/-- Every reconciliation of an active run fails cleanly. -/
def RunOp.FailsCleanly (env : Env) (db : RunRecord) : RunOp → Prop
  | .reconcile now =>
      db.run.status = .running ∨ db.run.status = .waiting → Relayvia.FailsCleanly env now db
  | _ => True

/-! ## Reconciliation -/

variable (env now) in
theorem promoteWait_status (n : NodeRun) :
    (promoteWait env now n).status = n.status ∨ (promoteWait env now n).status = .completed := by
  unfold promoteWait
  split
  · exact .inr rfl
  · exact .inl rfl

theorem skipLoop_status (g : WorkflowGraph) (k : ℕ) (nodeRuns : List NodeRun) :
    ∀ n' ∈ skipLoop g now k nodeRuns, n' ∈ nodeRuns ∨ n'.status = .skipped := by
  induction k generalizing nodeRuns with
  | zero => exact fun n' hn' ↦ .inl hn'
  | succ k ih =>
      rw [skipLoop]
      split
      · intro n' hn'
        rcases ih _ n' hn' with hmem | hskipped
        · obtain ⟨n, hn, rfl⟩ := List.mem_map.mp hmem
          split
          · exact .inr rfl
          · exact .inl hn
        · exact .inr hskipped
      · exact fun n' hn' ↦ .inl hn'

theorem promoteDueWaits_ok {s s' : Session} (h : promoteDueWaits env now s = .ok s') :
    s'.run = s.run ∧ s'.tasks = s.tasks ∧ s'.added = s.added ∧
      s'.nodeRuns = s.nodeRuns.map (promoteWait env now) := by
  unfold promoteDueWaits at h
  split at h
  · cases h
  · cases h
    exact ⟨rfl, rfl, rfl, rfl⟩

theorem scheduleReadyNodes_idle {s : Session} (h : s.run.status ≠ .running) :
    scheduleReadyNodes env now s = .ok s := by
  rw [scheduleReadyNodes, if_pos h]
  rfl

/-- An open NodeRun that is neither PENDING nor WAITING has a live task. -/
theorem Coupled.live_task (hc : Coupled db) {n : NodeRun} (hn : n ∈ db.nodeRuns)
    (hopen : n.status.isTerminal = false) (hpending : n.status ≠ .pending)
    (hwaiting : n.status ≠ .waiting) :
    ∃ t ∈ db.tasks, t.nodeRunId = n.nodeId ∧ ¬t.status.isTerminal := by
  have hcoupling := hc.coupling _ n (hc.findNodeRun_eq_some_iff.mpr ⟨hn, rfl⟩)
  cases htask : taskOfNode db.tasks n.nodeId with
  | none =>
      rw [cellStatus, htask] at hcoupling
      rcases hcoupling with h | h | h | ⟨-, h⟩
      · exact absurd h hpending
      all_goals simp [h, NodeRunStatus.isTerminal] at hopen
  | some t =>
      obtain ⟨hmem, hkey⟩ := hc.taskOfNode_eq_some_iff.mp htask
      refine ⟨t, hmem, hkey, fun hterminal ↦ ?_⟩
      rw [cellStatus, htask] at hcoupling
      cases hstatus : t.status <;>
        simp only [hstatus, ExecutionTaskStatus.isTerminal, Bool.false_eq_true, Option.map_some,
          Coupling] at hterminal hcoupling
      · rcases hcoupling with h | h | h | h
        · simp [h, NodeRunStatus.isTerminal] at hopen
        · exact hwaiting h
        all_goals simp [h, NodeRunStatus.isTerminal] at hopen
      all_goals simp [hcoupling, NodeRunStatus.isTerminal] at hopen

namespace ReconcileTrace

variable {s₁ s₂ : Session} {derived : WorkflowRunStatus}

theorem promoted_coupled (h : ReconcileTrace env now db s₁ s₂ derived db') (hc : Coupled db) :
    Coupled s₁.settled := by
  have hc₀ : Coupled ({ db with } : Session).settled := by rwa [Session.settled_flushed]
  exact ((promoteDueWaits_sound Rights.all hc₀ trivial).of_ok h.promote).2.2.coupled hc₀

theorem scheduled_coupled (h : ReconcileTrace env now db s₁ s₂ derived db') (hc : Coupled db) :
    Coupled s₂.settled := by
  have hc₁ := h.promoted_coupled hc
  exact ((scheduleReadyNodes_sound Rights.all hc₁).of_ok h.schedule).coupled hc₁

/-- A NodeRun that scheduling did not queue was promoted or skipped, or is as it was. -/
theorem mem_scheduled (h : ReconcileTrace env now db s₁ s₂ derived db') (hc : Coupled db)
    {n₂ : NodeRun} (hn₂ : n₂ ∈ s₂.nodeRuns) :
    n₂.status = .queued ∨ n₂.status = .skipped ∨ n₂ ∈ db.nodeRuns.map (promoteWait env now) := by
  obtain ⟨-, -, -, hnodes⟩ := promoteDueWaits_ok h.promote
  by_cases hrunning : s₁.run.status = .running
  · have hscheduled := (scheduleReadyNodes_running Rights.all (h.promoted_coupled hc)
      hrunning).of_ok h.schedule
    have hfind : findNodeRun s₂.nodeRuns n₂.nodeId = some n₂ :=
      (h.scheduled_coupled hc).findNodeRun_eq_some_iff.mpr ⟨hn₂, rfl⟩
    by_cases hqueued : n₂.nodeId ∈ readyNodes (skipInactive now s₁) →
        dispatches env (skipInactive now s₁).toRunRecord n₂.nodeId = false
    · rw [hscheduled.kept _ hqueued] at hfind
      rcases skipLoop_status _ _ _ n₂ (Table.mem_of_find? hfind) with hmem | hskipped
      · exact .inr (.inr (hnodes ▸ hmem))
      · exact .inr (.inl hskipped)
    · push Not at hqueued
      have hstatus := hscheduled.queued _ hqueued.1 (by simpa using hqueued.2)
      rw [statusOf, hfind] at hstatus
      exact .inl (by simpa using hstatus)
  · have hidle := h.schedule
    rw [scheduleReadyNodes_idle hrunning] at hidle
    cases hidle
    exact .inr (.inr (hnodes ▸ hn₂))

/-- The rows before the first scheduling. -/
theorem promotedAndSkipped_rows (h : ReconcileTrace env now db s₁ s₂ derived db') :
    (skipInactive now s₁).run = (promotedAndSkipped env now db).run ∧
      (skipInactive now s₁).nodeRuns = (promotedAndSkipped env now db).nodeRuns := by
  obtain ⟨hrun, -, -, hnodes⟩ := promoteDueWaits_ok h.promote
  simp [skipInactive, promotedAndSkipped, hrun, hnodes]

/-- Scheduling adds no task when no ready node is there to be queued. -/
theorem added_eq_nil (h : ReconcileTrace env now db s₁ s₂ derived db') (hc : Coupled db)
    (hnone : db.run.status = .running → dispatchable env now db = []) : s₂.added = [] := by
  obtain ⟨hrun, -, hadded, hnodes⟩ := promoteDueWaits_ok h.promote
  by_cases hrunning : s₁.run.status = .running
  · have hscheduled := (scheduleReadyNodes_running Rights.all (h.promoted_coupled hc)
      hrunning).of_ok h.schedule
    have hrows := h.promotedAndSkipped_rows
    have hready : readyNodes (skipInactive now s₁) = readyNodes (promotedAndSkipped env now db) := by
      rw [readyNodes, hrows.1, hrows.2]
    rw [hscheduled.idle fun id hid ↦ ?_]
    · exact hadded
    · have hdispatches := List.filter_eq_nil_iff.mp (hnone (by rw [← hrunning, hrun])) id
        (hready ▸ hid)
      rw [dispatches_congr hrows.1 (by rw [hrows.2]) id]
      simpa using hdispatches
  · have hidle := h.schedule
    rw [scheduleReadyNodes_idle hrunning] at hidle
    cases hidle
    exact hadded

/-- A reconciliation that fails the run found a FAILED NodeRun. -/
theorem exists_failed (h : ReconcileTrace env now db s₁ s₂ .failed db') (hc : Coupled db) :
    ∃ n ∈ db.nodeRuns, n.status = .failed := by
  have hderive := h.derive
  have hany : ∃ n₂ ∈ s₂.nodeRuns, n₂.status = .failed := by
    by_contra hnone
    simp only [deriveWorkflowState] at hderive
    split at hderive
    · next hany => exact hnone (by simpa using hany)
    · repeat' split at hderive
      all_goals cases hderive
  obtain ⟨n₂, hn₂, hfailed⟩ := hany
  rcases h.mem_scheduled hc hn₂ with hq | hs | hmem
  · simp [hfailed] at hq
  · simp [hfailed] at hs
  · obtain ⟨n, hn, rfl⟩ := List.mem_map.mp hmem
    rcases promoteWait_status env now n with heq | heq
    · exact ⟨n, hn, heq ▸ hfailed⟩
    · simp [hfailed] at heq

/-- Failing fast in a clean state ends every NodeRun. -/
theorem failed_ended (h : ReconcileTrace env now db s₁ s₂ .failed db') (hc : Coupled db)
    (hc' : Coupled db') (hactive : db.run.status ≠ .failed) (hclean : FailsCleanly env now db) :
    Ended db' := by
  obtain ⟨hwaits, hnone⟩ := hclean (h.exists_failed hc)
  have hwaiting : ∀ n₂ ∈ s₂.nodeRuns, n₂.status ≠ .waiting := by
    intro n₂ hn₂ hwaiting
    rcases h.mem_scheduled hc hn₂ with hq | hs | hmem
    · simp [hwaiting] at hq
    · simp [hwaiting] at hs
    · obtain ⟨n, hn, rfl⟩ := List.mem_map.mp hmem
      rcases promoteWait_status env now n with heq | heq
      · have helapsed := hwaits n hn (heq ▸ hwaiting)
        simp [promoteWait, helapsed] at hwaiting
      · simp [hwaiting] at heq
  have hadded := h.added_eq_nil hc hnone
  have hc₂ := h.scheduled_coupled hc
  obtain ⟨finishedAt, s', rfl, -, hfinish⟩ := h.finish
  obtain ⟨s₄, rfl, ⟨-, rfl⟩ | ⟨hrunning, -⟩⟩ := reconcileFinish_ok hfinish
  · refine hc'.ended_of_nodeRuns fun n' hn' ↦ ?_
    have hmem : n' ∈ s₂.nodeRuns.map (cancelNode now s₂.tasks) := by
      simpa [recordDerived, hactive.symm, workflowEvent, workflowEventType, cancelRunTasks,
        RunRecord.recordEvent] using hn'
    obtain ⟨n₂, hn₂, rfl⟩ := List.mem_map.mp hmem
    by_cases hopen : n₂.status.isTerminal = true
    · rw [cancelNode, if_neg (by simp [hopen])]
      exact hopen
    · have hcancel : ¬n₂.status.isTerminal ∧ (n₂.status = .pending ∨
          ∃ t ∈ s₂.tasks, t.nodeRunId = n₂.nodeId ∧ ¬t.status.isTerminal) := by
        refine ⟨hopen, ?_⟩
        by_cases hpending : n₂.status = .pending
        · exact .inl hpending
        · have hlive := hc₂.live_task hn₂ (by simpa using hopen) hpending (hwaiting n₂ hn₂)
          simpa [Session.settled, hadded, Session.numbered] using Or.inr hlive
      rw [cancelNode, if_pos hcancel]
      rfl
  · cases hrunning

theorem scheduled_run (h : ReconcileTrace env now db s₁ s₂ derived db') (hc : Coupled db) :
    s₂.run = db.run := by
  have hrun := ((scheduleReadyNodes_sound Rights.all (h.promoted_coupled hc)).of_ok
    h.schedule).run
  rw [Session.settled_run, Session.settled_run] at hrun
  rw [hrun, (promoteDueWaits_ok h.promote).1]

theorem derived_cases (h : ReconcileTrace env now db s₁ s₂ derived db') :
    derived = .failed ∨ derived = .completed ∨ derived = .waiting ∨ derived = .running := by
  rw [h.derive]
  unfold deriveWorkflowState
  repeat' split
  all_goals simp

/-- The session between the two halves is coupled. -/
theorem derived_coupled (h : ReconcileTrace env now db s₁ s₂ derived db') (hc : Coupled db)
    (finishedAt : Option Time) :
    Coupled ({ s₂ with
      run := { s₂.run with status := derived, finishedAt := finishedAt } } : Session).settled := by
  have hstep : RunStep s₂.settled ({ s₂ with
      run := { s₂.run with status := derived, finishedAt := finishedAt } } : Session).settled :=
    ⟨rfl, rfl, rfl, h.legal, fun _ _ ↦ h.derive⟩
  exact hstep.coupled (h.scheduled_coupled hc)

/-- The status that a reconciliation leaves. -/
theorem status_eq (h : ReconcileTrace env now db s₁ s₂ derived db') (hc : Coupled db) :
    db'.run.status = derived := by
  obtain ⟨finishedAt, s', rfl, -, hfinish⟩ := h.finish
  have hc₃ := h.derived_coupled hc finishedAt
  obtain ⟨s₄, rfl, ⟨-, rfl⟩ | ⟨-, hschedule⟩⟩ := reconcileFinish_ok hfinish
  · simp
  · have hrun := (Outcome.Holds.of_ok (scheduleReadyNodes_sound Rights.all
      (recordDerived_coupled hc₃ rfl)) hschedule).run
    rw [Session.settled_run, Session.settled_run] at hrun
    simp [hrun]

/-- A reconciliation that completes the run found every NodeRun terminal. -/
theorem completed_ended (h : ReconcileTrace env now db s₁ s₂ .completed db') (hc' : Coupled db') :
    Ended db' := by
  have hterminal : ∀ n₂ ∈ s₂.nodeRuns, n₂.status.isTerminal = true := by
    have hderive := h.derive
    simp only [deriveWorkflowState] at hderive
    split at hderive
    · cases hderive
    · split at hderive
      · next hall => exact List.all_eq_true.mp hall.2
      · repeat' split at hderive
        all_goals cases hderive
  obtain ⟨finishedAt, s', rfl, -, hfinish⟩ := h.finish
  obtain ⟨s₄, rfl, ⟨-, rfl⟩ | ⟨hrunning, -⟩⟩ := reconcileFinish_ok hfinish
  · refine hc'.ended_of_nodeRuns fun n' hn' ↦ hterminal n' ?_
    unfold recordDerived at hn'
    split at hn'
    · exact hn'
    · simpa [workflowEvent, workflowEventType, RunRecord.recordEvent] using hn'
  · cases hrunning

end ReconcileTrace

/-! ## Runs -/

/-- A terminal run has ended. -/
def EndedIfTerminal (db : RunRecord) : Prop :=
  db.run.status.isTerminal = true → Ended db

/-- A reconciliation of a cancelled run. -/
theorem cancelRunTasks_ended (hc : Coupled db) (hcancelled : db.run.status = .cancelled)
    (hended : Ended db) : Ended (cancelRunTasks now { db with }).settled := by
  have hstatus : db.run.status.isTerminal = true := by
    rw [hcancelled]
    rfl
  have hc₀ : Coupled ({ db with } : Session).settled := by rwa [Session.settled_flushed]
  have hstep : Evolves Rights.all ({ db with } : Session).settled
      (cancelRunTasks now { db with }).settled := cancelRunTasks_evolves hc₀ hstatus
  rw [Session.settled_flushed] at hstep
  exact hstep.ended hc hended

theorem Cancelled.ended {R : Rights} (h : Cancelled R now db db') : Ended db' := by
  constructor
  · rw [h.nodeRuns]
    intro n hn
    obtain ⟨m, -, rfl⟩ := List.mem_map.mp hn
    exact cancelOpenNode_terminal m
  · rw [h.tasks]
    intro t ht
    obtain ⟨u, -, rfl⟩ := List.mem_map.mp ht
    exact cancelTask_terminal now u

theorem reconcile_ended (hc : Coupled db) (hended : EndedIfTerminal db)
    (hclean : db.run.status = .running ∨ db.run.status = .waiting → FailsCleanly env now db)
    (h : reconcile env now db = .ok db') : EndedIfTerminal db' := by
  have hc' := Steps.coupled ((reconcile_sound Rights.all hc trivial).of_ok h) hc
  intro hterminal
  rcases reconcile_cases hc h with ⟨hcancelled, rfl⟩ | ⟨-, rfl⟩ |
    ⟨hactive, s₁, s₂, derived, htrace⟩
  · exact cancelRunTasks_ended hc hcancelled (hended (by rw [hcancelled]; rfl))
  · exact hended hterminal
  · rw [htrace.status_eq hc] at hterminal
    rcases htrace.derived_cases with rfl | rfl | rfl | rfl
    · have hlegal := htrace.legal
      rw [htrace.scheduled_run hc] at hlegal
      have hstatus : db.run.status = .running ∨ db.run.status = .waiting := by
        rcases hactive with h | h
        · simp [h, WorkflowRunStatus.transitions] at hlegal
        · exact h
      refine htrace.failed_ended hc hc' ?_ (hclean hstatus)
      rcases hstatus with h | h <;> simp [h]
    · exact htrace.completed_ended hc'
    all_goals cases hterminal

/-- Only reconciliation needs the condition: every other operation keeps ended
runs ended, and cancellation ends a run. -/
theorem RunOp.exec_ended {op : RunOp} {returned : Bool} (hc : Coupled db)
    (hended : EndedIfTerminal db) (hclean : op.FailsCleanly env db)
    (h : op.exec env db = .ok (returned, db')) : EndedIfTerminal db' := by
  by_cases hcells : op.movesRun = false
  · have hsteps := (exec_cells hc (promised_all db op) hcells).of_ok h
    intro hterminal
    rw [CellSteps.run hsteps] at hterminal
    exact CellSteps.ended hsteps hc (hended hterminal)
  have hactive {x : Except Raised RunRecord} {status : WorkflowRunStatus}
      (hx : Sound x fun db' ↦ RunStep db db' ∧ db'.run.status = status)
      (hopen : status.isTerminal = false) (h : returning x = .ok (returned, db')) :
      EndedIfTerminal db' := by
    have hstatus : db'.run.status = status := ((returning_sound hx).of_ok h).2
    intro hterminal
    simp [hstatus, hopen] at hterminal
  cases op with
  | startRun => exact hactive startRun_sound rfl h
  | pauseRun => exact hactive pauseRun_sound rfl h
  | resumeRun => exact hactive resumeRun_sound rfl h
  | reconcile now =>
      exact reconcile_ended hc hended hclean (returning_eq_ok_iff.mp h).2
  | cancelRun now =>
      have hcancelled := (returning_sound (cancelRun_sound Rights.all hc)).of_ok h
      exact fun _ ↦ hcancelled.ended
  | _ => exact absurd rfl hcells

/-- When every reconciliation fails cleanly, a terminal run has no live work, in the
state that made it terminal and in every later one. -/
theorem terminal_run_ended (h : ReachableBy env (RunOp.FailsCleanly env) db)
    (hterminal : db.run.status.isTerminal = true) :
    (∀ n ∈ db.nodeRuns, n.status.isTerminal = true) ∧
      ∀ t ∈ db.tasks, t.status.isTerminal = true := by
  have hended : EndedIfTerminal db := by
    clear hterminal
    induction h with
    | created h =>
        intro hterminal
        simp [(createRun_ok h).1, WorkflowRunStatus.isTerminal] at hterminal
    | step hdb hop h ih => exact RunOp.exec_ended hdb.coupled ih hop h
  exact ⟨(hended hterminal).nodeRuns, (hended hterminal).tasks⟩

/-- Data Input, service, Data Output. -/
def serviceGraph : ParsedGraph where
  nodes :=
    [{ id := "in", type := .data, subtype := "input", name := "Input" },
      { id := "act", type := .service, subtype := "http", name := "Service" },
      { id := "out", type := .data, subtype := "output", name := "Output" }]
  edges :=
    [{ id := "e1", source := "in", target := "act" }, { id := "e2", source := "act", target := "out" }]
  nodeIds_nodup := by decide
  edges_closed := by decide

def serviceRun : RunRecord where
  run := { id := "run", graph := serviceGraph }
  nodeRuns := serviceGraph.nodes.map (createNodeRun [])

theorem createRun_serviceRun :
    createRun plainEnv 0 "run" serviceGraph [] [] = .ok serviceRun :=
  rfl

/-- The service fails, and the reconciliation ends the run. -/
theorem terminal_run_ended_serviceRun :
    ∃ db db', execAll plainEnv
        [.startRun 0, .schedule 0, .claim 0 "w" "t" 60 none true 0, .fail 0 0 "w" "t" [] [] []]
        serviceRun = .ok db ∧
      RunOp.exec plainEnv (.reconcile 0) db = .ok (true, db') ∧ db'.run.status = .failed ∧
        (∀ n ∈ db'.nodeRuns, n.status.isTerminal = true) ∧
          ∀ t ∈ db'.tasks, t.status.isTerminal = true := by
  obtain ⟨db, hdb, db', hdb', hstatus, hclean⟩ : ∃ db, execAll plainEnv
      [.startRun 0, .schedule 0, .claim 0 "w" "t" 60 none true 0, .fail 0 0 "w" "t" [] [] []]
      serviceRun = .ok db ∧ ∃ db', RunOp.exec plainEnv (.reconcile 0) db = .ok (true, db') ∧
        db'.run.status = .failed ∧ FailsCleanly plainEnv 0 db :=
    ⟨_, rfl, _, rfl, rfl, by decide⟩
  have hreachable : ReachableBy plainEnv (RunOp.FailsCleanly plainEnv) db :=
    .execAll (by simp [RunOp.FailsCleanly]) (.created createRun_serviceRun) hdb
  have hterminal : db'.run.status.isTerminal = true := by
    rw [hstatus]
    rfl
  have hallowed : RunOp.FailsCleanly plainEnv db (.reconcile 0) := fun _ ↦ hclean
  exact ⟨db, db', hdb, hdb', hstatus,
    terminal_run_ended (.step hreachable hallowed hdb') hterminal⟩

/-! ## What fail fast leaves behind -/

/-- Data Input, then an approval, a failing service, and a service with a successor,
all joined by the Data Output. -/
def forkGraph : ParsedGraph where
  nodes :=
    [{ id := "in", type := .data, subtype := "input", name := "Input" },
      { id := "ask", type := .human, subtype := "approval", name := "Approval" },
      { id := "act", type := .service, subtype := "http", name := "Failing service" },
      { id := "first", type := .service, subtype := "http", name := "First service" },
      { id := "second", type := .service, subtype := "http", name := "Second service" },
      { id := "out", type := .data, subtype := "output", name := "Output" }]
  edges :=
    [{ id := "e1", source := "in", target := "ask" }, { id := "e2", source := "in", target := "act" },
      { id := "e3", source := "in", target := "first" },
      { id := "e4", source := "first", target := "second" },
      { id := "e5", source := "ask", target := "out" }, { id := "e6", source := "act", target := "out" },
      { id := "e7", source := "second", target := "out" }]
  nodeIds_nodup := by decide
  edges_closed := by decide

def forkRun : RunRecord where
  run := { id := "run", graph := forkGraph }
  nodeRuns := forkGraph.nodes.map (createNodeRun [])

/-- The approval waits, the first service completes, the other one fails, and the
run is reconciled. -/
def forkOps : List RunOp :=
  [.startRun 0, .schedule 0, .claim 0 "w" "t0" 60 none true 0,
    .waitNode 0 0 "w" "t0" "HUMAN_APPROVAL" [], .claim 0 "w" "t1" 60 none true 1,
    .claim 0 "w" "t2" 60 none true 2, .complete 0 2 "w" "t2" [] [] [],
    .fail 0 1 "w" "t1" [("code", .str "HTTP_ERROR")] [] [], .reconcile 0]

/-- Failing fast can leave a WAITING NodeRun and a PENDING task in a FAILED run. -/
theorem not_terminal_run_ended : ∃ db, Reachable plainEnv db ∧ db.run.status = .failed ∧
    (∃ n ∈ db.nodeRuns, n.status = .waiting) ∧ ∃ t ∈ db.tasks, t.status = .pending := by
  obtain ⟨db, hdb, hstatus, hwaiting, hpending⟩ : ∃ db, execAll plainEnv forkOps forkRun = .ok db ∧
      db.run.status = .failed ∧ db.nodeRuns.any (·.status = .waiting) = true ∧
      db.tasks.any (·.status = .pending) = true :=
    ⟨_, rfl, by decide, by decide, by decide⟩
  have hcreated : createRun plainEnv 0 "run" forkGraph [] [] = .ok forkRun := rfl
  refine ⟨db, .execAll (fun _ _ _ ↦ trivial) (.created hcreated) hdb, hstatus, ?_, ?_⟩
  · simpa using hwaiting
  · simpa using hpending

end Relayvia
