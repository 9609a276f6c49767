import Relayvia.Fencing
import Relayvia.Worker.Inputs
import Relayvia.Worker.Process
import Relayvia.Workspaces.Release

/-!
# Workers that lost their lease

The fenced calls of such a Worker change nothing.  Its other commits do not look at the
lease.
-/

namespace Relayvia

variable {env : WorkerEnv} {s s' : WorkerWorld}

namespace WorkerProcess

/-- The task carries the lease of the process. -/
def Leased (p : WorkerProcess) (tasks : List ExecutionTask) : Prop :=
  ∃ t, findTask tasks p.task = some t ∧ t.status.isTerminal = false ∧
    t.lockedBy = some p.workerId ∧ t.leaseToken = some p.leaseToken

/-- The lease was lost after the start: recovered, claimed again, or ended. -/
def Lost (p : WorkerProcess) (tasks : List ExecutionTask) : Prop :=
  p.phase ≠ .claimed ∧ ¬p.Leased tasks

/-- The task of the NodeRun was started again. -/
def NewOwner (p : WorkerProcess) (tasks : List ExecutionTask) : Prop :=
  ∃ t, taskOfNode tasks p.nodeRunId = some t ∧ p.startedAttempt < t.attempt

/-- The NodeRun is terminal. -/
def Ended (p : WorkerProcess) (nodeRuns : List NodeRun) : Prop :=
  ∃ n, findNodeRun nodeRuns p.nodeRunId = some n ∧ n.status.isTerminal = true

end WorkerProcess

/-- The process that a step belongs to. -/
def WorkerStep.pid? : WorkerStep → Option ℕ
  | .run _ | .upload _ => none
  | .claim pid .. | .start pid _ | .load pid | .persist pid _ | .renew pid .. | .execute pid _
  | .settle pid .. | .report pid _ | .reconcile pid _ | .crash pid => some pid

/-- The input is committed before a new owner has started and before the NodeRun is
terminal.  Rows are registered, and objects of a failed registration left behind, only
under the lease; then the process does not crash, and its `complete` comes while the
lease is live. -/
def WorkerStep.Guarded (env : WorkerEnv) (s : WorkerWorld) : WorkerStep → Prop
  | .persist pid _ => ∀ p, s.processes pid = some p →
      (∃ node input config, p.phase = .loaded node input config) →
        ¬p.NewOwner s.db.tasks ∧ ¬p.Ended s.db.nodeRuns
  | .settle pid ids cleanup => ∀ p result, s.processes pid = some p →
      p.phase = .executed result → result.ok = true →
        (match registration env ids result p s with
          | .ok r => r.created ≠ []
          | .error (_, r) => cleanup = false ∧ r.store ≠ s.store) →
        p.Leased s.db.tasks
  | .report pid now => ∀ p, s.processes pid = some p → p.created ≠ [] →
      ∃ t, findTask s.db.tasks p.task = some t ∧ t.status = .running ∧
        owns now p.workerId p.leaseToken t = true
  | .crash pid => ∀ p, s.processes pid = some p → p.created = []
  | _ => True

/-- A step that leaves no durable trace for the NodeRun of the process. -/
structure Traceless (p : WorkerProcess) (s s' : WorkerWorld) : Prop where
  artifacts : s'.artifacts = s.artifacts
  registered : s'.registered = s.registered
  store : s'.store = s.store
  input : p.NewOwner s.db.tasks ∨ p.Ended s.db.nodeRuns →
    (findNodeRun s'.db.nodeRuns p.nodeRunId).map NodeRun.input =
      (findNodeRun s.db.nodeRuns p.nodeRunId).map NodeRun.input
  /-- only the commit of the input and the reconciliation write rows of the run -/
  rows : (∀ node input config, p.phase ≠ .loaded node input config) → p.phase ≠ .reconciling →
    s'.db = s.db

theorem Traceless.of_same {p : WorkerProcess} (hdb : s'.db = s.db)
    (hartifacts : s'.artifacts = s.artifacts) (hregistered : s'.registered = s.registered)
    (hstore : s'.store = s.store) : Traceless p s s' where
  artifacts := hartifacts
  registered := hregistered
  store := hstore
  input _ := by rw [hdb]
  rows _ _ := hdb

theorem Traceless.refl (p : WorkerProcess) (s : WorkerWorld) : Traceless p s s :=
  .of_same rfl rfl rfl rfl

/-! ## Fenced calls of a process that lost its lease -/

theorem WorkerProcess.call_leaseUse {p : WorkerProcess} {now : Time} {op : RunOp}
    (h : p.call now = some op) :
    op.leaseUse = some ⟨now, p.task, p.workerId, p.leaseToken⟩ := by
  unfold call at h
  split at h <;> cases h <;> rfl

variable (env) in
theorem WorkerProcess.Lost.exec {p : WorkerProcess} (h : p.Lost s.db.tasks) {op : RunOp}
    {now : Time} (huse : op.leaseUse = some ⟨now, p.task, p.workerId, p.leaseToken⟩) :
    op.exec env.toEnv s.db = .ok (false, s.db) := by
  refine RunOp.exec_stale huse fun t ht ↦ ?_
  by_contra hfresh
  have howns : owns now p.workerId p.leaseToken t = true := by
    simpa [LeaseUse.staleFor_iff] using hfresh
  obtain ⟨hopen, hlocked, htoken, -⟩ := owns_iff.mp howns
  exact h.2 ⟨t, ht, hopen, hlocked, htoken⟩

/-! ## Steps of a process that lost its lease -/

variable {pid : ℕ} {p : WorkerProcess}

/-- A NodeRun that has a task or has ended is not PENDING. -/
theorem WorkerProcess.open_of_lost (hc : Coupled s.db)
    (h : p.NewOwner s.db.tasks ∨ p.Ended s.db.nodeRuns) :
    ∃ n, findNodeRun s.db.nodeRuns p.nodeRunId = some n ∧ n.status ≠ .pending := by
  rcases h with ⟨t, ht, -⟩ | ⟨n, hn, hended⟩
  · obtain ⟨hmem, hkey⟩ := hc.taskOfNode_eq_some_iff.mp ht
    obtain ⟨n, hn⟩ := hc.exists_nodeRun (hc.taskClosed t hmem)
    rw [hkey] at hn
    refine ⟨n, hn, fun hpending ↦ ?_⟩
    rw [hc.no_task hn hpending] at ht
    cases ht
  · refine ⟨n, hn, fun hpending ↦ ?_⟩
    rw [hpending] at hended
    cases hended

theorem traceless_reconcile (hc : Coupled s.db) (hp : s.processes pid = some p) {now : Time} :
    Traceless p s ((WorkerStep.reconcile pid now).exec env s) := by
  simp only [WorkerStep.exec, hp]
  split
  · next _ db hphase hexec =>
    obtain ⟨-, hreconcile⟩ := returning_eq_ok_iff.mp hexec
    refine ⟨rfl, rfl, rfl, fun hlost ↦ ?_, fun _ hne ↦ absurd hphase hne⟩
    obtain ⟨n, hn, hopen⟩ := WorkerProcess.open_of_lost hc hlost
    obtain ⟨n', hn', -, hinput⟩ := reconcile_inputs hc hreconcile _ n hn hopen
    rw [hn]
    exact (congrArg (Option.map NodeRun.input) hn').trans (congrArg some hinput)
  · exact .of_same rfl rfl rfl rfl
  · exact .refl p s

theorem traceless_persist (hp : s.processes pid = some p) {now : Time}
    (hguard : (WorkerStep.persist pid now).Guarded env s) :
    Traceless p s ((WorkerStep.persist pid now).exec env s) := by
  simp only [WorkerStep.exec, hp]
  split
  · next node input config hphase =>
    obtain ⟨howner, hended⟩ := hguard p hp ⟨node, input, config, hphase⟩
    refine ⟨rfl, rfl, rfl, fun hlost ↦ ?_, fun hne ↦ absurd hphase (hne node input config)⟩
    exact (hlost.elim howner hended).elim
  · exact .refl p s

theorem traceless_settle (hp : s.processes pid = some p) (hlost : p.Lost s.db.tasks)
    {ids : List String} {cleanup : Bool} (hguard : (WorkerStep.settle pid ids cleanup).Guarded env s) :
    Traceless p s ((WorkerStep.settle pid ids cleanup).exec env s) := by
  simp only [WorkerStep.exec, hp]
  split
  · next result hphase =>
    split
    · exact .of_same rfl rfl rfl rfl
    · next hok =>
      rw [not_not] at hok
      split
      · have hnot := mt (hguard p result hp hphase hok) hlost.2
        unfold WorkerStep.settleOk
        split
        · next r hr =>
          simp only [hr, not_not] at hnot
          have hextends := registerArtifactCandidates_extends hr
          obtain ⟨rows, hrows, hcreated⟩ := hextends.rows
          have hnone : rows = [] := by simpa [hnot] using hcreated.symm
          refine .of_same rfl ?_ ?_ (hextends.store hnot)
          · rw [hnone, List.append_nil] at hrows
            exact hrows
          · change s.registered ++ r.created = s.registered
            rw [hnot, List.append_nil]
        · next failure r hr =>
          have hstore : (if cleanup then s.store else r.store) = s.store := by
            simp only [hr, not_and, not_not] at hnot
            split
            · rfl
            · next hfailed => exact hnot (by simpa using hfailed)
          dsimp only
          split
          · exact .of_same rfl rfl rfl hstore
          · exact .of_same rfl rfl rfl hstore
      · exact .refl p s
  · exact .refl p s

theorem traceless_report (hp : s.processes pid = some p) (hlost : p.Lost s.db.tasks) {now : Time} :
    Traceless p s ((WorkerStep.report pid now).exec env s) := by
  simp only [WorkerStep.exec, hp]
  split
  · next op hcall =>
    rw [hlost.exec env (WorkerProcess.call_leaseUse hcall)]
    exact .of_same rfl rfl rfl rfl
  · exact .refl p s

/-- No step of a process that lost its lease leaves a trace. -/
theorem WorkerStep.traceless (hc : Coupled s.db) {step : WorkerStep} (hguard : step.Guarded env s)
    (hpid : step.pid? = some pid) (hp : s.processes pid = some p) (hlost : p.Lost s.db.tasks) :
    Traceless p s (step.exec env s) := by
  cases step with
  | run op => cases hpid
  | upload artifact => cases hpid
  | claim pid' now workerId leaseToken leaseSeconds task =>
      cases hpid
      simp only [exec, hp]
      exact .refl p s
  | start pid' now =>
      cases hpid
      simp only [exec, hp]
      split
      · next hphase _ => exact absurd hphase hlost.1
      · next hphase _ => exact absurd hphase hlost.1
      · next hphase _ => exact absurd hphase hlost.1
      · exact .refl p s
  | load pid' =>
      cases hpid
      simp only [exec, hp]
      split
      · exact .of_same rfl rfl rfl rfl
      · exact .refl p s
  | persist pid' now =>
      cases hpid
      exact traceless_persist hp hguard
  | renew pid' now leaseSeconds =>
      cases hpid
      simp only [exec, hp]
      have hstale : (RunOp.renewLease now p.task p.workerId p.leaseToken leaseSeconds).exec env.toEnv
          s.db = .ok (false, s.db) := hlost.exec env rfl
      rw [hstale]
      split
      · next hsame =>
        cases hsame
        exact .of_same rfl rfl rfl rfl
      · exact .refl p s
  | execute pid' result =>
      cases hpid
      simp only [exec, hp]
      split
      · exact .of_same rfl rfl rfl rfl
      · exact .refl p s
  | settle pid' ids cleanup =>
      cases hpid
      exact traceless_settle hp hlost hguard
  | report pid' now =>
      cases hpid
      exact traceless_report hp hlost
  | reconcile pid' now =>
      cases hpid
      exact traceless_reconcile hc hp
  | crash pid' =>
      cases hpid
      exact .of_same rfl rfl rfl rfl

/-! ## Registered rows -/

/-- The rows that Workers have registered belong to an accepted `complete`, or to one
that is still to come. -/
def RowsOwned (s : WorkerWorld) : Prop :=
  ∀ id ∈ s.registered, id ∈ s.accepted ∨ ∃ pid p, s.processes pid = some p ∧ id ∈ p.created

/-- A process without rows goes on. -/
theorem RowsOwned.goOn (h : RowsOwned s) (hp : ∀ p, s.processes pid = some p → p.created = [])
    {q : Option WorkerProcess} (hregistered : s'.registered = s.registered)
    (haccepted : s'.accepted = s.accepted) (hprocesses : s'.processes = s.processes) :
    RowsOwned (s'.setProcess pid q) := by
  intro id hid
  rcases h id (hregistered ▸ hid) with hold | ⟨pid', p', hp', hrow⟩
  · exact .inl (haccepted ▸ hold)
  · refine .inr ⟨pid', p', ?_, hrow⟩
    have hne : pid' ≠ pid := by
      rintro rfl
      rw [hp p' hp'] at hrow
      cases hrow
    rw [WorkerWorld.setProcess_processes, if_neg hne, hprocesses]
    exact hp'

theorem RowsOwned.congr (h : RowsOwned s) (hregistered : s'.registered = s.registered)
    (haccepted : s'.accepted = s.accepted) (hprocesses : s'.processes = s.processes) :
    RowsOwned s' := by
  intro id hid
  rw [haccepted, hprocesses]
  exact h id (hregistered ▸ hid)

theorem WorkerProcess.created_of_phase {p' : WorkerProcess} (hp : s.processes pid = some p)
    (hcreated : p.created = []) (hp' : s.processes pid = some p') : p'.created = [] := by
  rw [hp] at hp'
  cases hp'
  exact hcreated

/-- The rows of a registration come with their process. -/
theorem RowsOwned.settleOk (h : RowsOwned s) (hp : s.processes pid = some p)
    (hcreated : p.created = []) (result : ExecutionResult) (cleanup : Bool) (ids : List String) :
    RowsOwned (WorkerStep.settleOk env pid p result cleanup ids s) := by
  have hnone : ∀ p', s.processes pid = some p' → p'.created = [] :=
    fun _ ↦ WorkerProcess.created_of_phase hp hcreated
  unfold WorkerStep.settleOk
  split
  · next r _ =>
    intro id hid
    rcases List.mem_append.mp hid with hold | hnew
    · rcases h id hold with haccepted | ⟨pid', p', hp', hrow⟩
      · exact .inl haccepted
      · refine .inr ⟨pid', p', ?_, hrow⟩
        have hne : pid' ≠ pid := by
          rintro rfl
          rw [hnone p' hp'] at hrow
          cases hrow
        rw [WorkerWorld.setProcess_processes, if_neg hne]
        exact hp'
    · refine .inr ⟨pid, _, (WorkerWorld.setProcess_processes ..).trans (if_pos rfl), ?_⟩
      exact hnew
  · dsimp only
    split
    · exact h.goOn hnone rfl rfl rfl
    · exact h.goOn hnone rfl rfl rfl

/-- A `complete` under a live lease of a RUNNING task is accepted. -/
theorem complete_accepted {db : RunRecord} (hc : Coupled db) {now : Time} {task : TaskId}
    {workerId leaseToken : String} {t : ExecutionTask} (ht : findTask db.tasks task = some t)
    (hrunning : t.status = .running) (howns : owns now workerId leaseToken t = true)
    (output executionMetadata : Dict) (artifacts : List Json) :
    ∃ db', complete now task workerId leaseToken output executionMetadata artifacts db =
      .ok (true, db') := by
  obtain ⟨n, hn, -, -, hcoupling⟩ := hc.cell_of_task ht
  rw [hrunning] at hcoupling
  have hlegal : NodeRunStatus.completed ∈ n.status.transitions := by
    rw [show n.status = .running from hcoupling]
    decide
  have htask : (liftM (transitionExecutionTask .running .completed) : Except Raised Unit) = .ok () :=
    rfl
  simp only [complete, withLease, ht, howns, hrunning, htask, nodeCompleted, advanceNode,
    RunRecord.modifyTask_nodeRuns, hn, liftM_transitionNodeRun hlegal]
  exact ⟨_, rfl⟩

theorem WorkerProcess.call_accepted (p : WorkerProcess) {db : RunRecord} (hc : Coupled db)
    (hcreated : p.created ≠ []) {now : Time} {op : RunOp} (hcall : p.call now = some op)
    {t : ExecutionTask} (ht : findTask db.tasks p.task = some t) (hrunning : t.status = .running)
    (howns : owns now p.workerId p.leaseToken t = true) :
    ∃ db', op.exec env.toEnv db = .ok (true, db') := by
  unfold created at hcreated
  unfold call at hcall
  split at hcreated
  · next hphase =>
    rw [hphase] at hcall
    cases hcall
    exact complete_accepted hc ht hrunning howns _ _ _
  · exact absurd rfl hcreated

theorem RowsOwned.report (h : RowsOwned s) (hc : Coupled s.db) {now : Time}
    (hguard : (WorkerStep.report pid now).Guarded env s) :
    RowsOwned ((WorkerStep.report pid now).exec env s) := by
  simp only [WorkerStep.exec]
  split
  · next p hp =>
    split
    · next op hcall =>
      by_cases hcreated : p.created = []
      · have hnone : ∀ p', s.processes pid = some p' → p'.created = [] :=
          fun _ ↦ WorkerProcess.created_of_phase hp hcreated
        split
        · next returned db _ =>
          refine h.goOn hnone rfl ?_ rfl
          rw [hcreated, List.append_nil, ite_self]
        · exact h.goOn hnone rfl rfl rfl
      · obtain ⟨t, ht, hrunning, howns⟩ := hguard p hp hcreated
        obtain ⟨db', hexec⟩ := p.call_accepted hc hcreated hcall ht hrunning howns
        rw [hexec]
        intro id hid
        rcases h id hid with haccepted | ⟨pid', p', hp', hrow⟩
        · exact .inl (List.mem_append_left _ haccepted)
        · by_cases hne : pid' = pid
          · subst hne
            rw [hp] at hp'
            cases hp'
            exact .inl (List.mem_append_right _ hrow)
          · refine .inr ⟨pid', p', ?_, hrow⟩
            rw [WorkerWorld.setProcess_processes, if_neg hne]
            exact hp'
    · exact h
  · exact h

theorem WorkerStep.rowsOwned (h : RowsOwned s) (hc : Coupled s.db) {step : WorkerStep}
    (hguard : step.Guarded env s) : RowsOwned (step.exec env s) := by
  have hnone {pid : ℕ} {p : WorkerProcess} (hp : s.processes pid = some p)
      (hcreated : p.created = []) : ∀ p', s.processes pid = some p' → p'.created = [] :=
    fun _ ↦ WorkerProcess.created_of_phase hp hcreated
  cases step with
  | run op =>
      simp only [exec]
      split
      · exact h.congr rfl rfl rfl
      · exact h
  | upload artifact =>
      simp only [exec]
      split
      · exact h
      · exact h.congr rfl rfl rfl
  | claim pid now workerId leaseToken leaseSeconds task =>
      simp only [exec]
      split
      · next hp _ _ =>
        exact h.goOn (fun p' hp' ↦ by rw [hp] at hp'; cases hp') rfl rfl rfl
      · exact h
  | start pid now =>
      simp only [exec]
      split
      · next p hp =>
        split
        · next hphase _ => exact h.goOn (hnone hp (by simp [WorkerProcess.created, hphase])) rfl rfl rfl
        · next hphase _ => exact h.goOn (hnone hp (by simp [WorkerProcess.created, hphase])) rfl rfl rfl
        · next hphase _ => exact h.goOn (hnone hp (by simp [WorkerProcess.created, hphase])) rfl rfl rfl
        · exact h
      · exact h
  | load pid =>
      simp only [exec]
      split
      · next p hp =>
        split
        · next hphase => exact h.goOn (hnone hp (by simp [WorkerProcess.created, hphase])) rfl rfl rfl
        · exact h
      · exact h
  | persist pid now =>
      simp only [exec]
      split
      · next p hp =>
        split
        · next hphase => exact h.goOn (hnone hp (by simp [WorkerProcess.created, hphase])) rfl rfl rfl
        · exact h
      · exact h
  | renew pid now leaseSeconds =>
      simp only [exec]
      split
      · split
        · exact h.congr rfl rfl rfl
        · exact h
      · exact h
  | execute pid result =>
      simp only [exec]
      split
      · next p hp =>
        split
        · next hphase => exact h.goOn (hnone hp (by simp [WorkerProcess.created, hphase])) rfl rfl rfl
        · exact h
      · exact h
  | settle pid ids cleanup =>
      simp only [exec]
      split
      · next p hp =>
        split
        · next result hphase =>
          have hcreated : p.created = [] := by simp [WorkerProcess.created, hphase]
          split
          · exact h.goOn (hnone hp hcreated) rfl rfl rfl
          · split
            · exact h.settleOk hp hcreated result cleanup ids
            · exact h
        · exact h
      · exact h
  | report pid now => exact h.report hc hguard
  | reconcile pid now =>
      simp only [exec]
      split
      · next p hp =>
        split
        · next hphase _ => exact h.goOn (hnone hp (by simp [WorkerProcess.created, hphase])) rfl rfl rfl
        · next hphase _ => exact h.goOn (hnone hp (by simp [WorkerProcess.created, hphase])) rfl rfl rfl
        · exact h
      · exact h
  | crash pid => exact h.goOn hguard rfl rfl rfl

/-! ## Runs -/

theorem Evolves.setInput {R : Rights} {db : RunRecord} (hk : Keyed db) (id : NodeId)
    (input : Dict) : Evolves R db (db.modifyNode id fun r ↦ { r with input := input }) := by
  refine .of_rows hk rfl rfl rfl rfl (fun r ↦ by split <;> rfl) fun n _ ↦ ?_
  exact .of_eq (by split <;> rfl) (by split <;> rfl) (by split <;> rfl) (by split <;> rfl)
    (by split <;> rfl) (by split <;> rfl) rfl

theorem Coupled.setInput {db : RunRecord} (hc : Coupled db) (id : NodeId) (input : Dict) :
    Coupled (db.modifyNode id fun r ↦ { r with input := input }) :=
  (Evolves.setInput (R := Rights.all) hc.toKeyed id input).coupled hc

/-- The transaction on the rows of the run that a step calls. -/
def WorkerStep.op (s : WorkerWorld) : WorkerStep → Option RunOp
  | .run op => some op
  | .claim _ now workerId leaseToken leaseSeconds task =>
      some (.claim now workerId leaseToken leaseSeconds none false task)
  | .start pid now => (s.processes pid).bind fun p ↦
      match p.phase with
      | .claimed => some (.start now p.task p.workerId p.leaseToken)
      | _ => none
  | .renew pid now leaseSeconds => (s.processes pid).map fun p ↦
      .renewLease now p.task p.workerId p.leaseToken leaseSeconds
  | .report pid now => (s.processes pid).bind fun p ↦ p.call now
  | .reconcile _ now => some (.reconcile now)
  | .upload _ | .load _ | .persist .. | .execute .. | .settle .. | .crash _ => none

variable (env) in
/-- What the steps do to the rows of the run: one transaction, the commit of an input, or
nothing. -/
theorem WorkerStep.exec_db (step : WorkerStep) (s : WorkerWorld) :
    (step.exec env s).db = s.db ∨
      (∃ op returned, step.op s = some op ∧
        RunOp.exec env.toEnv op s.db = .ok (returned, (step.exec env s).db)) ∨
        ∃ id input, (step.exec env s).db = s.db.modifyNode id fun r ↦ { r with input := input } := by
  cases step with
  | run op =>
      simp only [exec]
      split
      · next hexec => exact .inr (.inl ⟨op, _, rfl, hexec⟩)
      · exact .inl rfl
  | upload artifact =>
      simp only [exec]
      split <;> exact .inl rfl
  | claim pid now workerId leaseToken leaseSeconds task =>
      simp only [exec]
      split
      · next hexec => exact .inr (.inl ⟨_, _, rfl, hexec⟩)
      · exact .inl rfl
  | start pid now =>
      simp only [exec, op]
      split
      · next p hp =>
        rw [hp]
        split
        · next hphase hexec => exact .inr (.inl ⟨_, _, by simp [hphase], hexec⟩)
        · next hphase hexec => exact .inr (.inl ⟨_, _, by simp [hphase], hexec⟩)
        · exact .inl rfl
        · exact .inl rfl
      · exact .inl rfl
  | load pid | execute pid result =>
      simp only [exec]
      split
      · split <;> exact .inl rfl
      · exact .inl rfl
  | persist pid now =>
      simp only [exec]
      split
      · next p _ =>
        split
        · next input _ _ => exact .inr (.inr ⟨p.nodeRunId, input, rfl⟩)
        · exact .inl rfl
      · exact .inl rfl
  | renew pid now leaseSeconds =>
      simp only [exec, op]
      split
      · next p hp =>
        rw [hp]
        split
        · next hexec => exact .inr (.inl ⟨_, _, rfl, hexec⟩)
        · exact .inl rfl
      · exact .inl rfl
  | settle pid ids cleanup =>
      simp only [exec]
      split
      · split
        · split
          · exact .inl rfl
          · split
            · unfold settleOk
              split
              · exact .inl rfl
              · dsimp only
                split <;> exact .inl rfl
            · exact .inl rfl
        · exact .inl rfl
      · exact .inl rfl
  | report pid now =>
      simp only [exec, op]
      split
      · next p hp =>
        rw [hp]
        split
        · next op hcall =>
          split
          · next hexec => exact .inr (.inl ⟨op, _, hcall, hexec⟩)
          · exact .inl rfl
        · exact .inl rfl
      · exact .inl rfl
  | reconcile pid now =>
      simp only [exec]
      split
      · split
        · next hexec => exact .inr (.inl ⟨_, _, rfl, hexec⟩)
        · exact .inl rfl
        · exact .inl rfl
      · exact .inl rfl
  | crash pid => exact .inl rfl

theorem WorkerStep.coupled (hc : Coupled s.db) (step : WorkerStep) :
    Coupled (step.exec env s).db := by
  rcases step.exec_db env s with hsame | ⟨op, returned, -, hexec⟩ | ⟨id, input, hinput⟩
  · rwa [hsame]
  · exact RunOp.exec_coupled env.toEnv op hc hexec
  · rw [hinput]
    exact hc.setInput id input

namespace WorkerWorld.ReachableBy

variable {allowed : WorkerWorld → WorkerStep → Prop}

theorem coupled (h : ReachableBy env allowed s) : Coupled s.db := by
  induction h with
  | created h => exact createRun_coupled h
  | step step _ _ ih => exact step.coupled ih

theorem rowsOwned (h : ReachableBy env (fun s step ↦ step.Guarded env s) s) : RowsOwned s := by
  induction h with
  | created => exact fun _ hid ↦ (by cases hid)
  | step step h hguard ih => exact step.rowsOwned ih h.coupled hguard

theorem execAll (steps : List WorkerStep) (hallowed : ∀ step ∈ steps, ∀ s, allowed s step)
    (h : ReachableBy env allowed s) : ReachableBy env allowed (WorkerStep.execAll env steps s) := by
  induction steps generalizing s with
  | nil => exact h
  | cons step steps ih =>
      exact ih (fun step' hstep' ↦ hallowed step' (List.mem_cons_of_mem _ hstep'))
        (.step step h (hallowed step (List.mem_cons_self ..) s))

end WorkerWorld.ReachableBy

/-- A Worker that lost its lease leaves no trace: the rows that Workers have registered
belong to an accepted `complete` or to one that is still to come, and no step of a
process that lost its lease changes artifacts, objects, or the input of a NodeRun that
was started again or has ended. -/
theorem lost_worker_traceless (h : WorkerWorld.ReachableBy env (fun s step ↦ step.Guarded env s) s) :
    RowsOwned s ∧
      ∀ step pid p, WorkerStep.Guarded env s step → step.pid? = some pid →
        s.processes pid = some p → p.Lost s.db.tasks → Traceless p s (step.exec env s) :=
  ⟨h.rowsOwned, fun _ _ _ hguard hpid hp hlost ↦ WorkerStep.traceless h.coupled hguard hpid hp hlost⟩

/-! ## A Worker that loses its lease -/

def plainWorkerEnv : WorkerEnv :=
  { plainEnv with
    urlparse := fun _ ↦ none
    artifactMaxBytes := 100 }

/-- Data Input, Service with an input mapping, Data Output. -/
def mappedGraph : ParsedGraph where
  nodes :=
    [{ id := "in", type := .data, subtype := "input", name := "Input" },
      { id := "act", type := .service, subtype := "http", name := "Service"
        inputMapping := [("topic", .str "news")] },
      { id := "out", type := .data, subtype := "output", name := "Output" }]
  edges :=
    [{ id := "e1", source := "in", target := "act" }, { id := "e2", source := "act", target := "out" }]
  nodeIds_nodup := by decide
  edges_closed := by decide

def mappedRun : RunRecord where
  run := { id := "run", graph := mappedGraph }
  nodeRuns := mappedGraph.nodes.map (createNodeRun [])

theorem createRun_mappedRun : createRun plainEnv 0 "run" mappedGraph [] [] = .ok mappedRun :=
  rfl

/-- A Worker claims the service, starts it and resolves its input. -/
def loadSteps : List WorkerStep :=
  [.run (.startRun 0), .run (.schedule 0), .claim 0 0 "w" "t" 60 0, .start 0 0, .load 0]

def artifactResult : ExecutionResult where
  ok := true
  artifacts := [some { content := some [1, 2] }]

/-- The run is cancelled during the execution, and the report is refused. -/
theorem lost_worker_traceless_cancelled : ∃ s p,
    WorkerWorld.ReachableBy plainWorkerEnv (fun s step ↦ step.Guarded plainWorkerEnv s) s ∧
      s.processes 0 = some p ∧ p.Lost s.db.tasks ∧
        Traceless p s ((WorkerStep.report 0 0).exec plainWorkerEnv s) := by
  have hloaded : WorkerWorld.ReachableBy plainWorkerEnv (fun s step ↦ step.Guarded plainWorkerEnv s)
      (WorkerStep.execAll plainWorkerEnv loadSteps { db := mappedRun }) :=
    .execAll _ (by simp [loadSteps, WorkerStep.Guarded]) (.created createRun_mappedRun)
  have hpersisted := hloaded.step (.persist 0 0) (by
    intro p hp _
    cases hp
    refine ⟨?_, ?_⟩
    · rintro ⟨t, ht, hlt⟩
      cases ht
      exact absurd hlt (by decide)
    · rintro ⟨n, hn, hended⟩
      cases hn
      cases hended)
  have hexecuted := hpersisted.execAll [.run (.cancelRun 0), .execute 0 { ok := false }]
    (by simp [WorkerStep.Guarded])
  have hsettled := hexecuted.step (.settle 0 [] true) (by
    intro p result hp hphase hok
    cases hp
    cases hphase
    cases hok)
  refine ⟨_, _, hsettled, rfl, ?lost,
    (lost_worker_traceless hsettled).2 (.report 0 0) 0 _ ?_ rfl rfl ?lost⟩
  · refine ⟨fun h ↦ (by cases h), ?_⟩
    rintro ⟨t, ht, hopen, -⟩
    cases ht
    cases hopen
  · intro p hp hcreated
    cases hp
    exact absurd rfl hcreated

/-- A cancelled NodeRun gets an input; and the artifact of a Worker whose task was
recovered stays, while its `complete` is refused. -/
theorem not_lost_worker_traceless :
    (∃ s p, WorkerWorld.ReachableBy plainWorkerEnv (fun _ _ ↦ True) s ∧
      s.processes 0 = some p ∧ p.Lost s.db.tasks ∧ p.Ended s.db.nodeRuns ∧
        (findNodeRun s.db.nodeRuns "act").map NodeRun.input = some [] ∧
        (findNodeRun ((WorkerStep.persist 0 0).exec plainWorkerEnv s).db.nodeRuns "act").map
          NodeRun.input = some [("topic", .str "news")]) ∧
    ∃ s p, WorkerWorld.ReachableBy plainWorkerEnv (fun _ _ ↦ True) s ∧
      s.processes 0 = some p ∧ p.Lost s.db.tasks ∧ s.artifacts = [] ∧
        ∃ s', s' = WorkerStep.execAll plainWorkerEnv
            [.settle 0 ["a"] true, .report 0 (seconds 62), .reconcile 0 (seconds 62)] s ∧
          s'.processes 0 = none ∧ s'.registered = ["a"] ∧ s'.accepted = [] ∧
            s'.artifacts.map Artifact.producerNodeRunId = ["act"] ∧
              s'.store.content "a" = some [1, 2] := by
  have hcreated : WorkerWorld.ReachableBy plainWorkerEnv (fun _ _ ↦ True) { db := mappedRun } :=
    .created createRun_mappedRun
  have hcancelled := hcreated.execAll (loadSteps ++ [.run (.cancelRun 0)]) fun _ _ _ ↦ trivial
  have hrecovered := hcreated.execAll
    (loadSteps ++ [.persist 0 0, .execute 0 artifactResult, .run (.recoverExpired (seconds 61))])
    fun _ _ _ ↦ trivial
  refine ⟨⟨_, _, hcancelled, rfl, ⟨fun h ↦ (by cases h), ?_⟩, ⟨_, rfl, rfl⟩, rfl, rfl⟩,
    ⟨_, _, hrecovered, rfl, ⟨fun h ↦ (by cases h), ?_⟩, rfl, _, rfl, rfl, rfl, rfl, rfl, rfl⟩⟩
  · rintro ⟨t, ht, hopen, -⟩
    cases ht
    cases hopen
  · rintro ⟨t, ht, -, hlocked, -⟩
    cases ht
    cases hlocked

end Relayvia
