import Relayvia.FailFast

/-!
# Lease fencing

A fenced call without the current lease of its task changes nothing, and the
lease that a task carries is always the one issued last for it.
-/

namespace Relayvia

variable {env : Env} {db db' : RunRecord} {op : RunOp}

/-! ## Fenced calls -/

/-- The lease that a call presents, and when. -/
structure LeaseUse where
  now : Time
  task : TaskId
  party : String
  token : String

/-- The lease that a fenced call presents. -/
def RunOp.leaseUse : RunOp → Option LeaseUse
  | .start now task workerId leaseToken | .complete now task workerId leaseToken ..
  | .fail now task workerId leaseToken .. | .waitNode now task workerId leaseToken ..
  | .scheduleRetry now task workerId leaseToken _ | .renewLease now task workerId leaseToken _
  | .runnerSubmit now workerId task leaseToken _ => some ⟨now, task, workerId, leaseToken⟩
  | _ => none

/-- The presented pair is not the current one of the task, or the lease has
expired, or the task is terminal. -/
def LeaseUse.StaleFor (use : LeaseUse) (t : ExecutionTask) : Prop :=
  ¬(t.lockedBy = some use.party ∧ t.leaseToken = some use.token) ∨
    ¬(∃ expiry, t.leaseExpiresAt = some expiry ∧ use.now < expiry) ∨ t.status.isTerminal = true

theorem owns_iff {now : Time} {party token : String} {t : ExecutionTask} :
    owns now party token t = true ↔ t.status.isTerminal = false ∧ t.lockedBy = some party ∧
      t.leaseToken = some token ∧ ∃ expiry, t.leaseExpiresAt = some expiry ∧ now < expiry := by
  simp [owns, Option.any_eq_true]

theorem LeaseUse.staleFor_iff {use : LeaseUse} {t : ExecutionTask} :
    use.StaleFor t ↔ owns use.now use.party use.token t = false := by
  rw [Bool.eq_false_iff, Ne, owns_iff, StaleFor]
  constructor
  · rintro (h | h | h) ⟨hlive, hparty, htoken, hexpiry⟩
    · exact h ⟨hparty, htoken⟩
    · exact h hexpiry
    · simp [hlive] at h
  · intro h
    by_contra hfresh
    push Not at hfresh
    exact h ⟨by simpa using hfresh.2.2, hfresh.1.1, hfresh.1.2, hfresh.2.1⟩

theorem withLease_stale {now : Time} {task : TaskId} {party token : String}
    {body : ExecutionTask → Except Raised RunRecord}
    (h : ∀ t, findTask db.tasks task = some t → owns now party token t = false) :
    withLease now task party token db body = .ok (false, db) := by
  unfold withLease
  split
  · next t ht =>
    simp [h t ht]
    rfl
  · rfl

/-- A fenced call with a stale lease returns `False` and changes no row. -/
theorem RunOp.exec_stale {use : LeaseUse} (huse : op.leaseUse = some use)
    (hstale : ∀ t, findTask db.tasks use.task = some t → use.StaleFor t) :
    op.exec env db = .ok (false, db) := by
  have hnot : ∀ t, findTask db.tasks use.task = some t →
      owns use.now use.party use.token t = false := fun t ht ↦ use.staleFor_iff.mp (hstale t ht)
  cases op <;> simp only [leaseUse, Option.some.injEq, reduceCtorEq] at huse <;> subst huse
  case start =>
    simp only [exec, Relayvia.start]
    split
    · next t ht =>
      simp [hnot t ht]
      rfl
    · rfl
  case runnerSubmit =>
    simp only [exec, Relayvia.runnerSubmit]
    split
    · next t ht =>
      simp [hnot t ht]
      rfl
    · rfl
  all_goals exact withLease_stale hnot

/-- What a fenced call that returned `True` found. -/
theorem RunOp.exec_accepted {use : LeaseUse} (huse : op.leaseUse = some use)
    (h : op.exec env db = .ok (true, db')) :
    ∃ t, findTask db.tasks use.task = some t ∧
      owns use.now use.party use.token t = true := by
  by_contra hnone
  have hstale : op.exec env db = .ok (false, db) := by
    refine exec_stale huse fun t ht ↦ use.staleFor_iff.mpr ?_
    by_contra howns
    exact hnone ⟨t, ht, by simpa using howns⟩
  rw [hstale] at h
  cases h

/-- The calls that deliver a result. -/
def RunOp.isResult : RunOp → Bool
  | .complete .. | .fail .. | .runnerSubmit .. => true
  | _ => false

theorem withLease_refused {now : Time} {task : TaskId} {party token : String}
    {body : ExecutionTask → Except Raised RunRecord}
    (h : withLease now task party token db body = .ok (false, db')) : db' = db := by
  unfold withLease at h
  split at h
  · split at h
    · cases h
      rfl
    · obtain ⟨_, -, h⟩ := Outcome.bind_eq_ok_iff.mp h
      cases h
  · cases h
    rfl

theorem runnerSubmit_refused {now : Time} {runnerId : String} {task : TaskId} {token : String}
    {result : Dict} (h : runnerSubmit env now runnerId task token result db = .ok (false, db')) :
    db' = db := by
  unfold runnerSubmit at h
  split at h
  · split at h
    · cases h
      rfl
    · split at h
      · cases h
        rfl
      · obtain ⟨_, -, h⟩ := Outcome.bind_eq_ok_iff.mp h
        obtain ⟨_, -, h⟩ := Outcome.bind_eq_ok_iff.mp h
        split at h
        · split at h <;> cases h
        · cases h
  · cases h
    rfl

/-- A refused result changes nothing. -/
theorem RunOp.exec_refused (hop : op.isResult = true) (h : op.exec env db = .ok (false, db')) :
    db' = db := by
  cases op <;> simp only [isResult, Bool.false_eq_true] at hop
  case runnerSubmit => exact runnerSubmit_refused h
  all_goals exact withLease_refused h

/-! ## Histories -/

/-- One transaction of a history. -/
structure Entry where
  op : RunOp
  returned : Bool
  before : RunRecord
  after : RunRecord

/-- The history of a run, newest entry first. -/
inductive History (env : Env) : List Entry → RunRecord → Prop
  | created {now : Time} {id : String} {graph : ParsedGraph} {executionSnapshot input : Dict}
      {db : RunRecord} (h : createRun env now id graph executionSnapshot input = .ok db) :
      History env [] db
  | step {log : List Entry} {db db' : RunRecord} {op : RunOp} {returned : Bool}
      (hlog : History env log db) (h : op.exec env db = .ok (returned, db')) :
      History env (⟨op, returned, db, db'⟩ :: log) db'

/-- A lease that was issued. -/
structure Grant where
  task : TaskId
  party : String
  token : String
  deriving DecidableEq

def RunOp.issues : RunOp → Option Grant
  | .claim _ workerId leaseToken _ _ _ task => some ⟨task, workerId, leaseToken⟩
  | .runnerClaim _ runner leaseToken _ task => some ⟨task, runner.id, leaseToken⟩
  | _ => none

def Entry.grant? (e : Entry) : Option Grant :=
  if e.returned then e.op.issues else none

/-- The leases issued so far, newest first. -/
def grants (log : List Entry) : List Grant :=
  log.filterMap Entry.grant?

/-- The lease of a task that was issued last. -/
def latestGrant (log : List Entry) (task : TaskId) : Option Grant :=
  (grants log).find? (·.task = task)

theorem History.reachable {log : List Entry} (h : History env log db) : Reachable env db := by
  induction h with
  | created h => exact .created h
  | step _ h ih => exact .step ih trivial h

theorem History.coupled {log : List Entry} (h : History env log db) : Coupled db :=
  h.reachable.coupled

/-! ## Issued leases -/

/-- The transactions of the execution side: Workers, Runners and recovery. -/
def RunOp.isExecution : RunOp → Bool
  | .startRun .. | .schedule .. | .pauseRun .. | .resumeRun | .reconcile .. | .cancelRun ..
  | .approve .. | .reject .. | .submit .. => false
  | _ => true

/-- The rights that the arguments of an operation give it. -/
def RunOp.rights (op : RunOp) (db : RunRecord) : Rights where
  report n := ∃ use t, op.leaseUse = some use ∧ findTask db.tasks use.task = some t ∧
    t.nodeRunId = n.nodeId ∧ (op.isResult = true ∨ n.status = .waiting)
  resolve := op.isExecution = false
  grant task party token := op.issues = some ⟨task, party, token⟩

theorem RunOp.promised_rights (op : RunOp) (db : RunRecord) : op.Promised (op.rights db) db := by
  cases op with
  | complete | fail =>
      intro t n ht hn
      exact ⟨_, t, rfl, ht, (Table.key_of_find? hn).symm, .inl rfl⟩
  | waitNode =>
      intro t n ht hn
      exact ⟨_, t, rfl, ht, (Table.key_of_find? hn).symm, .inr rfl⟩
  | runnerSubmit =>
      intro t n ht hn n' hid _ _ _
      exact ⟨_, t, rfl, ht, (Table.key_of_find? hn).symm.trans hid.symm, .inl rfl⟩
  | _ => first | rfl | trivial

/-- Where the lease of a task comes from. -/
theorem Steps.holder {R : Rights} (h : Steps R db db') (hc : Coupled db) :
    ∀ t' ∈ db'.tasks, t'.lockedBy = none ∨
      (∃ t ∈ db.tasks, t.id = t'.id ∧ t.lockedBy = t'.lockedBy ∧ t.leaseToken = t'.leaseToken) ∨
        ∃ party token, t'.lockedBy = some party ∧ t'.leaseToken = some token ∧
          R.grant t'.id party token := by
  induction h with
  | refl => exact fun t' ht' ↦ .inr (.inl ⟨t', ht', rfl, rfl, rfl⟩)
  | tail hrest hstep ih =>
      cases hstep with
      | run hstep =>
          rw [hstep.tasks]
          exact ih
      | cells hstep =>
          intro t' ht'
          have hc₁ := Steps.coupled hrest hc
          obtain ⟨n', hn'⟩ := hstep.keyed.exists_nodeRun (hstep.keyed.taskClosed t' ht')
          obtain ⟨n, -, hcell⟩ := hstep.cell_back hc₁.toKeyed hn'
          have htask := hstep.keyed.taskOfNode_eq_some_iff.mpr ⟨ht', rfl⟩
          rcases hcell.holder t' htask with hnone | ⟨u, hu, hlocked, htoken⟩ | hgrant
          · exact .inl hnone
          · have hid := hcell.taskId u t' hu htask
            rcases ih u (hc₁.taskOfNode_eq_some_iff.mp hu).1 with hnone | ⟨t, ht, hid', hpair⟩ |
              ⟨party, token, hparty, htok, hgrant⟩
            · exact .inl (hlocked.symm.trans hnone)
            · exact .inr (.inl ⟨t, ht, hid'.trans hid.symm, hpair.1.trans hlocked,
                hpair.2.trans htoken⟩)
            · refine .inr (.inr ⟨party, token, hlocked.symm.trans hparty, htoken.symm.trans htok, ?_⟩)
              rwa [hid]
          · exact .inr (.inr hgrant)

/-- The task carries the lease. -/
def Grant.Held (g : Grant) (tasks : List ExecutionTask) : Prop :=
  ∀ t ∈ tasks, t.id = g.task → t.lockedBy = some g.party ∧ t.leaseToken = some g.token

theorem Grant.held_modify (g : Grant) {tasks : List ExecutionTask} {f : ExecutionTask → ExecutionTask}
    (hf : ∀ t ∈ tasks, t.id = g.task → (f t).lockedBy = some g.party ∧ (f t).leaseToken = some g.token) :
    g.Held (Table.modify ExecutionTask.id g.task f tasks) := by
  intro t ht htask
  rcases Table.mem_modify.mp ht with ⟨u, hu, hkey, rfl⟩ | ⟨-, hne⟩
  · exact hf u hu hkey
  · exact absurd htask hne

theorem advanceNode_tasks {id : NodeId} {target : NodeRunStatus} {f : NodeRun → NodeRun}
    (h : advanceNode db id target f = .ok db') : db'.tasks = db.tasks := by
  unfold advanceNode at h
  split at h
  · obtain ⟨_, -, h⟩ := Outcome.bind_eq_ok_iff.mp h
    cases h
    rfl
  · cases h
    rfl

theorem nodeStatus_tasks {id : NodeId} {target : NodeRunStatus}
    (h : nodeStatus db id target = .ok db') : db'.tasks = db.tasks := by
  unfold nodeStatus at h
  split at h
  · cases h
    rfl
  · exact advanceNode_tasks h

/-- A claim that returned `True` left its lease on the task. -/
theorem RunOp.exec_issued {g : Grant} (hissues : op.issues = some g)
    (h : op.exec env db = .ok (true, db')) : g.Held db'.tasks := by
  cases op <;> simp only [issues, Option.some.injEq, reduceCtorEq] at hissues <;> subst hissues
  case claim now workerId leaseToken leaseSeconds capabilities autoStart task =>
    simp only [exec, Relayvia.claim] at h
    split at h
    · split at h
      · cases h
      · have hgranted : Grant.Held ⟨task, workerId, leaseToken⟩
            (Table.modify ExecutionTask.id task (grantLease now workerId leaseToken leaseSeconds)
              db.tasks) :=
          Grant.held_modify _ fun _ _ _ ↦ ⟨rfl, rfl⟩
        split at h
        · cases h
          exact hgranted
        · obtain ⟨_, -, h⟩ := Outcome.bind_eq_ok_iff.mp h
          obtain ⟨db₁, hdb₁, h⟩ := Outcome.bind_eq_ok_iff.mp h
          cases h
          rw [RunRecord.recordEvent_tasks, nodeStatus_tasks hdb₁]
          exact Grant.held_modify _ hgranted
    · cases h
  case runnerClaim now runner leaseToken leaseSeconds task =>
    simp only [exec, Relayvia.runnerClaim] at h
    split at h
    · split at h
      · cases h
      · have hgranted : Grant.Held ⟨task, runner.id, leaseToken⟩
            (Table.modify ExecutionTask.id task (grantLease now runner.id leaseToken leaseSeconds)
              db.tasks) :=
          Grant.held_modify _ fun _ _ _ ↦ ⟨rfl, rfl⟩
        obtain ⟨_, -, h⟩ := Outcome.bind_eq_ok_iff.mp h
        obtain ⟨db₁, hdb₁, h⟩ := Outcome.bind_eq_ok_iff.mp h
        obtain ⟨db₂, hdb₂, hdb₁⟩ := Outcome.bind_eq_ok_iff.mp hdb₁
        have htasks : db₁.tasks = db₂.tasks := by
          cases hdb₁
          rfl
        have hheld : Grant.Held ⟨task, runner.id, leaseToken⟩ db₁.tasks := by
          rw [htasks, nodeStatus_tasks hdb₂]
          exact Grant.held_modify _ hgranted
        split at h <;> cases h <;> exact hheld
    · cases h

/-- A claim that found no candidate changes nothing. -/
theorem RunOp.exec_unissued {g : Grant} (hissues : op.issues = some g)
    (h : op.exec env db = .ok (false, db')) : db' = db := by
  cases op <;> simp only [issues, Option.some.injEq, reduceCtorEq] at hissues
  case claim =>
    simp only [exec, Relayvia.claim] at h
    split at h
    · split at h
      · cases h
        rfl
      · split at h
        · cases h
        · obtain ⟨_, -, h⟩ := Outcome.bind_eq_ok_iff.mp h
          obtain ⟨_, -, h⟩ := Outcome.bind_eq_ok_iff.mp h
          cases h
    · cases h
      rfl
  case runnerClaim =>
    simp only [exec, Relayvia.runnerClaim] at h
    split at h
    · split at h
      · cases h
        rfl
      · obtain ⟨_, -, h⟩ := Outcome.bind_eq_ok_iff.mp h
        obtain ⟨_, -, h⟩ := Outcome.bind_eq_ok_iff.mp h
        split at h <;> cases h
    · cases h
      rfl

/-- The lease on a task is the one issued last for it. -/
def HeldByLatest (log : List Entry) (db : RunRecord) : Prop :=
  ∀ t ∈ db.tasks, ∀ party, t.lockedBy = some party → ∃ token, t.leaseToken = some token ∧
    latestGrant log t.id = some ⟨t.id, party, token⟩

theorem latestGrant_cons {e : Entry} {log : List Entry} {task : TaskId}
    (h : ∀ g, e.grant? = some g → g.task ≠ task) :
    latestGrant (e :: log) task = latestGrant log task := by
  unfold latestGrant grants
  rw [List.filterMap_cons]
  cases hgrant : e.grant? with
  | none => rfl
  | some g => simp [h g hgrant]

theorem History.heldByLatest {log : List Entry} (h : History env log db) : HeldByLatest log db := by
  induction h with
  | created h =>
      intro t ht
      simp [(createRun_ok h).2.2.1] at ht
  | @step log db db' op returned hlog h ih =>
      have hc := hlog.coupled
      have hsteps := (RunOp.exec_sound hc (op.promised_rights db)).of_ok h
      intro t' ht' party hparty
      by_cases hgrant : ∃ g, Entry.grant? ⟨op, returned, db, db'⟩ = some g ∧ g.task = t'.id
      · obtain ⟨g, hg, htask⟩ := hgrant
        have hreturned : returned = true := by
          by_contra hfalse
          simp [Entry.grant?, hfalse] at hg
        subst hreturned
        obtain ⟨hlocked, htoken⟩ := RunOp.exec_issued (by simpa [Entry.grant?] using hg) h t' ht'
          htask.symm
        rw [hparty] at hlocked
        cases hlocked
        refine ⟨g.token, htoken, ?_⟩
        simp [latestGrant, grants, hg, htask]
        rw [← htask]
      · push Not at hgrant
        rw [latestGrant_cons hgrant]
        rcases Steps.holder hsteps hc t' ht' with hnone | ⟨t, ht, hid, hlocked, htoken⟩ |
          ⟨party', token, hlocked, htoken, hissues⟩
        · simp [hparty] at hnone
        · obtain ⟨token, htok, hlatest⟩ := ih t ht party (hlocked.trans hparty)
          rw [hid] at hlatest
          exact ⟨token, htoken.symm.trans htok, hlatest⟩
        · cases returned with
          | true => exact absurd rfl (hgrant _ hissues)
          | false =>
              obtain rfl := RunOp.exec_unissued hissues h
              exact ih t' ht' party hparty

/-! ## Results -/

/-- What execution without the right to resolve waits does to one NodeRun: either
the output stays and no result is new, or an open NodeRun got a reported result. -/
theorem CellSteps.result {R : Rights} (h : CellSteps R db db') (hc : Coupled db)
    (hresolve : ¬R.resolve) {id : NodeId} {n n' : NodeRun}
    (hn : findNodeRun db.nodeRuns id = some n) (hn' : findNodeRun db'.nodeRuns id = some n') :
    n'.output = n.output ∧ (n'.status = .completed ∨ n'.status = .failed → n'.status = n.status) ∨
      (n'.status = .completed ∨ n'.status = .failed) ∧ n.status.isTerminal = false ∧
        (n'.output = n.output ∨ n'.status = .completed) ∧
          ∃ m, R.report m ∧ m.nodeId = id ∧ m.status = n'.status := by
  induction h generalizing n' with
  | refl =>
      rw [hn] at hn'
      cases hn'
      exact .inl ⟨rfl, fun _ ↦ rfl⟩
  | @tail db₁ db₂ hrest hstep ih =>
      have hc₁ : Coupled db₁ := CellSteps.coupled hrest hc
      obtain ⟨n₁, hn₁, hcell⟩ := hstep.cell_back hc₁.toKeyed hn'
      have hcoupling := hc₁.coupling id n₁ hn₁
      by_cases hterminal : n₁.status.isTerminal = true
      · obtain ⟨hstatus, houtput⟩ := hcell.frozen hcoupling hterminal
        rw [hstatus, houtput]
        exact ih hn₁
      · have hopen : n₁.status.isTerminal = false := by simpa using hterminal
        have hbefore : n.status.isTerminal = false := by
          by_contra hended
          obtain ⟨m, hm, hstatus, -⟩ := Steps.frozen (CellSteps.steps hrest) hc hn (by simpa using hended)
          rw [hn₁] at hm
          cases hm
          simp [← hstatus, hopen] at hended
        have houtput₁ : n₁.output = n.output := by
          rcases ih hn₁ with ⟨houtput, -⟩ | ⟨hresult, -⟩
          · exact houtput
          · rcases hresult with h | h <;> simp [h, NodeRunStatus.isTerminal] at hopen
        by_cases hresult : n'.status = .completed ∨ n'.status = .failed
        · have hrunning : n₁.status = .running := by
            rcases hcell.move with heq | hmove
            · have hstatus : n'.status = n₁.status := congrArg Prod.fst heq
              rcases hresult with h | h <;>
                simp [← hstatus, h, NodeRunStatus.isTerminal] at hopen
            · rcases hmove.of_result hopen hresult with h | h
              · exact h
              · exact absurd (hcell.resolved h hresult) hresolve
          refine .inr ⟨hresult, hbefore, ?_, n', hcell.reported hrunning ?_, ?_, rfl⟩
          · rcases hcell.output with h | h
            · exact .inl (h.trans houtput₁)
            · exact .inr h.1
          · rcases hresult with h | h <;> simp [h]
          · exact Table.key_of_find? hn'
        · refine .inl ⟨?_, fun h ↦ absurd h hresult⟩
          rcases hcell.output with h | h
          · exact h.trans houtput₁
          · exact absurd (.inl h.1) hresult

/-- The entry is a result that was accepted for the NodeRun `id`. -/
def Entry.delivers (id : NodeId) (e : Entry) : Bool :=
  e.returned ∧ e.op.isResult ∧
    (∃ use ∈ e.op.leaseUse, ∃ t ∈ findTask e.before.tasks use.task, t.nodeRunId = id) ∧
      (statusOf e.after.nodeRuns id = some .completed ∨ statusOf e.after.nodeRuns id = some .failed)

/-- The NodeRun of a task whose lease was accepted is open. -/
theorem Coupled.open_of_owns (hc : Coupled db) {now : Time} {party token : String} {task : TaskId}
    {t : ExecutionTask} (ht : findTask db.tasks task = some t)
    (howns : owns now party token t = true) :
    ∃ n, findNodeRun db.nodeRuns t.nodeRunId = some n ∧ n.status.isTerminal = false := by
  obtain ⟨n, hn, -, -, hcoupling⟩ := hc.cell_of_task ht
  exact ⟨n, hn, hcoupling.open_of_live (owns_iff.mp howns).1⟩

theorem History.delivered {log : List Entry} (h : History env log db) (id : NodeId) :
    log.countP (Entry.delivers id) ≤ 1 ∧ (0 < log.countP (Entry.delivers id) →
      ∃ n, findNodeRun db.nodeRuns id = some n ∧ (n.status = .completed ∨ n.status = .failed)) := by
  induction h with
  | created => simp
  | @step log db db' op returned hlog h ih =>
      have hc := hlog.coupled
      have hsteps := (RunOp.exec_sound hc (op.promised_rights db)).of_ok h
      rw [List.countP_cons]
      by_cases hdelivers : Entry.delivers id ⟨op, returned, db, db'⟩ = true
      · simp only [hdelivers, if_true]
        simp only [Entry.delivers, Bool.decide_and, Bool.and_eq_true, decide_eq_true_eq] at hdelivers
        obtain ⟨rfl, -, ⟨use, huse, t, ht, rfl⟩, hstatus⟩ := hdelivers
        obtain ⟨u, hu, howns⟩ := RunOp.exec_accepted huse h
        rw [Option.mem_def.mp ht] at hu
        cases hu
        obtain ⟨n, hn, hopen⟩ := hc.open_of_owns ht howns
        have hnone : ¬0 < log.countP (Entry.delivers t.nodeRunId) := by
          intro hpos
          obtain ⟨m, hm, hresult⟩ := ih.2 hpos
          rw [hn] at hm
          cases hm
          rcases hresult with h | h <;> simp [h, NodeRunStatus.isTerminal] at hopen
        refine ⟨by omega, fun _ ↦ ?_⟩
        unfold statusOf at hstatus
        cases hn' : findNodeRun db'.nodeRuns t.nodeRunId with
        | none => simp [hn'] at hstatus
        | some n' => exact ⟨n', rfl, by simpa [hn'] using hstatus⟩
      · simp only [hdelivers, if_false, Nat.add_zero, Bool.false_eq_true]
        refine ⟨ih.1, fun hpos ↦ ?_⟩
        obtain ⟨n, hn, hresult⟩ := ih.2 hpos
        have hterminal : n.status.isTerminal = true := by
          rcases hresult with h | h <;> simp [h, NodeRunStatus.isTerminal]
        obtain ⟨n', hn', hstatus, -⟩ := Steps.frozen hsteps hc hn hterminal
        exact ⟨n', hn', by rwa [hstatus]⟩

/-- Every entry of a history was a transaction on the state that the older ones left. -/
theorem History.entry {later earlier : List Entry} {e : Entry}
    (h : History env (later ++ e :: earlier) db) :
    History env earlier e.before ∧ e.op.exec env e.before = .ok (e.returned, e.after) := by
  induction later generalizing db with
  | nil =>
      cases h with
      | step hlog h => exact ⟨hlog, h⟩
  | cons _ later ih =>
      cases h with
      | step hlog _ => exact ih hlog

theorem latestGrant_mem {log : List Entry} {task : TaskId} {g : Grant}
    (h : latestGrant log task = some g) : g ∈ grants log :=
  List.mem_of_find?_eq_some h

/-- The lease of an accepted call is the one issued last for its task. -/
theorem History.latest_of_accepted {log : List Entry} (h : History env log db) {use : LeaseUse}
    (huse : op.leaseUse = some use) (hexec : op.exec env db = .ok (true, db')) :
    latestGrant log use.task = some ⟨use.task, use.party, use.token⟩ := by
  obtain ⟨t, ht, howns⟩ := RunOp.exec_accepted huse hexec
  obtain ⟨hmem, hid⟩ := h.coupled.findTask_eq_some_iff.mp ht
  obtain ⟨-, hparty, htoken, -⟩ := owns_iff.mp howns
  obtain ⟨token, htok, hlatest⟩ := h.heldByLatest t hmem use.party hparty
  rw [htoken] at htok
  cases htok
  rwa [hid] at hlatest

/-- An execution transaction that changed the output of a NodeRun, or gave it a
result, was an accepted result call. -/
theorem History.delivers_of_changed {log : List Entry} (h : History env log db) {e : Entry}
    (hbefore : e.before = db) (hexec : e.op.exec env e.before = .ok (e.returned, e.after))
    (hexecution : e.op.isExecution = true) {id : NodeId} {n n' : NodeRun}
    (hn : findNodeRun e.before.nodeRuns id = some n) (hn' : findNodeRun e.after.nodeRuns id = some n')
    (hchanged : n'.output ≠ n.output ∨
      n'.status ≠ n.status ∧ (n'.status = .completed ∨ n'.status = .failed)) :
    e.delivers id = true ∧ (n'.output ≠ n.output → n'.status = .completed ∧ n.status ≠ .completed) := by
  obtain ⟨op, returned, before, db'⟩ := e
  subst hbefore
  have hc : Coupled before := h.coupled
  have hcells : op.movesRun = false := by
    cases op <;> first | rfl | cases hexecution
  have hsteps := (RunOp.exec_cells hc (op.promised_rights before) hcells).of_ok hexec
  have hresolve : ¬(op.rights before).resolve := by
    simpa [RunOp.rights] using hexecution
  rcases CellSteps.result hsteps hc hresolve hn hn' with ⟨houtput, hstatus⟩ |
    ⟨hresult, hopen, houtput, m, ⟨use, t, huse, ht, hnode, hkind⟩, hm, hmstatus⟩
  · rcases hchanged with h | ⟨hne, hresult⟩
    · exact absurd houtput h
    · exact absurd (hstatus hresult) hne
  · have hresultOp : op.isResult = true := by
      rcases hkind with h | h
      · exact h
      · rw [hmstatus] at h
        rcases hresult with h' | h' <;> simp [h'] at h
    have hreturned : returned = true := by
      by_contra hfalse
      have hfalse : returned = false := by simpa using hfalse
      subst hfalse
      have heq : db' = before := RunOp.exec_refused hresultOp hexec
      have hsame : findNodeRun before.nodeRuns id = some n' := heq ▸ hn'
      rw [show findNodeRun before.nodeRuns id = some n from hn] at hsame
      cases hsame
      rcases hresult with h | h <;> simp [h, NodeRunStatus.isTerminal] at hopen
    refine ⟨?_, fun h ↦ ⟨?_, fun hcompleted ↦ ?_⟩⟩
    · have hstatus : statusOf db'.nodeRuns id = some n'.status := statusOf_eq hn'
      simp only [Entry.delivers, hreturned, hresultOp, huse, hstatus, Option.mem_def,
        Option.some.injEq, exists_eq_left', true_and, decide_eq_true_eq]
      exact ⟨⟨t, ht, hnode.trans hm⟩, hresult⟩
    · rcases houtput with heq | hcompleted
      · exact absurd heq h
      · exact hcompleted
    · simp [hcompleted, NodeRunStatus.isTerminal] at hopen

/-- Lease fencing.  A fenced call without the current lease returns `False` and
changes nothing.  With fresh tokens, each NodeRun gets at most one result from
execution, and execution writes an output only together with COMPLETED, by a call
that presents the lease issued last for the task of the NodeRun. -/
theorem lease_fencing {log : List Entry} (h : History env log db)
    (hfresh : ((grants log).map Grant.token).Nodup) :
    (∀ op use, RunOp.leaseUse op = some use →
      (∀ t, findTask db.tasks use.task = some t → use.StaleFor t) →
        RunOp.exec env op db = .ok (false, db)) ∧
      (∀ id, log.countP (Entry.delivers id) ≤ 1) ∧
      ∀ later e earlier, log = later ++ e :: earlier → e.op.isExecution = true →
        ∀ id n n', findNodeRun e.before.nodeRuns id = some n →
          findNodeRun e.after.nodeRuns id = some n' →
            (n'.output ≠ n.output → n'.status = .completed ∧ n.status ≠ .completed) ∧
              (n'.output ≠ n.output ∨
                n'.status ≠ n.status ∧ (n'.status = .completed ∨ n'.status = .failed) →
                e.delivers id = true ∧ ∃ use t, e.op.leaseUse = some use ∧
                  findTask e.before.tasks use.task = some t ∧ t.nodeRunId = id ∧
                    latestGrant earlier use.task = some ⟨use.task, use.party, use.token⟩ ∧
                      ∀ g ∈ grants log, g.token = use.token →
                        g = ⟨use.task, use.party, use.token⟩) := by
  refine ⟨fun op use ↦ RunOp.exec_stale, fun id ↦ (h.delivered id).1, ?_⟩
  rintro later e earlier rfl hexecution id n n' hn hn'
  obtain ⟨hearlier, hexec⟩ := h.entry
  refine ⟨fun hchanged ↦ ?_, fun hchanged ↦ ?_⟩
  · exact (hearlier.delivers_of_changed rfl hexec hexecution hn hn' (.inl hchanged)).2 hchanged
  · have hdelivers := (hearlier.delivers_of_changed rfl hexec hexecution hn hn' hchanged).1
    refine ⟨hdelivers, ?_⟩
    simp only [Entry.delivers, Bool.decide_and, Bool.and_eq_true, decide_eq_true_eq] at hdelivers
    obtain ⟨hreturned, -, ⟨use, huse, t, ht, hnode⟩, -⟩ := hdelivers
    rw [hreturned] at hexec
    have hlatest := hearlier.latest_of_accepted huse hexec
    refine ⟨use, t, huse, ht, hnode, hlatest, fun g hg htoken ↦ ?_⟩
    refine List.inj_on_of_nodup_map hfresh hg ?_ htoken
    have hsub : grants earlier ⊆ grants (later ++ e :: earlier) := by
      unfold grants
      rw [List.filterMap_append, List.filterMap_cons]
      intro g hg
      refine List.mem_append_right _ ?_
      split
      · exact hg
      · exact List.mem_cons_of_mem _ hg
    exact hsub (latestGrant_mem hlatest)

/-- The service of `serviceRun` is claimed and completed; a second result with the
same lease is refused. -/
theorem lease_fencing_serviceRun :
    ∃ db₁ db₂ db₃ db₄, RunOp.exec plainEnv (.startRun 0) serviceRun = .ok (true, db₁) ∧
      RunOp.exec plainEnv (.schedule 0) db₁ = .ok (true, db₂) ∧
      RunOp.exec plainEnv (.claim 0 "w" "t" 60 none true 0) db₂ = .ok (true, db₃) ∧
      RunOp.exec plainEnv (.complete 0 0 "w" "t" [] [] []) db₃ = .ok (true, db₄) ∧
      RunOp.exec plainEnv (.complete 0 0 "w" "t" [] [] []) db₄ = .ok (false, db₄) := by
  obtain ⟨db₁, h₁, db₂, h₂, db₃, h₃, db₄, h₄, hended⟩ :
      ∃ db₁, RunOp.exec plainEnv (.startRun 0) serviceRun = .ok (true, db₁) ∧
        ∃ db₂, RunOp.exec plainEnv (.schedule 0) db₁ = .ok (true, db₂) ∧
          ∃ db₃, RunOp.exec plainEnv (.claim 0 "w" "t" 60 none true 0) db₂ = .ok (true, db₃) ∧
            ∃ db₄, RunOp.exec plainEnv (.complete 0 0 "w" "t" [] [] []) db₃ = .ok (true, db₄) ∧
              ∀ t ∈ db₄.tasks, t.status.isTerminal = true :=
    ⟨_, rfl, _, rfl, _, rfl, _, rfl, by decide⟩
  have hhistory := (((History.created createRun_serviceRun).step h₁).step h₂).step h₃ |>.step h₄
  refine ⟨db₁, db₂, db₃, db₄, h₁, h₂, h₃, h₄, ?_⟩
  exact (lease_fencing hhistory (List.nodup_singleton "t")).1 _ _ rfl fun t ht ↦
    .inr (.inr (hended t (Table.mem_of_find? ht)))

end Relayvia
