import Relayvia.Artifacts.Service
import Relayvia.Bookkeeping.Nodes

/-!
# Expired leases

Every fenced write rejects an expired lease.  The heartbeat of a Runner and its uploads
compare the owner and the token only, so they accept one while the task is RUNNING.
-/

namespace Relayvia

variable {env : Env} {now : Time} {db db' : RunRecord} {op : RunOp} {returned : Bool}
  {use : LeaseUse} {t t' : ExecutionTask} {queues cancels : Prop} {c c' : Cell}

/-- The presented lease is the one of the task, and it has expired. -/
def LeaseUse.Expired (use : LeaseUse) (t : ExecutionTask) : Prop :=
  t.lockedBy = some use.party ∧ t.leaseToken = some use.token ∧
    ∃ expiry, t.leaseExpiresAt = some expiry ∧ expiry ≤ use.now

/-! ## Calls -/

theorem LeaseUse.Expired.staleFor (h : use.Expired t) : use.StaleFor t := by
  obtain ⟨-, -, expiry, hexpiry, hpassed⟩ := h
  refine .inr (.inl ?_)
  rintro ⟨expiry', hexpiry', hlive⟩
  rw [hexpiry] at hexpiry'
  cases hexpiry'
  exact absurd hlive (Nat.not_lt.mpr hpassed)

theorem LeaseUse.Expired.refused (h : use.Expired t) (ht : findTask db.tasks use.task = some t)
    (huse : op.leaseUse = some use) : op.exec env db = .ok (false, db) := by
  apply RunOp.exec_stale huse
  intro t' ht'
  rw [ht] at ht'
  cases ht'
  exact h.staleFor

/-- The calls that present a lease. -/
inductive LeaseCall
  | fenced (op : RunOp)
  | heartbeat (runner : Runner) (leaseSeconds : ℕ)
  | stage (id : String) (description : ArtifactDescription)
  | check (artifactId : String) (artifacts : List Artifact)

namespace LeaseCall

variable (use : LeaseUse)

/-- The call presents this lease. -/
def Presents : LeaseCall → Prop
  | fenced op => op.leaseUse = some use
  | heartbeat runner _ => runner.id = use.party
  | stage .. | check .. => True

/-- The call raises, or it returns the refusal and changes nothing. -/
def Rejected (env : Env) (db : RunRecord) : LeaseCall → Prop
  | fenced op => op.exec env db = .ok (false, db)
  | heartbeat runner leaseSeconds =>
      let x := runnerTaskHeartbeat use.now runner use.task use.token leaseSeconds db
      x = .ok (true, db) ∨ ∃ e, x = .error e
  | stage id description =>
      ∃ e, createRunnerArtifactUpload env use.party use.token use.task id description db = .error e
  | check artifactId artifacts =>
      ∃ e, validateRunnerArtifactUpload artifactId use.party use.task use.token artifacts db =
        .error e

/-- The call does not look at the expiry, and the status of the task does not stop it. -/
def Slips (db : RunRecord) (t : ExecutionTask) : LeaseCall → Prop
  | fenced _ => False
  | heartbeat .. => t.status = .running ∧ db.run.status.isTerminal = false
  | stage .. => t.status = .running
  | check artifactId artifacts => t.status = .running ∧
      ∃ artifact, Table.find? Artifact.id artifactId artifacts = some artifact ∧
        artifact.workflowRunId = db.run.id ∧ artifact.producerNodeRunId = t.nodeRunId ∧
          artifact.uploadStatus = some (.str "staging")

end LeaseCall

theorem heartbeat_rejected_iff (h : use.Expired t) (ht : findTask db.tasks use.task = some t)
    {runner : Runner} (hrunner : runner.id = use.party) {leaseSeconds : ℕ} :
    (LeaseCall.heartbeat runner leaseSeconds).Rejected use env db ↔
      ¬(t.status = .running ∧ db.run.status.isTerminal = false) := by
  have howner : ¬(t.lockedBy ≠ some runner.id ∨ t.leaseToken ≠ some use.token) := by
    simp [h.1, h.2.1, hrunner]
  have hvalue : runnerTaskHeartbeat use.now runner use.task use.token leaseSeconds db =
      if t.status ≠ .running ∨ db.run.status.isTerminal then .ok (true, db)
      else .ok (false, db.modifyTask use.task fun t ↦
        { t with leaseExpiresAt := some (use.now + seconds leaseSeconds) }) := by
    simp only [runnerTaskHeartbeat, ht, howner, if_false]
    rfl
  simp only [LeaseCall.Rejected, hvalue]
  by_cases hopen : t.status = .running ∧ db.run.status.isTerminal = false
  · simp [hopen.1, hopen.2]
  · have hended : t.status ≠ .running ∨ db.run.status.isTerminal = true := by
      by_contra hboth
      push Not at hboth
      exact hopen ⟨hboth.1, by simpa using hboth.2⟩
    simp [hended, hopen]

theorem runsUnder_expired (h : use.Expired t) (ht : findTask db.tasks use.task = some t) :
    (findTask db.tasks use.task).filter (runsUnder use.party use.token) =
      if t.status = .running then some t else none := by
  rw [ht, Option.filter_some]
  simp [runsUnder, h.1, h.2.1]

theorem stage_rejected_iff (h : use.Expired t) (ht : findTask db.tasks use.task = some t)
    {id : String} {description : ArtifactDescription} :
    (LeaseCall.stage id description).Rejected use env db ↔ t.status ≠ .running := by
  simp only [LeaseCall.Rejected, createRunnerArtifactUpload, runsUnder_expired h ht]
  by_cases hrunning : t.status = .running
  · simp [hrunning, pure, Except.pure]
  · simp [hrunning, throw, throwThe, MonadExceptOf.throw]

theorem check_rejected_iff (h : use.Expired t) (ht : findTask db.tasks use.task = some t)
    {artifactId : String} {artifacts : List Artifact} :
    (LeaseCall.check artifactId artifacts).Rejected use env db ↔
      ¬(LeaseCall.check artifactId artifacts).Slips db t := by
  simp only [LeaseCall.Rejected, LeaseCall.Slips, validateRunnerArtifactUpload,
    runsUnder_expired h ht]
  cases hfound : Table.find? Artifact.id artifactId artifacts with
  | none => simp [throw, throwThe, MonadExceptOf.throw]
  | some artifact =>
      by_cases hrunning : t.status = .running
      · by_cases hforeign : artifact.workflowRunId ≠ db.run.id ∨
          artifact.producerNodeRunId ≠ t.nodeRunId
        · have hslips : ¬(artifact.workflowRunId = db.run.id ∧
              artifact.producerNodeRunId = t.nodeRunId) := by tauto
          simp [hrunning, hforeign, throw, throwThe, MonadExceptOf.throw]
          tauto
        · push Not at hforeign
          by_cases hstaging : artifact.uploadStatus = some (.str "staging")
          · simp [hrunning, hforeign, hstaging, pure, Except.pure]
          · simp [hrunning, hforeign, hstaging, throw, throwThe, MonadExceptOf.throw]
      · simp [hrunning, throw, throwThe, MonadExceptOf.throw]

/-! ## Runs -/

/-- The transactions that lead from one state to another, newest first. -/
inductive Segment (env : Env) (db : RunRecord) : List Entry → RunRecord → Prop
  | nil : Segment env db [] db
  | step {log : List Entry} {db' db'' : RunRecord} {op : RunOp} {returned : Bool}
      (hlog : Segment env db log db') (h : op.exec env db' = .ok (returned, db'')) :
      Segment env db (⟨op, returned, db', db''⟩ :: log) db''

theorem Segment.coupled {log : List Entry} (h : Segment env db log db') (hc : Coupled db) :
    Coupled db' := by
  induction h with
  | nil => exact hc
  | step _ h ih => exact RunOp.exec_coupled env _ ih h

/-- From `t` on, the lease is the expired one or none, and the task was not started. -/
structure Dormant (t t' : ExecutionTask) : Prop where
  id : t'.id = t.id
  attempt : t'.attempt = t.attempt
  lease : t'.lockedBy = t.lockedBy ∧ t'.leaseToken = t.leaseToken ∧
      t'.leaseExpiresAt = t.leaseExpiresAt ∧ (t'.status = t.status ∨ t'.status = .cancelled) ∨
    t'.lockedBy = none ∧ t'.leaseToken = none ∧ (t'.status = .pending ∨ t'.status = .cancelled)

theorem Dormant.cancelTask (h : Dormant t t') : Dormant t (cancelTask now t') := by
  unfold Relayvia.cancelTask
  split
  · exact h
  · refine ⟨h.id, h.attempt, ?_⟩
    rcases h.lease with ⟨hparty, htoken, hexpiry, -⟩ | ⟨hparty, htoken, -⟩
    · exact .inl ⟨hparty, htoken, hexpiry, .inr rfl⟩
    · exact .inr ⟨hparty, htoken, .inr rfl⟩

theorem dormant_of_settles (h : Relation.ReflTransGen (Settling queues cancels now) c c')
    (hc : c.2 = some t') (hd : Dormant t t') : ∃ t'', c'.2 = some t'' ∧ Dormant t t'' := by
  induction h with
  | refl => exact ⟨t', hc, hd⟩
  | tail _ hstep ih =>
      obtain ⟨u, hu, hdormant⟩ := ih
      cases hstep with
      | queue | skip => cases hu
      | promote => exact ⟨u, hu, hdormant⟩
      | cancel =>
          cases hu
          exact ⟨_, rfl, hdormant.cancelTask⟩

/-- Nobody owns a dormant task after the expiry. -/
theorem Dormant.unowned (h : Dormant t t') {expiry : Time}
    (hexpiry : t.leaseExpiresAt = some expiry) (hnow : expiry ≤ now) (party token : String) :
    owns now party token t' = false := by
  by_contra howns
  obtain ⟨-, hparty, -, expiry', hexpiry', hlive⟩ := owns_iff.mp (by simpa using howns)
  rcases h.lease with ⟨-, -, hkept, -⟩ | ⟨hnone, -⟩
  · rw [hkept, hexpiry] at hexpiry'
    cases hexpiry'
    exact absurd hlive (Nat.not_lt.mpr hnow)
  · rw [hnone] at hparty
    cases hparty

/-- What an operation after the expiry does not do with the task. -/
structure LeavesExpired (use : LeaseUse) (expiry : Time) (db : RunRecord) (op : RunOp)
    (t' : ExecutionTask) : Prop where
  time : ∀ x ∈ op.time, expiry ≤ x
  unissued : ∀ g, op.issues = some g → g.task ≠ t'.id
  heartbeat : ∀ now runner leaseSeconds,
    op = .runnerTaskHeartbeat now runner t'.id use.token leaseSeconds → runner.id = use.party →
      ¬(t'.status = .running ∧ db.run.status.isTerminal = false)

theorem CellChange.dormant (h : CellChange env db db' op c c') (hc : c.2 = some t')
    (hd : Dormant t t') (hexpired : use.Expired t) {expiry : Time}
    (hexpiry : t.leaseExpiresAt = some expiry) (hop : LeavesExpired use expiry db op t')
    (hqueued : t'.status.isQueued = true → t'.lockedBy = none) :
    ∃ t'', c'.2 = some t'' ∧ Dormant t t'' := by
  have hnone {party token : String} {x : Time} (howns : owns x party token t' = true)
      (htime : expiry ≤ x) : False := by
    rw [hd.unowned hexpiry htime] at howns
    cases howns
  cases h with
  | resolve => exact ⟨t', hc, hd⟩
  | schedule h | reconcile h | cancelRun h => exact dormant_of_settles h hc hd
  | claim | autoStart | runnerClaim =>
      cases hc
      exact absurd rfl (hop.unissued _ rfl)
  | recover =>
      cases hc
      exact ⟨_, rfl, hd.id, hd.attempt, .inr ⟨rfl, rfl, .inl rfl⟩⟩
  | requeue _ hdue =>
      cases hc
      simp only [retryDue, Bool.decide_and, Bool.and_eq_true, decide_eq_true_eq] at hdue
      rw [hdue.1] at hqueued
      have hfree := hqueued rfl
      rcases hd.lease with ⟨hparty, -⟩ | ⟨-, -, hstatus⟩
      · rw [hparty, hexpired.1] at hfree
        cases hfree
      · rw [hdue.1] at hstatus
        rcases hstatus with h | h <;> cases h
  | heartbeat hholder hrunning hopen =>
      cases hc
      rcases hd.lease with ⟨hparty, htoken, -⟩ | ⟨hparty, -⟩
      · rw [hparty, hexpired.1] at hholder
        rw [htoken, hexpired.2.1] at hholder
        have hrunner := Option.some.inj hholder.1
        obtain rfl := Option.some.inj hholder.2
        exact absurd ⟨hrunning, hopen⟩ (hop.heartbeat _ _ _ rfl hrunner.symm)
      · rw [hparty] at hholder
        cases hholder.1
  | start howns | release howns | abandon howns | complete howns | fail howns | waitNode howns
  | scheduleRetry howns | renewLease howns | submitCompleted howns | submitRetry howns
  | submitFailed howns =>
      cases hc
      exact (hnone howns (hop.time _ rfl)).elim

/-- The entry is later than the expiry; it neither issues a lease of the task nor lets a
heartbeat under the expired one slip. -/
structure Entry.LeavesExpired (use : LeaseUse) (expiry : Time) (e : Entry) : Prop where
  time : ∀ x ∈ e.op.time, expiry ≤ x
  unissued : ∀ g, e.grant? = some g → g.task ≠ use.task
  heartbeat : ∀ now runner leaseSeconds,
    e.op = .runnerTaskHeartbeat now runner use.task use.token leaseSeconds →
      (LeaseCall.heartbeat runner leaseSeconds).Presents use →
        ∀ t, findTask e.before.tasks use.task = some t →
          ¬(LeaseCall.heartbeat runner leaseSeconds).Slips e.before t

theorem RunOp.exec_dormant (hc : Coupled db) (h : op.exec env db = .ok (returned, db'))
    (hexpired : use.Expired t) {expiry : Time} (hexpiry : t.leaseExpiresAt = some expiry)
    (he : Entry.LeavesExpired use expiry ⟨op, returned, db, db'⟩)
    (ht : findTask db.tasks use.task = some t') (hd : Dormant t t') :
    ∃ t'', findTask db'.tasks use.task = some t'' ∧ Dormant t t'' := by
  by_cases hclaim : ∃ g, op.issues = some g ∧ g.task = use.task
  · obtain ⟨g, hissues, htask⟩ := hclaim
    cases returned with
    | true => exact absurd htask (he.unissued g (by simp [Entry.grant?, hissues]))
    | false =>
        rw [RunOp.exec_unissued hissues h]
        exact ⟨t', ht, hd⟩
  · push Not at hclaim
    obtain ⟨n, hn, hmem, hid, -⟩ := hc.cell_of_task ht
    have hc' := RunOp.exec_coupled env op hc h
    have htask := hc.taskOfNode_eq_some_iff.mpr ⟨hmem, rfl⟩
    obtain ⟨n', -, hcell⟩ := RunOp.exec_cellChange hc h _ n hn
    obtain ⟨t'', ht'', hdormant⟩ :
        ∃ t'', taskOfNode db'.tasks t'.nodeRunId = some t'' ∧ Dormant t t'' := by
      rcases hcell with hsame | hchange
      · exact ⟨t', (Prod.mk.inj hsame).2.trans htask, hd⟩
      · apply hchange.dormant htask hd hexpired hexpiry _ (hc.unleased t' hmem)
        constructor
        · exact he.time
        · rw [hid]
          exact hclaim
        · rw [hid]
          exact fun now runner leaseSeconds hop hrunner ↦
            he.heartbeat now runner leaseSeconds hop hrunner t' ht
    have hmem' := (hc'.taskOfNode_eq_some_iff.mp ht'').1
    refine ⟨t'', hc'.findTask_eq_some_iff.mpr ⟨hmem', ?_⟩, hdormant⟩
    rw [hdormant.id, ← hd.id, hid]

theorem Segment.dormant {log : List Entry} (h : Segment env db log db') (hc : Coupled db)
    (ht : findTask db.tasks use.task = some t) (hexpired : use.Expired t) {expiry : Time}
    (hexpiry : t.leaseExpiresAt = some expiry)
    (hlog : ∀ e ∈ log, e.LeavesExpired use expiry) :
    ∃ t', findTask db'.tasks use.task = some t' ∧ Dormant t t' := by
  induction h with
  | nil => exact ⟨t, ht, rfl, rfl, .inl ⟨rfl, rfl, rfl, .inl rfl⟩⟩
  | step hrest h ih =>
      obtain ⟨hlast, hearlier⟩ := List.forall_mem_cons.mp hlog
      obtain ⟨t', ht', hd⟩ := ih hearlier
      exact RunOp.exec_dormant (hrest.coupled hc) h hexpired hexpiry hlast ht' hd

/-- A call that presents an expired lease is rejected if and only if it does not slip.
As long as no heartbeat slips and no claim takes the task, it is not started again, and
every fenced call with the lease is refused. -/
theorem expired_lease_iff (h : Reachable env db) (ht : findTask db.tasks use.task = some t)
    (hexpired : use.Expired t) :
    (∀ call : LeaseCall, call.Presents use → (call.Rejected use env db ↔ ¬call.Slips db t)) ∧
    ∀ expiry, t.leaseExpiresAt = some expiry → ∀ log db', Segment env db log db' →
      (∀ e ∈ log, e.LeavesExpired use expiry) →
        (∃ t', findTask db'.tasks use.task = some t' ∧ Dormant t t') ∧
        ∀ (op : RunOp) (use' : LeaseUse), op.leaseUse = some use' → use'.task = use.task →
          expiry ≤ use'.now → op.exec env db' = .ok (false, db') := by
  constructor
  · intro call hcall
    cases call with
    | fenced op => exact iff_of_true (hexpired.refused ht hcall) id
    | heartbeat => exact heartbeat_rejected_iff hexpired ht hcall
    | stage => exact stage_rejected_iff hexpired ht
    | check => exact check_rejected_iff hexpired ht
  · intro expiry hexpiry log db' hsegment hlog
    obtain ⟨t', ht', hd⟩ := hsegment.dormant h.coupled ht hexpired hexpiry hlog
    refine ⟨⟨t', ht', hd⟩, fun op use' huse htask hnow ↦ ?_⟩
    apply RunOp.exec_stale huse
    intro u hu
    rw [htask, ht'] at hu
    cases hu
    exact use'.staleFor_iff.mpr (hd.unowned hexpiry hnow _ _)

/-- A Runner has claimed the tool of `shellRun` for a minute; a second after that its
heartbeat claims it for another one. -/
theorem claimed_shellRun : ∃ db t, Reachable plainEnv db ∧ db.run.status = .running ∧
    findTask db.tasks 0 = some t ∧ t.status = .running ∧
    LeaseUse.Expired ⟨seconds 61, 0, "r", "t"⟩ t ∧ t.leaseExpiresAt = some (seconds 60) ∧
    ∃ db', runnerTaskHeartbeat (seconds 61) makeRunner 0 "t" 60 db = .ok (false, db') ∧
      (findTask db'.tasks 0).bind ExecutionTask.leaseExpiresAt = some (seconds 121) := by
  obtain ⟨db₁, h₁, db₂, h₂, db₃, h₃, hclaimed⟩ :
      ∃ db₁, RunOp.exec plainEnv (.startRun 0) shellRun = .ok (true, db₁) ∧
        ∃ db₂, RunOp.exec plainEnv (.schedule 0) db₁ = .ok (true, db₂) ∧
          ∃ db₃, RunOp.exec plainEnv (.runnerClaim 0 makeRunner "t" 60 0) db₂ = .ok (true, db₃) ∧
            ∃ t, db₃.run.status = .running ∧ findTask db₃.tasks 0 = some t ∧
              t.status = .running ∧ LeaseUse.Expired ⟨seconds 61, 0, "r", "t"⟩ t ∧
              t.leaseExpiresAt = some (seconds 60) ∧
              ∃ db', runnerTaskHeartbeat (seconds 61) makeRunner 0 "t" 60 db₃ = .ok (false, db') ∧
                (findTask db'.tasks 0).bind ExecutionTask.leaseExpiresAt = some (seconds 121) :=
    ⟨_, rfl, _, rfl, _, rfl, _, rfl, rfl, rfl, ⟨rfl, rfl, _, rfl, by decide⟩, rfl, _, rfl, rfl⟩
  obtain ⟨t, hclaimed⟩ := hclaimed
  have hhistory := ((History.created createRun_shellRun).step h₁).step h₂ |>.step h₃
  exact ⟨db₃, t, hhistory.reachable, hclaimed⟩

/-- A second after the expiry a result is refused and an upload may be staged; after
recovery the task is dormant. -/
theorem expired_lease_iff_shellRun : ∃ db use t, Reachable plainEnv db ∧
    findTask db.tasks use.task = some t ∧ use.Expired t ∧
    (LeaseCall.fenced (.runnerSubmit use.now use.party use.task use.token [])).Rejected use
      plainEnv db ∧
    (∀ id description, ¬(LeaseCall.stage id description).Rejected use plainEnv db) ∧
    ∃ t', findTask (recoverExpired (seconds 61) db).tasks use.task = some t' ∧ Dormant t t' := by
  obtain ⟨db, t, hreachable, hrun, ht, hrunning, hexpired, hexpiry, -⟩ := claimed_shellRun
  obtain ⟨hcalls, hruns⟩ := expired_lease_iff hreachable ht hexpired
  refine ⟨db, _, t, hreachable, ht, hexpired, ?_, fun id description ↦ ?_, ?_⟩
  · exact (hcalls (.fenced (.runnerSubmit (seconds 61) "r" 0 "t" [])) rfl).mpr id
  · rw [hcalls (.stage id description) trivial]
    exact not_not.mpr hrunning
  · have hsegment : Segment plainEnv db
        [⟨.recoverExpired (seconds 61), true, db, recoverExpired (seconds 61) db⟩]
        (recoverExpired (seconds 61) db) := .step .nil rfl
    refine (hruns _ hexpiry _ _ hsegment fun e he ↦ ?_).1
    obtain rfl := List.mem_singleton.mp he
    constructor
    · intro x hx
      cases hx
      decide
    · intro g hg
      cases hg
    · intro _ _ _ hop
      cases hop

/-- A second after the expiry a heartbeat prolongs the lease for another minute. -/
theorem not_expired_lease : ∃ db use t, Reachable plainEnv db ∧
    findTask db.tasks use.task = some t ∧ use.Expired t ∧
    (LeaseCall.heartbeat makeRunner 60).Presents use ∧
    ¬(LeaseCall.heartbeat makeRunner 60).Rejected use plainEnv db ∧
    ∃ db', runnerTaskHeartbeat use.now makeRunner use.task use.token 60 db = .ok (false, db') ∧
      (findTask db'.tasks use.task).bind ExecutionTask.leaseExpiresAt = some (seconds 121) := by
  obtain ⟨db, t, hreachable, hrun, ht, hrunning, hexpired, hexpiry, hprolonged⟩ := claimed_shellRun
  refine ⟨db, _, t, hreachable, ht, hexpired, rfl, ?_, hprolonged⟩
  rw [heartbeat_rejected_iff hexpired ht rfl, hrun]
  exact not_not.mpr ⟨hrunning, rfl⟩

end Relayvia
