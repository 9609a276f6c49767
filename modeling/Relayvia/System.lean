import Relayvia.Library.Outcome
import Relayvia.Runners

/-!
# The system of one run

Every operation on the rows of a run is one atomic transaction.  A transaction
that raises is rolled back, so only the ones that return are steps.
-/

namespace Relayvia

/-- The transactions, with what their callers choose: the clock, the parties,
the tokens and the reported data. -/
inductive RunOp where
  | startRun (now : Time)
  | schedule (now : Time)
  | pauseRun (now : Time)
  | resumeRun
  | reconcile (now : Time)
  | cancelRun (now : Time)
  | approve (now : Time) (node : NodeId)
  | reject (now : Time) (node : NodeId)
  | submit (now : Time) (node : NodeId) (input : Dict)
  | claim (now : Time) (workerId leaseToken : String) (leaseSeconds : ℕ)
      (capabilities : Option (List String)) (autoStart : Bool) (task : TaskId)
  | start (now : Time) (task : TaskId) (workerId leaseToken : String)
  | complete (now : Time) (task : TaskId) (workerId leaseToken : String)
      (output executionMetadata : Dict) (artifacts : List Json)
  | fail (now : Time) (task : TaskId) (workerId leaseToken : String)
      (error executionMetadata : Dict) (artifacts : List Json)
  | waitNode (now : Time) (task : TaskId) (workerId leaseToken : String)
      (waitingReason : String) (waitingMetadata : Dict)
  | scheduleRetry (now : Time) (task : TaskId) (workerId leaseToken : String) (backoffSeconds : ℕ)
  | renewLease (now : Time) (task : TaskId) (workerId leaseToken : String) (leaseSeconds : ℕ)
  | recoverExpired (now : Time)
  | promoteDueRetries (now : Time)
  | runnerClaim (now : Time) (runner : Runner) (leaseToken : String) (leaseSeconds : ℕ)
      (task : TaskId)
  | runnerTaskHeartbeat (now : Time) (runner : Runner) (task : TaskId) (leaseToken : String)
      (leaseSeconds : ℕ)
  | runnerSubmit (now : Time) (runnerId : String) (task : TaskId) (leaseToken : String)
      (result : Dict)

/-- A transaction whose method returns no boolean. -/
def returning (x : Except Raised RunRecord) : Except Raised (Bool × RunRecord) :=
  x.map fun db ↦ (true, db)

theorem returning_eq_ok_iff {x : Except Raised RunRecord} {returned : Bool} {db : RunRecord} :
    returning x = .ok (returned, db) ↔ returned = true ∧ x = .ok db := by
  cases x with
  | ok db' => simp [returning, Except.map, eq_comm]
  | error e => simp [returning, Except.map]

/-- Run one transaction: the boolean that the method returns and the rows after
the commit. -/
def RunOp.exec (env : Env) (op : RunOp) (db : RunRecord) : Except Raised (Bool × RunRecord) :=
  match op with
  | .startRun now => returning (Relayvia.startRun now db)
  | .schedule now => returning (scheduleRun env now db)
  | .pauseRun now => returning (Relayvia.pauseRun now db)
  | .resumeRun => returning (Relayvia.resumeRun db)
  | .reconcile now => returning (Relayvia.reconcile env now db)
  | .cancelRun now => returning (Relayvia.cancelRun now db)
  | .approve now node => returning (approveNodeRun now node db)
  | .reject now node => returning (rejectNodeRun now node db)
  | .submit now node input => returning (submitNodeRun env now node input db)
  | .claim now workerId leaseToken leaseSeconds capabilities autoStart task =>
      Relayvia.claim now workerId leaseToken leaseSeconds capabilities autoStart task db
  | .start now task workerId leaseToken => Relayvia.start now task workerId leaseToken db
  | .complete now task workerId leaseToken output executionMetadata artifacts =>
      Relayvia.complete now task workerId leaseToken output executionMetadata artifacts db
  | .fail now task workerId leaseToken error executionMetadata artifacts =>
      Relayvia.fail now task workerId leaseToken error executionMetadata artifacts db
  | .waitNode now task workerId leaseToken waitingReason waitingMetadata =>
      Relayvia.waitNode now task workerId leaseToken waitingReason waitingMetadata db
  | .scheduleRetry now task workerId leaseToken backoffSeconds =>
      Relayvia.scheduleRetry now task workerId leaseToken backoffSeconds db
  | .renewLease now task workerId leaseToken leaseSeconds =>
      Relayvia.renewLease now task workerId leaseToken leaseSeconds db
  | .recoverExpired now => .ok (true, Relayvia.recoverExpired now db)
  | .promoteDueRetries now => returning (Relayvia.promoteDueRetries now db)
  | .runnerClaim now runner leaseToken leaseSeconds task =>
      Relayvia.runnerClaim now runner leaseToken leaseSeconds task db
  | .runnerTaskHeartbeat now runner task leaseToken leaseSeconds =>
      Relayvia.runnerTaskHeartbeat now runner task leaseToken leaseSeconds db
  | .runnerSubmit now runnerId task leaseToken result =>
      Relayvia.runnerSubmit env now runnerId task leaseToken result db

/-- The states of a run after any finite sequence of transactions that all
satisfy `allowed`. -/
inductive ReachableBy (env : Env) (allowed : RunRecord → RunOp → Prop) : RunRecord → Prop
  | created {now : Time} {id : String} {graph : ParsedGraph} {executionSnapshot input : Dict}
      {db : RunRecord} (h : createRun env now id graph executionSnapshot input = .ok db) :
      ReachableBy env allowed db
  | step {db db' : RunRecord} {op : RunOp} {returned : Bool} (hdb : ReachableBy env allowed db)
      (hop : allowed db op) (h : op.exec env db = .ok (returned, db')) :
      ReachableBy env allowed db'

/-- The states after any finite sequence of transactions. -/
abbrev Reachable (env : Env) : RunRecord → Prop :=
  ReachableBy env fun _ _ ↦ True

/-- Run transactions one after the other. -/
def execAll (env : Env) : List RunOp → RunRecord → Except Raised RunRecord
  | [], db => return db
  | op :: ops, db => do
      let (_, db') ← op.exec env db
      execAll env ops db'

theorem ReachableBy.execAll {env : Env} {allowed : RunRecord → RunOp → Prop} {ops : List RunOp}
    {db db' : RunRecord} (hallowed : ∀ op ∈ ops, ∀ db, allowed db op)
    (hdb : ReachableBy env allowed db) (h : execAll env ops db = .ok db') :
    ReachableBy env allowed db' := by
  induction ops generalizing db with
  | nil =>
      cases h
      exact hdb
  | cons op ops ih =>
      obtain ⟨⟨returned, db₁⟩, hop, h⟩ := Outcome.bind_eq_ok_iff.mp h
      exact ih (fun op hop ↦ hallowed op (by simp [hop])) (.step hdb (hallowed op (by simp) db) hop) h

theorem ReachableBy.mono {env : Env} {allowed allowed' : RunRecord → RunOp → Prop}
    (hmono : ∀ db op, allowed db op → allowed' db op) {db : RunRecord}
    (h : ReachableBy env allowed db) : ReachableBy env allowed' db := by
  induction h with
  | created h => exact .created h
  | step _ hop h ih => exact .step ih (hmono _ _ hop) h

theorem ReachableBy.reachable {env : Env} {allowed : RunRecord → RunOp → Prop} {db : RunRecord}
    (h : ReachableBy env allowed db) : Reachable env db :=
  h.mono fun _ _ _ ↦ trivial

end Relayvia
