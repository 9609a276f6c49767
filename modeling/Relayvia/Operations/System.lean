import Relayvia.Operations.Runners
import Relayvia.Operations.Runs

/-!
# Steps of the whole system

Every operation is a sequence of small steps and raises no status fault, and so
every reachable state is coupled.
-/

namespace Relayvia

variable {R : Rights} {env : Env} {db db' : RunRecord} {op : RunOp}

/-- The rights that an operation uses. -/
def RunOp.Promised (R : Rights) (db : RunRecord) : RunOp → Prop
  | .reconcile .. | .approve .. | .reject .. | .submit .. => R.resolve
  | .claim _ workerId leaseToken _ _ _ task => R.grant task workerId leaseToken
  | .runnerClaim _ runner leaseToken _ task => R.grant task runner.id leaseToken
  | .complete now task _ _ output executionMetadata artifacts =>
      ∀ t n, findTask db.tasks task = some t → findNodeRun db.nodeRuns t.nodeRunId = some n →
        R.report
          { n with
            status := .completed, output := some output, executionMetadata := executionMetadata,
            artifactRefs := artifacts, finishedAt := some now }
  | .waitNode _ task _ _ waitingReason waitingMetadata =>
      ∀ t n, findTask db.tasks task = some t → findNodeRun db.nodeRuns t.nodeRunId = some n →
        R.report
          { n with
            status := .waiting, waitingReason := some waitingReason,
            waitingMetadata := waitingMetadata }
  | .fail now task _ _ error executionMetadata artifacts =>
      ∀ t n, findTask db.tasks task = some t → findNodeRun db.nodeRuns t.nodeRunId = some n →
        R.report
          { n with
            status := .failed, error := some error, executionMetadata := executionMetadata,
            artifactRefs := artifacts, finishedAt := some now }
  | .runnerSubmit _ _ task _ _ =>
      ∀ t n, findTask db.tasks task = some t → findNodeRun db.nodeRuns t.nodeRunId = some n →
        ∀ n', n'.nodeId = n.nodeId → n'.nodeType = n.nodeType → n'.nodeSubtype = n.nodeSubtype →
          n'.status = .completed ∨ n'.status = .failed → R.report n'
  | _ => True

theorem RunOp.promised_all (db : RunRecord) (op : RunOp) : op.Promised Rights.all db := by
  cases op <;> simp [Promised, Rights.all]

/-- The operations that may write the status of the run. -/
def RunOp.movesRun : RunOp → Bool
  | .startRun .. | .pauseRun .. | .resumeRun | .reconcile .. | .cancelRun .. => true
  | _ => false

theorem returning_sound {x : Except Raised RunRecord} {post : RunRecord → Prop}
    (h : Sound x post) : Sound (returning x) fun p ↦ post p.2 := by
  cases x with
  | ok db => exact h
  | error e => exact h

/-- The other operations are sequences of steps that leave the run row alone. -/
theorem RunOp.exec_cells (hc : Coupled db) (hpromised : op.Promised R db)
    (hcells : op.movesRun = false) :
    Sound (op.exec env db) fun p ↦ CellSteps R db p.2 := by
  have hsingle {x : Except Raised (Bool × RunRecord)}
      (h : Sound x fun p ↦ Evolves R db p.2) :
      Sound x fun p ↦ CellSteps R db p.2 := h.weaken fun _ h ↦ .single h
  cases op with
  | startRun | pauseRun | resumeRun | reconcile | cancelRun => cases hcells
  | schedule => exact returning_sound (scheduleRun_sound hc)
  | approve => exact hsingle (returning_sound (approveNodeRun_sound hc hpromised))
  | reject => exact hsingle (returning_sound (rejectNodeRun_sound hc hpromised))
  | submit => exact hsingle (returning_sound (submitNodeRun_sound hc hpromised))
  | claim => exact hsingle (claim_sound hc hpromised)
  | start => exact hsingle (start_sound hc)
  | complete => exact hsingle (complete_sound hc hpromised)
  | fail => exact hsingle (fail_sound hc hpromised)
  | waitNode => exact hsingle (waitNode_sound hc hpromised)
  | scheduleRetry => exact hsingle (scheduleRetry_sound hc)
  | renewLease => exact hsingle (renewLease_sound hc)
  | recoverExpired => exact .single (recoverExpired_evolves hc)
  | promoteDueRetries => exact returning_sound (promoteDueRetries_sound hc)
  | runnerClaim => exact hsingle (runnerClaim_sound hc hpromised)
  | runnerTaskHeartbeat => exact hsingle (runnerTaskHeartbeat_sound hc)
  | runnerSubmit => exact hsingle (runnerSubmit_sound hc hpromised)

theorem RunOp.exec_sound (hc : Coupled db) (hpromised : op.Promised R db) :
    Sound (op.exec env db) fun p ↦ Steps R db p.2 := by
  by_cases hcells : op.movesRun = false
  · exact (exec_cells hc hpromised hcells).weaken fun _ h ↦ h.steps
  have hrun {x : Except Raised RunRecord} {status : WorkflowRunStatus}
      (h : Sound x fun db' ↦ RunStep db db' ∧ db'.run.status = status) :
      Sound (returning x) fun p ↦ Steps R db p.2 :=
    returning_sound (h.weaken fun _ h ↦ .single (.run h.1))
  cases op with
  | startRun => exact hrun startRun_sound
  | pauseRun => exact hrun pauseRun_sound
  | resumeRun => exact hrun resumeRun_sound
  | reconcile => exact returning_sound (reconcile_sound R hc hpromised)
  | cancelRun => exact returning_sound ((cancelRun_sound R hc).weaken fun _ h ↦ h.steps)
  | _ => exact absurd rfl hcells

variable (env) in
theorem RunOp.exec_coupled (op : RunOp) {returned : Bool} (hc : Coupled db)
    (h : op.exec env db = .ok (returned, db')) : Coupled db' :=
  Steps.coupled ((RunOp.exec_sound hc (RunOp.promised_all db op)).of_ok h) hc

variable {allowed : RunRecord → RunOp → Prop}

theorem ReachableBy.coupled (h : ReachableBy env allowed db) : Coupled db := by
  induction h with
  | created h => exact createRun_coupled h
  | step _ _ h ih =>
      exact RunOp.exec_coupled env _ ih h

/-- An invariant that holds at creation and that every small step from a coupled
state keeps holds in every state that promised operations reach. -/
theorem ReachableBy.invariant {inv : RunRecord → Prop}
    (hpromised : ∀ db op, Coupled db → allowed db op → op.Promised R db)
    (hcreated : ∀ {now id graph executionSnapshot input db},
      createRun env now id graph executionSnapshot input = .ok db → inv db)
    (hinv : ∀ db db', Coupled db → inv db → MicroStep R db db' → inv db')
    (h : ReachableBy env allowed db) : inv db := by
  induction h with
  | created h => exact hcreated h
  | step hdb hop h ih =>
      have hsteps := (RunOp.exec_sound hdb.coupled (hpromised _ _ hdb.coupled hop)).of_ok h
      exact Steps.invariant hinv hsteps hdb.coupled ih

end Relayvia
