import Mathlib.Logic.Function.Basic
import Relayvia.Artifacts.Registration
import Relayvia.Executor
import Relayvia.System

/-!
# Workers at work

The rows of a run together with the processes of its Workers and the artifacts that they
register.  A process is one call of `_process_task`, from the claim to its return.
-/

namespace Relayvia

/-- What an executor returns; an exception that it raises is a failed result. -/
structure ExecutionResult where
  ok : Bool
  output : Json := .obj []
  retryable : Bool := false
  /-- `result.error.to_dict()` -/
  error : Option Dict := none
  metadata : Json := .obj []
  /-- an item that is no dict is `none` -/
  artifacts : List (Option ArtifactCandidate) := []
  /-- the artifacts as Run Trace shows them -/
  traceArtifacts : List Json := []

/-- The fenced calls that end an execution without artifacts of its own. -/
inductive Report where
  | fail (error executionMetadata : Dict) (artifacts : List Json)
  | waitNode (waitingReason : String) (waitingMetadata : Dict)
  | scheduleRetry (backoffSeconds : ℕ)

inductive WorkerPhase where
  /-- before `backend.start` -/
  | claimed
  | started
  /-- the input is resolved, and the config or the reference that does not resolve;
  the commit of the input is next -/
  | loaded (node : WorkflowNode) (input : Dict) (config : Except UnresolvedContextReference Dict)
  | executing
  | executed (result : ExecutionResult)
  /-- `created` are the Artifact rows that this process has registered -/
  | completing (output executionMetadata : Dict) (artifacts : List Json) (created : List String)
  | reporting (report : Report)
  | reconciling

/-- The ClaimedTask and the local state.  `startedAttempt` is the attempt that the start
of this process has begun. -/
structure WorkerProcess where
  workerId : String
  leaseToken : String
  task : TaskId
  nodeRunId : NodeId
  payload : Dict
  attempt : ℕ
  maxAttempts : ℤ
  startedAttempt : ℕ := 0
  phase : WorkerPhase := .claimed

/-- `registered` are the Artifact rows that Workers have registered, `accepted` those
whose `complete` was accepted. -/
structure WorkerWorld where
  db : RunRecord
  artifacts : List Artifact := []
  store : FileStore String := {}
  processes : ℕ → Option WorkerProcess := fun _ ↦ none
  registered : List String := []
  accepted : List String := []

namespace WorkerWorld

def setProcess (pid : ℕ) (p : Option WorkerProcess) (s : WorkerWorld) : WorkerWorld :=
  { s with processes := Function.update s.processes pid p }

theorem setProcess_processes (pid pid' : ℕ) (p : Option WorkerProcess) (s : WorkerWorld) :
    (s.setProcess pid p).processes pid' = if pid' = pid then p else s.processes pid' :=
  Function.update_apply s.processes pid p pid'

end WorkerWorld

/-- `ExecutionError.to_dict()`. -/
def executionError (code message : String) (details : Dict) : Dict :=
  [("code", .str code), ("message", .str message), ("retryable", .bool false),
    ("details", .obj details)]

namespace WorkerProcess

/-- A failure before the execution. -/
def failure (env : Env) (error : Dict) : WorkerPhase :=
  .reporting (.fail (env.sanitizeError error) [] [])

def unresolved (env : Env) (reference : UnresolvedContextReference) : WorkerPhase :=
  failure env (executionError "UNRESOLVED_CONTEXT_REFERENCE" reference.message
    [("reference", .str reference.reference)])

/-- The first half of `_build_execution_context`, on the rows that its session reads. -/
def load (env : Env) (db : RunRecord) (p : WorkerProcess) : WorkerPhase :=
  let nodeId := (Dict.get? p.payload "node_id").getD .null
  match nodeId.str?.bind db.run.graph.node? with
  | some node =>
      let resolver := contextResolver env db
      match resolver.resolveFields node.inputMapping with
      | .ok input => .loaded node input (resolver.resolveFields node.config)
      | .error reference => unresolved env reference
  | none =>
      failure env (executionError "NODE_MISSING" "Node not found in Graph Snapshot"
        [("node_id", nodeId)])

/-- After the commit of the input: an unresolved config fails, a node that waits is
parked, any other one is executed. -/
def proceed (env : Env) (now : Time) (node : WorkflowNode)
    (config : Except UnresolvedContextReference Dict) : WorkerPhase :=
  match config with
  | .ok config =>
      match waitingFor env now node.type node.subtype config with
      | some (waitingReason, waitingMetadata) => .reporting (.waitNode waitingReason waitingMetadata)
      | none => .executing
  | .error reference => unresolved env reference

/-- `_retry_backoff_seconds`. -/
def retryBackoffSeconds (env : Env) (p : WorkerProcess) : ℕ :=
  (boundedInt env (Dict.get? p.payload "retry_backoff_seconds") defaultBackoffSeconds 86400).toNat

def unknownError : Dict :=
  executionError "UNKNOWN" "execution failed" []

/-- The report on a result that is not ok. -/
def failedReport (env : Env) (result : ExecutionResult) (p : WorkerProcess) : Report :=
  if result.retryable ∧ (p.attempt : ℤ) + 1 < p.maxAttempts then
    .scheduleRetry (p.retryBackoffSeconds env)
  else
    .fail (env.sanitizeError (result.error.getD unknownError)) (env.sanitizeMetadata result.metadata)
      (env.sanitizeArtifacts result.traceArtifacts)

/-- The fenced call of a phase. -/
def call (now : Time) (p : WorkerProcess) : Option RunOp :=
  match p.phase with
  | .completing output executionMetadata artifacts _ =>
      some (.complete now p.task p.workerId p.leaseToken output executionMetadata artifacts)
  | .reporting (.fail error executionMetadata artifacts) =>
      some (.fail now p.task p.workerId p.leaseToken error executionMetadata artifacts)
  | .reporting (.waitNode waitingReason waitingMetadata) =>
      some (.waitNode now p.task p.workerId p.leaseToken waitingReason waitingMetadata)
  | .reporting (.scheduleRetry backoffSeconds) =>
      some (.scheduleRetry now p.task p.workerId p.leaseToken backoffSeconds)
  | _ => none

/-- The Artifact rows whose `complete` is still to come. -/
def created (p : WorkerProcess) : List String :=
  match p.phase with
  | .completing _ _ _ created => created
  | _ => []

/-- What follows a report: no reconciliation after `schedule_retry`. -/
def afterCall (p : WorkerProcess) : Option WorkerProcess :=
  match p.phase with
  | .reporting (.scheduleRetry _) => none
  | _ => some { p with phase := .reconciling }

end WorkerProcess

/-- The steps: transactions of others, and those of the processes. -/
inductive WorkerStep where
  | run (op : RunOp)
  /-- the row of a Runner upload -/
  | upload (artifact : Artifact)
  | claim (pid : ℕ) (now : Time) (workerId leaseToken : String) (leaseSeconds : ℕ) (task : TaskId)
  | start (pid : ℕ) (now : Time)
  | load (pid : ℕ)
  /-- the commit of `node_run.input_json` -/
  | persist (pid : ℕ) (now : Time)
  /-- `_renew_loop` -/
  | renew (pid : ℕ) (now : Time) (leaseSeconds : ℕ)
  | execute (pid : ℕ) (result : ExecutionResult)
  /-- register the artifacts of a successful result under new ids and choose the report;
  `cleanup` says whether a failed registration deletes the objects that it has saved -/
  | settle (pid : ℕ) (ids : List String) (cleanup : Bool)
  | report (pid : ℕ) (now : Time)
  | reconcile (pid : ℕ) (now : Time)
  | crash (pid : ℕ)

namespace WorkerStep

/-- The session in which a result registers its artifacts. -/
def registration (env : WorkerEnv) (ids : List String) (result : ExecutionResult)
    (p : WorkerProcess) (s : WorkerWorld) : Except (ArtifactFailure × Registration) Registration :=
  registerArtifactCandidates env s.db.run.id p.nodeRunId (ids.zip result.artifacts)
    { artifacts := s.artifacts, store := s.store }

/-- `uuid4` repeats no id. -/
def FreshIds (s : WorkerWorld) (ids : List String) (result : ExecutionResult) : Prop :=
  ids.length = result.artifacts.length ∧ ids.Nodup ∧
    ∀ id ∈ ids, id ∉ s.artifacts.map Artifact.id ∧ id ∉ s.registered ∧ s.store.paths id = none

instance (s : WorkerWorld) (ids : List String) (result : ExecutionResult) :
    Decidable (FreshIds s ids result) :=
  inferInstanceAs (Decidable (_ ∧ _ ∧ ∀ id ∈ ids, _))

/-- A successful result after its registration. -/
def settleOk (env : WorkerEnv) (pid : ℕ) (p : WorkerProcess) (result : ExecutionResult)
    (cleanup : Bool) (ids : List String) (s : WorkerWorld) : WorkerWorld :=
  match registration env ids result p s with
  | .ok r =>
      let output := Dict.merge (env.sanitizeOutput result.output) r.outputKeys
      let phase := .completing output (env.sanitizeMetadata result.metadata)
        (env.sanitizeArtifacts r.references) r.created
      { s with
        artifacts := r.artifacts
        store := r.store
        registered := s.registered ++ r.created }.setProcess pid (some { p with phase := phase })
  | .error (failure, r) =>
      let s := { s with store := if cleanup then s.store else r.store }
      match failure with
      | some error =>
          s.setProcess pid (some { p with
            phase := WorkerProcess.failure env.toEnv
              (executionError error.code error.message error.details) })
      -- any other exception leaves `_process_task`
      | none => s.setProcess pid none

/-- One step; a step that is not possible changes nothing, and neither does a
transaction that raises. -/
def exec (env : WorkerEnv) (step : WorkerStep) (s : WorkerWorld) : WorkerWorld :=
  match step with
  | .run op =>
      match op.exec env.toEnv s.db with
      | .ok (_, db) => { s with db := db }
      | .error _ => s
  | .upload artifact =>
      if artifact.id ∈ s.registered then s
      else { s with artifacts := s.artifacts.filter (·.id ≠ artifact.id) ++ [artifact] }
  | .claim pid now workerId leaseToken leaseSeconds task =>
      match s.processes pid, findTask s.db.tasks task,
        (RunOp.claim now workerId leaseToken leaseSeconds none false task).exec env.toEnv s.db with
      | none, some t, .ok (true, db) =>
          { s with db := db }.setProcess pid (some
            { workerId := workerId
              leaseToken := leaseToken
              task := task
              nodeRunId := t.nodeRunId
              payload := t.payload
              attempt := t.attempt
              maxAttempts := t.maxAttempts })
      | _, _, _ => s
  | .start pid now =>
      match s.processes pid with
      | some p =>
          match p.phase, (RunOp.start now p.task p.workerId p.leaseToken).exec env.toEnv s.db with
          | .claimed, .ok (true, db) =>
              let attempt := ((findTask db.tasks p.task).map ExecutionTask.attempt).getD 0
              { s with db := db }.setProcess pid
                (some { p with startedAttempt := attempt, phase := .started })
          | .claimed, .ok (false, db) => { s with db := db }.setProcess pid none
          | .claimed, .error _ => s.setProcess pid none
          | _, _ => s
      | none => s
  | .load pid =>
      match s.processes pid with
      | some p =>
          match p.phase with
          | .started => s.setProcess pid (some { p with phase := p.load env.toEnv s.db })
          | _ => s
      | none => s
  | .persist pid now =>
      match s.processes pid with
      | some p =>
          match p.phase with
          | .loaded node input config =>
              { s with db := s.db.modifyNode p.nodeRunId fun r ↦ { r with input := input } }.setProcess
                pid (some { p with phase := WorkerProcess.proceed env.toEnv now node config })
          | _ => s
      | none => s
  | .renew pid now leaseSeconds =>
      match s.processes pid with
      | some p =>
          match p.phase, (RunOp.renewLease now p.task p.workerId p.leaseToken leaseSeconds).exec
            env.toEnv s.db with
          | .executing, .ok (_, db) => { s with db := db }
          | _, _ => s
      | none => s
  | .execute pid result =>
      match s.processes pid with
      | some p =>
          match p.phase with
          | .executing => s.setProcess pid (some { p with phase := .executed result })
          | _ => s
      | none => s
  | .settle pid ids cleanup =>
      match s.processes pid with
      | some p =>
          match p.phase with
          | .executed result =>
              if ¬result.ok then
                s.setProcess pid
                  (some { p with phase := .reporting (p.failedReport env.toEnv result) })
              else if FreshIds s ids result then settleOk env pid p result cleanup ids s
              else s
          | _ => s
      | none => s
  | .report pid now =>
      match s.processes pid with
      | some p =>
          match p.call now with
          | some op =>
              match op.exec env.toEnv s.db with
              | .ok (returned, db) =>
                  let accepted := if returned then s.accepted ++ p.created else s.accepted
                  { s with db := db, accepted := accepted }.setProcess pid p.afterCall
              | .error _ => s.setProcess pid none
          | none => s
      | none => s
  | .reconcile pid now =>
      match s.processes pid with
      | some p =>
          match p.phase, (RunOp.reconcile now).exec env.toEnv s.db with
          | .reconciling, .ok (_, db) => { s with db := db }.setProcess pid none
          | .reconciling, .error _ => s.setProcess pid none
          | _, _ => s
      | none => s
  | .crash pid => s.setProcess pid none

/-- Run steps one after the other. -/
def execAll (env : WorkerEnv) : List WorkerStep → WorkerWorld → WorkerWorld
  | [], s => s
  | step :: steps, s => execAll env steps (step.exec env s)

end WorkerStep

/-- The worlds that steps reach from a created run, all of which satisfy `allowed`. -/
inductive WorkerWorld.ReachableBy (env : WorkerEnv) (allowed : WorkerWorld → WorkerStep → Prop) :
    WorkerWorld → Prop
  | created {now : Time} {id : String} {graph : ParsedGraph} {executionSnapshot input : Dict}
      {db : RunRecord}
      (h : createRun env.toEnv now id graph executionSnapshot input = .ok db) :
      ReachableBy env allowed { db := db }
  | step {s : WorkerWorld} (step : WorkerStep) (h : ReachableBy env allowed s)
      (hstep : allowed s step) : ReachableBy env allowed (step.exec env s)

end Relayvia
