import Relayvia.ContextReference
import Relayvia.Library.Table

/-!
# Rows of a workflow run

The rows that one WorkflowRun owns, the session in which a transaction works on
them, and the functions outside the model that the code calls.  A NodeRun is
identified by the id of its node, which is unique inside the run.
-/

namespace Relayvia

/-- Instants in microseconds. -/
abbrev Time := ℕ

abbrev TaskId := ℕ

def seconds (n : ℕ) : Time := n * 1000000

namespace Dict

/-- `data.get(key)`. -/
def get? (d : Dict) (key : String) : Option Json :=
  d.lookup key

/-- The truth of `data.get(key)`. -/
def truthyAt (d : Dict) (key : String) : Bool :=
  (get? d key).any Json.truthy

/-- `{**a, **b}`. -/
def merge (a b : Dict) : Dict :=
  (a.map fun (key, value) ↦ (key, (get? b key).getD value)) ++
    b.filter fun (key, _) ↦ (get? a key).isNone

/-- A scan that stops at the first entry with the key. -/
theorem scan_eq {β : Type} {scan : Dict → Option β} {f : Json → β} {key : String}
    (hnil : scan [] = none)
    (hcons : ∀ k value fields,
      scan ((k, value) :: fields) = if k = key then some (f value) else scan fields)
    (fields : Dict) : scan fields = (get? fields key).map f := by
  induction fields with
  | nil => exact hnil
  | cons entry fields ih =>
      obtain ⟨k, value⟩ := entry
      rw [hcons, ih, get?, get?, List.lookup_cons]
      by_cases hkey : k = key
      · subst hkey
        simp
      · rw [if_neg hkey, beq_false_of_ne fun h ↦ hkey h.symm]

theorem get?_map (g : String → Json → Json) (a : Dict) (key : String) :
    get? (a.map fun (k, v) ↦ (k, g k v)) key = (get? a key).map (g key) := by
  induction a with
  | nil => rfl
  | cons entry a ih =>
      obtain ⟨k, v⟩ := entry
      simp only [get?, List.map_cons, List.lookup_cons] at ih ⊢
      by_cases h : key = k
      · simp [h]
      · simpa [beq_false_of_ne h] using ih

theorem get?_filter {p : String → Bool} {key : String} (hp : p key = true) (b : Dict) :
    get? (b.filter fun (k, _) ↦ p k) key = get? b key := by
  induction b with
  | nil => rfl
  | cons entry b ih =>
      obtain ⟨k, v⟩ := entry
      simp only [get?, List.filter_cons, List.lookup_cons] at ih ⊢
      by_cases h : key = k
      · subst h
        simp [hp]
      · split
        · simpa [List.lookup_cons, beq_false_of_ne h] using ih
        · simpa [beq_false_of_ne h] using ih

/-- The second dict wins. -/
theorem get?_merge (a b : Dict) (key : String) :
    get? (merge a b) key = (get? b key).or (get? a key) := by
  have hmap := get?_map (fun k v ↦ (get? b k).getD v) a key
  cases ha : get? a key with
  | some v =>
      rw [ha] at hmap
      rw [merge, get?, List.lookup_append, ← get?, hmap]
      cases get? b key <;> rfl
  | none =>
      rw [ha] at hmap
      have hfilter : get? (b.filter fun (k, _) ↦ (get? a k).isNone) key = get? b key :=
        get?_filter (p := fun k ↦ (get? a k).isNone) (by simp [ha]) b
      rw [merge, get?, List.lookup_append, ← get?, hmap, ← get?, hfilter]
      cases get? b key <;> rfl

theorem get?_merge_singleton (d : Dict) (key : String) (value : Json) (k : String) :
    get? (merge d [(key, value)]) k =
      if k = key then some value else get? d k := by
  rw [get?_merge, get?, List.lookup_cons]
  split
  · next h => rw [if_pos (beq_iff_eq.mp h)]; rfl
  · next h => rw [if_neg (by simpa using h)]; rfl

end Dict

/-- What `datetime.fromisoformat` makes of a text. -/
inductive IsoInstant where
  | malformed
  | naive
  | aware (instant : Time)
  deriving DecidableEq

/-- Functions that the modelled code calls and whose own result is not part of
this development. -/
structure Env where
  /-- `str(value)` of a value that is not a string -/
  pyStr : Json → String
  /-- `int(value)`, with `none` for a `TypeError` or `ValueError` -/
  pyInt : Json → Option ℤ
  isoformat : Time → String
  fromisoformat : String → IsoInstant
  shlexQuote : String → String
  sanitizeOutput : Json → Dict
  sanitizeError : Dict → Dict
  sanitizeMetadata : Json → Dict
  sanitizeArtifacts : List Json → List Json
  /-- decoding and `register_artifact_candidates`: the references and the output keys -/
  registerArtifacts : Json → Except RelayviaError (List Json × Dict)
  /-- `Draft7Validator.check_schema(schema)` passes -/
  schemaValid : Dict → Bool
  /-- the messages of `Draft7Validator(schema).iter_errors(instance)` -/
  schemaErrors : Dict → Dict → List String

/-- `str(value)`. -/
def Env.str (env : Env) : Json → String
  | .str s => s
  | value => env.pyStr value

/-- The exceptions that leave a transaction.  `artifactError` comes from the
registration of artifacts, `integrityError` is the violation of
`UNIQUE(node_run_id)` on `execution_tasks`. -/
inductive Raised where
  | relayvia (error : RelayviaError)
  | artifactError (error : RelayviaError)
  | integrityError (nodeRunId : NodeId)
  | typeError
  deriving DecidableEq

instance : MonadLift (Except RelayviaError) (Except Raised) where
  monadLift x := x.mapError .relayvia

structure WorkflowRun where
  id : String
  status : WorkflowRunStatus := .created
  /-- `parse_workflow_graph(graph_snapshot_json)` -/
  graph : ParsedGraph
  executionSnapshot : Dict := []
  input : Dict := []
  workflowVariables : Dict := []
  waitingReason : Option String := none
  createdAt : Time := 0
  startedAt : Option Time := none
  finishedAt : Option Time := none
  pausedAt : Option Time := none
  cancelledAt : Option Time := none

structure NodeRun where
  nodeId : NodeId
  nodeType : NodeType
  nodeSubtype : String
  status : NodeRunStatus := .pending
  input : Dict := []
  output : Option Dict := none
  error : Option Dict := none
  executionMetadata : Dict := []
  artifactRefs : List Json := []
  attempt : ℕ := 0
  waitingReason : Option String := none
  waitingMetadata : Dict := []
  startedAt : Option Time := none
  finishedAt : Option Time := none
  deriving DecidableEq

structure ExecutionTask where
  id : TaskId := 0
  nodeRunId : NodeId
  status : ExecutionTaskStatus := .pending
  payload : Dict := []
  priority : ℤ := 0
  attempt : ℕ := 0
  maxAttempts : ℤ := 1
  availableAt : Time := 0
  createdAt : Time := 0
  lockedBy : Option String := none
  leaseToken : Option String := none
  lockedAt : Option Time := none
  leaseExpiresAt : Option Time := none
  runnerId : Option String := none
  requiredCapability : Option String := none
  executionKey : Option String := none
  lastError : Option Dict := none
  startedAt : Option Time := none
  finishedAt : Option Time := none
  deriving DecidableEq

inductive WorkspaceStatus where
  | creating | ready | inUse | failed | releasing | cleaning | cleanupFailed | released
  deriving DecidableEq

structure Workspace where
  id : String
  nodeRunId : NodeId
  name : String
  runnerId : Option String := none
  repository : String
  path : Option String := none
  branch : Option String := none
  baseBranch : Option Json := none
  workspaceType : String
  status : WorkspaceStatus := .creating
  metadata : Dict := []
  deriving DecidableEq

inductive RunEventType where
  | workflowStarted | workflowWaiting | workflowResumed | workflowCompleted | workflowFailed
  | workflowCancelled | nodeQueued | nodeStarted | nodeLog | nodeRetrying | nodeWaiting
  | nodeResumed | nodeCompleted | nodeFailed | nodeSkipped | nodeCancelled
  deriving DecidableEq

structure RunEvent where
  nodeRunId : Option NodeId := none
  eventType : RunEventType
  message : Option String := none
  payload : Dict := []
  deriving DecidableEq

/-- All rows of one workflow run. -/
structure RunRecord where
  run : WorkflowRun
  nodeRuns : List NodeRun := []
  tasks : List ExecutionTask := []
  workspaces : List Workspace := []
  events : List RunEvent := []

/-- `isinstance(output, dict)` and the string under `selected_branch`. -/
def NodeRun.selectedBranch (nodeRun : NodeRun) : Option String :=
  ((nodeRun.output.getD []).lookup "selected_branch").bind Json.str?

def findNodeRun (nodeRuns : List NodeRun) (id : NodeId) : Option NodeRun :=
  Table.find? NodeRun.nodeId id nodeRuns

def findTask (tasks : List ExecutionTask) (id : TaskId) : Option ExecutionTask :=
  Table.find? ExecutionTask.id id tasks

/-- `select(ExecutionTask).where(node_run_id == ...)`. -/
def taskOfNode (tasks : List ExecutionTask) (id : NodeId) : Option ExecutionTask :=
  Table.find? ExecutionTask.nodeRunId id tasks

namespace RunRecord

def modifyRun (db : RunRecord) (f : WorkflowRun → WorkflowRun) : RunRecord :=
  { db with run := f db.run }

def modifyNode (db : RunRecord) (id : NodeId) (f : NodeRun → NodeRun) : RunRecord :=
  { db with nodeRuns := Table.modify NodeRun.nodeId id f db.nodeRuns }

def modifyTask (db : RunRecord) (id : TaskId) (f : ExecutionTask → ExecutionTask) :
    RunRecord :=
  { db with tasks := Table.modify ExecutionTask.id id f db.tasks }

def modifyWorkspace (db : RunRecord) (id : String) (f : Workspace → Workspace) : RunRecord :=
  { db with workspaces := Table.modify Workspace.id id f db.workspaces }

def recordEvent (db : RunRecord) (event : RunEvent) : RunRecord :=
  { db with events := db.events ++ [event] }

end RunRecord

/-- A transaction's view of the rows.  `added` holds the tasks that were only
`db.add`-ed: with `autoflush=False` no query returns them before a flush. -/
structure Session extends RunRecord where
  added : List ExecutionTask := []

namespace Session

/-- Insert the pending tasks; each insert is checked against `UNIQUE(node_run_id)`
and takes the next id. -/
def insertTasks : List ExecutionTask → List ExecutionTask → Except Raised (List ExecutionTask)
  | tasks, [] => .ok tasks
  | tasks, task :: added =>
      if (taskOfNode tasks task.nodeRunId).isSome then .error (.integrityError task.nodeRunId)
      else insertTasks (tasks ++ [{ task with id := tasks.length }]) added

def flush (s : Session) : Except Raised Session := do
  return { s with tasks := ← insertTasks s.tasks s.added, added := [] }

/-- `db.commit()`. -/
def commit (s : Session) : Except Raised RunRecord := do
  return (← s.flush).toRunRecord

end Session

end Relayvia
