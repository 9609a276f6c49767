import Relayvia.Concurrency.RunLock

/-!
# Writes to one cell

A Worker call reads one task and its NodeRun and writes these two.  Where the rows that it
has read agree with the committed ones on the two, its commit is the call on the committed
rows.
-/

namespace Relayvia

variable {env : Env} {now : Time} {taskId : TaskId} {id : NodeId} {base db rows : RunRecord}
  {workerId leaseToken : String}

/-- An update of a task and a NodeRun in columns that are written back, and new events. -/
structure CellWrite where
  taskId : TaskId
  nodeId : NodeId
  task : ExecutionTask → ExecutionTask
  node : NodeRun → NodeRun
  events : List RunEvent
  merge_task : ∀ t, ExecutionTask.merge t (task t) t = task t
  merge_node : ∀ n, NodeRun.merge n (node n) n = node n

namespace CellWrite

variable (w : CellWrite)

def apply (db : RunRecord) : RunRecord :=
  { db with
    tasks := Table.modify ExecutionTask.id w.taskId w.task db.tasks
    nodeRuns := Table.modify NodeRun.nodeId w.nodeId w.node db.nodeRuns
    events := db.events ++ w.events }

theorem task_id (t : ExecutionTask) : (w.task t).id = t.id := by
  rw [← w.merge_task t]
  rfl

theorem node_nodeId (n : NodeRun) : (w.node n).nodeId = n.nodeId := by
  rw [← w.merge_node n]
  rfl

end CellWrite

theorem WorkflowRun.merge_same (base row : WorkflowRun) : WorkflowRun.merge base base row = row := by
  simp [WorkflowRun.merge]

theorem NodeRun.merge_same (base row : NodeRun) : NodeRun.merge base base row = row := by
  simp [NodeRun.merge]

theorem ExecutionTask.merge_same (base row : ExecutionTask) :
    ExecutionTask.merge base base row = row := by
  simp [ExecutionTask.merge]

variable (base db) in
/-- A session that has changed nothing. -/
theorem writeBack_same (hworkspaces : base.workspaces = []) (hevents : base.events = []) :
    writeBack base { base with } db = .ok db := by
  have hnone : insertedTasks base { base with } = [] := by simp [insertedTasks]
  unfold writeBack
  rw [hnone]
  simp only [List.take_length, Merge.rows_same ExecutionTask.merge_same,
    Merge.rows_same NodeRun.merge_same, WorkflowRun.merge_same, Session.insertTasks, hworkspaces,
    hevents, List.append_nil]
  rfl

/-- The commit of a write whose two rows have not changed since they were read. -/
theorem CellWrite.writeBack (w : CellWrite) (hk : Keyed db)
    (htask : findTask base.tasks w.taskId = findTask db.tasks w.taskId)
    (hnode : findNodeRun base.nodeRuns w.nodeId = findNodeRun db.nodeRuns w.nodeId)
    (hworkspaces : base.workspaces = []) (hevents : base.events = []) :
    Relayvia.writeBack base { w.apply base with } db = .ok (w.apply db) := by
  have hlength : (Table.modify ExecutionTask.id w.taskId w.task base.tasks).length =
      base.tasks.length := by
    simp [Table.modify]
  have htasks : Merge.rows ExecutionTask.id ExecutionTask.merge base.tasks
      (Table.modify ExecutionTask.id w.taskId w.task base.tasks) db.tasks =
        Table.modify ExecutionTask.id w.taskId w.task db.tasks :=
    Merge.rows_modify w.task_id ExecutionTask.merge_same w.merge_task hk.taskIds_nodup htask
  have hnodes : Merge.rows NodeRun.nodeId NodeRun.merge base.nodeRuns
      (Table.modify NodeRun.nodeId w.nodeId w.node base.nodeRuns) db.nodeRuns =
        Table.modify NodeRun.nodeId w.nodeId w.node db.nodeRuns :=
    Merge.rows_modify w.node_nodeId NodeRun.merge_same w.merge_node hk.nodeIds_nodup hnode
  have htake : (Table.modify ExecutionTask.id w.taskId w.task base.tasks).take base.tasks.length =
      Table.modify ExecutionTask.id w.taskId w.task base.tasks := by
    rw [← hlength, List.take_length]
  have hnone : insertedTasks base { w.apply base with } = [] := by
    simp [insertedTasks, CellWrite.apply, ← hlength]
  unfold Relayvia.writeBack
  rw [hnone]
  simp only [CellWrite.apply, htake, htasks, hnodes, hworkspaces, hevents, WorkflowRun.merge_same,
    Session.insertTasks, List.append_nil, List.nil_append]
  rfl

/-! ## Local calls -/

/-- The update keeps the columns that are never written back. -/
def NodeRun.Written (g : NodeRun → NodeRun) : Prop :=
  ∀ n, NodeRun.merge n (g n) n = g n

def ExecutionTask.Written (f : ExecutionTask → ExecutionTask) : Prop :=
  ∀ t, ExecutionTask.merge t (f t) t = f t

/-- The call reads and writes only the row of the node. -/
def NodeLocal (id : NodeId) (x : RunRecord → Except Raised RunRecord) : Prop :=
  ∀ base db, findNodeRun base.nodeRuns id = findNodeRun db.nodeRuns id →
    ∀ rows, x base = .ok rows → ∃ g, NodeRun.Written g ∧ rows = base.modifyNode id g ∧
      x db = .ok (db.modifyNode id g)

/-- The call changes nothing, or reads and writes only the task and its NodeRun. -/
def CellLocal (taskId : TaskId) (x : RunRecord → Except Raised (Bool × RunRecord)) : Prop :=
  ∀ base db, findTask base.tasks taskId = findTask db.tasks taskId →
    (∀ t, findTask db.tasks taskId = some t →
      findNodeRun base.nodeRuns t.nodeRunId = findNodeRun db.nodeRuns t.nodeRunId) →
    ∀ returned rows, x base = .ok (returned, rows) →
      (rows = base ∧ x db = .ok (returned, db)) ∨
        ∃ (w : CellWrite) (t : ExecutionTask), findTask db.tasks taskId = some t ∧
          w.taskId = taskId ∧ w.nodeId = t.nodeRunId ∧ rows = w.apply base ∧
            x db = .ok (returned, w.apply db)

theorem modifyNode_same (db : RunRecord) (id : NodeId) : db.modifyNode id (fun n ↦ n) = db := by
  simp [RunRecord.modifyNode, Table.modify_id]

namespace NodeLocal

theorem advance {target : NodeRunStatus} {f : NodeRun → NodeRun} (hf : NodeRun.Written f) :
    NodeLocal id fun db ↦ advanceNode db id target f := by
  intro base db hread rows h
  dsimp only at h ⊢
  unfold advanceNode at h ⊢
  rw [hread] at h
  cases hn : findNodeRun db.nodeRuns id with
  | none =>
      rw [hn] at h
      cases h
      refine ⟨fun n ↦ n, fun n ↦ NodeRun.merge_same n n, (modifyNode_same base id).symm, ?_⟩
      rw [modifyNode_same]
      rfl
  | some n =>
      rw [hn] at h
      obtain ⟨u, htransition, h⟩ := Outcome.bind_eq_ok_iff.mp h
      cases h
      refine ⟨fun r ↦ { f r with status := target }, fun r ↦ ?_, rfl,
        Outcome.bind_eq_ok_iff.mpr ⟨u, htransition, rfl⟩⟩
      have hstatus : NodeRun.merge r { f r with status := target } r =
          { NodeRun.merge r (f r) r with status := target } := by
        simp [NodeRun.merge]
      rw [hstatus, hf r]

/-- A call that depends on the status of the node. -/
theorem guarded {x : RunRecord → Except Raised RunRecord} (hx : NodeLocal id x)
    (done : Option NodeRunStatus → Prop) [DecidablePred done] :
    NodeLocal id fun db ↦ if done (statusOf db.nodeRuns id) then return db else x db := by
  intro base db hread rows h
  have hstatus : statusOf base.nodeRuns id = statusOf db.nodeRuns id := by
    rw [statusOf, statusOf, hread]
  dsimp only at h ⊢
  rw [hstatus] at h
  by_cases hdone : done (statusOf db.nodeRuns id)
  · rw [if_pos hdone] at h ⊢
    cases h
    refine ⟨fun n ↦ n, fun n ↦ NodeRun.merge_same n n, (modifyNode_same base id).symm, ?_⟩
    rw [modifyNode_same]
    rfl
  · rw [if_neg hdone] at h ⊢
    exact hx base db hread rows h

theorem status (target : NodeRunStatus) : NodeLocal id fun db ↦ nodeStatus db id target :=
  guarded (advance fun n ↦ NodeRun.merge_same n n) (· = some target)

theorem advanceOpen {target : NodeRunStatus} {f : NodeRun → NodeRun} (hf : NodeRun.Written f) :
    NodeLocal id fun db ↦ advanceOpenNode db id target f :=
  guarded (advance hf) fun status ↦ status.any NodeRunStatus.isTerminal

/-- A write of the task before the node, and an event after it. -/
theorem cell {x : RunRecord → Except Raised RunRecord} (hx : NodeLocal id x)
    {f : ExecutionTask → ExecutionTask} (hf : ExecutionTask.Written f) {e : RunEvent}
    (hread : findNodeRun base.nodeRuns id = findNodeRun db.nodeRuns id)
    (h : (do return (← x (base.modifyTask taskId f)).recordEvent e) = .ok rows) :
    ∃ w : CellWrite, w.taskId = taskId ∧ w.nodeId = id ∧ rows = w.apply base ∧
      (do return (← x (db.modifyTask taskId f)).recordEvent e) = .ok (w.apply db) := by
  obtain ⟨moved, hmoved, h⟩ := Outcome.bind_eq_ok_iff.mp h
  cases h
  obtain ⟨g, hg, rfl, hdb⟩ := hx (base.modifyTask taskId f) (db.modifyTask taskId f) hread _ hmoved
  refine ⟨⟨taskId, id, f, g, [e], hf, hg⟩, rfl, rfl, rfl, ?_⟩
  exact Outcome.bind_eq_ok_iff.mpr ⟨_, hdb, rfl⟩

end NodeLocal

/-! ## The Worker calls -/

theorem withLease_local {body : RunRecord → ExecutionTask → Except Raised RunRecord}
    (hbody : ∀ t base db rows,
      findNodeRun base.nodeRuns t.nodeRunId = findNodeRun db.nodeRuns t.nodeRunId →
        body base t = .ok rows → ∃ w : CellWrite, w.taskId = taskId ∧ w.nodeId = t.nodeRunId ∧
          rows = w.apply base ∧ body db t = .ok (w.apply db)) :
    CellLocal taskId fun db ↦ withLease now taskId workerId leaseToken db (body db) := by
  intro base db htask hnode returned rows h
  dsimp only at h ⊢
  unfold withLease at h ⊢
  rw [htask] at h
  cases ht : findTask db.tasks taskId with
  | none =>
      rw [ht] at h
      cases h
      exact .inl ⟨rfl, rfl⟩
  | some t =>
      rw [ht] at h
      dsimp only at h ⊢
      by_cases howns : owns now workerId leaseToken t = true
      · simp only [howns, not_true_eq_false, if_false] at h ⊢
        obtain ⟨written, hwritten, h⟩ := Outcome.bind_eq_ok_iff.mp h
        cases h
        obtain ⟨w, htaskId, hnodeId, hrows, hdb⟩ := hbody t base db _ (hnode t ht) hwritten
        refine .inr ⟨w, t, rfl, htaskId, hnodeId, hrows, ?_⟩
        exact Outcome.bind_eq_ok_iff.mpr ⟨_, hdb, rfl⟩
      · simp only [howns] at h ⊢
        cases h
        exact .inl ⟨rfl, rfl⟩

theorem complete_local {output executionMetadata : Dict} {artifacts : List Json} :
    CellLocal taskId
      (complete now taskId workerId leaseToken output executionMetadata artifacts) := by
  apply withLease_local
  intro t base db rows hread h
  obtain ⟨u, htransition, h⟩ := Outcome.bind_eq_ok_iff.mp h
  have hnode : NodeLocal t.nodeRunId fun db ↦
      nodeCompleted now db t.nodeRunId output executionMetadata artifacts :=
    .advance fun n ↦ by simp [NodeRun.merge]
  obtain ⟨w, htask, hid, hrows, hdb⟩ := hnode.cell (fun t ↦ by simp [ExecutionTask.merge]) hread h
  exact ⟨w, htask, hid, hrows, Outcome.bind_eq_ok_iff.mpr ⟨u, htransition, hdb⟩⟩

theorem fail_local {error executionMetadata : Dict} {artifacts : List Json} :
    CellLocal taskId
      (fail now taskId workerId leaseToken error executionMetadata artifacts) := by
  apply withLease_local
  intro t base db rows hread h
  obtain ⟨u, htransition, h⟩ := Outcome.bind_eq_ok_iff.mp h
  have hnode : NodeLocal t.nodeRunId fun db ↦
      nodeFailed now db t.nodeRunId error executionMetadata artifacts :=
    .advanceOpen fun n ↦ by simp [NodeRun.merge]
  obtain ⟨w, htask, hid, hrows, hdb⟩ := hnode.cell (fun t ↦ by simp [ExecutionTask.merge]) hread h
  exact ⟨w, htask, hid, hrows, Outcome.bind_eq_ok_iff.mpr ⟨u, htransition, hdb⟩⟩

theorem waitNode_local {waitingReason : String} {waitingMetadata : Dict} :
    CellLocal taskId
      (waitNode now taskId workerId leaseToken waitingReason waitingMetadata) := by
  apply withLease_local
  intro t base db rows hread h
  obtain ⟨u, htransition, h⟩ := Outcome.bind_eq_ok_iff.mp h
  have hnode : NodeLocal t.nodeRunId fun db ↦ advanceNode db t.nodeRunId .waiting fun r ↦
      { r with waitingReason := some waitingReason, waitingMetadata := waitingMetadata } :=
    .advance fun n ↦ by simp [NodeRun.merge]
  by_cases hreserved : waitingMetadata.any (·.1 ∈ reservedTraceKeywords) = true
  · obtain ⟨moved, -, h⟩ := Outcome.bind_eq_ok_iff.mp h
    rw [if_pos hreserved] at h
    cases h
  · simp only [hreserved] at h ⊢
    obtain ⟨w, htask, hid, hrows, hdb⟩ :=
      hnode.cell (fun t ↦ by simp [ExecutionTask.merge]) hread h
    exact ⟨w, htask, hid, hrows, Outcome.bind_eq_ok_iff.mpr ⟨u, htransition, hdb⟩⟩

theorem scheduleRetry_local {backoffSeconds : ℕ} :
    CellLocal taskId (scheduleRetry now taskId workerId leaseToken backoffSeconds) := by
  apply withLease_local
  intro t base db rows hread h
  obtain ⟨u, htransition, h⟩ := Outcome.bind_eq_ok_iff.mp h
  obtain ⟨w, htask, hid, hrows, hdb⟩ := (NodeLocal.status .retrying).cell
    (fun t ↦ by simp [ExecutionTask.merge, clearLease]) hread h
  exact ⟨w, htask, hid, hrows, Outcome.bind_eq_ok_iff.mpr ⟨u, htransition, hdb⟩⟩

end Relayvia
