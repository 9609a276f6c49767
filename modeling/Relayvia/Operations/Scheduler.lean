import Relayvia.Operations.Basic

/-!
# Steps of the scheduler

A session is compared through its settled rows: the rows that a commit of the
session would leave.  Skipping, queueing, promoting and cancelling are steps of
the settled rows, and no flush of a coupled session violates a unique key.
-/

namespace Relayvia

variable {R : Rights} {env : Env} {now : Time} {g : WorkflowGraph}

/-! ## Settled rows -/

namespace Session

def numbered : ℕ → List ExecutionTask → List ExecutionTask
  | _, [] => []
  | n, task :: tasks => { task with id := n } :: numbered (n + 1) tasks

/-- The rows that a commit of the session leaves. -/
def settled (s : Session) : RunRecord :=
  { s.toRunRecord with tasks := s.tasks ++ numbered s.tasks.length s.added }

@[simp] theorem settled_run (s : Session) : s.settled.run = s.run := rfl

@[simp] theorem settled_nodeRuns (s : Session) : s.settled.nodeRuns = s.nodeRuns := rfl

theorem numbered_append (n : ℕ) (ts us : List ExecutionTask) :
    numbered n (ts ++ us) = numbered n ts ++ numbered (n + ts.length) us := by
  induction ts generalizing n with
  | nil => rfl
  | cons t ts ih =>
      simp only [List.cons_append, numbered, ih, List.length_cons]
      rw [show n + 1 + ts.length = n + (ts.length + 1) by omega]

@[simp] theorem length_numbered (n : ℕ) (ts : List ExecutionTask) :
    (numbered n ts).length = ts.length := by
  induction ts generalizing n with
  | nil => rfl
  | cons t ts ih => simp [numbered, ih]

theorem map_nodeRunId_numbered (n : ℕ) (ts : List ExecutionTask) :
    (numbered n ts).map ExecutionTask.nodeRunId = ts.map ExecutionTask.nodeRunId := by
  induction ts generalizing n with
  | nil => rfl
  | cons t ts ih => simp [numbered, ih]

theorem mem_numbered {n : ℕ} {ts : List ExecutionTask} {t : ExecutionTask}
    (h : t ∈ numbered n ts) : ∃ u ∈ ts, ∃ k, t = { u with id := k } := by
  induction ts generalizing n with
  | nil => cases h
  | cons u us ih =>
      rcases List.mem_cons.mp h with rfl | hmem
      · exact ⟨u, List.mem_cons_self, n, rfl⟩
      · obtain ⟨v, hv, hsame⟩ := ih hmem
        exact ⟨v, List.mem_cons_of_mem u hv, hsame⟩

/-- Tasks for different nodes that have none yet can be inserted. -/
theorem insertTasks_new (tasks : List ExecutionTask) {added : List ExecutionTask}
    (hnodup : (added.map ExecutionTask.nodeRunId).Nodup)
    (hnew : ∀ id ∈ added.map ExecutionTask.nodeRunId, id ∉ tasks.map ExecutionTask.nodeRunId) :
    insertTasks tasks added = .ok (tasks ++ numbered tasks.length added) := by
  induction added generalizing tasks with
  | nil => simp [insertTasks, numbered]
  | cons t ts ih =>
      rw [List.map_cons, List.nodup_cons] at hnodup
      have hnone : (taskOfNode tasks t.nodeRunId).isSome = false := by
        rw [Bool.eq_false_iff, Ne, taskOfNode, Table.find?_isSome_iff]
        exact hnew t.nodeRunId (by simp)
      rw [insertTasks, hnone, if_neg Bool.false_ne_true, ih _ hnodup.2 fun id hid ↦ ?_]
      · simp [numbered]
      · rw [List.map_append, List.mem_append, not_or]
        refine ⟨hnew id (by simp [hid]), fun hmem ↦ ?_⟩
        rw [List.map_singleton, List.mem_singleton] at hmem
        exact hnodup.1 (hmem ▸ hid)

theorem insertTasks_eq (tasks added : List ExecutionTask)
    (hnodup : ((tasks ++ numbered tasks.length added).map ExecutionTask.nodeRunId).Nodup) :
    insertTasks tasks added = .ok (tasks ++ numbered tasks.length added) := by
  rw [List.map_append, map_nodeRunId_numbered, List.nodup_append] at hnodup
  exact insertTasks_new tasks hnodup.2.1 fun id hid hmem ↦ hnodup.2.2 id hmem id hid rfl

theorem flush_eq {s : Session} (hnodup : (s.settled.tasks.map ExecutionTask.nodeRunId).Nodup) :
    s.flush = .ok { s.settled with } := by
  unfold flush
  rw [insertTasks_eq _ _ hnodup]
  rfl

/-- A flush that succeeds inserts the pending tasks in their order. -/
theorem insertTasks_ok {tasks added rows : List ExecutionTask}
    (h : insertTasks tasks added = .ok rows) : rows = tasks ++ numbered tasks.length added := by
  induction added generalizing tasks with
  | nil =>
      cases h
      simp [numbered]
  | cons t ts ih =>
      rw [insertTasks] at h
      split at h
      · cases h
      · rw [ih h]
        simp [numbered]

theorem flush_ok {s s' : Session} (h : s.flush = .ok s') :
    s' = { s with tasks := s.settled.tasks, added := [] } := by
  obtain ⟨rows, hrows, h⟩ := Outcome.bind_eq_ok_iff.mp h
  cases h
  rw [insertTasks_ok hrows]
  rfl

theorem flush_sound {s : Session} (hnodup : (s.settled.tasks.map ExecutionTask.nodeRunId).Nodup) :
    Sound s.flush fun s' ↦ s' = { s.settled with } := by
  rw [flush_eq hnodup]
  exact Outcome.holds_ok.mpr rfl

theorem commit_eq {s : Session} (hk : Keyed s.settled) : s.commit = .ok s.settled := by
  unfold commit
  rw [flush_eq hk.taskNodes]
  rfl

@[simp] theorem settled_flushed (db : RunRecord) : ({ db with } : Session).settled = db := by
  simp [settled, numbered]

end Session

/-! ## What an edge sees of its source -/

/-- What activity and readiness of an edge read of its source. -/
inductive SourceState where
  | unfinished
  | skipped
  | completed (selected : Option String)
  deriving DecidableEq

def sourceState (nodeRuns : List NodeRun) (id : NodeId) : SourceState :=
  match findNodeRun nodeRuns id with
  | some n =>
      if n.status = .skipped then .skipped
      else if n.status = .completed then .completed n.selectedBranch
      else .unfinished
  | none => .unfinished

theorem statusOf_skipped_iff {nodeRuns : List NodeRun} {id : NodeId} :
    statusOf nodeRuns id = some .skipped ↔ sourceState nodeRuns id = .skipped := by
  unfold statusOf sourceState
  cases findNodeRun nodeRuns id with
  | none => simp
  | some n => cases h : n.status <;> simp [h]

theorem statusOf_completed_iff {nodeRuns : List NodeRun} {id : NodeId} :
    statusOf nodeRuns id = some .completed ↔ ∃ b, sourceState nodeRuns id = .completed b := by
  unfold statusOf sourceState
  cases findNodeRun nodeRuns id with
  | none => simp
  | some n => cases h : n.status <;> simp [h]

/-- An edge with a given state of its source. -/
def activeFrom (g : WorkflowGraph) (e : WorkflowEdge) : SourceState → Bool
  | .skipped => false
  | .unfinished => true
  | .completed none => true
  | .completed (some selected) =>
      (g.node? e.source).any WorkflowNode.isCondition = false ∨
        ¬(selected = "true" ∨ selected = "false") ∨ e.sourceHandle = some selected

theorem edgeIsActive_eq {nodeRuns : List NodeRun} (e : WorkflowEdge) :
    edgeIsActive g nodeRuns e = activeFrom g e (sourceState nodeRuns e.source) := by
  unfold edgeIsActive statusOf sourceState
  cases findNodeRun nodeRuns e.source with
  | none => simp [activeFrom]
  | some n =>
      cases h : n.status <;> simp [h, activeFrom]
      cases hb : n.selectedBranch <;> simp

variable {nodeRuns nodeRuns' : List NodeRun} {id : NodeId}

theorem activeEdges_congr
    (hsource : ∀ e ∈ g.incomingEdges id, sourceState nodeRuns' e.source = sourceState nodeRuns e.source) :
    activeEdges g nodeRuns' id = activeEdges g nodeRuns id := by
  refine List.filter_congr fun e he ↦ ?_
  rw [edgeIsActive_eq, edgeIsActive_eq, hsource e he]

/-- Readiness depends on the status of the node and on what its edges see. -/
theorem isReady_congr (hstatus : statusOf nodeRuns' id = statusOf nodeRuns id)
    (hsource : ∀ e ∈ g.incomingEdges id, sourceState nodeRuns' e.source = sourceState nodeRuns e.source) :
    isReady g nodeRuns' id = isReady g nodeRuns id := by
  have hall : (∀ e ∈ activeEdges g nodeRuns id, statusOf nodeRuns' e.source = some .completed) ↔
      ∀ e ∈ activeEdges g nodeRuns id, statusOf nodeRuns e.source = some .completed := by
    refine forall₂_congr fun e he ↦ ?_
    rw [statusOf_completed_iff, statusOf_completed_iff, hsource e (List.mem_of_mem_filter he)]
  simp only [isReady, hstatus, activeEdges_congr hsource, hall]

theorem isReady_iff : isReady g nodeRuns id = true ↔
    statusOf nodeRuns id = some .pending ∧ activeEdges g nodeRuns id ≠ [] ∧
      ∀ e ∈ activeEdges g nodeRuns id, statusOf nodeRuns e.source = some .completed := by
  simp [isReady]

theorem exists_of_isReady (h : isReady g nodeRuns id = true) :
    ∃ n, findNodeRun nodeRuns id = some n ∧ n.status = .pending := by
  have hstatus := (isReady_iff.mp h).1
  unfold statusOf at hstatus
  cases hn : findNodeRun nodeRuns id with
  | none => simp [hn] at hstatus
  | some n => exact ⟨n, rfl, by simpa [hn] using hstatus⟩

/-! ## Skipping -/

theorem isUnreachable_iff {n : NodeRun} : isUnreachable g nodeRuns n = true ↔
    n.nodeId ∈ g.nodeIds ∧ n.status = .pending ∧ g.incomingEdges n.nodeId ≠ [] ∧
      activeEdges g nodeRuns n.nodeId = [] := by
  simp [isUnreachable]

theorem skipPass_kept {n : NodeRun} (hn : findNodeRun nodeRuns id = some n)
    (h : isUnreachable g nodeRuns n = false) :
    findNodeRun (skipPass g now nodeRuns) id = some n := by
  have hpass : findNodeRun (skipPass g now nodeRuns) id = (findNodeRun nodeRuns id).map _ :=
    Table.find?_map (fun n ↦ by split <;> rfl) _ _
  rw [hpass, hn, Option.map_some, h]
  rfl

/-- A row that the loop changes was PENDING and is SKIPPED. -/
theorem skipLoop_row (now : Time) (g : WorkflowGraph) (k : ℕ) {nodeRuns : List NodeRun} {n : NodeRun}
    (hn : findNodeRun nodeRuns id = some n) :
    ∃ n', findNodeRun (skipLoop g now k nodeRuns) id = some n' ∧ n'.isInput = n.isInput ∧
      (n' = n ∨ n.status = .pending ∧ n'.status = .skipped) := by
  induction k generalizing nodeRuns n with
  | zero => exact ⟨n, hn, rfl, .inl rfl⟩
  | succ k ih =>
      rw [skipLoop]
      split
      · by_cases hskip : isUnreachable g nodeRuns n = true
        · have hpass : findNodeRun (skipPass g now nodeRuns) id =
              some { n with status := .skipped, finishedAt := some now } := by
            refine (Table.find?_map (fun n ↦ by split <;> rfl) _ _).trans ?_
            rw [show Table.find? NodeRun.nodeId id nodeRuns = some n from hn, Option.map_some,
              if_pos hskip]
          obtain ⟨n', hn', hinput, hstatus⟩ := ih hpass
          refine ⟨n', hn', hinput, .inr ⟨(isUnreachable_iff.mp hskip).2.1, ?_⟩⟩
          rcases hstatus with rfl | ⟨hpending, -⟩
          · rfl
          · cases hpending
        · exact ih (skipPass_kept hn (by simpa using hskip))
      · exact ⟨n, hn, rfl, .inl rfl⟩

/-- Only PENDING rows are skipped. -/
theorem skipLoop_kept {n : NodeRun} (k : ℕ) (hn : findNodeRun nodeRuns id = some n)
    (hpending : n.status ≠ .pending) : findNodeRun (skipLoop g now k nodeRuns) id = some n := by
  obtain ⟨n', hn', -, rfl | ⟨hstatus, -⟩⟩ := skipLoop_row now g k hn
  · exact hn'
  · exact absurd hstatus hpending

theorem map_nodeId_skipLoop (g : WorkflowGraph) (k : ℕ) (nodeRuns : List NodeRun) :
    (skipLoop g now k nodeRuns).map NodeRun.nodeId = nodeRuns.map NodeRun.nodeId := by
  induction k generalizing nodeRuns with
  | zero => rfl
  | succ k ih =>
      rw [skipLoop]
      split
      · rw [ih]
        exact Table.map_key_map (fun n ↦ by split <;> rfl) nodeRuns
      · rfl

variable {db : RunRecord}

/-- A PENDING NodeRun has no task. -/
theorem Coupled.no_task (hc : Coupled db) {id : NodeId} {n : NodeRun}
    (hn : findNodeRun db.nodeRuns id = some n) (hpending : n.status = .pending) :
    taskOfNode db.tasks id = none := by
  have hcoupling := hc.coupling id n hn
  cases htask : taskOfNode db.tasks id with
  | none => rfl
  | some t =>
      rw [cellStatus, htask, hpending] at hcoupling
      cases hstatus : t.status <;> simp [Coupling, hstatus] at hcoupling

theorem skipPass_evolves (hc : Coupled db) (hrunning : db.run.status = .running) :
    Evolves R db
      { db with nodeRuns := skipPass db.run.graph.toWorkflowGraph now db.nodeRuns } := by
  refine Evolves.of_rows hc.toKeyed rfl rfl rfl rfl (fun n ↦ by split <;> rfl) fun n hn ↦ ?_
  by_cases hskip : isUnreachable db.run.graph.toWorkflowGraph db.nodeRuns n = true
  · have hpending := (isUnreachable_iff.mp hskip).2.1
    have hnone := hc.no_task (hc.findNodeRun_eq_some_iff.mpr ⟨hn, rfl⟩) hpending
    simp only [hskip, if_true, hnone]
    exact
      { nodeId := rfl
        nodeType := rfl
        nodeSubtype := rfl
        move := .inr (by
          simp only [cellStatus, hpending]
          exact .skip)
        output := .inl rfl
        queued := fun _ h ↦ by simp at h
        skipped := fun _ _ ↦ ⟨hrunning, hskip⟩
        cancelled := fun h ↦ by simp at h
        reported := fun h ↦ by simp [hpending] at h
        resolved := fun h ↦ by simp [hpending] at h
        rejected := fun h ↦ by simp at h
        taskId := fun _ _ h ↦ by simp at h
        lease := fun _ h ↦ by simp at h
        holder := fun _ h ↦ by simp at h
        capability := fun _ h ↦ by simp at h }
  · simp only [hskip, if_false, Bool.false_eq_true]
    exact .refl n _

theorem skipLoop_steps (hc : Coupled db) (hrunning : db.run.status = .running) (k : ℕ) :
    CellSteps R db
      { db with nodeRuns := skipLoop db.run.graph.toWorkflowGraph now k db.nodeRuns } := by
  induction k generalizing db with
  | zero => exact .refl
  | succ k ih =>
      rw [skipLoop]
      split
      · have hpass : Evolves R db
            { db with nodeRuns := skipPass db.run.graph.toWorkflowGraph now db.nodeRuns } :=
          skipPass_evolves hc hrunning
        exact .head hpass (ih (hpass.coupled hc) hrunning)
      · exact .refl

theorem skipInactive_steps {s : Session} (hc : Coupled s.settled)
    (hrunning : s.run.status = .running) :
    CellSteps R s.settled (skipInactive now s).settled := by
  have hloop : CellSteps R s.settled
      { s.settled with
        nodeRuns := markUnreachableConditionNodes s.run.graph.toWorkflowGraph now s.nodeRuns } :=
    skipLoop_steps hc hrunning _
  exact hloop.tail ((Evolves.refl (hloop.coupled hc).toKeyed).congr rfl rfl rfl)

/-! ## Queueing -/

/-- A step that queues one ready NodeRun and appends its task. -/
theorem Evolves.queue (hc : Coupled db) {db' : RunRecord} {id : NodeId}
    (hrunning : db.run.status = .running)
    (hready : isReady db.run.graph.toWorkflowGraph db.nodeRuns id = true)
    {fn : NodeRun → NodeRun} {task : ExecutionTask} (hrun : db'.run = db.run)
    (hnodes : db'.nodeRuns = Table.modify NodeRun.nodeId id fn db.nodeRuns)
    (htasks : db'.tasks = db.tasks ++ [task])
    (hfn : ∀ r, (fn r).nodeId = r.nodeId ∧ (fn r).nodeType = r.nodeType ∧
      (fn r).nodeSubtype = r.nodeSubtype ∧ (fn r).status = .queued ∧ (fn r).output = r.output)
    (hid : task.id = db.tasks.length) (hnode : task.nodeRunId = id)
    (hstatus : task.status = .pending) (hlocked : task.lockedBy = none)
    (hcapable : task.requiredCapability ≠ none →
      ∀ n, findNodeRun db.nodeRuns id = some n → n.nodeType = .tool ∨ n.nodeType = .agent) :
    Evolves R db db' := by
  obtain ⟨n, hn, hpending⟩ := exists_of_isReady hready
  have hnone := hc.no_task hn hpending
  obtain ⟨hfid, hftype, hfsubtype, hfstatus, hfoutput⟩ := hfn n
  have hfresh : ∀ t ∈ db.tasks, t.nodeRunId ≠ id := Table.find?_eq_none_iff.mp hnone
  have hmem : id ∈ db.run.graph.nodeIds := by
    obtain ⟨hmem, hkey⟩ := hc.findNodeRun_eq_some_iff.mp hn
    rw [← hkey]
    exact hc.mem_nodeIds hmem
  have hkept : db.tasks = Table.modify ExecutionTask.id 0 (fun t ↦ t) db.tasks :=
    (Table.modify_id _ _).symm
  have hkeys : Keyed { db' with tasks := db.tasks } := by
    refine hc.update hn (fun r ↦ (hfn r).1) hftype hfsubtype ?_ ?_ hrun hnodes hkept
    · exact fun _ ↦ rfl
    · exact fun _ ↦ rfl
  refine
    { run := hrun
      keyed :=
        { nodeIds := hkeys.nodeIds
          kinds := hkeys.kinds
          taskIds := by
            rw [htasks, List.map_append, hc.taskIds, List.length_append, List.length_singleton,
              List.range_succ, List.map_singleton, hid]
          taskNodes := by
            rw [htasks, List.map_append, List.nodup_append]
            refine ⟨hc.taskNodes, by simp, fun a ha b hb ↦ ?_⟩
            obtain ⟨t, ht, rfl⟩ := List.mem_map.mp ha
            obtain rfl : b = id := by simpa [hnode] using hb
            exact hfresh t ht
          taskClosed := by
            rw [htasks, hrun]
            intro t ht
            rcases List.mem_append.mp ht with ht | ht
            · exact hc.taskClosed t ht
            · rw [List.mem_singleton.mp ht, hnode]
              exact hmem }
      cell := fun id' n' hn' ↦ ?_ }
  have hfind : findNodeRun db'.nodeRuns id' =
      if id' = id then (findNodeRun db.nodeRuns id).map fn else findNodeRun db.nodeRuns id' := by
    rw [hnodes]
    exact Table.find?_modify (fun r ↦ (hfn r).1) _ _ _
  have htask : taskOfNode db'.tasks id' =
      if id' = id then some task else taskOfNode db.tasks id' := by
    rw [htasks]
    refine (Table.find?_append _ _).trans ?_
    by_cases hid' : id' = id
    · subst hid'
      simp only [if_true]
      rw [show Table.find? ExecutionTask.nodeRunId id' db.tasks = none from hnone]
      simp [Table.find?, hnode]
    · have hne : ¬id = id' := fun h ↦ hid' h.symm
      simp [Table.find?, taskOfNode, hnode, hid', hne]
  rw [hfind, htask]
  by_cases hid' : id' = id
  · subst hid'
    rw [hn] at hn'
    cases hn'
    refine ⟨fn n, by simp [hn], ?_⟩
    simp only [if_true, hnone]
    have hkey : n.nodeId = id' := (hc.findNodeRun_eq_some_iff.mp hn).2
    exact
      { nodeId := hfid
        nodeType := hftype
        nodeSubtype := hfsubtype
        move := .inr (by
          simp only [cellStatus, hpending, hfstatus, Option.map_none, Option.map_some, hstatus]
          exact .queue)
        output := .inl hfoutput
        queued := fun _ _ ↦ ⟨hrunning, by rwa [hkey]⟩
        skipped := fun _ h ↦ by simp [hfstatus] at h
        cancelled := fun h ↦ by simp [hfstatus] at h
        reported := fun h ↦ by simp [hpending] at h
        resolved := fun h ↦ by simp [hpending] at h
        rejected := fun h ↦ by simp [hfstatus] at h
        taskId := fun _ _ h ↦ by simp at h
        lease := fun u hu _ ↦ by
          cases hu
          exact .inl hlocked
        holder := fun u hu ↦ by
          cases hu
          exact .inl hlocked
        capability := fun u hu h ↦ by
          cases hu
          exact .inr (hcapable h n hn) }
  · exact ⟨n', by simp [hid', hn'], by simpa [hid'] using CellStep.refl n' _⟩

/-- `Session.settled` after one more `db.add`. -/
theorem Session.settled_add_tasks {s s' : Session} {tasks : List ExecutionTask}
    {task : ExecutionTask} (hs : s.settled.tasks = tasks) (htasks : s'.tasks = s.tasks)
    (hadded : s'.added = s.added ++ [task]) :
    s'.settled.tasks = tasks ++ [{ task with id := tasks.length }] := by
  subst hs
  simp [settled, htasks, hadded, numbered_append, numbered]

/-- What queueing one node does to the session. -/
structure Queued (R : Rights) (s : Session) (id : NodeId) (s' : Session) : Prop where
  evolves : Evolves R s.settled s'.settled
  nodeRuns : ∃ fn, s'.nodeRuns = Table.modify NodeRun.nodeId id fn s.nodeRuns ∧
    ∀ r, (fn r).nodeId = r.nodeId ∧ (fn r).status = .queued ∧ (fn r).output = r.output

variable (R) in
/-- The end of a turn that queues the ready node `id`: the session before the
enqueue differs from the one at the start of the turn in the input of the node. -/
theorem enqueue_sound {s s₁ : Session} (hc : Coupled s.settled)
    (hrunning : s.run.status = .running) {n : NodeRun} {node : WorkflowNode}
    (hready : isReady s.run.graph.toWorkflowGraph s.nodeRuns node.id = true)
    (hn : findNodeRun s.nodeRuns node.id = some n) (hrun : s₁.run = s.run)
    {fi : NodeRun → NodeRun} (hnodes : s₁.nodeRuns = Table.modify NodeRun.nodeId node.id fi s.nodeRuns)
    (hfi : ∀ r, (fi r).nodeId = r.nodeId ∧ (fi r).nodeType = r.nodeType ∧
      (fi r).nodeSubtype = r.nodeSubtype ∧ (fi r).output = r.output)
    (htasks : s₁.settled.tasks = s.settled.tasks) {payload : Dict}
    {requiredCapability runnerId : Option String}
    (hcapable : requiredCapability ≠ none → n.nodeType = .tool ∨ n.nodeType = .agent) :
    Sound (enqueue env now s₁ n node payload requiredCapability runnerId)
      (Queued R s node.id) := by
  obtain ⟨n', hn', hpending⟩ := exists_of_isReady hready
  rw [hn] at hn'
  cases hn'
  have hlegal : NodeRunStatus.queued ∈ n.status.transitions := by
    simp [hpending, NodeRunStatus.transitions]
  unfold enqueue
  rw [liftM_transitionNodeRun hlegal]
  have hrows : Table.modify NodeRun.nodeId node.id (fun r ↦ { r with status := .queued })
      s₁.nodeRuns =
      Table.modify NodeRun.nodeId node.id (fun r ↦ { fi r with status := .queued }) s.nodeRuns := by
    rw [hnodes]
    exact Table.modify_modify (fun r ↦ (hfi r).1) _ _
  refine ⟨Evolves.queue hc hrunning hready hrun hrows
    (Session.settled_add_tasks htasks rfl rfl) (fun r ↦ ?_) rfl rfl rfl rfl fun h n' hn' ↦ ?_,
    _, hrows, fun r ↦ ⟨(hfi r).1, rfl, (hfi r).2.2.2⟩⟩
  · exact ⟨(hfi r).1, (hfi r).2.1, (hfi r).2.2.1, rfl, (hfi r).2.2.2⟩
  · rw [Session.settled_nodeRuns, hn] at hn'
    cases hn'
    exact hcapable h

theorem attachWorkspace_sound {s : Session} {node : WorkflowNode} {payload : Dict}
    {runnerId : Option String} (hnodup : (s.settled.tasks.map ExecutionTask.nodeRunId).Nodup) :
    Sound (attachWorkspace env s node payload runnerId) fun p ↦
      p.1.run = s.run ∧ p.1.nodeRuns = s.nodeRuns ∧ p.1.settled.tasks = s.settled.tasks := by
  unfold attachWorkspace
  split
  · split
    · refine Outcome.Holds.ite (fun _ ↦ ⟨rfl, rfl, rfl⟩) fun _ ↦ ?_
      refine Outcome.Holds.bind (Session.flush_sound hnodup) ?_
      rintro _ rfl
      exact ⟨rfl, rfl, by simp [Session.settled, Session.numbered]⟩
    · exact ⟨rfl, rfl, rfl⟩
  · exact ⟨rfl, rfl, rfl⟩

/-- The turn for `id` does not end in `continue`. -/
def dispatches (env : Env) (db : RunRecord) (id : NodeId) : Bool :=
  (db.run.graph.node? id).any fun node ↦ dispatch env db node ≠ .unresolved

/-- Only Tools and Agents are handed to a Runner. -/
theorem dispatch_runner_type {db : RunRecord} {node : WorkflowNode} {target : RunnerDispatch}
    {input : Dict} (h : dispatch env db node = .runner target input) :
    node.type = .tool ∨ node.type = .agent := by
  cases htype : node.type with
  | tool => exact .inl rfl
  | agent => exact .inr rfl
  | service | logic | human | data => simp [dispatch, htype] at h

variable (R) in
theorem scheduleNode_sound {s : Session} {id : NodeId} (hc : Coupled s.settled)
    (hrunning : s.run.status = .running)
    (hready : isReady s.run.graph.toWorkflowGraph s.nodeRuns id = true) :
    Sound (scheduleNode env now s id) fun r ↦
      match r with
      | none => dispatches env s.toRunRecord id = false
      | some s' => dispatches env s.toRunRecord id = true ∧ Queued R s id s' := by
  obtain ⟨n, hn, hpending⟩ := exists_of_isReady hready
  have hmem : id ∈ s.run.graph.nodeIds := by
    obtain ⟨hmem, hkey⟩ := hc.findNodeRun_eq_some_iff.mp hn
    rw [← hkey]
    exact hc.mem_nodeIds hmem
  obtain ⟨node, hnode⟩ := s.run.graph.exists_node hmem
  obtain ⟨-, rfl⟩ := s.run.graph.node?_eq_some_iff.mp hnode
  have htask : taskOfNode s.tasks node.id = none := by
    have hnone := hc.no_task hn hpending
    rw [taskOfNode, Session.settled, Table.find?_append, Option.or_eq_none_iff] at hnone
    exact hnone.1
  have hdispatches : dispatches env s.toRunRecord node.id =
      decide (dispatch env s.toRunRecord node ≠ .unresolved) := by
    simp [dispatches, hnode]
  unfold scheduleNode
  simp only [hn, hnode, htask, hdispatches]
  cases hdispatch : dispatch env s.toRunRecord node with
  | unresolved => exact Outcome.holds_pure.mpr (by simp)
  | worker =>
      refine Outcome.Holds.bind (enqueue_sound R hc hrunning hready hn rfl
        (Table.modify_id _ _).symm (fun _ ↦ ⟨rfl, rfl, rfl, rfl⟩) rfl (by simp)) fun s' hs' ↦ ?_
      exact ⟨by simp, hs'⟩
  | runner target input =>
      refine Outcome.Holds.bind (attachWorkspace_sound hc.taskNodes) ?_
      rintro ⟨s₁, payload⟩ ⟨hrun, hnodes, htasks⟩
      refine Outcome.Holds.bind (enqueue_sound R hc hrunning hready hn hrun hnodes
        (fun _ ↦ ⟨rfl, rfl, rfl, rfl⟩) htasks fun _ ↦ ?_) fun s' hs' ↦ ?_
      · rw [(hc.kind_eq hn hnode).1]
        exact dispatch_runner_type hdispatch
      · exact ⟨by simp, hs'⟩

/-! ### The loop over the ready nodes -/

/-- The dispatch of a node reads the run and the outputs. -/
theorem dispatch_congr {db' : RunRecord} (hrun : db'.run = db.run)
    (houtputs : db'.nodeRuns.map (fun n ↦ (n.nodeId, n.output)) =
      db.nodeRuns.map fun n ↦ (n.nodeId, n.output)) (node : WorkflowNode) :
    dispatch env db' node = dispatch env db node := by
  have hresolver : contextResolver env db' = contextResolver env db := by
    have hnodeOutputs (rows : List NodeRun) :
        (rows.filterMap fun n ↦ n.output.map fun output ↦ (n.nodeId, Json.obj output)) =
          (rows.map fun n ↦ (n.nodeId, n.output)).filterMap
            fun p ↦ p.2.map fun output ↦ (p.1, Json.obj output) := by
      rw [List.filterMap_map]
      rfl
    simp only [contextResolver, hrun, hnodeOutputs, houtputs]
  simp only [dispatch, dispatchRunner, resolveToolConfig, codingAgentPayload, resolveConfig,
    hresolver, hrun]

theorem dispatches_congr {db' : RunRecord} (hrun : db'.run = db.run)
    (houtputs : db'.nodeRuns.map (fun n ↦ (n.nodeId, n.output)) =
      db.nodeRuns.map fun n ↦ (n.nodeId, n.output)) (id : NodeId) :
    dispatches env db' id = dispatches env db id := by
  simp only [dispatches, dispatch_congr hrun houtputs, hrun]

namespace Queued

variable {s s' : Session} {id : NodeId} (h : Queued R s id s')
include h

theorem run : s'.run = s.run := h.evolves.run

theorem findNodeRun_ne {id' : NodeId} (hne : id' ≠ id) :
    findNodeRun s'.nodeRuns id' = findNodeRun s.nodeRuns id' := by
  obtain ⟨fn, hnodes, hfn⟩ := h.nodeRuns
  rw [hnodes]
  exact (Table.find?_modify (fun r ↦ (hfn r).1) _ _ _).trans (by simp [hne, findNodeRun])

theorem statusOf_self {n : NodeRun} (hn : findNodeRun s.nodeRuns id = some n) :
    statusOf s'.nodeRuns id = some .queued := by
  obtain ⟨fn, hnodes, hfn⟩ := h.nodeRuns
  have hfind : findNodeRun s'.nodeRuns id = some (fn n) := by
    rw [hnodes]
    refine (Table.find?_modify (fun r ↦ (hfn r).1) _ _ _).trans ?_
    rw [if_pos rfl]
    exact congrArg (Option.map fn) hn
  simp [statusOf, hfind, (hfn n).2.1]

/-- Queueing a PENDING node changes no source of an edge. -/
theorem sourceState_eq {n : NodeRun} (hn : findNodeRun s.nodeRuns id = some n)
    (hpending : n.status = .pending) (id' : NodeId) :
    sourceState s'.nodeRuns id' = sourceState s.nodeRuns id' := by
  by_cases hne : id' = id
  · subst hne
    have hqueued := h.statusOf_self hn
    unfold statusOf at hqueued
    unfold sourceState
    cases hn' : findNodeRun s'.nodeRuns id' with
    | none => simp [hn'] at hqueued
    | some n' =>
        rw [hn'] at hqueued
        have hqueued : n'.status = .queued := by simpa using hqueued
        simp [hn, hqueued, hpending]
  · unfold sourceState
    rw [h.findNodeRun_ne hne]

theorem outputs_eq : s'.nodeRuns.map (fun n ↦ (n.nodeId, n.output)) =
    s.nodeRuns.map fun n ↦ (n.nodeId, n.output) := by
  obtain ⟨fn, hnodes, hfn⟩ := h.nodeRuns
  rw [hnodes, Table.modify, List.map_map]
  refine List.map_congr_left fun r _ ↦ ?_
  by_cases hr : r.nodeId = id <;> simp [hr, hfn]

theorem dispatches_eq (id' : NodeId) :
    dispatches env s'.toRunRecord id' = dispatches env s.toRunRecord id' :=
  dispatches_congr h.run h.outputs_eq id'

end Queued

/-- What the loop over `ids` does to the session: every node whose turn does not
end in `continue` is queued, all others stay. -/
structure Scheduled (R : Rights) (env : Env) (ids : List NodeId)
    (s s' : Session) : Prop where
  steps : CellSteps R s.settled s'.settled
  queued : ∀ id ∈ ids, dispatches env s.toRunRecord id = true →
    statusOf s'.nodeRuns id = some .queued
  kept : ∀ id, (id ∈ ids → dispatches env s.toRunRecord id = false) →
    findNodeRun s'.nodeRuns id = findNodeRun s.nodeRuns id
  idle : (∀ id ∈ ids, dispatches env s.toRunRecord id = false) → s' = s
  dispatches_eq : ∀ id, dispatches env s'.toRunRecord id = dispatches env s.toRunRecord id

theorem scheduleLoop_sound (ids : List NodeId) {s : Session} (hc : Coupled s.settled)
    (hrunning : s.run.status = .running) (hnodup : ids.Nodup)
    (hready : ∀ id ∈ ids, isReady s.run.graph.toWorkflowGraph s.nodeRuns id = true) :
    Sound (scheduleLoop env now s ids) (Scheduled R env ids s) := by
  induction ids generalizing s with
  | nil => exact ⟨.refl, by simp, fun _ _ ↦ rfl, fun _ ↦ rfl, fun _ ↦ rfl⟩
  | cons id ids ih =>
      obtain ⟨hnotMem, hnodup⟩ := List.nodup_cons.mp hnodup
      have hid := hready id (by simp)
      obtain ⟨n, hn, hpending⟩ := exists_of_isReady hid
      refine Outcome.Holds.bind (scheduleNode_sound R hc hrunning hid) fun r hr ↦ ?_
      cases r with
      | none =>
          refine (ih hc hrunning hnodup fun id' h ↦ hready id' (by simp [h])).weaken fun s' hs' ↦ ?_
          exact
            { steps := hs'.steps
              queued := fun id' hid' hdispatches ↦ by
                rcases List.mem_cons.mp hid' with rfl | hid'
                · simp [hr] at hdispatches
                · exact hs'.queued id' hid' hdispatches
              kept := fun id' h ↦ hs'.kept id' fun hid' ↦ h (by simp [hid'])
              idle := fun h ↦ hs'.idle fun id' hid' ↦ h id' (by simp [hid'])
              dispatches_eq := hs'.dispatches_eq }
      | some s₁ =>
          obtain ⟨hdispatched, hqueued⟩ := hr
          have hready₁ : ∀ id' ∈ ids,
              isReady s₁.run.graph.toWorkflowGraph s₁.nodeRuns id' = true := by
            intro id' hid'
            have hne : id' ≠ id := fun h ↦ hnotMem (h ▸ hid')
            rw [hqueued.run, isReady_congr (by simp [statusOf, hqueued.findNodeRun_ne hne])
              fun e _ ↦ hqueued.sourceState_eq hn hpending e.source]
            exact hready id' (by simp [hid'])
          refine (ih (hqueued.evolves.coupled hc) (by rw [hqueued.run, hrunning]) hnodup
            hready₁).weaken fun s' hs' ↦ ?_
          have hkept : ∀ id', (id' ∈ ids → dispatches env s.toRunRecord id' = false) →
              findNodeRun s'.nodeRuns id' = findNodeRun s₁.nodeRuns id' := fun id' h ↦
            hs'.kept id' fun hid' ↦ (hqueued.dispatches_eq id').trans (h hid')
          exact
            { steps := .head hqueued.evolves hs'.steps
              queued := fun id' hid' hdispatches ↦ by
                rcases List.mem_cons.mp hid' with rfl | hid'
                · rw [statusOf, hkept id' fun h ↦ absurd h hnotMem]
                  exact hqueued.statusOf_self hn
                · exact hs'.queued id' hid' ((hqueued.dispatches_eq id').trans hdispatches)
              kept := fun id' h ↦ by
                have hne : id' ≠ id := by
                  rintro rfl
                  simp [h (by simp)] at hdispatched
                rw [hkept id' fun hid' ↦ h (by simp [hid']), hqueued.findNodeRun_ne hne]
              idle := fun h ↦ by
                have hcontinue := h id (by simp)
                simp [hcontinue] at hdispatched
              dispatches_eq := fun id' ↦
                (hs'.dispatches_eq id').trans (hqueued.dispatches_eq id') }

/-- The rule for the loop over ready nodes: an invariant that a turn keeps, whether it
queues the node or ends in `continue`. -/
theorem scheduleLoop_turns {I : List NodeId → Session → Prop}
    (hcontinue : ∀ {id ids s}, dispatches env s.toRunRecord id = false → I (id :: ids) s → I ids s)
    (hturn : ∀ {id ids s s'}, Coupled s.settled → s.run.status = .running →
      isReady s.run.graph.toWorkflowGraph s.nodeRuns id = true →
        scheduleNode env now s id = .ok (some s') → Queued Rights.all s id s' →
          I (id :: ids) s → I ids s')
    (ids : List NodeId) {s : Session} (hc : Coupled s.settled) (hrunning : s.run.status = .running)
    (hnodup : ids.Nodup)
    (hready : ∀ id ∈ ids, isReady s.run.graph.toWorkflowGraph s.nodeRuns id = true)
    (h : I ids s) : Returns (scheduleLoop env now s ids) (I []) := by
  induction ids generalizing s with
  | nil => exact h
  | cons id ids ih =>
      obtain ⟨hnotMem, hnodup⟩ := List.nodup_cons.mp hnodup
      have hid := hready id (by simp)
      obtain ⟨n, hn, hpending⟩ := exists_of_isReady hid
      refine Outcome.Holds.bind
        (scheduleNode_sound Rights.all hc hrunning hid).returns.with_eq fun r hr ↦ ?_
      cases r with
      | none =>
          exact ih hc hrunning hnodup (fun id' h ↦ hready id' (by simp [h])) (hcontinue hr.2 h)
      | some s₁ =>
          obtain ⟨hschedule, -, hqueued⟩ := hr
          have hready₁ : ∀ id' ∈ ids,
              isReady s₁.run.graph.toWorkflowGraph s₁.nodeRuns id' = true := by
            intro id' hid'
            have hne : id' ≠ id := fun h ↦ hnotMem (h ▸ hid')
            rw [hqueued.run, isReady_congr (by simp [statusOf, hqueued.findNodeRun_ne hne])
              fun e _ ↦ hqueued.sourceState_eq hn hpending e.source]
            exact hready id' (by simp [hid'])
          exact ih (hqueued.evolves.coupled hc) (by rw [hqueued.run, hrunning]) hnodup hready₁
            (hturn hc hrunning hid hschedule hqueued h)

/-- The ready nodes of a session. -/
abbrev readyNodes (s : Session) : List NodeId :=
  findReadyNodes s.run.graph.toWorkflowGraph s.nodeRuns

theorem mem_readyNodes {s : Session} {id : NodeId} : id ∈ readyNodes s ↔
    id ∈ s.run.graph.nodeIds ∧ isReady s.run.graph.toWorkflowGraph s.nodeRuns id = true := by
  simp [readyNodes, findReadyNodes]

variable (R) in
/-- Scheduling a RUNNING run: skip, then queue every ready node. -/
theorem scheduleReadyNodes_running {s : Session} (hc : Coupled s.settled)
    (hrunning : s.run.status = .running) :
    Sound (scheduleReadyNodes env now s) (Scheduled R env (readyNodes (skipInactive now s))
      (skipInactive now s)) := by
  have hskip : CellSteps R s.settled (skipInactive now s).settled :=
    skipInactive_steps hc hrunning
  refine Outcome.Holds.ite (fun h ↦ absurd hrunning h) fun _ ↦ ?_
  exact scheduleLoop_sound _ (hskip.coupled hc) hrunning
    (s.run.graph.nodeIds_nodup.sublist List.filter_sublist) fun id hid ↦ (mem_readyNodes.mp hid).2

variable (R) in
theorem scheduleReadyNodes_sound {s : Session} (hc : Coupled s.settled) :
    Sound (scheduleReadyNodes env now s) fun s' ↦ CellSteps R s.settled s'.settled := by
  by_cases hrunning : s.run.status = .running
  · refine (scheduleReadyNodes_running R hc hrunning).weaken fun s' hs' ↦ ?_
    exact (skipInactive_steps hc hrunning).trans hs'.steps
  · exact Outcome.Holds.ite (fun _ ↦ Relation.ReflTransGen.refl) fun h ↦ absurd hrunning h

end Relayvia
