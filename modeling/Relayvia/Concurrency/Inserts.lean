import Relayvia.Concurrency.Transactions
import Relayvia.Operations.Reconciliation

/-!
# Inserted tasks

Scheduling inserts one task for each of some PENDING nodes that have none, so that the
inserts of a session never violate `UNIQUE(node_run_id)` on the rows it has read.
-/

namespace Relayvia

variable {env : Env} {now : Time} {db : RunRecord} {id : NodeId} {rows : List ExecutionTask}
  {s s' : Session}

/-- The nodes of the tasks that a session has inserted after the tasks `rows`. -/
def insertedNodes (rows : List ExecutionTask) (s : Session) : List NodeId :=
  (s.tasks.drop rows.length ++ s.added).map ExecutionTask.nodeRunId

/-- The session keeps the tasks `rows` and inserts one for each of some other nodes, which
are not PENDING any more. -/
structure Inserting (rows : List ExecutionTask) (s : Session) : Prop where
  kept : s.tasks.take rows.length = rows
  nodup : (insertedNodes rows s).Nodup
  new : ∀ id ∈ insertedNodes rows s, id ∉ rows.map ExecutionTask.nodeRunId
  queued : ∀ id ∈ insertedNodes rows s, statusOf s.nodeRuns id ≠ some .pending

/-- Not the violation of `UNIQUE(node_run_id)`. -/
def NotDuplicate : Raised → Prop
  | .integrityError _ => False
  | _ => True

theorem notDuplicate_lift {α : Type} {x : Except RelayviaError α} :
    Outcome.Holds (liftM x : Except Raised α) (fun _ ↦ True) NotDuplicate :=
  holds_liftM (Outcome.holds_of_forall (fun _ _ ↦ trivial) fun _ _ ↦ trivial)

namespace Inserting

theorem start (db : RunRecord) : Inserting db.tasks { db with } := by
  have hnone : insertedNodes db.tasks { db with } = [] := by simp [insertedNodes]
  refine ⟨by simp, ?_, ?_, ?_⟩ <;> simp [hnone]

theorem tasks_eq (h : Inserting rows s) : s.tasks = rows ++ s.tasks.drop rows.length := by
  conv_lhs => rw [← List.take_append_drop rows.length s.tasks, h.kept]

/-- No node becomes PENDING. -/
theorem of_nodes (h : Inserting rows s) (htasks : s'.tasks = s.tasks) (hadded : s'.added = s.added)
    (hpending : ∀ id, statusOf s'.nodeRuns id = some .pending →
      statusOf s.nodeRuns id = some .pending) : Inserting rows s' := by
  have hinserted : insertedNodes rows s' = insertedNodes rows s := by
    rw [insertedNodes, insertedNodes, htasks, hadded]
  refine ⟨by rw [htasks, h.kept], hinserted ▸ h.nodup, hinserted ▸ h.new, fun id hid hp ↦ ?_⟩
  exact h.queued id (hinserted ▸ hid) (hpending id hp)

theorem flush (h : Inserting rows s) :
    Outcome.Holds s.flush
      (fun s' ↦ Inserting rows s' ∧ s'.run = s.run ∧ s'.nodeRuns = s.nodeRuns) NotDuplicate := by
  have hnodup := h.nodup
  rw [insertedNodes, List.map_append, List.nodup_append] at hnodup
  have hinsert : Session.insertTasks s.tasks s.added =
      .ok (s.tasks ++ Session.numbered s.tasks.length s.added) := by
    refine Session.insertTasks_new s.tasks hnodup.2.1 fun id hid hmem ↦ ?_
    rw [h.tasks_eq, List.map_append, List.mem_append] at hmem
    rcases hmem with hold | hflushed
    · exact h.new id (by simp [insertedNodes, hid]) hold
    · exact hnodup.2.2 id hflushed id hid rfl
  have hlength : rows.length ≤ s.tasks.length := by
    rw [h.tasks_eq, List.length_append]
    omega
  have hinserted : insertedNodes rows
      { s with tasks := s.tasks ++ Session.numbered s.tasks.length s.added, added := [] } =
      insertedNodes rows s := by
    simp [insertedNodes, List.drop_append_of_le_length hlength, Session.map_nodeRunId_numbered]
  unfold Session.flush
  rw [hinsert]
  refine Outcome.holds_pure.mpr ⟨⟨?_, ?_, ?_, ?_⟩, rfl, rfl⟩
  · exact (List.take_append_of_le_length hlength).trans h.kept
  · rw [hinserted]
    exact h.nodup
  · rw [hinserted]
    exact h.new
  · rw [hinserted]
    exact h.queued

end Inserting

/-! ## Scheduling -/

theorem statusOf_skipLoop (g : WorkflowGraph) (k : ℕ) {nodeRuns : List NodeRun}
    (h : statusOf (skipLoop g now k nodeRuns) id = some .pending) :
    statusOf nodeRuns id = some .pending := by
  induction k generalizing nodeRuns with
  | zero => exact h
  | succ k ih =>
      rw [skipLoop] at h
      split at h
      · have hpass := ih h
        unfold statusOf findNodeRun at hpass ⊢
        rw [skipPass, Table.find?_map (fun n ↦ by split <;> rfl)] at hpass
        cases hn : Table.find? NodeRun.nodeId id nodeRuns with
        | none => simp [hn] at hpass
        | some n =>
            rw [hn] at hpass
            by_cases hskip : isUnreachable g nodeRuns n = true
            · simp [hskip] at hpass
            · simpa [hskip] using hpass
      · exact h

theorem skipInactive_inserting (h : Inserting rows s) : Inserting rows (skipInactive now s) :=
  h.of_nodes rfl rfl fun _ hid ↦ statusOf_skipLoop _ _ hid

/-- The status after an update of one row. -/
theorem statusOf_modify {nodeRuns : List NodeRun} {id' : NodeId} (f : NodeRun → NodeRun)
    (hf : ∀ r, (f r).nodeId = r.nodeId) :
    statusOf (Table.modify NodeRun.nodeId id f nodeRuns) id' =
      if id' = id then (findNodeRun nodeRuns id).map fun r ↦ (f r).status
      else statusOf nodeRuns id' := by
  rw [statusOf, findNodeRun, Table.find?_modify hf]
  split
  · rw [Option.map_map]
    rfl
  · rfl

theorem statusOf_modify_kept {nodeRuns : List NodeRun} {f : NodeRun → NodeRun} {id' : NodeId}
    (hf : ∀ r, (f r).nodeId = r.nodeId ∧ (f r).status = r.status) :
    statusOf (Table.modify NodeRun.nodeId id f nodeRuns) id' = statusOf nodeRuns id' := by
  rw [statusOf_modify f fun r ↦ (hf r).1]
  split
  · next heq => simp [heq, statusOf, (hf _).2]
  · rfl

/-- What the turn for `id` leaves. -/
structure QueuesNew (rows : List ExecutionTask) (id : NodeId) (s s' : Session) : Prop where
  inserting : Inserting rows s'
  run : s'.run = s.run
  others : ∀ id', id' ≠ id → statusOf s'.nodeRuns id' = statusOf s.nodeRuns id'

/-- The turn queues the PENDING node of a new task. -/
theorem QueuesNew.queue (h : Inserting rows s) {task : ExecutionTask} {f : NodeRun → NodeRun}
    (hpending : statusOf s.nodeRuns id = some .pending)
    (hnew : id ∉ rows.map ExecutionTask.nodeRunId) (hrun : s'.run = s.run)
    (htasks : s'.tasks = s.tasks) (hadded : s'.added = s.added ++ [task])
    (htask : task.nodeRunId = id) (hnodes : s'.nodeRuns = Table.modify NodeRun.nodeId id f s.nodeRuns)
    (hf : ∀ r, (f r).nodeId = r.nodeId ∧ (f r).status = .queued) : QueuesNew rows id s s' := by
  have hinserted : insertedNodes rows s' = insertedNodes rows s ++ [id] := by
    simp [insertedNodes, htasks, hadded, htask]
  have hfresh : id ∉ insertedNodes rows s := fun hmem ↦ h.queued _ hmem hpending
  have hothers (id' : NodeId) (hne : id' ≠ id) :
      statusOf s'.nodeRuns id' = statusOf s.nodeRuns id' := by
    rw [hnodes, statusOf_modify f fun r ↦ (hf r).1, if_neg hne]
  refine ⟨⟨by rw [htasks, h.kept], ?_, ?_, ?_⟩, hrun, hothers⟩
  · rw [hinserted]
    exact List.concat_eq_append ▸ h.nodup.concat hfresh
  · intro id' hid'
    rw [hinserted, List.mem_append, List.mem_singleton] at hid'
    rcases hid' with hold | rfl
    · exact h.new id' hold
    · exact hnew
  · intro id' hid'
    rw [hinserted, List.mem_append, List.mem_singleton] at hid'
    by_cases heq : id' = id
    · rw [hnodes, statusOf_modify f fun r ↦ (hf r).1, if_pos heq]
      cases findNodeRun s.nodeRuns id with
      | none => simp
      | some r => simp [(hf r).2]
    · rw [hothers id' heq]
      exact h.queued id' (hid'.resolve_right heq)

theorem enqueue_inserting (h : Inserting rows s) {n : NodeRun} {node : WorkflowNode} {payload : Dict}
    {requiredCapability runnerId : Option String}
    (hpending : statusOf s.nodeRuns node.id = some .pending)
    (hnew : node.id ∉ rows.map ExecutionTask.nodeRunId) :
    Outcome.Holds (enqueue env now s n node payload requiredCapability runnerId)
      (QueuesNew rows node.id s) NotDuplicate := by
  refine Outcome.Holds.bind notDuplicate_lift fun _ _ ↦ Outcome.holds_pure.mpr ?_
  refine QueuesNew.queue h hpending hnew rfl rfl rfl rfl rfl fun _ ↦ ?_
  exact ⟨rfl, rfl⟩

theorem attachWorkspace_inserting (h : Inserting rows s) {node : WorkflowNode} {payload : Dict}
    {runnerId : Option String} :
    Outcome.Holds (attachWorkspace env s node payload runnerId)
      (fun p ↦ Inserting rows p.1 ∧ p.1.run = s.run ∧ p.1.nodeRuns = s.nodeRuns) NotDuplicate := by
  unfold attachWorkspace
  split
  · split
    · refine Outcome.Holds.ite (fun _ ↦ ⟨h, rfl, rfl⟩) fun _ ↦ ?_
      refine Outcome.Holds.bind (Inserting.flush (h.of_nodes ?_ ?_ ?_)) fun s' hs' ↦ ?_
      · exact rfl
      · exact rfl
      · exact fun _ hid ↦ hid
      · exact Outcome.holds_pure.mpr hs'
    · exact ⟨h, rfl, rfl⟩
  · exact ⟨h, rfl, rfl⟩

theorem scheduleNode_inserting (h : Inserting rows s)
    (hpending : statusOf s.nodeRuns id = some .pending) :
    Outcome.Holds (scheduleNode env now s id) (fun r ↦ ∀ s', r = some s' → QueuesNew rows id s s')
      NotDuplicate := by
  unfold scheduleNode
  split
  · next n node hn hnode =>
    obtain rfl : node.id = id := (s.run.graph.node?_eq_some_iff.mp hnode).2
    refine Outcome.Holds.ite (fun _ ↦ Outcome.holds_pure.mpr (by simp)) fun htask ↦ ?_
    have hnew : node.id ∉ rows.map ExecutionTask.nodeRunId := by
      intro hmem
      rw [taskOfNode, Table.find?_isSome_iff, h.tasks_eq, List.map_append] at htask
      exact htask (List.mem_append_left _ hmem)
    dsimp only
    split
    · exact Outcome.holds_pure.mpr (by simp)
    · refine Outcome.Holds.bind (enqueue_inserting h hpending hnew) fun s₁ hs₁ ↦ Outcome.holds_pure.mpr ?_
      rintro s' ⟨⟩
      exact hs₁
    · next target input hdispatch =>
      -- writing the input keeps every status
      have hstatus (id' : NodeId) :
          statusOf (Table.modify NodeRun.nodeId node.id
            (fun r ↦ { r with input := env.sanitizeOutput (.obj input) }) s.nodeRuns) id' =
            statusOf s.nodeRuns id' := by
        apply statusOf_modify_kept
        exact fun _ ↦ ⟨rfl, rfl⟩
      refine Outcome.Holds.bind (attachWorkspace_inserting (h.of_nodes ?_ ?_ ?_)) ?_
      · exact rfl
      · exact rfl
      · exact fun id' hid' ↦ (hstatus id').symm.trans hid'
      rintro ⟨s₁, payload⟩ ⟨hinserting, hrun, hnodes⟩
      have hpending₁ : statusOf s₁.nodeRuns node.id = some .pending := by
        rw [hnodes]
        exact (hstatus node.id).trans hpending
      refine Outcome.Holds.bind (enqueue_inserting hinserting hpending₁ hnew) fun s₂ hs₂ ↦
        Outcome.holds_pure.mpr ?_
      rintro s' ⟨⟩
      refine ⟨hs₂.inserting, hs₂.run.trans hrun, fun id' hne ↦ ?_⟩
      rw [hs₂.others id' hne, hnodes]
      exact hstatus id'
  · exact Outcome.holds_pure.mpr (by simp)

/-- What scheduling leaves. -/
def Inserted (rows : List ExecutionTask) (s s' : Session) : Prop :=
  Inserting rows s' ∧ s'.run = s.run

theorem scheduleLoop_inserted (ids : List NodeId) (h : Inserting rows s) (hnodup : ids.Nodup)
    (hpending : ∀ id ∈ ids, statusOf s.nodeRuns id = some .pending) :
    Outcome.Holds (scheduleLoop env now s ids) (Inserted rows s) NotDuplicate := by
  induction ids generalizing s with
  | nil => exact ⟨h, rfl⟩
  | cons id ids ih =>
      obtain ⟨hnotMem, hnodup⟩ := List.nodup_cons.mp hnodup
      refine Outcome.Holds.bind (scheduleNode_inserting h (hpending id (by simp))) fun r hr ↦ ?_
      cases r with
      | none => exact ih h hnodup fun id' hid' ↦ hpending id' (by simp [hid'])
      | some s₁ =>
          have hturn := hr s₁ rfl
          refine (ih hturn.inserting hnodup fun id' hid' ↦ ?_).weaken fun s' hs' ↦ ?_
          · rw [hturn.others id' fun heq ↦ hnotMem (heq ▸ hid')]
            exact hpending id' (by simp [hid'])
          · exact ⟨hs'.1, hs'.2.trans hturn.run⟩

theorem scheduleReadyNodes_inserted (h : Inserting rows s) :
    Outcome.Holds (scheduleReadyNodes env now s) (Inserted rows s) NotDuplicate := by
  refine Outcome.Holds.ite (fun _ ↦ ⟨h, rfl⟩) fun _ ↦ ?_
  refine scheduleLoop_inserted _ (skipInactive_inserting h) ?_ fun id hid ↦ ?_
  · exact (skipInactive now s).run.graph.nodeIds_nodup.filter _
  · exact (isReady_iff.mp (mem_readyNodes.mp hid).2).1

/-! ## Reconciliation -/

theorem promoteDueWaits_inserted (h : Inserting rows s) :
    Outcome.Holds (promoteDueWaits env now s) (Inserted rows s) NotDuplicate := by
  refine Outcome.Holds.ite (fun _ ↦ trivial) fun _ ↦ Outcome.holds_pure.mpr ⟨?_, rfl⟩
  refine h.of_nodes rfl rfl fun id hid ↦ ?_
  unfold statusOf findNodeRun at hid ⊢
  have hkey (n : NodeRun) : (promoteWait env now n).nodeId = n.nodeId := by
    unfold promoteWait
    split <;> rfl
  rw [Table.find?_map hkey, Option.map_map] at hid
  cases hn : Table.find? NodeRun.nodeId id s.nodeRuns with
  | none => simp [hn] at hid
  | some n =>
      simp only [hn, Option.map_some, Function.comp_apply, promoteWait] at hid
      split at hid
      · simp at hid
      · exact hid

theorem reconcileDerive_inserted (h : Inserting rows s) :
    Outcome.Holds (reconcileDerive env now s) (fun p ↦ Inserting rows p.2) NotDuplicate := by
  refine Outcome.Holds.bind (promoteDueWaits_inserted h) fun s₁ h₁ ↦ ?_
  refine Outcome.Holds.bind (scheduleReadyNodes_inserted h₁.1) fun s₂ h₂ ↦ ?_
  refine Outcome.Holds.ite (fun _ ↦ h₂.1) fun _ ↦ ?_
  refine Outcome.Holds.bind notDuplicate_lift fun _ _ ↦ Outcome.holds_pure.mpr ?_
  exact h₂.1.of_nodes rfl rfl fun _ hid ↦ hid

/-- The inserted tasks are for different nodes that have none in `rows`. -/
structure InsertsNew (rows : List ExecutionTask) (s : Session) : Prop where
  nodup : (insertedNodes rows s).Nodup
  new : ∀ id ∈ insertedNodes rows s, id ∉ rows.map ExecutionTask.nodeRunId

theorem Inserting.insertsNew (h : Inserting rows s) : InsertsNew rows s :=
  ⟨h.nodup, h.new⟩

theorem InsertsNew.of_none (h : insertedNodes rows s = []) : InsertsNew rows s := by
  refine ⟨?_, ?_⟩ <;> simp [h]

theorem insertedNodes_relock {view : View} {n : ℕ} (hn : rows.length = n)
    (htasks : (view.tasks.getD (s.tasks.take n)).length = n) :
    insertedNodes rows (view.relock n s) = insertedNodes rows s := by
  simp only [insertedNodes, View.relock, hn]
  rw [List.drop_left' htasks]

theorem insertedNodes_cancelRunTasks :
    insertedNodes rows (cancelRunTasks now s) = insertedNodes rows s := by
  simp only [insertedNodes, cancelRunTasks, List.map_append, List.map_drop, List.map_map]
  congr 2
  exact List.map_congr_left fun t _ ↦ cancelTask_nodeRunId t

theorem workflowEvent_rows (derived : WorkflowRunStatus) (reason : Option String) :
    (workflowEvent s derived reason).tasks = s.tasks ∧
      (workflowEvent s derived reason).added = s.added ∧
        (workflowEvent s derived reason).nodeRuns = s.nodeRuns := by
  unfold workflowEvent
  split <;> exact ⟨rfl, rfl, rfl⟩

theorem insertedNodes_recordDerived {current derived : WorkflowRunStatus} :
    insertedNodes rows (recordDerived now current derived s) = insertedNodes rows s := by
  have hevent (s : Session) (reason : Option String) :
      insertedNodes rows (workflowEvent s derived reason) = insertedNodes rows s := by
    obtain ⟨htasks, hadded, -⟩ := @workflowEvent_rows s derived reason
    rw [insertedNodes, insertedNodes, htasks, hadded]
  unfold recordDerived
  split
  · rfl
  · dsimp only
    rw [hevent]
    split
    · exact insertedNodes_cancelRunTasks
    · rfl

theorem recordDerived_inserting {current derived : WorkflowRunStatus} (h : Inserting rows s)
    (hderived : derived ≠ .failed) : Inserting rows (recordDerived now current derived s) := by
  unfold recordDerived
  split
  · exact h
  · dsimp only
    obtain ⟨htasks, hadded, hnodes⟩ := @workflowEvent_rows s derived (waitingReason s.nodeRuns)
    exact h.of_nodes htasks hadded fun id hid ↦ hnodes ▸ hid

theorem reconcileFinish_insertsNew {current derived : WorkflowRunStatus} (h : Inserting rows s)
    (hderived : derived ≠ .failed) :
    Outcome.Holds (reconcileFinish env now current derived s) (InsertsNew rows) NotDuplicate := by
  have hrecorded : Inserting rows (recordDerived now current derived s) :=
    recordDerived_inserting h hderived
  refine Outcome.Holds.ite (fun _ ↦ ?_) fun _ ↦ ?_
  · refine Outcome.Holds.bind (scheduleReadyNodes_inserted hrecorded) fun s' hs' ↦ ?_
    exact Outcome.holds_pure.mpr ⟨hs'.1.nodup, hs'.1.new⟩
  · exact Outcome.holds_pure.mpr ⟨hrecorded.nodup, hrecorded.new⟩

/-- The statuses that a reconciliation leaves alone. -/
def WorkflowRunStatus.frozen (status : WorkflowRunStatus) : Bool :=
  status.isTerminal ∨ status = .paused

/-- A reconciliation of locked rows, as `reconcileRun_ok` says it of a session. -/
theorem reconcileOn_ok {view : View} {rows : RunRecord} {s' : Session}
    (h : reconcileOn env now view rows = .ok s') :
    rows.run.status = .cancelled ∨
      (rows.run.status = .completed ∨ rows.run.status = .failed ∨ rows.run.status = .paused) ∧
        s' = { rows with } ∨
      (rows.run.status = .created ∨ rows.run.status = .running ∨ rows.run.status = .waiting) ∧
        ∃ derived s₁, reconcileDerive env now { rows with } = .ok (derived, s₁) ∧
          reconcileFinish env now rows.run.status derived
            (if derived = .failed then view.relock rows.tasks.length s₁ else s₁) = .ok s' := by
  unfold reconcileOn at h
  cases hstatus : rows.run.status with
  | cancelled => exact .inl rfl
  | completed | failed | paused =>
      simp only [hstatus] at h
      cases h
      exact .inr (.inl ⟨by simp, rfl⟩)
  | created | running | waiting =>
      simp only [hstatus] at h
      obtain ⟨⟨derived, s₁⟩, hderive, h⟩ := Outcome.bind_eq_ok_iff.mp h
      exact .inr (.inr ⟨by simp, derived, s₁, hderive, h⟩)

/-- The status that a reconciliation gives an active run. -/
theorem reconcileOn_status {view : View} (hactive : db.run.status.frozen = false)
    (h : reconcileOn env now view db = .ok s') :
    ∃ promoted scheduled, promoteDueWaits env now { db with } = .ok promoted ∧
      scheduleReadyNodes env now promoted = .ok scheduled ∧
        s'.run.status =
          deriveWorkflowState scheduled.run.graph.toWorkflowGraph scheduled.nodeRuns := by
  have hfinish {s₁ : Session} {derived : WorkflowRunStatus} (hs₁ : Inserting db.tasks s₁)
      (h : reconcileFinish env now db.run.status derived
        (if derived = .failed then view.relock db.tasks.length s₁ else s₁) = .ok s') :
      s'.run.status = s₁.run.status := by
    obtain ⟨s₂, rfl, hs₂⟩ := reconcileFinish_ok h
    by_cases hfailed : derived = .failed
    · subst hfailed
      rcases hs₂ with ⟨-, rfl⟩ | ⟨hrunning, -⟩
      · rw [recordDerived_run]
        rfl
      · cases hrunning
    · rw [if_neg hfailed] at hs₂
      rcases hs₂ with ⟨-, rfl⟩ | ⟨-, hschedule⟩
      · rw [recordDerived_run]
      · have hrun := ((scheduleReadyNodes_inserted
          (recordDerived_inserting hs₁ hfailed)).of_ok hschedule).2
        rw [recordDerived_run] at hrun
        have hstatus : s₂.run.status = s₁.run.status := congrArg WorkflowRun.status hrun
        exact hstatus
  rcases reconcileOn_ok h with hstatus | ⟨hstatus | hstatus | hstatus, -⟩ |
    ⟨-, derived, s₁, hderived, h⟩
  · rw [hstatus] at hactive
    cases hactive
  · rw [hstatus] at hactive
    cases hactive
  · rw [hstatus] at hactive
    cases hactive
  · rw [hstatus] at hactive
    cases hactive
  · have hs₁ := (reconcileDerive_inserted (.start db)).of_ok hderived
    obtain ⟨promoted, scheduled, _, hpromote, hschedule, heq, -, -, rfl⟩ :=
      reconcileDerive_ok hderived
    refine ⟨promoted, scheduled, hpromote, hschedule, ?_⟩
    rw [hfinish hs₁ h]
    exact heq

theorem reconcileOn_insertsNew {view : View}
    (htasks : ∀ ts, view.tasks = some ts → ts.length = db.tasks.length) :
    Outcome.Holds (reconcileOn env now view db) (InsertsNew db.tasks) NotDuplicate := by
  have hlocked {s : Session} (hs : db.tasks.length ≤ s.tasks.length) :
      (view.tasks.getD (s.tasks.take db.tasks.length)).length = db.tasks.length := by
    cases hview : view.tasks with
    | none => exact List.length_take_of_le hs
    | some ts => exact htasks ts hview
  have hkept : insertedNodes db.tasks { db with } = [] := by simp [insertedNodes]
  unfold reconcileOn
  dsimp only
  split
  · refine Outcome.holds_pure.mpr (.of_none ?_)
    rw [insertedNodes_cancelRunTasks, insertedNodes_relock rfl (hlocked (Nat.le_refl _))]
    exact hkept
  · exact Outcome.holds_pure.mpr (.of_none hkept)
  · exact Outcome.holds_pure.mpr (.of_none hkept)
  · exact Outcome.holds_pure.mpr (.of_none hkept)
  · refine Outcome.Holds.bind (reconcileDerive_inserted (.start db)) ?_
    rintro ⟨derived, s⟩ hs
    have hlength : db.tasks.length ≤ s.tasks.length := by
      rw [hs.tasks_eq, List.length_append]
      omega
    by_cases hfailed : derived = .failed
    · subst hfailed
      refine Outcome.holds_pure.mpr ?_
      have hinserted : insertedNodes db.tasks (recordDerived now db.run.status .failed
          (view.relock db.tasks.length s)) = insertedNodes db.tasks s := by
        rw [insertedNodes_recordDerived, insertedNodes_relock rfl (hlocked hlength)]
      refine ⟨?_, ?_⟩
      · exact hinserted.symm ▸ hs.nodup
      · exact hinserted.symm ▸ hs.new
    · dsimp only
      rw [if_neg hfailed]
      exact reconcileFinish_insertsNew hs hfailed

end Relayvia
