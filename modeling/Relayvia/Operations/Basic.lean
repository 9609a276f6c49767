import Relayvia.Evolution

/-!
# Specifications of the shared helpers

What the checked transitions and the NodeRun helpers do in a coupled state, and
the rule for an operation that changes one task and its NodeRun.
-/

namespace Relayvia

/-- The exceptions that a coupled state excludes: an illegal NodeRun transition
and a second task for a NodeRun. -/
def StatusFault : Raised → Prop
  | .relayvia e => e.code = "INVALID_NODE_RUN_TRANSITION"
  | .integrityError _ => True
  | .artifactError _ | .typeError => False

/-- The computation keeps `post` and raises no status fault. -/
abbrev Sound {α : Type} (x : Except Raised α) (post : α → Prop) : Prop :=
  Outcome.Holds x post fun e ↦ ¬StatusFault e

/-- What holds of the values that a computation returns. -/
abbrev Returns {α : Type} (x : Except Raised α) (post : α → Prop) : Prop :=
  Outcome.Holds x post fun _ ↦ True

theorem returns_any {α : Type} (x : Except Raised α) : Returns x fun _ ↦ True :=
  Outcome.holds_of_forall (fun _ _ ↦ trivial) fun _ _ ↦ trivial

theorem Sound.returns {α : Type} {x : Except Raised α} {post : α → Prop} (h : Sound x post) :
    Returns x post :=
  h.mono (fun _ h ↦ h) fun _ _ ↦ trivial

/-! ## Checked transitions -/

theorem holds_liftM {α : Type} {x : Except RelayviaError α} {post : α → Prop}
    {raises : Raised → Prop} (h : Outcome.Holds x post fun e ↦ raises (.relayvia e)) :
    Outcome.Holds (liftM x : Except Raised α) post raises :=
  Outcome.Holds.lift h

theorem liftM_transitionNodeRun {s target : NodeRunStatus} (h : target ∈ s.transitions) :
    (liftM (transitionNodeRun s target) : Except Raised Unit) = .ok () := by
  rw [transitionNodeRun_ok_iff.mpr h]
  rfl

theorem transitionExecutionTask_sound {s target : ExecutionTaskStatus} :
    Sound (liftM (transitionExecutionTask s target)) fun _ ↦ target ∈ s.transitions := by
  refine holds_liftM (Outcome.holds_of_forall (fun _ h ↦ transitionExecutionTask_ok_iff.mp h) ?_)
  intro e he
  unfold transitionExecutionTask checkTransition at he
  split at he
  · cases he
  · cases he
    simp [StatusFault, invalidTransition]

theorem transitionWorkflowRun_sound {s target : WorkflowRunStatus} :
    Sound (liftM (transitionWorkflowRun s target)) fun _ ↦ target ∈ s.transitions := by
  refine holds_liftM (Outcome.holds_of_forall (fun _ h ↦ transitionWorkflowRun_ok_iff.mp h) ?_)
  intro e he
  unfold transitionWorkflowRun checkTransition at he
  split at he
  · cases he
  · cases he
    simp [StatusFault, invalidTransition]

/-! ## Updates of one row -/

namespace RunRecord

variable (db : RunRecord)

@[simp] theorem modifyNode_run (id : NodeId) (f : NodeRun → NodeRun) :
    (db.modifyNode id f).run = db.run := rfl

@[simp] theorem modifyNode_tasks (id : NodeId) (f : NodeRun → NodeRun) :
    (db.modifyNode id f).tasks = db.tasks := rfl

@[simp] theorem modifyNode_nodeRuns (id : NodeId) (f : NodeRun → NodeRun) :
    (db.modifyNode id f).nodeRuns = Table.modify NodeRun.nodeId id f db.nodeRuns := rfl

@[simp] theorem modifyTask_run (id : TaskId) (f : ExecutionTask → ExecutionTask) :
    (db.modifyTask id f).run = db.run := rfl

@[simp] theorem modifyTask_nodeRuns (id : TaskId) (f : ExecutionTask → ExecutionTask) :
    (db.modifyTask id f).nodeRuns = db.nodeRuns := rfl

@[simp] theorem modifyTask_tasks (id : TaskId) (f : ExecutionTask → ExecutionTask) :
    (db.modifyTask id f).tasks = Table.modify ExecutionTask.id id f db.tasks := rfl

@[simp] theorem recordEvent_run (e : RunEvent) : (db.recordEvent e).run = db.run := rfl

@[simp] theorem recordEvent_nodeRuns (e : RunEvent) :
    (db.recordEvent e).nodeRuns = db.nodeRuns := rfl

@[simp] theorem recordEvent_tasks (e : RunEvent) : (db.recordEvent e).tasks = db.tasks := rfl

@[simp] theorem modifyWorkspace_run (id : String) (f : Workspace → Workspace) :
    (db.modifyWorkspace id f).run = db.run := rfl

@[simp] theorem modifyWorkspace_nodeRuns (id : String) (f : Workspace → Workspace) :
    (db.modifyWorkspace id f).nodeRuns = db.nodeRuns := rfl

@[simp] theorem modifyWorkspace_tasks (id : String) (f : Workspace → Workspace) :
    (db.modifyWorkspace id f).tasks = db.tasks := rfl

theorem modifyNode_modifyNode (id : NodeId) (f g : NodeRun → NodeRun)
    (hf : ∀ r, (f r).nodeId = r.nodeId) :
    (db.modifyNode id f).modifyNode id g = db.modifyNode id fun r ↦ g (f r) :=
  congrArg (fun rows ↦ { db with nodeRuns := rows }) (Table.modify_modify hf id db.nodeRuns)

end RunRecord

variable {R : Rights} {db db' : RunRecord} {id : NodeId} {n : NodeRun}
  {t : ExecutionTask} {target : NodeRunStatus}

theorem statusOf_eq (hn : findNodeRun db.nodeRuns id = some n) :
    statusOf db.nodeRuns id = some n.status := by
  simp [statusOf, hn]

theorem advanceNode_sound {f : NodeRun → NodeRun} (hn : findNodeRun db.nodeRuns id = some n)
    (hlegal : target ∈ n.status.transitions) :
    Sound (advanceNode db id target f) fun db' ↦
      db' = db.modifyNode id fun r ↦ { f r with status := target } := by
  simp only [advanceNode, hn, liftM_transitionNodeRun hlegal]
  exact Outcome.holds_ok.mpr rfl

/-- `nodeStatus` sets the status, also where the NodeRun already has it. -/
theorem nodeStatus_sound (hnodup : (db.nodeRuns.map NodeRun.nodeId).Nodup)
    (hn : findNodeRun db.nodeRuns id = some n)
    (hlegal : n.status = target ∨ target ∈ n.status.transitions) :
    Sound (nodeStatus db id target) fun db' ↦
      db' = db.modifyNode id fun r ↦ { r with status := target } := by
  unfold nodeStatus
  rw [statusOf_eq hn]
  split
  · next hsame =>
    cases hsame
    have hrows := Table.modify_congr (f := fun r ↦ { r with status := n.status }) (g := fun r ↦ r)
      hnodup hn rfl
    rw [Table.modify_id] at hrows
    exact congrArg (fun rows ↦ { db with nodeRuns := rows }) hrows.symm
  · next hother =>
    rcases hlegal with hsame | hlegal
    · exact absurd (congrArg some hsame) hother
    · exact advanceNode_sound hn hlegal

theorem advanceOpenNode_sound {f : NodeRun → NodeRun} (hn : findNodeRun db.nodeRuns id = some n)
    (hopen : n.status.isTerminal = false) (hlegal : target ∈ n.status.transitions) :
    Sound (advanceOpenNode db id target f) fun db' ↦
      db' = db.modifyNode id fun r ↦ { f r with status := target } := by
  simp only [advanceOpenNode, statusOf_eq hn, Option.any_some, hopen]
  exact advanceNode_sound hn hlegal

theorem NodeRunStatus.cancelled_mem_transitions {s : NodeRunStatus} (hs : s.isTerminal = false) :
    NodeRunStatus.cancelled ∈ s.transitions := by
  cases s <;> simp_all [NodeRunStatus.isTerminal, NodeRunStatus.transitions]

/-! ## One cell -/

/-- The rows of tasks and NodeRuns do not depend on workspaces and events. -/
theorem Evolves.congr {db'' : RunRecord} (h : Evolves R db db')
    (hrun : db''.run = db'.run) (hnodes : db''.nodeRuns = db'.nodeRuns)
    (htasks : db''.tasks = db'.tasks) : Evolves R db db'' where
  run := hrun.trans h.run
  keyed :=
    { nodeIds := by rw [hnodes, hrun, h.keyed.nodeIds]
      kinds := by
        rw [hnodes, hrun]
        exact h.keyed.kinds
      taskIds := by rw [htasks, h.keyed.taskIds]
      taskNodes := by
        rw [htasks]
        exact h.keyed.taskNodes
      taskClosed := by
        rw [htasks, hrun]
        exact h.keyed.taskClosed }
  cell := by
    rw [hnodes, htasks]
    exact h.cell

namespace Keyed

/-- Updating the rows of one cell keeps the keys. -/
theorem update (h : Keyed db) (hn : findNodeRun db.nodeRuns id = some n) {tid : TaskId}
    {fn : NodeRun → NodeRun} {ft : ExecutionTask → ExecutionTask}
    (hid : ∀ r, (fn r).nodeId = r.nodeId) (htype : (fn n).nodeType = n.nodeType)
    (hsubtype : (fn n).nodeSubtype = n.nodeSubtype) (htid : ∀ r, (ft r).id = r.id)
    (htnode : ∀ r, (ft r).nodeRunId = r.nodeRunId) (hrun : db'.run = db.run)
    (hnodes : db'.nodeRuns = Table.modify NodeRun.nodeId id fn db.nodeRuns)
    (htasks : db'.tasks = Table.modify ExecutionTask.id tid ft db.tasks) : Keyed db' where
  nodeIds := by rw [hnodes, hrun, Table.map_key_modify hid, h.nodeIds]
  kinds := by
    rw [hnodes, hrun]
    intro r hr
    rcases Table.mem_modify.mp hr with ⟨r', hr', hkey, rfl⟩ | ⟨hr, -⟩
    · have heq : r' = n :=
        Option.some.inj ((h.findNodeRun_eq_some_iff.mpr ⟨hr', hkey⟩).symm.trans hn)
      subst heq
      rw [hid, htype, hsubtype]
      exact h.kinds r' hr'
    · exact h.kinds r hr
  taskIds := by
    rw [htasks, Table.map_key_modify htid, h.taskIds]
    simp [Table.modify]
  taskNodes := by
    have hmap : (Table.modify ExecutionTask.id tid ft db.tasks).map ExecutionTask.nodeRunId =
        db.tasks.map ExecutionTask.nodeRunId :=
      Table.map_key_map (fun r ↦ by split <;> simp [htnode]) db.tasks
    rw [htasks, hmap]
    exact h.taskNodes
  taskClosed := by
    rw [htasks, hrun]
    intro r hr
    rcases Table.mem_modify.mp hr with ⟨r', hr', -, rfl⟩ | ⟨hr, -⟩
    · rw [htnode]
      exact h.taskClosed r' hr'
    · exact h.taskClosed r hr

end Keyed

/-- A move of a cell whose NodeRun is past PENDING. -/
theorem CellStep.of_move {n n' : NodeRun} {t t' : ExecutionTask} (hid : n'.nodeId = n.nodeId)
    (htype : n'.nodeType = n.nodeType) (hsubtype : n'.nodeSubtype = n.nodeSubtype)
    (htask : t'.id = t.id ∧ t'.requiredCapability = t.requiredCapability)
    (hholder : t'.lockedBy = none ∨ (t'.lockedBy = t.lockedBy ∧ t'.leaseToken = t.leaseToken) ∨
      ∃ party token, t'.lockedBy = some party ∧ t'.leaseToken = some token ∧
        R.grant t'.id party token)
    (hmove : Move (n.status, some t.status) (n'.status, some t'.status))
    (hpending : n.status ≠ .pending) (hcancel : n'.status ≠ .cancelled)
    (houtput : n'.output = n.output ∨ n'.status = .completed ∧ n.status ≠ .completed)
    (hreported : n.status = .running →
      n'.status = .completed ∨ n'.status = .failed ∨ n'.status = .waiting → R.report n')
    (hresolved : n.status = .waiting → R.resolve)
    (hlease : t'.status.isQueued = true → t'.lockedBy = none)
    (hrejected : n'.status = .failed → t'.status = .completed → n'.error = rejection.error) :
    CellStep R db n (some t) n' (some t') where
  nodeId := hid
  nodeType := htype
  nodeSubtype := hsubtype
  move := .inr hmove
  output := houtput
  queued h := absurd h hpending
  skipped h := absurd h hpending
  cancelled h := absurd h hcancel
  reported := hreported
  resolved h _ := hresolved h
  rejected h := by
    rintro ⟨u', hu', hstatus⟩
    cases hu'
    exact .inr (hrejected h hstatus)
  taskId u u' hu hu' := by
    cases hu
    cases hu'
    exact htask.1
  lease u' hu' h := by
    cases hu'
    exact .inl (hlease h)
  holder u' hu' := by
    cases hu'
    rcases hholder with h | ⟨hlocked, htoken⟩ | h
    · exact .inl h
    · exact .inr (.inl ⟨t, rfl, hlocked.symm, htoken.symm⟩)
    · exact .inr (.inr h)
  capability u' hu' h := by
    cases hu'
    exact .inl ⟨t, rfl, by rwa [← htask.2]⟩

/-- An operation that updates one task and its NodeRun. -/
theorem Evolves.of_update (hc : Coupled db) (ht : t ∈ db.tasks)
    (hn : findNodeRun db.nodeRuns t.nodeRunId = some n)
    {fn : NodeRun → NodeRun} {ft : ExecutionTask → ExecutionTask} (hrun : db'.run = db.run)
    (hnodes : db'.nodeRuns = Table.modify NodeRun.nodeId t.nodeRunId fn db.nodeRuns)
    (htasks : db'.tasks = Table.modify ExecutionTask.id t.id ft db.tasks)
    (hid : ∀ r, (fn r).nodeId = r.nodeId) (htid : ∀ r, (ft r).id = r.id)
    (htnode : ∀ r, (ft r).nodeRunId = r.nodeRunId)
    (hstep : CellStep R db n (some t) (fn n) (some (ft t))) : Evolves R db db' where
  run := hrun
  keyed := hc.update hn hid hstep.nodeType hstep.nodeSubtype htid htnode hrun hnodes htasks
  cell id n' hn' := by
    rw [Table.modify_eq_modify hc.taskIds_nodup hc.taskNodes ht] at htasks
    have htask : taskOfNode db.tasks t.nodeRunId = some t := Table.find?_of_mem hc.taskNodes ht
    have hnode' : findNodeRun db'.nodeRuns id =
        if id = t.nodeRunId then (findNodeRun db.nodeRuns t.nodeRunId).map fn
        else findNodeRun db.nodeRuns id := by
      rw [hnodes]
      exact Table.find?_modify hid _ _ _
    have htask' : taskOfNode db'.tasks id =
        if id = t.nodeRunId then (taskOfNode db.tasks t.nodeRunId).map ft
        else taskOfNode db.tasks id := by
      rw [htasks]
      exact Table.find?_modify htnode _ _ _
    rw [hnode', htask']
    by_cases hcell : id = t.nodeRunId
    · subst hcell
      rw [hn] at hn'
      cases hn'
      exact ⟨fn n, by simp [hn], by simpa [htask] using hstep⟩
    · exact ⟨n', by simp [hcell, hn'], by simpa [hcell] using CellStep.refl n' _⟩

/-- An operation that updates every NodeRun alike and keeps the keys of the tasks. -/
theorem Evolves.of_rows (hk : Keyed db) {fn : NodeRun → NodeRun} (hrun : db'.run = db.run)
    (hnodes : db'.nodeRuns = db.nodeRuns.map fn)
    (hids : db'.tasks.map ExecutionTask.id = db.tasks.map ExecutionTask.id)
    (htnodes : db'.tasks.map ExecutionTask.nodeRunId = db.tasks.map ExecutionTask.nodeRunId)
    (hid : ∀ r, (fn r).nodeId = r.nodeId)
    (hstep : ∀ n ∈ db.nodeRuns, CellStep R db n (taskOfNode db.tasks n.nodeId) (fn n)
      (taskOfNode db'.tasks n.nodeId)) : Evolves R db db' where
  run := hrun
  keyed :=
    { nodeIds := by rw [hnodes, hrun, Table.map_key_map hid, hk.nodeIds]
      kinds := by
        rw [hnodes, hrun]
        intro n' hn'
        obtain ⟨n, hn, rfl⟩ := List.mem_map.mp hn'
        rw [hid, (hstep n hn).nodeType, (hstep n hn).nodeSubtype]
        exact hk.kinds n hn
      taskIds := by
        have hlength := congrArg List.length hids
        rw [List.length_map, List.length_map] at hlength
        rw [hids, hk.taskIds, hlength]
      taskNodes := by
        rw [htnodes]
        exact hk.taskNodes
      taskClosed := by
        intro t' ht'
        have hmem : t'.nodeRunId ∈ db'.tasks.map ExecutionTask.nodeRunId := List.mem_map_of_mem ht'
        rw [htnodes] at hmem
        obtain ⟨t, ht, heq⟩ := List.mem_map.mp hmem
        rw [← heq, hrun]
        exact hk.taskClosed t ht }
  cell id n hn := by
    obtain ⟨hmem, rfl⟩ := hk.findNodeRun_eq_some_iff.mp hn
    refine ⟨fn n, ?_, hstep n hmem⟩
    rw [hnodes]
    exact (Table.find?_map hid _ _).trans (congrArg (Option.map fn) hn)

/-- The NodeRun of a task, with the coupling of the two. -/
theorem Coupled.cell_of_task (hc : Coupled db) {tid : TaskId}
    (ht : findTask db.tasks tid = some t) :
    ∃ n, findNodeRun db.nodeRuns t.nodeRunId = some n ∧ t ∈ db.tasks ∧ t.id = tid ∧
      Coupling n.isInput (n.status, some t.status) := by
  obtain ⟨hmem, hid⟩ := hc.findTask_eq_some_iff.mp ht
  obtain ⟨n, hn⟩ := hc.exists_nodeRun (hc.taskClosed t hmem)
  have hcoupling := hc.coupling _ n hn
  rw [cellStatus, hc.taskOfNode_eq_some_iff.mpr ⟨hmem, rfl⟩] at hcoupling
  exact ⟨n, hn, hmem, hid, hcoupling⟩

end Relayvia
