import Mathlib.Logic.Relation
import Relayvia.System

/-!
# What one transaction can do

A NodeRun and its ExecutionTask form a cell.  Every transaction is a sequence of
small steps: either some cells move, each along one edge of `Move`, or the run
row changes its status.  Invariants of runs are proved on these steps.
-/

namespace Relayvia

/-! ## Cells -/

/-- The statuses of a NodeRun and of its task. -/
abbrev CellStatus := NodeRunStatus × Option ExecutionTaskStatus

/-- The moves of a cell. -/
inductive Move : CellStatus → CellStatus → Prop
  | queue : Move (.pending, none) (.queued, some .pending)
  | skip : Move (.pending, none) (.skipped, none)
  | claim {s : NodeRunStatus} : Move (s, some .pending) (s, some .claimed)
  | launch {s : NodeRunStatus} {t : ExecutionTaskStatus} (ht : t = .pending ∨ t = .claimed) :
      Move (s, some t) (.running, some .running)
  | release {s : NodeRunStatus} {t : ExecutionTaskStatus} (ht : t = .claimed ∨ t = .running) :
      Move (s, some t) (s, some .pending)
  | complete : Move (.running, some .running) (.completed, some .completed)
  | fail : Move (.running, some .running) (.failed, some .failed)
  | wait : Move (.running, some .running) (.waiting, some .completed)
  | retry : Move (.running, some .running) (.retrying, some .retryWait)
  | requeue : Move (.retrying, some .retryWait) (.queued, some .pending)
  | resolve : Move (.waiting, some .completed) (.completed, some .completed)
  | reject : Move (.waiting, some .completed) (.failed, some .completed)
  | cancelTask {s : NodeRunStatus} {t : ExecutionTaskStatus} (ht : t.isTerminal = false) :
      Move (s, some t) (.cancelled, some .cancelled)
  | cancelIdle : Move (.pending, none) (.cancelled, none)
  | cancelWaiting : Move (.waiting, some .completed) (.cancelled, some .completed)

/-- The coupling of a NodeRun and its task.  `born` says that the NodeRun is the
Data Input, the only one that completes without a task. -/
def Coupling (born : Bool) : CellStatus → Prop
  | (s, none) => s = .pending ∨ s = .skipped ∨ s = .cancelled ∨ (born = true ∧ s = .completed)
  | (s, some .pending) | (s, some .claimed) => s = .queued ∨ s = .running
  | (s, some .running) => s = .running
  | (s, some .retryWait) => s = .retrying
  | (s, some .completed) => s = .completed ∨ s = .waiting ∨ s = .failed ∨ s = .cancelled
  | (s, some .failed) => s = .failed
  | (s, some .cancelled) => s = .cancelled

/-- Every move keeps the coupling. -/
theorem Move.coupling {born : Bool} {c c' : CellStatus} (hmove : Move c c')
    (hc : Coupling born c) : Coupling born c' := by
  cases hmove with
  | claim => exact hc
  | release ht =>
      rcases ht with rfl | rfl
      · exact hc
      · exact .inr hc
  | _ => simp [Coupling]

/-- The NodeRun of a live task is not terminal. -/
theorem Coupling.open_of_live {born : Bool} {s : NodeRunStatus} {t : ExecutionTaskStatus}
    (hc : Coupling born (s, some t)) (ht : t.isTerminal = false) : s.isTerminal = false := by
  cases t with
  | pending | claimed => rcases hc with rfl | rfl <;> rfl
  | running | retryWait =>
      cases hc
      rfl
  | completed | failed | cancelled => cases ht

/-- An open NodeRun whose task has ended waits. -/
theorem Coupling.waiting_of_open {born : Bool} {s : NodeRunStatus} {t : ExecutionTaskStatus}
    (hc : Coupling born (s, some t)) (hs : s.isTerminal = false) (ht : t.isTerminal = true) :
    s = .waiting := by
  cases t with
  | pending | claimed | running | retryWait => cases ht
  | completed => rcases hc with rfl | rfl | rfl | rfl <;> first | rfl | cases hs
  | failed | cancelled =>
      cases hc
      cases hs

/-- A cell whose NodeRun is terminal does not move. -/
theorem Move.open_of_coupling {born : Bool} {c c' : CellStatus} (hmove : Move c c')
    (hc : Coupling born c) : c.1.isTerminal = false := by
  cases hmove with
  | claim => exact hc.open_of_live rfl
  | launch ht | release ht => exact hc.open_of_live (by rcases ht with rfl | rfl <;> rfl)
  | cancelTask ht => exact hc.open_of_live ht
  | _ => rfl

/-- An open NodeRun gets its result while it runs or waits. -/
theorem Move.of_result {c c' : CellStatus} (hmove : Move c c') (hopen : c.1.isTerminal = false)
    (hresult : c'.1 = .completed ∨ c'.1 = .failed) : c.1 = .running ∨ c.1 = .waiting := by
  cases hmove with
  | claim | release =>
      rcases hresult with rfl | rfl <;> cases hopen
  | complete | fail => exact .inl rfl
  | resolve | reject => exact .inr rfl
  | _ => rcases hresult with h | h <;> cases h

/-- A terminal task keeps its status. -/
theorem Move.task_terminal {c c' : CellStatus} {t : ExecutionTaskStatus} (hmove : Move c c')
    (ht : c.2 = some t) (hterminal : t.isTerminal = true) : c'.2 = some t := by
  cases hmove with
  | queue | skip | cancelIdle => cases ht
  | resolve | reject | cancelWaiting => exact ht
  | launch h | release h =>
      cases ht
      rcases h with rfl | rfl <;> cases hterminal
  | cancelTask h =>
      cases ht
      simp [h] at hterminal
  | _ =>
      cases ht
      cases hterminal

def NodeRun.isInput (n : NodeRun) : Bool :=
  n.nodeType = .data ∧ n.nodeSubtype = "input"

def NodeRun.isCondition (n : NodeRun) : Bool :=
  n.nodeType = .logic ∧ n.nodeSubtype = "condition"

def cellStatus (n : NodeRun) (t : Option ExecutionTask) : CellStatus :=
  (n.status, t.map ExecutionTask.status)

/-! ## Keys -/

/-- Every node of the graph has one NodeRun of its kind, and no two tasks have
the same id or the same NodeRun. -/
structure Keyed (db : RunRecord) : Prop where
  nodeIds : db.nodeRuns.map NodeRun.nodeId = db.run.graph.nodeIds
  kinds : ∀ n ∈ db.nodeRuns, ∃ node ∈ db.run.graph.nodes,
    node.id = n.nodeId ∧ node.type = n.nodeType ∧ node.subtype = n.nodeSubtype
  taskIds : db.tasks.map ExecutionTask.id = List.range db.tasks.length
  taskNodes : (db.tasks.map ExecutionTask.nodeRunId).Nodup
  taskClosed : ∀ t ∈ db.tasks, t.nodeRunId ∈ db.run.graph.nodeIds

namespace Keyed

variable {db : RunRecord} (h : Keyed db)
include h

theorem nodeIds_nodup : (db.nodeRuns.map NodeRun.nodeId).Nodup := by
  rw [h.nodeIds]
  exact db.run.graph.nodeIds_nodup

theorem taskIds_nodup : (db.tasks.map ExecutionTask.id).Nodup := by
  rw [h.taskIds]
  exact List.nodup_range

theorem findNodeRun_eq_some_iff {id : NodeId} {n : NodeRun} :
    findNodeRun db.nodeRuns id = some n ↔ n ∈ db.nodeRuns ∧ n.nodeId = id :=
  Table.find?_eq_some_iff h.nodeIds_nodup

theorem taskOfNode_eq_some_iff {id : NodeId} {t : ExecutionTask} :
    taskOfNode db.tasks id = some t ↔ t ∈ db.tasks ∧ t.nodeRunId = id :=
  Table.find?_eq_some_iff h.taskNodes

theorem findTask_eq_some_iff {id : TaskId} {t : ExecutionTask} :
    findTask db.tasks id = some t ↔ t ∈ db.tasks ∧ t.id = id :=
  Table.find?_eq_some_iff h.taskIds_nodup

theorem exists_nodeRun {id : NodeId} (hid : id ∈ db.run.graph.nodeIds) :
    ∃ n, findNodeRun db.nodeRuns id = some n := by
  rw [← h.nodeIds] at hid
  obtain ⟨n, hn, rfl⟩ := List.mem_map.mp hid
  exact ⟨n, h.findNodeRun_eq_some_iff.mpr ⟨hn, rfl⟩⟩

theorem mem_nodeIds {n : NodeRun} (hn : n ∈ db.nodeRuns) : n.nodeId ∈ db.run.graph.nodeIds := by
  rw [← h.nodeIds]
  exact List.mem_map_of_mem hn

/-- The NodeRun of a node has its kind. -/
theorem kind_eq {id : NodeId} {n : NodeRun} {node : WorkflowNode}
    (hn : findNodeRun db.nodeRuns id = some n) (hnode : db.run.graph.node? id = some node) :
    n.nodeType = node.type ∧ n.nodeSubtype = node.subtype := by
  obtain ⟨hmem, rfl⟩ := h.findNodeRun_eq_some_iff.mp hn
  obtain ⟨node', hnode', hid, htype, hsubtype⟩ := h.kinds n hmem
  have heq : node' = node := by
    have hfind := db.run.graph.node?_of_mem hnode'
    rw [hid, hnode] at hfind
    exact (Option.some.inj hfind).symm
  subst heq
  exact ⟨htype.symm, hsubtype.symm⟩

end Keyed

/-- A task that waits in the queue. -/
def ExecutionTaskStatus.isQueued : ExecutionTaskStatus → Bool
  | pending | retryWait => true
  | _ => false

/-- The invariant of all operations: the keys, the coupling of every cell, no
lease on a task that waits in the queue, tasks for Runners only at Tools and
Agents, and a FAILED NodeRun with a COMPLETED task only after a rejection. -/
structure Coupled (db : RunRecord) : Prop extends Keyed db where
  coupling : ∀ id n, findNodeRun db.nodeRuns id = some n →
    Coupling n.isInput (cellStatus n (taskOfNode db.tasks id))
  unleased : ∀ t ∈ db.tasks, t.status.isQueued = true → t.lockedBy = none
  capable : ∀ id n t, findNodeRun db.nodeRuns id = some n → taskOfNode db.tasks id = some t →
    t.requiredCapability ≠ none → n.nodeType = .tool ∨ n.nodeType = .agent
  rejected : ∀ id n t, findNodeRun db.nodeRuns id = some n → taskOfNode db.tasks id = some t →
    n.status = .failed → t.status = .completed → n.error = rejection.error

/-! ## Steps -/

/-- What a transaction may do beyond moving cells along the edges of `Move`. -/
structure Rights where
  /-- the NodeRuns that it may complete, fail or park as the result of an execution -/
  report : NodeRun → Prop
  /-- it may complete or reject WAITING NodeRuns -/
  resolve : Prop
  /-- the leases that it may issue: task, holder, token -/
  grant : TaskId → String → String → Prop

def Rights.all : Rights where
  report _ := True
  resolve := True
  grant _ _ _ := True

/-- What may happen to one cell. -/
structure CellStep (R : Rights) (db : RunRecord) (n : NodeRun) (t : Option ExecutionTask)
    (n' : NodeRun) (t' : Option ExecutionTask) : Prop where
  nodeId : n'.nodeId = n.nodeId
  nodeType : n'.nodeType = n.nodeType
  nodeSubtype : n'.nodeSubtype = n.nodeSubtype
  move : cellStatus n' t' = cellStatus n t ∨ Move (cellStatus n t) (cellStatus n' t')
  output : n'.output = n.output ∨ n'.status = .completed ∧ n.status ≠ .completed
  queued : n.status = .pending → n'.status = .queued →
    db.run.status = .running ∧ isReady db.run.graph.toWorkflowGraph db.nodeRuns n.nodeId = true
  skipped : n.status = .pending → n'.status = .skipped →
    db.run.status = .running ∧ isUnreachable db.run.graph.toWorkflowGraph db.nodeRuns n = true
  cancelled : n'.status = .cancelled → n.status ≠ .cancelled →
    db.run.status.isTerminal = true ∨ db.run.status = .created ∧ t.isSome = true
  reported : n.status = .running →
    n'.status = .completed ∨ n'.status = .failed ∨ n'.status = .waiting → R.report n'
  resolved : n.status = .waiting → n'.status = .completed ∨ n'.status = .failed → R.resolve
  rejected : n'.status = .failed → (∃ u', t' = some u' ∧ u'.status = .completed) →
    n.status = .failed ∧ n'.error = n.error ∨ n'.error = rejection.error
  taskId : ∀ u u', t = some u → t' = some u' → u'.id = u.id
  lease : ∀ u', t' = some u' → u'.status.isQueued = true →
    u'.lockedBy = none ∨ ∃ u, t = some u ∧ u.status = u'.status ∧ u.lockedBy = u'.lockedBy
  holder : ∀ u', t' = some u' → u'.lockedBy = none ∨
    (∃ u, t = some u ∧ u.lockedBy = u'.lockedBy ∧ u.leaseToken = u'.leaseToken) ∨
      ∃ party token, u'.lockedBy = some party ∧ u'.leaseToken = some token ∧
        R.grant u'.id party token
  capability : ∀ u', t' = some u' → u'.requiredCapability ≠ none →
    (∃ u, t = some u ∧ u.requiredCapability ≠ none) ∨ n.nodeType = .tool ∨ n.nodeType = .agent

/-- A step that leaves the run row alone. -/
structure Evolves (R : Rights) (db db' : RunRecord) : Prop where
  run : db'.run = db.run
  keyed : Keyed db'
  cell : ∀ id n, findNodeRun db.nodeRuns id = some n →
    ∃ n', findNodeRun db'.nodeRuns id = some n' ∧
      CellStep R db n (taskOfNode db.tasks id) n' (taskOfNode db'.tasks id)

/-- A step of the run row.  Only reconciliation enters WAITING, COMPLETED or
FAILED, with the status derived from the NodeRuns. -/
structure RunStep (db db' : RunRecord) : Prop where
  graph : db'.run.graph = db.run.graph
  nodeRuns : db'.nodeRuns = db.nodeRuns
  tasks : db'.tasks = db.tasks
  status : db'.run.status = db.run.status ∨ db'.run.status ∈ db.run.status.transitions
  derived : db'.run.status ≠ db.run.status →
    db'.run.status = .waiting ∨ db'.run.status = .completed ∨ db'.run.status = .failed →
      db'.run.status = deriveWorkflowState db.run.graph.toWorkflowGraph db.nodeRuns

inductive MicroStep (R : Rights) (db db' : RunRecord) : Prop
  | cells (h : Evolves R db db')
  | run (h : RunStep db db')

/-- A sequence of small steps. -/
abbrev Steps (R : Rights) : RunRecord → RunRecord → Prop :=
  Relation.ReflTransGen (MicroStep R)

/-- A sequence of small steps that all leave the run row alone. -/
abbrev CellSteps (R : Rights) : RunRecord → RunRecord → Prop :=
  Relation.ReflTransGen (Evolves R)

variable {R : Rights} {db db' : RunRecord}

/-- The fields of a task that the steps speak about. -/
def ExecutionTask.tracked (t : ExecutionTask) :
    TaskId × ExecutionTaskStatus × Option String × Option String × Option String :=
  (t.id, t.status, t.lockedBy, t.leaseToken, t.requiredCapability)

/-- A cell that changes at most in fields that no step constrains. -/
theorem CellStep.of_eq {n n' : NodeRun} {t t' : Option ExecutionTask}
    (hid : n'.nodeId = n.nodeId) (htype : n'.nodeType = n.nodeType)
    (hsubtype : n'.nodeSubtype = n.nodeSubtype) (hstatus : n'.status = n.status)
    (houtput : n'.output = n.output) (herror : n'.error = n.error)
    (htask : t'.map ExecutionTask.tracked = t.map ExecutionTask.tracked) :
    CellStep R db n t n' t' := by
  have hfields : ∀ u', t' = some u' → ∃ u, t = some u ∧ u'.tracked = u.tracked := by
    rintro u' rfl
    cases t with
    | none => cases htask
    | some u => exact ⟨u, rfl, Option.some.inj htask⟩
  simp only [ExecutionTask.tracked, Prod.mk.injEq] at hfields
  have hmove : cellStatus n' t' = cellStatus n t := by
    have hmap := congrArg (Option.map fun p ↦ p.2.1) htask
    rw [Option.map_map, Option.map_map] at hmap
    exact Prod.ext hstatus hmap
  exact
    { nodeId := hid
      nodeType := htype
      nodeSubtype := hsubtype
      move := .inl hmove
      output := .inl houtput
      queued := fun h h' ↦ absurd (h.symm.trans (hstatus.symm.trans h')) (by decide)
      skipped := fun h h' ↦ absurd (h.symm.trans (hstatus.symm.trans h')) (by decide)
      cancelled := fun h h' ↦ absurd (hstatus.symm.trans h) h'
      reported := fun h h' ↦ by
        rw [hstatus.trans h] at h'
        simp at h'
      resolved := fun h h' ↦ by
        rw [hstatus.trans h] at h'
        simp at h'
      rejected := fun h _ ↦ .inl ⟨hstatus.symm.trans h, herror⟩
      taskId := fun u u' hu hu' ↦ by
        obtain ⟨v, hv, hid, -⟩ := hfields u' hu'
        rw [hu] at hv
        cases hv
        exact hid
      lease := fun u' hu' _ ↦ by
        obtain ⟨u, hu, -, hstatus, hlocked, -⟩ := hfields u' hu'
        exact .inr ⟨u, hu, hstatus.symm, hlocked.symm⟩
      holder := fun u' hu' ↦ by
        obtain ⟨u, hu, -, -, hlocked, htoken, -⟩ := hfields u' hu'
        exact .inr (.inl ⟨u, hu, hlocked.symm, htoken.symm⟩)
      capability := fun u' hu' hcapable ↦ by
        obtain ⟨u, hu, -, -, -, -, hcapability⟩ := hfields u' hu'
        exact .inl ⟨u, hu, by rwa [← hcapability]⟩ }

theorem CellStep.refl (n : NodeRun) (t : Option ExecutionTask) : CellStep R db n t n t :=
  .of_eq rfl rfl rfl rfl rfl rfl rfl

theorem CellStep.isInput_eq {n n' : NodeRun} {t t' : Option ExecutionTask}
    (h : CellStep R db n t n' t') : n'.isInput = n.isInput := by
  simp [NodeRun.isInput, h.nodeType, h.nodeSubtype]

theorem CellStep.isCondition_eq {n n' : NodeRun} {t t' : Option ExecutionTask}
    (h : CellStep R db n t n' t') : n'.isCondition = n.isCondition := by
  simp [NodeRun.isCondition, h.nodeType, h.nodeSubtype]

theorem CellStep.coupling {n n' : NodeRun} {t t' : Option ExecutionTask}
    (h : CellStep R db n t n' t') (hc : Coupling n.isInput (cellStatus n t)) :
    Coupling n'.isInput (cellStatus n' t') := by
  rw [h.isInput_eq]
  rcases h.move with heq | hmove
  · rwa [heq]
  · exact hmove.coupling hc

theorem CellStep.output_eq {n n' : NodeRun} {t t' : Option ExecutionTask}
    (h : CellStep R db n t n' t') (hstatus : n'.status = n.status) : n'.output = n.output := by
  rcases h.output with heq | ⟨hafter, hbefore⟩
  · exact heq
  · exact absurd (hstatus.symm.trans hafter) hbefore

/-- A terminal NodeRun keeps its status and its output. -/
theorem CellStep.frozen {n n' : NodeRun} {t t' : Option ExecutionTask}
    (h : CellStep R db n t n' t') (hc : Coupling n.isInput (cellStatus n t))
    (hterminal : n.status.isTerminal = true) : n'.status = n.status ∧ n'.output = n.output := by
  rcases h.move with heq | hmove
  · have hstatus : n'.status = n.status := congrArg Prod.fst heq
    exact ⟨hstatus, h.output_eq hstatus⟩
  · have hopen : n.status.isTerminal = false := hmove.open_of_coupling hc
    simp [hterminal] at hopen

theorem Evolves.refl (h : Keyed db) : Evolves R db db where
  run := rfl
  keyed := h
  cell _ n hn := ⟨n, hn, .refl n _⟩

/-- Every NodeRun after a step was there before. -/
theorem Evolves.cell_back (h : Evolves R db db') (hc : Keyed db) {id : NodeId}
    {n' : NodeRun} (hn' : findNodeRun db'.nodeRuns id = some n') :
    ∃ n, findNodeRun db.nodeRuns id = some n ∧
      CellStep R db n (taskOfNode db.tasks id) n' (taskOfNode db'.tasks id) := by
  have hid : id ∈ db.run.graph.nodeIds := by
    have hmem := h.keyed.mem_nodeIds (h.keyed.findNodeRun_eq_some_iff.mp hn').1
    rwa [h.run, (h.keyed.findNodeRun_eq_some_iff.mp hn').2] at hmem
  obtain ⟨n, hn⟩ := hc.exists_nodeRun hid
  obtain ⟨n'', hn'', hstep⟩ := h.cell id n hn
  rw [hn'] at hn''
  cases hn''
  exact ⟨n, hn, hstep⟩

theorem Evolves.coupled (h : Evolves R db db') (hc : Coupled db) : Coupled db' where
  toKeyed := h.keyed
  coupling id n' hn' := by
    obtain ⟨n, hn, hstep⟩ := h.cell_back hc.toKeyed hn'
    exact hstep.coupling (hc.coupling id n hn)
  unleased t' ht' hqueued := by
    obtain ⟨n', hn'⟩ := h.keyed.exists_nodeRun (h.keyed.taskClosed t' ht')
    obtain ⟨n, hn, hstep⟩ := h.cell_back hc.toKeyed hn'
    have htask := h.keyed.taskOfNode_eq_some_iff.mpr ⟨ht', rfl⟩
    rcases hstep.lease t' htask hqueued with hnone | ⟨t, ht, hstatus, hlocked⟩
    · exact hnone
    · rw [← hlocked]
      exact hc.unleased t (hc.taskOfNode_eq_some_iff.mp ht).1 (by rwa [hstatus])
  capable id n' t' hn' ht' hcapable := by
    obtain ⟨n, hn, hstep⟩ := h.cell_back hc.toKeyed hn'
    rw [hstep.nodeType]
    rcases hstep.capability t' ht' hcapable with ⟨t, ht, hcapable⟩ | hnode
    · exact hc.capable id n t hn ht hcapable
    · exact hnode
  rejected id n' t' hn' ht' hfailed hcompleted := by
    obtain ⟨n, hn, hstep⟩ := h.cell_back hc.toKeyed hn'
    rcases hstep.rejected hfailed ⟨t', ht', hcompleted⟩ with ⟨hbefore, herror⟩ | herror
    · rw [herror]
      rcases hstep.move with heq | hmove
      · have htask : (taskOfNode db.tasks id).map ExecutionTask.status = some .completed := by
          rw [← hcompleted, ← Option.map_some, ← ht']
          exact (congrArg Prod.snd heq).symm
        obtain ⟨t, ht, hstatus⟩ := Option.map_eq_some_iff.mp htask
        exact hc.rejected id n t hn ht hbefore hstatus
      · have hopen : n.status.isTerminal = false := hmove.open_of_coupling (hc.coupling id n hn)
        simp [hbefore, NodeRunStatus.isTerminal] at hopen
    · exact herror

theorem RunStep.coupled (h : RunStep db db') (hc : Coupled db) : Coupled db' where
  nodeIds := by rw [h.nodeRuns, h.graph, hc.nodeIds]
  kinds := by
    rw [h.nodeRuns, h.graph]
    exact hc.kinds
  taskIds := by rw [h.tasks, hc.taskIds]
  taskNodes := by
    rw [h.tasks]
    exact hc.taskNodes
  taskClosed := by
    rw [h.tasks, h.graph]
    exact hc.taskClosed
  coupling := by
    rw [h.nodeRuns, h.tasks]
    exact hc.coupling
  unleased := by
    rw [h.tasks]
    exact hc.unleased
  capable := by
    rw [h.nodeRuns, h.tasks]
    exact hc.capable
  rejected := by
    rw [h.nodeRuns, h.tasks]
    exact hc.rejected

theorem MicroStep.coupled (h : MicroStep R db db') (hc : Coupled db) : Coupled db' := by
  cases h with
  | cells h => exact h.coupled hc
  | run h => exact h.coupled hc

theorem MicroStep.graph (h : MicroStep R db db') : db'.run.graph = db.run.graph := by
  cases h with
  | cells h => rw [h.run]
  | run h => exact h.graph

theorem Steps.coupled (h : Steps R db db') (hc : Coupled db) : Coupled db' := by
  induction h with
  | refl => exact hc
  | tail _ hstep ih => exact hstep.coupled ih

theorem Steps.graph (h : Steps R db db') : db'.run.graph = db.run.graph := by
  induction h with
  | refl => rfl
  | tail _ hstep ih => rw [hstep.graph, ih]

theorem CellSteps.steps (h : CellSteps R db db') : Steps R db db' := by
  induction h with
  | refl => exact .refl
  | tail _ hstep ih => exact ih.tail (.cells hstep)

theorem CellSteps.run (h : CellSteps R db db') : db'.run = db.run := by
  induction h with
  | refl => rfl
  | tail _ hstep ih => rw [hstep.run, ih]

theorem CellSteps.coupled (h : CellSteps R db db') (hc : Coupled db) : Coupled db' :=
  Steps.coupled h.steps hc

/-- Terminal NodeRuns keep their status and their output. -/
theorem Steps.frozen (h : Steps R db db') (hc : Coupled db) {id : NodeId} {n : NodeRun}
    (hn : findNodeRun db.nodeRuns id = some n) (hterminal : n.status.isTerminal = true) :
    ∃ n', findNodeRun db'.nodeRuns id = some n' ∧ n'.status = n.status ∧ n'.output = n.output := by
  induction h with
  | refl => exact ⟨n, hn, rfl, rfl⟩
  | tail hrest hstep ih =>
      obtain ⟨n₁, hn₁, hstatus, houtput⟩ := ih
      cases hstep with
      | run hstep =>
          rw [hstep.nodeRuns]
          exact ⟨n₁, hn₁, hstatus, houtput⟩
      | cells hstep =>
          obtain ⟨n₂, hn₂, hcell⟩ := hstep.cell id n₁ hn₁
          have hkept := hcell.frozen ((Steps.coupled hrest hc).coupling id n₁ hn₁)
            (by rw [hstatus, hterminal])
          exact ⟨n₂, hn₂, hkept.1.trans hstatus, hkept.2.trans houtput⟩

/-- Steps keep an invariant that every small step from a coupled state keeps. -/
theorem Steps.invariant {inv : RunRecord → Prop}
    (hinv : ∀ db db', Coupled db → inv db → MicroStep R db db' → inv db')
    (h : Steps R db db') (hc : Coupled db) (hdb : inv db) : inv db' := by
  induction h with
  | refl => exact hdb
  | tail hrest hstep ih => exact hinv _ _ (Steps.coupled hrest hc) ih hstep

end Relayvia
