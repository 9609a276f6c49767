import Relayvia.Gating
import Relayvia.Workspaces.Scheduling

/-!
# Tasks of Workers and of Runners

A task names its node in its payload.  Without a required capability it is leased to Workers
only, so no Runner holds it.
-/

namespace Relayvia

variable {env : Env} {now : Time} {db db' : RunRecord} {s s' : Session} {op : RunOp}
  {c c' : Cell} {queues cancels : Prop} {returned : Bool}

/-! ## Payloads -/

/-- The payload names the node of the task. -/
def ExecutionTask.Named (t : ExecutionTask) : Prop :=
  Dict.get? t.payload "node_id" = some (.str t.nodeRunId)

/-- All tasks of a session do, the pending ones too. -/
structure Session.Named (s : Session) : Prop where
  tasks : ∀ t ∈ s.tasks, t.Named
  added : ∀ t ∈ s.added, t.Named

theorem insertTasks_named {tasks added : List ExecutionTask} (htasks : ∀ t ∈ tasks, t.Named)
    (hadded : ∀ t ∈ added, t.Named) :
    Returns (Session.insertTasks tasks added) fun ts ↦ ∀ t ∈ ts, t.Named := by
  induction added generalizing tasks with
  | nil => exact htasks
  | cons t added ih =>
      obtain ⟨ht, hadded⟩ := List.forall_mem_cons.mp hadded
      refine Outcome.Holds.ite (fun _ ↦ trivial) fun _ ↦ ih ?_ hadded
      intro u hu
      rcases List.mem_append.mp hu with hu | hu
      · exact htasks u hu
      · rw [List.mem_singleton.mp hu]
        exact ht

namespace Session.Named

theorem flush (h : s.Named) : Returns s.flush Session.Named :=
  Outcome.Holds.bind (insertTasks_named h.tasks h.added) fun _ hts ↦ ⟨hts, by simp⟩

theorem commit (h : s.Named) : Returns s.commit fun db ↦ ∀ t ∈ db.tasks, t.Named :=
  Outcome.Holds.bind h.flush fun _ hs ↦ hs.tasks

theorem attachWorkspace (h : s.Named) (node : WorkflowNode) {payload : Dict}
    (runnerId : Option String) {value : Json}
    (hpayload : Dict.get? payload "node_id" = some value) :
    Returns (attachWorkspace env s node payload runnerId) fun p ↦
      p.1.Named ∧ Dict.get? p.2 "node_id" = some value := by
  unfold Relayvia.attachWorkspace
  split
  · split
    · refine Outcome.Holds.ite (fun _ ↦ ⟨h, hpayload⟩) fun _ ↦ ?_
      refine Outcome.Holds.bind (flush ⟨h.tasks, h.added⟩) fun s₁ h₁ ↦ ⟨h₁, ?_⟩
      rw [Dict.get?] at hpayload ⊢
      rw [List.lookup_append, hpayload]
      rfl
    · exact ⟨h, hpayload⟩
  · exact ⟨h, hpayload⟩

theorem enqueue (h : s.Named) (n : NodeRun) (node : WorkflowNode) {payload : Dict}
    (capability runnerId : Option String)
    (hpayload : Dict.get? payload "node_id" = some (.str node.id)) :
    Returns (enqueue env now s n node payload capability runnerId) Session.Named := by
  refine Outcome.Holds.bind (returns_any _) fun _ _ ↦ ⟨h.tasks, fun t ht ↦ ?_⟩
  rcases List.mem_append.mp ht with ht | ht
  · exact h.added t ht
  · rw [List.mem_singleton.mp ht]
    exact hpayload

theorem scheduleNode (h : s.Named) (id : NodeId) :
    Returns (scheduleNode env now s id) fun r ↦ ∀ s', r = some s' → s'.Named := by
  unfold Relayvia.scheduleNode
  split
  · next n node _ hnode =>
    obtain ⟨-, rfl⟩ := s.run.graph.node?_eq_some_iff.mp hnode
    refine Outcome.Holds.ite (fun _ ↦ Outcome.holds_pure.mpr (by simp)) fun _ ↦ ?_
    dsimp only
    split
    · exact Outcome.holds_pure.mpr (by simp)
    · refine Outcome.Holds.bind (h.enqueue n node none none rfl) fun s₁ h₁ ↦ ?_
      exact Outcome.holds_pure.mpr fun s' hs' ↦ Option.some.inj hs' ▸ h₁
    · next target input _ =>
      have hinput : ({ s.toRunRecord.modifyNode node.id fun r ↦
          { r with input := env.sanitizeOutput (.obj input) } with added := s.added } :
            Session).Named := ⟨h.tasks, h.added⟩
      refine Outcome.Holds.bind (hinput.attachWorkspace node target.runnerId rfl) ?_
      rintro ⟨s₁, payload⟩ ⟨h₁, hpayload⟩
      refine Outcome.Holds.bind (h₁.enqueue n node _ _ hpayload) fun s₂ h₂ ↦ ?_
      exact Outcome.holds_pure.mpr fun s' hs' ↦ Option.some.inj hs' ▸ h₂
  · exact Outcome.holds_pure.mpr (by simp)

theorem scheduleLoop (h : s.Named) (ids : List NodeId) :
    Returns (scheduleLoop env now s ids) Session.Named := by
  induction ids generalizing s with
  | nil => exact h
  | cons id ids ih =>
      refine Outcome.Holds.bind (h.scheduleNode id) fun r hr ↦ ?_
      cases r with
      | none => exact ih h
      | some s' => exact ih (hr s' rfl)

theorem scheduleReadyNodes (h : s.Named) :
    Returns (scheduleReadyNodes env now s) Session.Named := by
  have hskip : (skipInactive now s).Named := ⟨h.tasks, h.added⟩
  exact Outcome.Holds.ite (fun _ ↦ h) fun _ ↦ hskip.scheduleLoop _

theorem cancelRunTasks (h : s.Named) : (cancelRunTasks now s).Named where
  tasks t ht := by
    obtain ⟨u, hu, rfl⟩ := List.mem_map.mp ht
    have hnamed := h.tasks u hu
    unfold cancelTask
    split <;> exact hnamed
  added := h.added

theorem recordDerived (h : s.Named) (current derived : WorkflowRunStatus) :
    (recordDerived now current derived s).Named := by
  have hevent {s : Session} (h : s.Named) (reason : Option String) :
      (workflowEvent s derived reason).Named := by
    unfold workflowEvent
    split <;> exact ⟨h.tasks, h.added⟩
  unfold Relayvia.recordDerived
  split
  · exact h
  · apply hevent
    split
    · exact h.cancelRunTasks
    · exact h

theorem reconcileRun (h : s.Named) :
    Returns (reconcileRun env now s) fun p ↦ p.2.Named := by
  have hpromote : Returns (promoteDueWaits env now s) Session.Named :=
    Outcome.Holds.ite (fun _ ↦ trivial) fun _ ↦ ⟨h.tasks, h.added⟩
  have hderive : Returns (reconcileDerive env now s) fun p ↦ p.2.Named := by
    refine Outcome.Holds.bind hpromote fun s₁ h₁ ↦ ?_
    refine Outcome.Holds.bind h₁.scheduleReadyNodes fun s₂ h₂ ↦ ?_
    refine Outcome.Holds.ite (fun _ ↦ h₂) fun _ ↦ ?_
    exact Outcome.Holds.bind (returns_any _) fun _ _ ↦ ⟨h₂.tasks, h₂.added⟩
  have hfinish {s : Session} (h : s.Named) (current derived : WorkflowRunStatus) :
      Returns (reconcileFinish env now current derived s) Session.Named := by
    have hrecorded : (Relayvia.recordDerived now current derived s).Named :=
      h.recordDerived current derived
    refine Outcome.Holds.ite (fun _ ↦ ?_) fun _ ↦ ⟨hrecorded.tasks, hrecorded.added⟩
    exact hrecorded.scheduleReadyNodes.bind fun _ hs ↦ ⟨hs.tasks, hs.added⟩
  unfold Relayvia.reconcileRun
  split
  · exact h.cancelRunTasks
  · exact h
  · exact h
  · exact h
  · refine Outcome.Holds.bind hderive fun p hp ↦ ?_
    exact Outcome.Holds.bind (hfinish hp _ _) fun _ hs ↦ hs

end Session.Named

/-! ## Transactions -/

/-- What only scheduling writes to a task. -/
def ExecutionTask.order (t : ExecutionTask) : NodeId × Dict × Option String :=
  (t.nodeRunId, t.payload, t.requiredCapability)

theorem order_cancelTask (t : ExecutionTask) : (cancelTask now t).order = t.order := by
  unfold cancelTask
  split <;> rfl

theorem Settling.order_eq (h : Settling queues cancels now c c') (hqueues : ¬queues) :
    c'.2.map ExecutionTask.order = c.2.map ExecutionTask.order := by
  cases h with
  | queue h => exact absurd h hqueues
  | skip | promote => rfl
  | cancel =>
      rw [Option.map_map]
      exact congrArg (Option.map · _) (funext order_cancelTask)

theorem CellChange.order_eq (h : CellChange env db db' op c c') (hop : op.schedules = false) :
    c'.2.map ExecutionTask.order = c.2.map ExecutionTask.order := by
  cases h with
  | schedule | reconcile => cases hop
  | cancelRun h =>
      induction h with
      | refl => rfl
      | tail _ hstep ih => exact (hstep.order_eq id).trans ih
  | _ => rfl

/-- Every task names its node. -/
def TasksNamed (db : RunRecord) : Prop :=
  ∀ t ∈ db.tasks, t.Named

theorem TasksNamed.exec (hnamed : TasksNamed db) (hc : Coupled db)
    (h : op.exec env db = .ok (returned, db')) : TasksNamed db' := by
  have hsession : ({ db with } : Session).Named := ⟨hnamed, by simp⟩
  cases op with
  | schedule now =>
      have hcommit := (returning_eq_ok_iff.mp h).2
      exact (Outcome.Holds.bind hsession.scheduleReadyNodes fun _ hs ↦ hs.commit).of_ok hcommit
  | reconcile now =>
      have hcommit := (returning_eq_ok_iff.mp h).2
      exact (Outcome.Holds.bind hsession.reconcileRun fun _ hs ↦ hs.commit).of_ok hcommit
  | _ =>
      intro t' ht'
      have hc' := RunOp.exec_coupled env _ hc h
      have htask' : taskOfNode db'.tasks t'.nodeRunId = some t' :=
        hc'.taskOfNode_eq_some_iff.mpr ⟨ht', rfl⟩
      obtain ⟨n', hn', -, -⟩ := hc'.cell_of_task (hc'.findTask_eq_some_iff.mpr ⟨ht', rfl⟩)
      obtain ⟨n, -, hcell⟩ := RunOp.exec_cell_back hc h hn'
      have horder : (taskOfNode db.tasks t'.nodeRunId).map ExecutionTask.order =
          some t'.order := by
        rw [htask'] at hcell
        rcases hcell with hsame | hchange
        · rw [← (Prod.mk.inj hsame).2]
          rfl
        · exact (hchange.order_eq rfl).symm
      obtain ⟨t, ht, heq⟩ := Option.map_eq_some_iff.mp horder
      have hold := hnamed t (hc.taskOfNode_eq_some_iff.mp ht).1
      simp only [ExecutionTask.order, Prod.mk.injEq] at heq
      obtain ⟨hnode, hpayload, -⟩ := heq
      rw [ExecutionTask.Named, ← hnode, ← hpayload]
      exact hold

/-! ## The task of a node -/

theorem Move.task_kept {c c' : CellStatus} {t : ExecutionTaskStatus} (hmove : Move c c')
    (ht : c.2 = some t) : ∃ t', c'.2 = some t' := by
  cases hmove with
  | queue | skip | cancelIdle => cases ht
  | _ => exact ⟨_, rfl⟩

/-- A task stays at its node. -/
theorem Steps.task_kept {R : Rights} (h : Steps R db db') (hc : Coupled db) {id : TaskId}
    {t : ExecutionTask} (ht : findTask db.tasks id = some t) :
    ∃ t', findTask db'.tasks id = some t' ∧ t'.nodeRunId = t.nodeRunId := by
  induction h with
  | refl => exact ⟨t, ht, rfl⟩
  | @tail db₁ db₂ hrest hstep ih =>
      obtain ⟨u, hu, hnode⟩ := ih
      have hc₁ := Steps.coupled hrest hc
      cases hstep with
      | run hstep =>
          rw [hstep.tasks]
          exact ⟨u, hu, hnode⟩
      | cells hstep =>
          obtain ⟨hmem, rfl⟩ := hc₁.findTask_eq_some_iff.mp hu
          obtain ⟨n, hn⟩ := hc₁.exists_nodeRun (hc₁.taskClosed u hmem)
          obtain ⟨n', -, hcell⟩ := hstep.cell _ n hn
          have hu := hc₁.taskOfNode_eq_some_iff.mpr ⟨hmem, rfl⟩
          rw [hu] at hcell
          have hstatus : ∃ status,
              (cellStatus n' (taskOfNode db₂.tasks u.nodeRunId)).2 = some status := by
            rcases hcell.move with heq | hmove
            · exact ⟨u.status, congrArg Prod.snd heq⟩
            · exact hmove.task_kept rfl
          obtain ⟨status, hstatus⟩ := hstatus
          obtain ⟨u', hu', -⟩ := Option.map_eq_some_iff.mp hstatus
          have hid := hcell.taskId u u' rfl hu'
          obtain ⟨hmem', hnode'⟩ := hstep.keyed.taskOfNode_eq_some_iff.mp hu'
          exact ⟨u', hstep.keyed.findTask_eq_some_iff.mpr ⟨hmem', hid⟩, hnode'.trans hnode⟩

/-! ## Leases -/

/-- Without a required capability the holder is a Worker. -/
def ExecutionTask.HeldByWorker (workers : String → Prop) (t : ExecutionTask) : Prop :=
  t.requiredCapability = none → ∀ party, t.lockedBy = some party → workers party

/-- The parties act under their own ids: Workers claim for themselves, and no Runner has the id
of a Worker. -/
def RunOp.Parties (workers : String → Prop) : RunOp → Prop
  | .claim _ workerId _ _ _ _ _ => workers workerId
  | .runnerClaim _ runner _ _ _ => ¬workers runner.id
  | .runnerSubmit _ runnerId _ _ _ => ¬workers runnerId
  | _ => True

variable {workers : String → Prop}

theorem Settling.heldByWorker (h : Settling queues cancels now c c')
    (hheld : ∀ t, c.2 = some t → t.HeldByWorker workers) :
    ∀ t, c'.2 = some t → t.HeldByWorker workers := by
  cases h with
  | queue _ _ ht =>
      rintro _ ⟨⟩ - party hparty
      rw [ht.lockedBy] at hparty
      cases hparty
  | skip => exact hheld
  | promote => exact hheld
  | cancel =>
      intro t ht
      obtain ⟨u, hu, rfl⟩ := Option.map_eq_some_iff.mp ht
      have hold := hheld u hu
      unfold cancelTask
      split <;> exact hold

/-- A candidate of a Runner asks for a capability. -/
theorem capability_of_candidate {workerId : String} {capabilities : List String}
    {t : ExecutionTask} (h : isCandidate now workerId (some capabilities) db t = true) :
    t.requiredCapability ≠ none := by
  intro hnone
  simp [isCandidate, claimable, capabilityMatches, hnone] at h

theorem heldByWorker_of_settles (h : Relation.ReflTransGen (Settling queues cancels now) c c')
    (hheld : ∀ t, c.2 = some t → t.HeldByWorker workers) :
    ∀ t, c'.2 = some t → t.HeldByWorker workers := by
  induction h with
  | refl => exact hheld
  | tail _ hstep ih => exact hstep.heldByWorker ih

theorem CellChange.heldByWorker (h : CellChange env db db' op c c') (hop : op.Parties workers)
    (hheld : ∀ t, c.2 = some t → t.HeldByWorker workers) :
    ∀ t, c'.2 = some t → t.HeldByWorker workers := by
  cases h with
  | claim | autoStart =>
      rintro _ ⟨⟩ - party ⟨⟩
      exact hop
  | runnerClaim hcandidate =>
      have hcapability := capability_of_candidate hcandidate
      rintro _ ⟨⟩ hnone
      exact absurd hnone hcapability
  | release | scheduleRetry | recover | submitRetry =>
      rintro _ ⟨⟩ - party ⟨⟩
  | start | abandon | complete | fail | waitNode | renewLease | requeue | heartbeat
  | submitCompleted | submitFailed =>
      have hold := hheld _ rfl
      rintro _ ⟨⟩
      exact hold
  | resolve => exact hheld
  | schedule h | reconcile h | cancelRun h => exact heldByWorker_of_settles h hheld

/-- Every task is held by its kind. -/
def TasksHeld (workers : String → Prop) (db : RunRecord) : Prop :=
  ∀ t ∈ db.tasks, t.HeldByWorker workers

theorem TasksHeld.exec (hheld : TasksHeld workers db) (hc : Coupled db)
    (hop : op.Parties workers) (h : op.exec env db = .ok (returned, db')) :
    TasksHeld workers db' := by
  intro t' ht'
  have hc' := RunOp.exec_coupled env op hc h
  have htask' : taskOfNode db'.tasks t'.nodeRunId = some t' :=
    hc'.taskOfNode_eq_some_iff.mpr ⟨ht', rfl⟩
  obtain ⟨n', hn', -, -⟩ := hc'.cell_of_task (hc'.findTask_eq_some_iff.mpr ⟨ht', rfl⟩)
  obtain ⟨n, -, hcell⟩ := RunOp.exec_cell_back hc h hn'
  have hold : ∀ t, taskOfNode db.tasks t'.nodeRunId = some t → t.HeldByWorker workers :=
    fun t ht ↦ hheld t (hc.taskOfNode_eq_some_iff.mp ht).1
  rcases hcell with hsame | hchange
  · rw [← (Prod.mk.inj hsame).2] at hold
    exact hold t' htask'
  · exact hchange.heldByWorker hop hold t' htask'

/-- A submission that changes something is about a task that asks for a capability. -/
theorem runnerSubmit_capable {runnerId leaseToken : String} {task : TaskId} {result : Dict}
    (hheld : TasksHeld workers db) (hc : Coupled db) (hrunner : ¬workers runnerId)
    (h : runnerSubmit env now runnerId task leaseToken result db = .ok (returned, db')) :
    db' = db ∨ ∀ t, findTask db.tasks task = some t → t.requiredCapability ≠ none := by
  unfold runnerSubmit at h
  split at h
  · next t ht =>
    have hmem := (hc.findTask_eq_some_iff.mp ht).1
    by_cases howns : owns now runnerId leaseToken t = true
    · right
      intro u hu hnone
      cases ht.symm.trans hu
      simp only [owns, Bool.decide_and, Bool.and_eq_true, decide_eq_true_eq] at howns
      exact hrunner (hheld t hmem hnone runnerId howns.2.1)
    · left
      simp only [howns] at h
      split at h <;> cases h <;> rfl
  · cases h
    exact .inl rfl

end Relayvia
