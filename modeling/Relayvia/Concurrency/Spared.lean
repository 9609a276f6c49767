import Relayvia.Concurrency.Requests

/-!
# What a reconciliation leaves alone

A NodeRun that has ended, or that waits for a person and has no live task, keeps its row in
every reconciliation, on whatever rows its session works.
-/

namespace Relayvia

variable {env : Env} {now : Time} {view : View} {db rows : RunRecord} {m : NodeRun}
  {s s' : Session} {id : NodeId}

/-- A WAITING NodeRun of a human node.  Only a Wait node waits for a timer. -/
structure NodeRun.AwaitsHuman (m : NodeRun) : Prop where
  status : m.status = .waiting
  nodeType : m.nodeType = .human
  reason : m.waitingReason ≠ some "WAIT_TIMER"

/-- The NodeRun has ended or waits for a person. -/
def NodeRun.Parked (m : NodeRun) : Prop :=
  m.status.isTerminal = true ∨ m.AwaitsHuman

namespace NodeRun.Parked

theorem not_pending (h : m.Parked) : m.status ≠ .pending := by
  intro hpending
  rcases h with hterminal | hawaits
  · rw [hpending] at hterminal
    cases hterminal
  · rw [hawaits.status] at hpending
    cases hpending

theorem waitElapsed_eq (h : m.Parked) : waitElapsed env now m = false := by
  have hnone : resumeInstant env m = none := by
    rcases h with hterminal | hawaits
    · apply if_neg
      rintro ⟨hwaiting, -⟩
      rw [hwaiting] at hterminal
      cases hterminal
    · exact if_neg fun hand ↦ hawaits.reason hand.2
  rw [waitElapsed, hnone]

end NodeRun.Parked

/-- NODE_RESUMED, NODE_COMPLETED or NODE_FAILED of the NodeRun. -/
def RunEvent.resolves (id : NodeId) (e : RunEvent) : Bool :=
  e.nodeRunId = some id ∧
    (e.eventType = .nodeResumed ∨ e.eventType = .nodeCompleted ∨ e.eventType = .nodeFailed)

/-- The tasks of the NodeRun have ended. -/
def TasksEnded (id : NodeId) (tasks : List ExecutionTask) : Prop :=
  ∀ t ∈ tasks, t.nodeRunId = id → t.status.isTerminal = true

/-- The row `m` is in the session as it was read, its tasks have ended, and the session
records no end of it. -/
structure Spares (m : NodeRun) (s : Session) : Prop where
  nodup : (s.nodeRuns.map NodeRun.nodeId).Nodup
  row : findNodeRun s.nodeRuns m.nodeId = some m
  tasks : TasksEnded m.nodeId (s.tasks ++ s.added)
  events : ∀ e ∈ s.events, e.resolves m.nodeId = false

namespace Spares

theorem start (hnodup : (rows.nodeRuns.map NodeRun.nodeId).Nodup)
    (hrow : findNodeRun rows.nodeRuns m.nodeId = some m)
    (htasks : TasksEnded m.nodeId rows.tasks) (hevents : rows.events = []) : Spares m { rows with } where
  nodup := hnodup
  row := hrow
  tasks t ht := htasks t (by simpa using ht)
  events := by simp [hevents]

/-- Only the run row has changed. -/
theorem of_run (h : Spares m s) (run : WorkflowRun) : Spares m { s with run := run } where
  nodup := h.nodup
  row := h.row
  tasks := h.tasks
  events := h.events

/-- An update of all rows that keeps `m`. -/
theorem map (h : Spares m s) {f : NodeRun → NodeRun} {tasks : List ExecutionTask}
    {events : List RunEvent} (hkey : ∀ n, (f n).nodeId = n.nodeId) (hf : f m = m)
    (htasks : TasksEnded m.nodeId tasks) (hevents : ∀ e ∈ events, e.resolves m.nodeId = false) :
    Spares m
      { s with
        nodeRuns := s.nodeRuns.map f, tasks := tasks, events := s.events ++ events } where
  nodup := by
    rw [Table.map_key_map hkey]
    exact h.nodup
  row := by
    rw [findNodeRun, Table.find?_map hkey]
    exact congrArg (Option.map f) h.row |>.trans (congrArg some hf)
  tasks t ht hid := by
    rcases List.mem_append.mp ht with hkept | hadded
    · exact htasks t hkept hid
    · exact h.tasks t (List.mem_append_right _ hadded) hid
  events e he := by
    rcases List.mem_append.mp he with hold | hnew
    · exact h.events e hold
    · exact hevents e hnew

theorem record (h : Spares m s) {e : RunEvent} (he : e.resolves m.nodeId = false) :
    Spares m { s with toRunRecord := s.toRunRecord.recordEvent e } where
  nodup := h.nodup
  row := h.row
  tasks := h.tasks
  events e' he' := by
    rcases List.mem_append.mp he' with hold | hnew
    · exact h.events e' hold
    · rw [List.mem_singleton.mp hnew]
      exact he

/-- An update of another row. -/
theorem modify (h : Spares m s) {f : NodeRun → NodeRun} (hf : ∀ n, (f n).nodeId = n.nodeId)
    (hne : id ≠ m.nodeId) :
    Spares m { s with nodeRuns := Table.modify NodeRun.nodeId id f s.nodeRuns } where
  nodup := by
    rw [Table.map_key_modify hf]
    exact h.nodup
  row := by
    rw [findNodeRun, Table.find?_modify hf, if_neg hne.symm]
    exact h.row
  tasks := h.tasks
  events := h.events

theorem flush (h : Spares m s) : Returns s.flush (Spares m) := by
  refine Outcome.holds_of_forall (fun s' hs' ↦ ?_) fun _ _ ↦ trivial
  rw [Session.flush_ok hs']
  refine ⟨h.nodup, h.row, fun t ht hid ↦ ?_, h.events⟩
  rw [List.append_nil] at ht
  rcases List.mem_append.mp ht with hold | hnew
  · exact h.tasks t (List.mem_append_left _ hold) hid
  · obtain ⟨u, hu, k, rfl⟩ := Session.mem_numbered hnew
    exact h.tasks u (List.mem_append_right _ hu) hid

end Spares

/-! ## Scheduling -/

theorem promoteDueWaits_spares (hm : m.Parked) (h : Spares m s) :
    Returns (promoteDueWaits env now s) (Spares m) := by
  have hkey (n : NodeRun) : (promoteWait env now n).nodeId = n.nodeId := by
    unfold promoteWait
    split <;> rfl
  refine Outcome.Holds.ite (fun _ ↦ trivial) fun _ ↦ Outcome.holds_pure.mpr ?_
  refine h.map hkey ?_ (fun t ht ↦ h.tasks t (List.mem_append_left _ ht)) fun e he ↦ ?_
  · rw [promoteWait, if_neg (by simp [hm.waitElapsed_eq])]
  · obtain ⟨n, hn, he⟩ := List.mem_flatMap.mp he
    unfold promoteEvents at he
    split at he
    · next helapsed =>
      have hne : n.nodeId ≠ m.nodeId := by
        intro heq
        have hfind := (Table.find?_eq_some_iff h.nodup).mpr ⟨hn, heq⟩
        cases hfind.symm.trans h.row
        rw [hm.waitElapsed_eq] at helapsed
        cases helapsed
      simp only [List.mem_cons, List.not_mem_nil, or_false] at he
      rcases he with rfl | rfl <;> simp [RunEvent.resolves, hne]
    · cases he

theorem skipInactive_spares (now : Time) (hm : m.Parked) (h : Spares m s) :
    Spares m (skipInactive now s) where
  nodup := by
    have hkey : (skipInactive now s).nodeRuns.map NodeRun.nodeId =
        s.nodeRuns.map NodeRun.nodeId := map_nodeId_skipLoop _ _ _
    rw [hkey]
    exact h.nodup
  row := skipLoop_kept _ h.row hm.not_pending
  tasks := h.tasks
  events e he := by
    rcases List.mem_append.mp he with hold | hnew
    · exact h.events e hold
    · obtain ⟨n, -, rfl⟩ := List.mem_map.mp hnew
      simp [RunEvent.resolves]

theorem enqueue_spares (h : Spares m s) {n : NodeRun} {node : WorkflowNode} {payload : Dict}
    {requiredCapability runnerId : Option String} (hne : node.id ≠ m.nodeId) :
    Returns (enqueue env now s n node payload requiredCapability runnerId) (Spares m) := by
  refine Outcome.Holds.bind (returns_any _) fun _ _ ↦ Outcome.holds_pure.mpr ?_
  let f (r : NodeRun) : NodeRun := { r with status := .queued }
  have hqueued : Spares m { s with nodeRuns := Table.modify NodeRun.nodeId node.id f s.nodeRuns } :=
    h.modify (fun _ ↦ rfl) hne
  have hrecorded := hqueued.record (e :=
    { nodeRunId := some node.id
      eventType := .nodeQueued
      message := some ("Node " ++ node.id ++ " queued")
      payload := [("node_id", .str node.id), ("node_type", .str node.type.value)] })
    (by simp [RunEvent.resolves])
  refine ⟨hrecorded.nodup, hrecorded.row, fun t ht hid ↦ ?_, hrecorded.events⟩
  rw [← List.append_assoc] at ht
  rcases List.mem_append.mp ht with hold | hnew
  · exact h.tasks t hold hid
  · rw [List.mem_singleton.mp hnew] at hid
    exact absurd hid hne

theorem attachWorkspace_spares (h : Spares m s) {node : WorkflowNode} {payload : Dict}
    {runnerId : Option String} :
    Returns (attachWorkspace env s node payload runnerId) fun p ↦ Spares m p.1 := by
  unfold attachWorkspace
  split
  · split
    · refine Outcome.Holds.ite (fun _ ↦ h) fun _ ↦ ?_
      refine Outcome.Holds.bind (Spares.flush ?_) fun s' hs' ↦ Outcome.holds_pure.mpr hs'
      exact ⟨h.nodup, h.row, h.tasks, h.events⟩
    · exact h
  · exact h

theorem scheduleNode_spares (h : Spares m s) (hne : id ≠ m.nodeId) :
    Returns (scheduleNode env now s id) fun r ↦ ∀ s', r = some s' → Spares m s' := by
  unfold scheduleNode
  split
  · next n node hn hnode =>
    obtain rfl : node.id = id := (s.run.graph.node?_eq_some_iff.mp hnode).2
    refine Outcome.Holds.ite (fun _ ↦ Outcome.holds_pure.mpr (by simp)) fun _ ↦ ?_
    dsimp only
    split
    · exact Outcome.holds_pure.mpr (by simp)
    · refine Outcome.Holds.bind (enqueue_spares h hne) fun s₁ hs₁ ↦ Outcome.holds_pure.mpr ?_
      rintro s' ⟨⟩
      exact hs₁
    · next target input hdispatch =>
      refine Outcome.Holds.bind (attachWorkspace_spares (Spares.modify h ?_ hne)) ?_
      · exact fun _ ↦ rfl
      rintro ⟨s₁, payload⟩ hs₁
      refine Outcome.Holds.bind (enqueue_spares hs₁ hne) fun s₂ hs₂ ↦ Outcome.holds_pure.mpr ?_
      rintro s' ⟨⟩
      exact hs₂
  · exact Outcome.holds_pure.mpr (by simp)

theorem scheduleLoop_spares (ids : List NodeId) (h : Spares m s) (hids : m.nodeId ∉ ids) :
    Returns (scheduleLoop env now s ids) (Spares m) := by
  induction ids generalizing s with
  | nil => exact h
  | cons id ids ih =>
      rw [List.mem_cons, not_or] at hids
      obtain ⟨hne, hids⟩ := hids
      refine Outcome.Holds.bind (scheduleNode_spares h (Ne.symm hne)) fun r hr ↦ ?_
      cases r with
      | none => exact ih h hids
      | some s₁ => exact ih (hr s₁ rfl) hids

theorem scheduleReadyNodes_spares (hm : m.Parked) (h : Spares m s) :
    Returns (scheduleReadyNodes env now s) (Spares m) := by
  refine Outcome.Holds.ite (fun _ ↦ h) fun _ ↦ ?_
  have hskipped := skipInactive_spares now hm h
  apply scheduleLoop_spares _ hskipped
  intro hready
  have hpending := (isReady_iff.mp (mem_readyNodes.mp hready).2).1
  rw [statusOf, hskipped.row] at hpending
  exact hm.not_pending (Option.some.inj hpending)

/-! ## Reconciliation -/

theorem Spares.relock (h : Spares m s) (n : ℕ)
    (htasks : ∀ ts, view.tasks = some ts → TasksEnded m.nodeId ts) :
    Spares m (view.relock n s) := by
  refine ⟨h.nodup, h.row, fun t ht hid ↦ ?_, h.events⟩
  simp only [View.relock, List.append_assoc] at ht
  rcases List.mem_append.mp ht with hlocked | hnew
  · cases hview : view.tasks with
    | none =>
        rw [hview] at hlocked
        exact h.tasks t (List.mem_append_left _ (List.mem_of_mem_take hlocked)) hid
    | some ts =>
        rw [hview] at hlocked
        exact htasks ts hview t hlocked hid
  · rcases List.mem_append.mp hnew with hflushed | hadded
    · exact h.tasks t (List.mem_append_left _ (List.mem_of_mem_drop hflushed)) hid
    · exact h.tasks t (List.mem_append_right _ hadded) hid

theorem cancelRunTasks_spares (hm : m.Parked) (h : Spares m s) : Spares m (cancelRunTasks now s) := by
  refine h.map (cancelNode_nodeId s.tasks) ?_ (fun t ht _ ↦ ?_) fun e he ↦ ?_
  · apply if_neg
    rintro ⟨-, hpending | ⟨t, ht, hid, hlive⟩⟩
    · exact hm.not_pending hpending
    · exact hlive (h.tasks t (List.mem_append_left _ ht) hid)
  · obtain ⟨u, -, rfl⟩ := List.mem_map.mp ht
    exact cancelTask_terminal now u
  · obtain ⟨t, -, rfl⟩ := List.mem_map.mp he
    simp [RunEvent.resolves]

theorem recordDerived_spares (now : Time) (hm : m.Parked) (h : Spares m s)
    (current derived : WorkflowRunStatus) :
    Spares m (recordDerived now current derived s) := by
  have hevent {s : Session} (h : Spares m s) (reason : Option String) :
      Spares m (workflowEvent s derived reason) := by
    unfold workflowEvent
    split
    · exact h.record (by simp [RunEvent.resolves])
    · exact h
  unfold recordDerived
  split
  · exact h
  · dsimp only
    split
    · exact hevent (cancelRunTasks_spares hm h) _
    · exact hevent h _

theorem reconcileDerive_spares (hm : m.Parked) (h : Spares m s) :
    Returns (reconcileDerive env now s) fun p ↦ Spares m p.2 := by
  refine Outcome.Holds.bind (promoteDueWaits_spares hm h) fun s₁ h₁ ↦ ?_
  refine Outcome.Holds.bind (scheduleReadyNodes_spares hm h₁) fun s₂ h₂ ↦ ?_
  refine Outcome.Holds.ite (fun _ ↦ h₂) fun _ ↦ ?_
  exact Outcome.Holds.bind (returns_any _) fun _ _ ↦ Outcome.holds_pure.mpr (h₂.of_run _)

theorem reconcileFinish_spares (hm : m.Parked) (h : Spares m s) (current derived : WorkflowRunStatus) :
    Returns (reconcileFinish env now current derived s) (Spares m) := by
  have hrecorded := recordDerived_spares now hm h current derived
  refine Outcome.Holds.ite (fun _ ↦ ?_) fun _ ↦ Outcome.holds_pure.mpr (hrecorded.of_run _)
  exact Outcome.Holds.bind (scheduleReadyNodes_spares hm hrecorded) fun s' hs' ↦
    Outcome.holds_pure.mpr (hs'.of_run _)

theorem reconcileOn_spares (hm : m.Parked) (h : Spares m { rows with })
    (htasks : ∀ ts, view.tasks = some ts → TasksEnded m.nodeId ts) :
    Returns (reconcileOn env now view rows) (Spares m) := by
  unfold reconcileOn
  dsimp only
  split
  · exact cancelRunTasks_spares hm (h.relock _ htasks)
  · exact h
  · exact h
  · exact h
  · refine Outcome.Holds.bind (reconcileDerive_spares hm h) ?_
    rintro ⟨derived, s⟩ hs
    dsimp only
    split
    · exact reconcileFinish_spares hm (hs.relock _ htasks) _ _
    · exact reconcileFinish_spares hm hs _ _

/-- A reconciliation keeps the tasks that it has read, or cancels those that it has locked. -/
theorem reconcileOn_taken
    (htasks : view.tasks ≠ none → rows.run.status = .cancelled ∨ derivesFailed env now rows = true)
    (h : reconcileOn env now view rows = .ok s) :
    s.tasks.take (view.tasks.getD rows.tasks).length = view.tasks.getD rows.tasks ∨
      s.tasks.take (view.tasks.getD rows.tasks).length =
        (view.tasks.getD rows.tasks).map (cancelTask now) := by
  have hrelock {s₁ : Session} (hs₁ : s₁.tasks.take rows.tasks.length = rows.tasks) :
      ((view.relock rows.tasks.length s₁).tasks.map (cancelTask now)).take
        (view.tasks.getD rows.tasks).length = (view.tasks.getD rows.tasks).map (cancelTask now) := by
    simp [View.relock, hs₁]
  by_cases hcancelled : rows.run.status = .cancelled
  · right
    unfold reconcileOn at h
    simp only [hcancelled] at h
    cases h
    exact hrelock List.take_length
  · by_cases hfailed : derivesFailed env now rows = true
    · right
      rcases reconcileOn_ok h with hstatus | ⟨hstatus, rfl⟩ | ⟨hstatus, derived, s₁, hderived, h⟩
      · exact absurd hstatus hcancelled
      · rcases hstatus with hstatus | hstatus | hstatus <;> simp [derivesFailed, hstatus] at hfailed
      · have hderives : derived = .failed := by
          rcases hstatus with hstatus | hstatus | hstatus <;>
            simpa [derivesFailed, hstatus, hderived] using hfailed
        subst hderives
        obtain ⟨s₂, rfl, hs₂⟩ := reconcileFinish_ok h
        obtain ⟨-, rfl⟩ := hs₂.resolve_right (by simp)
        have hne : WorkflowRunStatus.failed ≠ rows.run.status := by
          rcases hstatus with hstatus | hstatus | hstatus <;> simp [hstatus]
        have hkept := ((reconcileDerive_inserted (.start rows)).of_ok hderived).kept
        simp only [recordDerived, if_neg hne, if_true, workflowEvent_rows]
        exact hrelock hkept
    · left
      have hfailed : derivesFailed env now rows = false := by simpa using hfailed
      have hnone : view.tasks = none := by
        by_contra hsome
        rcases htasks hsome with hstatus | hfails
        · exact hcancelled hstatus
        · rw [hfailed] at hfails
          cases hfails
      rw [hnone]
      exact reconcileOn_kept hcancelled hfailed h

end Relayvia
