import Relayvia.FailFast
import Relayvia.Operations.Cells

/-!
# Cells under scheduling and reconciliation

Scheduling, timers, fail-fast and `cancel_run` move a cell by `Settling` steps, and so
every operation changes the cells as `CellChange` says.
-/

namespace Relayvia

variable {env : Env} {now : Time} {db db' db'' : RunRecord} {s s' : Session} {id : NodeId}
  {queues cancels : Prop}

/-- Every cell makes `Settling` steps. -/
def Settles (queues cancels : Prop) (now : Time) (db db' : RunRecord) : Prop :=
  ∀ id n, findNodeRun db.nodeRuns id = some n → ∃ n', findNodeRun db'.nodeRuns id = some n' ∧
    Relation.ReflTransGen (Settling queues cancels now) (n, taskOfNode db.tasks id)
      (n', taskOfNode db'.tasks id)

namespace Settling

theorem mono {queues' cancels' : Prop} (hqueues : queues → queues') (hcancels : cancels → cancels')
    {c c' : Cell} (h : Settling queues cancels now c c') : Settling queues' cancels' now c c' := by
  cases h with
  | queue h hn ht => exact .queue (hqueues h) hn ht
  | skip hn => exact .skip hn
  | promote hn => exact .promote hn
  | cancel h hn hfinished => exact .cancel (hcancels h) hn hfinished

end Settling

namespace Settles

theorem refl (queues cancels : Prop) (now : Time) (db : RunRecord) :
    Settles queues cancels now db db :=
  fun _ n hn ↦ ⟨n, hn, .refl⟩

theorem trans (h : Settles queues cancels now db db') (h' : Settles queues cancels now db' db'') :
    Settles queues cancels now db db'' := by
  intro id n hn
  obtain ⟨n', hn', hcell⟩ := h id n hn
  obtain ⟨n'', hn'', hcell'⟩ := h' id n' hn'
  exact ⟨n'', hn'', hcell.trans hcell'⟩

theorem mono {queues' cancels' : Prop} (h : Settles queues cancels now db db')
    (hqueues : queues → queues') (hcancels : cancels → cancels') :
    Settles queues' cancels' now db db' := by
  intro id n hn
  obtain ⟨n', hn', hcell⟩ := h id n hn
  exact ⟨n', hn', Relation.ReflTransGen.mono (fun _ _ ↦ Settling.mono hqueues hcancels) _ _ hcell⟩

theorem congr (h : Settles queues cancels now db db') (hnodes : db''.nodeRuns = db'.nodeRuns)
    (htasks : db''.tasks = db'.tasks) : Settles queues cancels now db db'' := by
  intro id n hn
  rw [hnodes, htasks]
  exact h id n hn

theorem cellwise (h : Settles queues cancels now db db') :
    Cellwise (Relation.ReflTransGen (Settling queues cancels now)) db db' := by
  intro id n hn
  obtain ⟨n', hn', hcell⟩ := h id n hn
  exact ⟨n', hn', .inr hcell⟩

/-- Every NodeRun is updated alike, each with at most one `Settling` step. -/
theorem of_rows (hk : Keyed db) {fn : NodeRun → NodeRun}
    (hnodes : db'.nodeRuns = db.nodeRuns.map fn) (hid : ∀ r, (fn r).nodeId = r.nodeId)
    (hstep : ∀ n ∈ db.nodeRuns,
      (fn n, taskOfNode db'.tasks n.nodeId) = (n, taskOfNode db.tasks n.nodeId) ∨
        Settling queues cancels now (n, taskOfNode db.tasks n.nodeId)
          (fn n, taskOfNode db'.tasks n.nodeId)) : Settles queues cancels now db db' := by
  intro id n hn
  obtain ⟨hmem, rfl⟩ := hk.findNodeRun_eq_some_iff.mp hn
  refine ⟨fn n, ?_, ?_⟩
  · rw [hnodes]
    exact (Table.find?_map hid _ _).trans (congrArg (Option.map fn) hn)
  · rcases hstep n hmem with hsame | hstep
    · rw [hsame]
    · exact .single hstep

end Settles

/-! ## Skipping -/

theorem skipPass_settles (hc : Coupled db) :
    Settles queues cancels now db
      { db with nodeRuns := skipPass db.run.graph.toWorkflowGraph now db.nodeRuns } := by
  refine Settles.of_rows hc.toKeyed rfl (fun n ↦ by split <;> rfl) fun n hn ↦ ?_
  split
  · next hskip =>
    have hpending := (isUnreachable_iff.mp hskip).2.1
    have hnone := hc.no_task (hc.findNodeRun_eq_some_iff.mpr ⟨hn, rfl⟩) hpending
    simp only [hnone]
    exact .inr (.skip hpending)
  · exact .inl rfl

theorem skipLoop_settles (hc : Coupled db) (hrunning : db.run.status = .running) (k : ℕ) :
    Settles queues cancels now db
      { db with nodeRuns := skipLoop db.run.graph.toWorkflowGraph now k db.nodeRuns } := by
  induction k generalizing db with
  | zero => exact .refl _ _ _ _
  | succ k ih =>
      rw [skipLoop]
      split
      · have hpass : Evolves Rights.all db
            { db with nodeRuns := skipPass db.run.graph.toWorkflowGraph now db.nodeRuns } :=
          skipPass_evolves hc hrunning
        exact (skipPass_settles hc).trans (ih (hpass.coupled hc) hrunning)
      · exact .refl _ _ _ _

theorem skipInactive_settles (hc : Coupled s.settled) (hrunning : s.run.status = .running) :
    Settles queues cancels now s.settled (skipInactive now s).settled := by
  have hloop : Settles queues cancels now s.settled
      { s.settled with
        nodeRuns := markUnreachableConditionNodes s.run.graph.toWorkflowGraph now s.nodeRuns } :=
    skipLoop_settles hc hrunning _
  exact hloop.congr rfl rfl

/-! ## Queueing -/

theorem boundedInt_nonneg {value : Option Json} {default maximum : ℤ} (h : 0 ≤ default) :
    0 ≤ boundedInt env value default maximum := by
  unfold boundedInt
  split
  · omega
  · exact h

/-- Every task may be tried once. -/
theorem retrySettingsForNode_pos (run : WorkflowRun) (node : WorkflowNode) :
    1 ≤ (retrySettingsForNode env run node).1 := by
  have hbound {value : Option Json} : 1 ≤ boundedInt env value 0 10 + 1 := by
    have hnonneg : 0 ≤ boundedInt env value 0 10 := boundedInt_nonneg (Int.le_refl 0)
    omega
  unfold retrySettingsForNode
  extract_lets inherited
  have hinherited : 1 ≤ inherited.1 := by
    dsimp only [inherited]
    split
    · split
      · exact hbound
      · exact Int.le_refl 1
    · exact Int.le_refl 1
  split
  · split
    · exact hbound
    · exact hinherited
  · exact hinherited

/-- A queued node, with its new task at the end of the settled rows. -/
theorem Settles.of_queue (hc : Coupled db) {n : NodeRun} {t : ExecutionTask}
    (hn : findNodeRun db.nodeRuns id = some n) (hpending : n.status = .pending)
    {fn : NodeRun → NodeRun} (hnodes : db'.nodeRuns = Table.modify NodeRun.nodeId id fn db.nodeRuns)
    (hid : ∀ r, (fn r).nodeId = r.nodeId) (htasks : db'.tasks = db.tasks ++ [t])
    (hfn : ∃ input, fn n = { n with status := .queued, input := input })
    (ht : FreshTask now n t) : Settles True cancels now db db' := by
  have hkey : n.nodeId = id := (hc.findNodeRun_eq_some_iff.mp hn).2
  have hnone := hc.no_task hn hpending
  intro id' n' hn'
  have hfind : findNodeRun db'.nodeRuns id' =
      if id' = id then (findNodeRun db.nodeRuns id).map fn else findNodeRun db.nodeRuns id' := by
    rw [hnodes]
    exact Table.find?_modify hid _ _ _
  have htask : taskOfNode db'.tasks id' = (taskOfNode db.tasks id').or (taskOfNode [t] id') := by
    rw [htasks]
    exact Table.find?_append _ _
  rw [hfind, htask]
  by_cases heq : id' = id
  · subst heq
    rw [hn] at hn'
    cases hn'
    refine ⟨fn n, by simp [hn], ?_⟩
    have hself : taskOfNode [t] id' = some t := by
      simp [taskOfNode, Table.find?, ht.nodeRunId, hkey]
    obtain ⟨input, hfn⟩ := hfn
    rw [hnone, hself, hfn]
    exact .single (.queue trivial hpending ht)
  · have hother : taskOfNode [t] id' = none := by
      have hne : ¬id = id' := fun h ↦ heq h.symm
      simp [taskOfNode, Table.find?, ht.nodeRunId, hkey, hne]
    rw [hother, Option.or_none, if_neg heq]
    exact ⟨n', hn', .refl⟩

variable (cancels) in
theorem enqueue_settles {s₁ : Session} (hc : Coupled s.settled) {n : NodeRun} {node : WorkflowNode}
    (hn : findNodeRun s.nodeRuns node.id = some n) (hpending : n.status = .pending)
    {fi : NodeRun → NodeRun} (hnodes : s₁.nodeRuns = Table.modify NodeRun.nodeId node.id fi s.nodeRuns)
    (hfi : ∀ r, ∃ input, fi r = { r with input := input })
    (htasks : s₁.settled.tasks = s.settled.tasks) {payload : Dict}
    {requiredCapability runnerId : Option String} :
    Sound (enqueue env now s₁ n node payload requiredCapability runnerId) fun s' ↦
      Settles True cancels now s.settled s'.settled := by
  have hid : ∀ r, (fi r).nodeId = r.nodeId := by
    intro r
    obtain ⟨input, h⟩ := hfi r
    rw [h]
  have hrows : Table.modify NodeRun.nodeId node.id (fun r ↦ { r with status := .queued })
      s₁.nodeRuns =
      Table.modify NodeRun.nodeId node.id (fun r ↦ { fi r with status := .queued }) s.nodeRuns := by
    rw [hnodes]
    exact Table.modify_modify hid _ _
  have hlegal : NodeRunStatus.queued ∈ n.status.transitions := by
    simp [hpending, NodeRunStatus.transitions]
  unfold enqueue
  rw [liftM_transitionNodeRun hlegal]
  refine Settles.of_queue hc hn hpending hrows hid (Session.settled_add_tasks htasks rfl rfl) ?_ ?_
  · obtain ⟨input, h⟩ := hfi n
    exact ⟨input, by rw [h]⟩
  · exact
      { nodeRunId := (hc.findNodeRun_eq_some_iff.mp hn).2.symm
        status := rfl
        attempt := rfl
        maxAttempts := retrySettingsForNode_pos _ _
        availableAt := rfl
        lockedBy := rfl
        leaseToken := rfl
        leaseExpiresAt := rfl
        startedAt := rfl
        finishedAt := rfl }

theorem scheduleNode_settles (hc : Coupled s.settled)
    (hready : isReady s.run.graph.toWorkflowGraph s.nodeRuns id = true) :
    Sound (scheduleNode env now s id) fun r ↦
      ∀ s', r = some s' → Settles True cancels now s.settled s'.settled := by
  obtain ⟨n₀, hn₀, hpending⟩ := exists_of_isReady hready
  unfold scheduleNode
  split
  · next n node hn hnode =>
    rw [hn₀] at hn
    cases hn
    obtain ⟨-, rfl⟩ := s.run.graph.node?_eq_some_iff.mp hnode
    refine Outcome.Holds.ite (fun _ ↦ Outcome.holds_pure.mpr (by simp)) fun _ ↦ ?_
    dsimp only
    split
    · exact Outcome.holds_pure.mpr (by simp)
    · refine Outcome.Holds.bind (enqueue_settles cancels hc hn₀ hpending (Table.modify_id _ _).symm
        (fun r ↦ ⟨r.input, rfl⟩) rfl) fun s₁ hs₁ ↦ Outcome.holds_pure.mpr ?_
      rintro s' ⟨⟩
      exact hs₁
    · next target input hdispatch =>
      refine Outcome.Holds.bind (attachWorkspace_sound hc.taskNodes) ?_
      rintro ⟨s₁, payload⟩ ⟨-, hnodes, htasks⟩
      refine Outcome.Holds.bind (enqueue_settles cancels hc hn₀ hpending hnodes
        (fun r ↦ ⟨env.sanitizeOutput (.obj input), rfl⟩) htasks) fun s₂ hs₂ ↦
          Outcome.holds_pure.mpr ?_
      rintro s' ⟨⟩
      exact hs₂
  · exact Outcome.holds_pure.mpr (by simp)

variable (cancels) in
theorem scheduleReadyNodes_settles (hc : Coupled s.settled) :
    Returns (scheduleReadyNodes env now s) fun s' ↦
      Settles (s.run.status = .running) cancels now s.settled s'.settled := by
  by_cases hrunning : s.run.status = .running
  · have hskip : CellSteps Rights.all s.settled (skipInactive now s).settled :=
      skipInactive_steps hc hrunning
    refine Outcome.Holds.ite (fun h ↦ absurd hrunning h) fun _ ↦ ?_
    refine Outcome.Holds.weaken (scheduleLoop_turns
      (I := fun _ s' ↦ Settles True cancels now s.settled s'.settled) (fun _ h ↦ h) ?_ _
      (hskip.coupled hc) hrunning (s.run.graph.nodeIds_nodup.sublist List.filter_sublist)
      (fun id hid ↦ (mem_readyNodes.mp hid).2) (skipInactive_settles hc hrunning)) fun s' h ↦ ?_
    · intro id ids s₁ s₂ hc₁ _ hready hschedule _ h
      exact h.trans ((scheduleNode_settles hc₁ hready).of_ok hschedule s₂ rfl)
    · exact h.mono (fun _ ↦ hrunning) fun h ↦ h
  · exact Outcome.Holds.ite (fun _ ↦ .refl _ _ _ _) fun h ↦ absurd hrunning h

/-! ## Timers and cancellation -/

variable (queues cancels) in
theorem promoteDueWaits_settles (hc : Coupled s.settled) :
    Returns (promoteDueWaits env now s) fun s' ↦
      Settles queues cancels now s.settled s'.settled := by
  refine Outcome.Holds.ite (fun _ ↦ trivial) fun _ ↦ ?_
  refine Settles.of_rows hc.toKeyed rfl (fun n ↦ by unfold promoteWait; split <;> rfl) fun n _ ↦ ?_
  unfold promoteWait
  split
  · next helapsed => exact .inr (.promote (waitElapsed_waiting helapsed))
  · exact .inl rfl

variable (now) in
/-- A cancelled NodeRun is left as it was or cancelled with its task. -/
theorem cancelNode_cell (hc : Coupled s.settled) {n : NodeRun} (hn : n ∈ s.nodeRuns) :
    (cancelNode now s.tasks n, taskOfNode (cancelRunTasks now s).settled.tasks n.nodeId) =
        (n, taskOfNode s.settled.tasks n.nodeId) ∨
      n.status.isTerminal = false ∧
        (cancelNode now s.tasks n, taskOfNode (cancelRunTasks now s).settled.tasks n.nodeId) =
          ({ n with status := .cancelled, finishedAt := some now },
            (taskOfNode s.settled.tasks n.nodeId).map (cancelTask now)) := by
  have hfind := hc.findNodeRun_eq_some_iff.mpr ⟨hn, rfl⟩
  have hsettled : taskOfNode s.settled.tasks n.nodeId =
      (taskOfNode s.tasks n.nodeId).or
        (taskOfNode (Session.numbered s.tasks.length s.added) n.nodeId) :=
    Table.find?_append _ _
  have hunique : (s.tasks.map ExecutionTask.nodeRunId).Nodup := by
    have hnodup := hc.taskNodes
    rw [Session.settled, List.map_append] at hnodup
    exact hnodup.of_append_left
  have hcoupling := hc.coupling _ n hfind
  rw [cancelRunTasks_task]
  cases htask : taskOfNode s.tasks n.nodeId with
  | none =>
      have hnoTask : ∀ t ∈ s.tasks, t.nodeRunId ≠ n.nodeId := Table.find?_eq_none_iff.mp htask
      rw [htask] at hsettled
      rw [hsettled, Option.map_none]
      by_cases hpending : n.status = .pending
      · have hnone := hc.no_task hfind hpending
        rw [hsettled] at hnone
        rw [cancelNode, if_pos (by simp [hpending, NodeRunStatus.isTerminal]), hnone]
        exact .inr ⟨by simp [hpending, NodeRunStatus.isTerminal], rfl⟩
      · have hkept : ¬(¬n.status.isTerminal ∧ (n.status = .pending ∨
            ∃ t ∈ s.tasks, t.nodeRunId = n.nodeId ∧ ¬t.status.isTerminal)) := by
          rintro ⟨-, h | ⟨t, ht, hkey, -⟩⟩
          · exact hpending h
          · exact hnoTask t ht hkey
        rw [cancelNode, if_neg hkept]
        exact .inl rfl
  | some t =>
      obtain ⟨hmem, hkey⟩ := (Table.find?_eq_some_iff hunique).mp htask
      rw [htask, Option.some_or] at hsettled
      rw [cellStatus, hsettled] at hcoupling
      rw [hsettled, Option.map_some, Option.some_or]
      by_cases hlive : t.status.isTerminal = true
      · have hkept : ¬(¬n.status.isTerminal ∧ (n.status = .pending ∨
            ∃ t ∈ s.tasks, t.nodeRunId = n.nodeId ∧ ¬t.status.isTerminal)) := by
          rintro ⟨-, h | ⟨u, hu, hukey, hulive⟩⟩
          · rw [hc.no_task hfind h] at hsettled
            cases hsettled
          · rw [List.inj_on_of_nodup_map hunique hu hmem (hukey.trans hkey.symm)] at hulive
            exact hulive hlive
        rw [cancelNode, if_neg hkept, cancelTask, if_pos hlive]
        exact .inl rfl
      · have hlive : t.status.isTerminal = false := by simpa using hlive
        have hopen : n.status.isTerminal = false := hcoupling.open_of_live hlive
        rw [cancelNode, if_pos ⟨by simp [hopen], .inr ⟨t, hmem, hkey, by simp [hlive]⟩⟩]
        exact .inr ⟨hopen, rfl⟩

variable (queues now) in
theorem cancelRunTasks_settles (hc : Coupled s.settled) (hcancels : cancels) :
    Settles queues cancels now s.settled (cancelRunTasks now s).settled := by
  refine Settles.of_rows hc.toKeyed rfl (cancelNode_nodeId s.tasks) fun n hn ↦ ?_
  rcases cancelNode_cell now hc hn with hsame | ⟨hopen, hcell⟩
  · exact .inl hsame
  · rw [hcell]
    exact .inr (.cancel hcancels hopen (.inl rfl))

theorem cancelRun_cells (hc : Coupled db) :
    Sound (cancelRun now db) (Cellwise (CellChange env db db' (.cancelRun now)) db) := by
  refine (cancelRun_sound Rights.all hc).weaken fun db₁ h ↦ ?_
  have hsettles : Settles False True now db db₁ := by
    refine Settles.of_rows hc.toKeyed h.nodeRuns (fun n ↦ by unfold cancelOpenNode; split <;> rfl)
      fun n hn ↦ ?_
    have htask : taskOfNode db₁.tasks n.nodeId =
        (taskOfNode db.tasks n.nodeId).map (cancelTask now) := by
      rw [h.tasks]
      exact Table.find?_map cancelTask_nodeRunId _ _
    rw [htask, cancelOpenNode]
    split
    · next hended =>
      have hkept : (taskOfNode db.tasks n.nodeId).map (cancelTask now) =
          taskOfNode db.tasks n.nodeId := by
        have hcoupling := hc.coupling _ n (hc.findNodeRun_eq_some_iff.mpr ⟨hn, rfl⟩)
        cases htask : taskOfNode db.tasks n.nodeId with
        | none => rfl
        | some t =>
            rw [cellStatus, htask] at hcoupling
            rw [Option.map_some, cancelTask, if_pos]
            by_contra hlive
            have hopen : n.status.isTerminal = false := hcoupling.open_of_live (by simpa using hlive)
            simp [hended] at hopen
      rw [hkept]
      exact .inl rfl
    · next hopen => exact .inr (.cancel trivial (by simpa using hopen) (.inr rfl))
  exact hsettles.cellwise.mono fun _ _ ↦ .cancelRun

/-! ## Scheduling and reconciliation -/

theorem scheduleRun_settles (hc : Coupled db) :
    Returns (scheduleRun env now db) (Settles (db.run.status = .running) False now db) := by
  have hc₀ : Coupled ({ db with } : Session).settled := by rwa [Session.settled_flushed]
  refine Outcome.Holds.bind ((scheduleReadyNodes_sound Rights.all hc₀).returns.and
    (scheduleReadyNodes_settles False hc₀)) ?_
  rintro s' ⟨hsteps, hsettles⟩
  refine (commit_sound (hsteps.coupled hc₀)).returns.weaken ?_
  rintro _ rfl
  rwa [Session.settled_flushed] at hsettles

theorem recordDerived_settles (hc : Coupled s.settled) {current derived : WorkflowRunStatus} :
    Settles queues (derived = .failed) now s.settled (recordDerived now current derived s).settled := by
  have hevent (s : Session) (reason : Option String) :
      (workflowEvent s derived reason).settled.nodeRuns = s.settled.nodeRuns ∧
        (workflowEvent s derived reason).settled.tasks = s.settled.tasks := by
    unfold workflowEvent
    split <;> exact ⟨rfl, rfl⟩
  unfold recordDerived
  split
  · exact .refl _ _ _ _
  · dsimp only
    split
    · next hfailed =>
      exact (cancelRunTasks_settles _ _ hc hfailed).congr (hevent _ _).1 (hevent _ _).2
    · exact (Settles.refl _ _ _ _).congr (hevent _ _).1 (hevent _ _).2

theorem ReconcileTrace.settles {s₁ s₂ : Session} {derived : WorkflowRunStatus}
    (h : ReconcileTrace env now db s₁ s₂ derived db') (hc : Coupled db) :
    Settles (db.run.status = .running ∨ db'.run.status = .running) (db'.run.status = .failed) now
      db db' := by
  have hc₀ : Coupled ({ db with } : Session).settled := by rwa [Session.settled_flushed]
  have hstatus : db'.run.status = derived := h.status_eq hc
  have hpromoted : Settles (db.run.status = .running) False now ({ db with } : Session).settled
      s₁.settled := (promoteDueWaits_settles _ _ hc₀).of_ok h.promote
  have hscheduled := (scheduleReadyNodes_settles False (h.promoted_coupled hc)).of_ok h.schedule
  rw [(promoteDueWaits_ok h.promote).1] at hscheduled
  rw [Session.settled_flushed] at hpromoted
  have hfirst : Settles (db.run.status = .running ∨ db'.run.status = .running)
      (db'.run.status = .failed) now db s₂.settled :=
    (hpromoted.trans hscheduled).mono .inl False.elim
  rw [hstatus] at hfirst ⊢
  obtain ⟨finishedAt, s', rfl, -, hfinish⟩ := h.finish
  have hc₃ := h.derived_coupled hc finishedAt
  obtain ⟨s₄, rfl, hlast⟩ := reconcileFinish_ok hfinish
  have hrecorded : Settles (db.run.status = .running ∨ derived = .running) (derived = .failed) now
      { s₂ with run := { s₂.run with status := derived, finishedAt := finishedAt } : Session }.settled
      (recordDerived now db.run.status derived
        { s₂ with run := { s₂.run with status := derived, finishedAt := finishedAt } }).settled :=
    recordDerived_settles hc₃
  have hsecond := (hfirst.congr rfl rfl).trans hrecorded
  rcases hlast with ⟨-, rfl⟩ | ⟨hrunning, hschedule⟩
  · exact hsecond.congr rfl rfl
  · have hlast := (scheduleReadyNodes_settles (derived = .failed)
      (recordDerived_coupled hc₃ rfl)).of_ok hschedule
    exact (hsecond.trans (hlast.mono (fun _ ↦ .inr hrunning) fun h ↦ h)).congr rfl rfl

theorem reconcile_cells (hc : Coupled db) (h : reconcile env now db = .ok db') :
    Cellwise (CellChange env db db' (.reconcile now)) db db' := by
  have hsettles : Settles (db.run.status = .running ∨ db'.run.status = .running)
      (db.run.status = .cancelled ∨ db'.run.status = .failed) now db db' := by
    rcases reconcile_cases hc h with ⟨hstatus, rfl⟩ | ⟨-, rfl⟩ | ⟨-, s₁, s₂, derived, htrace⟩
    · have hc₀ : Coupled ({ db with } : Session).settled := by rwa [Session.settled_flushed]
      have hcancelled := cancelRunTasks_settles now False hc₀ hstatus
      rw [Session.settled_flushed] at hcancelled
      exact hcancelled.mono False.elim .inl
    · exact .refl _ _ _ _
    · exact (htrace.settles hc).mono (fun h ↦ h) .inr
  exact hsettles.cellwise.mono fun _ _ ↦ .reconcile

/-! ## All operations -/

/-- The operations of the run row leave every cell. -/
theorem advanceRun_cells {target : WorkflowRunStatus} {f : WorkflowRun → WorkflowRun}
    (P : Cell → Cell → Prop) : Returns (advanceRun db target f) (Cellwise P db) :=
  Outcome.Holds.bind (returns_any _) fun _ _ ↦ (Cellwise.refl P db).congr rfl rfl

/-- Every operation changes each cell at most as `CellChange` says. -/
theorem RunOp.exec_cellChange {op : RunOp} {returned : Bool} (hc : Coupled db)
    (h : op.exec env db = .ok (returned, db')) :
    Cellwise (CellChange env db db' op) db db' := by
  have hreturns {x : Except Raised (Bool × RunRecord)} {P : Cell → Cell → Prop}
      (hx : Returns x fun p ↦ Cellwise P db p.2) (h : x = .ok (returned, db')) :
      Cellwise P db db' := hx.of_ok h
  have hreturning {x : Except Raised RunRecord} {P : Cell → Cell → Prop}
      (hx : Returns x (Cellwise P db)) (h : returning x = .ok (returned, db')) :
      Cellwise P db db' := hx.of_ok (returning_eq_ok_iff.mp h).2
  cases op with
  | startRun now =>
      refine hreturning (Outcome.Holds.bind
        (advanceRun_cells (CellChange env db db' (.startRun now))) fun _ h ↦ ?_) h
      exact Outcome.holds_pure.mpr (h.congr rfl rfl)
  | schedule =>
      exact hreturning ((scheduleRun_settles hc).weaken fun _ h ↦
        h.cellwise.mono fun _ _ ↦ .schedule) h
  | pauseRun => exact hreturning (advanceRun_cells _) h
  | resumeRun => exact hreturning (advanceRun_cells _) h
  | reconcile => exact reconcile_cells hc (returning_eq_ok_iff.mp h).2
  | cancelRun => exact hreturning (cancelRun_cells hc).returns h
  | approve => exact hreturning (approveNodeRun_cells hc).returns h
  | reject => exact hreturning (rejectNodeRun_cells hc).returns h
  | submit => exact hreturning (submitNodeRun_cells hc).returns h
  | claim => exact hreturns (claim_cells hc).returns h
  | start => exact hreturns (start_cells hc).returns h
  | complete => exact hreturns (complete_cells hc).returns h
  | fail => exact hreturns (fail_cells hc).returns h
  | waitNode => exact hreturns (waitNode_cells hc).returns h
  | scheduleRetry => exact hreturns (scheduleRetry_cells hc).returns h
  | renewLease => exact hreturns (renewLease_cells hc).returns h
  | recoverExpired =>
      cases h
      exact recoverExpired_cells
  | promoteDueRetries => exact hreturning (promoteDueRetries_cells hc).returns h
  | runnerClaim => exact hreturns (runnerClaim_cells hc).returns h
  | runnerTaskHeartbeat => exact hreturns (runnerTaskHeartbeat_cells hc).returns h
  | runnerSubmit => exact hreturns (runnerSubmit_cells hc).returns h

end Relayvia
