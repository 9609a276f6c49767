import Relayvia.Operations.Scheduler

/-!
# Steps of a reconciliation

Promoting due waits, failing fast, and the two halves of `reconcile_run`.
-/

namespace Relayvia

variable {R : Rights} {env : Env} {now : Time} {db db' : RunRecord} {s : Session}

/-! ## The run row -/

/-- A step that changes neither cells nor the status of the run. -/
theorem RunStep.same (hgraph : db'.run.graph = db.run.graph) (hnodes : db'.nodeRuns = db.nodeRuns)
    (htasks : db'.tasks = db.tasks) (hstatus : db'.run.status = db.run.status) : RunStep db db' :=
  ⟨hgraph, hnodes, htasks, .inl hstatus, fun h ↦ absurd hstatus h⟩

/-! ## Promotion -/

/-- The task of a WAITING NodeRun is COMPLETED. -/
theorem Coupled.waiting_task (hc : Coupled db) {id : NodeId} {n : NodeRun}
    (hn : findNodeRun db.nodeRuns id = some n) (hwaiting : n.status = .waiting) :
    ∃ t, taskOfNode db.tasks id = some t ∧ t.status = .completed := by
  have hcoupling := hc.coupling id n hn
  rw [cellStatus, hwaiting] at hcoupling
  cases htask : taskOfNode db.tasks id with
  | none => simp [htask, Coupling] at hcoupling
  | some t =>
      refine ⟨t, rfl, ?_⟩
      cases hstatus : t.status <;> simp [htask, hstatus, Coupling] at hcoupling ⊢

theorem waitElapsed_waiting {n : NodeRun} (h : waitElapsed env now n = true) :
    n.status = .waiting := by
  unfold waitElapsed resumeInstant at h
  split at h
  · next heq =>
    split at heq
    · next hwaiting => exact hwaiting.1
    · cases heq
  · cases h

variable (R) in
theorem promoteDueWaits_sound (hc : Coupled s.settled) (hresolve : R.resolve) :
    Sound (promoteDueWaits env now s) fun s' ↦
      s'.nodeRuns = s.nodeRuns.map (promoteWait env now) ∧ s'.added = s.added ∧
        Evolves R s.settled s'.settled := by
  refine Outcome.Holds.ite (fun _ ↦ id) fun _ ↦ ⟨rfl, rfl, ?_⟩
  refine Evolves.of_rows hc.toKeyed rfl rfl rfl rfl (fun n ↦ by unfold promoteWait; split <;> rfl)
    fun n hn ↦ ?_
  by_cases helapsed : waitElapsed env now n = true
  · have hwaiting := waitElapsed_waiting helapsed
    obtain ⟨t, ht, hstatus⟩ := hc.waiting_task (hc.findNodeRun_eq_some_iff.mpr ⟨hn, rfl⟩) hwaiting
    have ht' : taskOfNode
        { s with
          nodeRuns := s.nodeRuns.map (promoteWait env now)
          events := s.events ++ s.nodeRuns.flatMap (promoteEvents env now) : Session }.settled.tasks
        n.nodeId = some t := ht
    rw [ht, ht', promoteWait, if_pos helapsed]
    refine .of_move rfl rfl rfl ⟨rfl, rfl⟩ (.inr (.inl ⟨rfl, rfl⟩)) ?_ (by simp [hwaiting]) (by simp)
      (.inr ⟨rfl, by simp [hwaiting]⟩) (by simp [hwaiting]) (fun _ ↦ hresolve)
      (by simp [hstatus, ExecutionTaskStatus.isQueued]) (by simp)
    rw [hwaiting, hstatus]
    exact .resolve
  · rw [promoteWait, if_neg helapsed]
    exact .refl n _

/-! ## Fail fast -/

theorem cancelTask_nodeRunId (t : ExecutionTask) : (cancelTask now t).nodeRunId = t.nodeRunId := by
  unfold cancelTask
  split <;> rfl

theorem cancelTask_id (t : ExecutionTask) : (cancelTask now t).id = t.id := by
  unfold cancelTask
  split <;> rfl

theorem cancelTask_terminal (now : Time) (t : ExecutionTask) :
    (cancelTask now t).status.isTerminal = true := by
  unfold cancelTask
  split
  · next h => exact h
  · rfl

theorem cancelNode_nodeId (tasks : List ExecutionTask) (n : NodeRun) :
    (cancelNode now tasks n).nodeId = n.nodeId := by
  unfold cancelNode
  split <;> rfl

/-- Only the tasks that the query returns are cancelled; the added ones stay. -/
theorem cancelRunTasks_task (id : NodeId) :
    taskOfNode (cancelRunTasks now s).settled.tasks id =
      ((taskOfNode s.tasks id).map (cancelTask now)).or
        (taskOfNode (Session.numbered s.tasks.length s.added) id) := by
  simp only [cancelRunTasks, Session.settled, List.length_map]
  refine (Table.find?_append _ _).trans ?_
  exact congrArg (Option.or · _) (Table.find?_map cancelTask_nodeRunId _ _)

/-- A NodeRun that goes to CANCELLED with its task, if it has one, in a run that
ended. -/
theorem CellStep.cancel (now : Time) {n : NodeRun} {t : Option ExecutionTask}
    {finishedAt : Option Time} (hended : db.run.status.isTerminal = true)
    (hmove : Move (cellStatus n t)
      (.cancelled, (t.map (cancelTask now)).map ExecutionTask.status)) :
    CellStep R db n t { n with status := .cancelled, finishedAt := finishedAt }
      (t.map (cancelTask now)) where
  nodeId := rfl
  nodeType := rfl
  nodeSubtype := rfl
  move := .inr hmove
  output := .inl rfl
  queued := fun _ h ↦ by simp at h
  skipped := fun _ h ↦ by simp at h
  cancelled := fun _ _ ↦ .inl hended
  reported := fun _ h ↦ by simp at h
  resolved := fun _ h ↦ by simp at h
  rejected := fun h ↦ by simp at h
  taskId := fun u u' hu hu' ↦ by
    rw [hu] at hu'
    cases hu'
    exact cancelTask_id u
  lease := fun u hu hqueued ↦ by
    obtain ⟨v, hv, rfl⟩ := Option.map_eq_some_iff.mp hu
    unfold cancelTask at hqueued ⊢
    split at hqueued
    · next hlive => exact .inr ⟨v, hv, by rw [if_pos hlive], by rw [if_pos hlive]⟩
    · cases hqueued
  holder := fun u hu ↦ by
    obtain ⟨v, hv, rfl⟩ := Option.map_eq_some_iff.mp hu
    refine .inr (.inl ⟨v, hv, ?_⟩)
    unfold cancelTask
    split <;> exact ⟨rfl, rfl⟩
  capability := fun u hu h ↦ by
    obtain ⟨v, hv, rfl⟩ := Option.map_eq_some_iff.mp hu
    refine .inl ⟨v, hv, ?_⟩
    unfold cancelTask at h
    split at h <;> exact h

/-- The cell of one NodeRun in `cancel_run_tasks`. -/
theorem cancelNode_step (hc : Coupled s.settled)
    (hended : s.run.status.isTerminal = true) {n : NodeRun} (hn : n ∈ s.nodeRuns) :
    CellStep R s.settled n (taskOfNode s.settled.tasks n.nodeId)
      (cancelNode now s.tasks n) (taskOfNode (cancelRunTasks now s).settled.tasks n.nodeId) := by
  have hfind := hc.findNodeRun_eq_some_iff.mpr ⟨hn, rfl⟩
  have hsettled : taskOfNode s.settled.tasks n.nodeId =
      (taskOfNode s.tasks n.nodeId).or
        (taskOfNode (Session.numbered s.tasks.length s.added) n.nodeId) :=
    Table.find?_append _ _
  have hunique : (s.tasks.map ExecutionTask.nodeRunId).Nodup := by
    have hnodup := hc.taskNodes
    rw [Session.settled, List.map_append] at hnodup
    exact hnodup.of_append_left
  have hcoupling := hc.coupling _ n hfind
  rw [cancelRunTasks_task, cellStatus] at *
  cases htask : taskOfNode s.tasks n.nodeId with
  | none =>
      have hnoTask : ∀ t ∈ s.tasks, t.nodeRunId ≠ n.nodeId := Table.find?_eq_none_iff.mp htask
      rw [htask] at hsettled
      rw [hsettled, Option.map_none]
      by_cases hpending : n.status = .pending
      · have hnone := hc.no_task hfind hpending
        rw [hsettled] at hnone
        rw [cancelNode, if_pos (by simp [hpending, NodeRunStatus.isTerminal]), hnone]
        refine .cancel now hended ?_
        rw [cellStatus, hpending]
        exact .cancelIdle
      · have hkept : ¬(¬n.status.isTerminal ∧ (n.status = .pending ∨
            ∃ t ∈ s.tasks, t.nodeRunId = n.nodeId ∧ ¬t.status.isTerminal)) := by
          rintro ⟨-, h | ⟨t, ht, hkey, -⟩⟩
          · exact hpending h
          · exact hnoTask t ht hkey
        rw [cancelNode, if_neg hkept]
        exact .refl n _
  | some t =>
      obtain ⟨hmem, hkey⟩ := (Table.find?_eq_some_iff hunique).mp htask
      rw [htask, Option.some_or] at hsettled
      rw [hsettled] at hcoupling ⊢
      rw [Option.map_some, Option.some_or]
      by_cases hlive : t.status.isTerminal = true
      · have hkept : ¬(¬n.status.isTerminal ∧ (n.status = .pending ∨
            ∃ t ∈ s.tasks, t.nodeRunId = n.nodeId ∧ ¬t.status.isTerminal)) := by
          rintro ⟨-, h | ⟨u, hu, hukey, hulive⟩⟩
          · rw [hc.no_task hfind h] at hsettled
            cases hsettled
          · rw [List.inj_on_of_nodup_map hunique hu hmem (hukey.trans hkey.symm)] at hulive
            exact hulive hlive
        rw [cancelNode, if_neg hkept, cancelTask, if_pos hlive]
        exact .refl n _
      · have hlive : t.status.isTerminal = false := by simpa using hlive
        have hopen : n.status.isTerminal = false := hcoupling.open_of_live hlive
        have hpending : n.status ≠ .pending := fun h ↦ by
          rw [hc.no_task hfind h] at hsettled
          cases hsettled
        have hcancelled : (cancelTask now t).status = .cancelled := by
          rw [cancelTask, if_neg (by simp [hlive])]
        rw [cancelNode, if_pos ⟨by simp [hopen], .inr ⟨t, hmem, hkey, by simp [hlive]⟩⟩]
        refine .cancel now hended ?_
        rw [Option.map_some, Option.map_some, hcancelled]
        exact .cancelTask hlive

theorem cancelRunTasks_evolves (hc : Coupled s.settled) (hended : s.run.status.isTerminal = true) :
    Evolves R s.settled (cancelRunTasks now s).settled := by
  have htasks : (cancelRunTasks now s).settled.tasks =
      s.tasks.map (cancelTask now) ++ Session.numbered s.tasks.length s.added := by
    simp [cancelRunTasks, Session.settled]
  refine Evolves.of_rows hc.toKeyed rfl rfl ?_ ?_ (cancelNode_nodeId s.tasks)
    fun n hn ↦ cancelNode_step hc hended hn
  · rw [htasks, Session.settled, List.map_append, List.map_append, Table.map_key_map cancelTask_id]
  · rw [htasks, Session.settled, List.map_append, List.map_append,
      Table.map_key_map cancelTask_nodeRunId]

/-! ## The two halves -/

/-- A successful first half: the sessions after promotion and after scheduling. -/
theorem reconcileDerive_ok {derived : WorkflowRunStatus} {s' : Session}
    (h : reconcileDerive env now s = .ok (derived, s')) :
    ∃ s₁ s₂ finishedAt, promoteDueWaits env now s = .ok s₁ ∧
      scheduleReadyNodes env now s₁ = .ok s₂ ∧
      derived = deriveWorkflowState s₂.run.graph.toWorkflowGraph s₂.nodeRuns ∧
      (derived = s₂.run.status ∨ derived ∈ s₂.run.status.transitions) ∧
      (derived.isTerminal = false → finishedAt = s₂.run.finishedAt) ∧
      s' = { s₂ with run := { s₂.run with status := derived, finishedAt := finishedAt } } := by
  obtain ⟨s₁, hpromote, h⟩ := Outcome.bind_eq_ok_iff.mp h
  obtain ⟨s₂, hschedule, h⟩ := Outcome.bind_eq_ok_iff.mp h
  dsimp only at h
  split at h
  · next heq =>
    cases h
    refine ⟨s₁, s', s'.run.finishedAt, hpromote, hschedule, rfl, .inl heq, fun _ ↦ rfl, ?_⟩
    rw [heq]
  · obtain ⟨_, hlegal, h⟩ := Outcome.bind_eq_ok_iff.mp h
    cases h
    have hlegal := transitionWorkflowRun_sound.of_ok hlegal
    exact ⟨s₁, s₂, _, hpromote, hschedule, rfl, .inr hlegal, fun h ↦ by rw [if_neg (by simp [h])], rfl⟩

variable (R) in
theorem reconcileDerive_sound (hc : Coupled s.settled) (hresolve : R.resolve) :
    Sound (reconcileDerive env now s) fun p ↦
      Steps R s.settled p.2.settled ∧ p.2.run.status = p.1 := by
  refine Outcome.Holds.bind (promoteDueWaits_sound R hc hresolve) ?_
  rintro s₁ ⟨-, -, hpromote⟩
  have hc₁ := hpromote.coupled hc
  refine Outcome.Holds.bind (scheduleReadyNodes_sound R hc₁)
    fun s₂ hschedule ↦ ?_
  have hsteps : Steps R s.settled s₂.settled := .head (.cells hpromote) hschedule.steps
  refine Outcome.Holds.ite (fun heq ↦ ⟨hsteps, heq.symm⟩) fun _ ↦ ?_
  refine transitionWorkflowRun_sound.bind fun _ hlegal ↦ ⟨hsteps.tail (.run ?_), rfl⟩
  exact ⟨rfl, rfl, rfl, .inr hlegal, fun _ _ ↦ rfl⟩

theorem workflowEvent_step (derived : WorkflowRunStatus) (reason : Option String) :
    RunStep s.settled (workflowEvent s derived reason).settled := by
  unfold workflowEvent
  split <;> exact .same rfl rfl rfl rfl

@[simp] theorem workflowEvent_run (derived : WorkflowRunStatus) (reason : Option String) :
    (workflowEvent s derived reason).run = s.run := by
  unfold workflowEvent
  split <;> rfl

@[simp] theorem recordDerived_run (current derived : WorkflowRunStatus) :
    (recordDerived now current derived s).run = s.run := by
  unfold recordDerived
  split
  · rfl
  · dsimp only
    rw [workflowEvent_run]
    split <;> rfl

theorem recordDerived_steps (hc : Coupled s.settled) {current derived : WorkflowRunStatus}
    (hstatus : s.run.status = derived) :
    Steps R s.settled (recordDerived now current derived s).settled := by
  unfold recordDerived
  split
  · exact .refl
  · dsimp only
    split
    · next hfailed =>
      have hended : s.run.status.isTerminal = true := by
        rw [hstatus, hfailed]
        rfl
      exact .head (.cells (cancelRunTasks_evolves hc hended))
        (.single (.run (workflowEvent_step _ _)))
    · exact .single (.run (workflowEvent_step _ _))

theorem recordDerived_coupled (hc : Coupled s.settled) {current derived : WorkflowRunStatus}
    (hstatus : s.run.status = derived) :
    Coupled (recordDerived now current derived s).settled := by
  have hsteps : Steps Rights.all s.settled (recordDerived now current derived s).settled :=
    recordDerived_steps hc hstatus
  exact hsteps.coupled hc

/-- A successful second half. -/
theorem reconcileFinish_ok {current derived : WorkflowRunStatus} {s' : Session}
    (h : reconcileFinish env now current derived s = .ok s') :
    ∃ s₁ : Session,
      s' = { s₁ with
        run := { s₁.run with
          waitingReason := if derived = .waiting then waitingReason s₁.nodeRuns else none } } ∧
      (derived ≠ .running ∧ s₁ = recordDerived now current derived s ∨
        derived = .running ∧
          scheduleReadyNodes env now (recordDerived now current derived s) = .ok s₁) := by
  unfold reconcileFinish at h
  dsimp only at h
  split at h
  · next hrunning =>
    obtain ⟨s₁, hschedule, h⟩ := Outcome.bind_eq_ok_iff.mp h
    cases h
    exact ⟨s₁, rfl, .inr ⟨hrunning, hschedule⟩⟩
  · next hother =>
    cases h
    exact ⟨_, rfl, .inl ⟨hother, rfl⟩⟩

variable (R) in
theorem reconcileFinish_sound (hc : Coupled s.settled) {current derived : WorkflowRunStatus}
    (hstatus : s.run.status = derived) :
    Sound (reconcileFinish env now current derived s) fun s' ↦
      Steps R s.settled s'.settled := by
  have hfirst : Steps R s.settled (recordDerived now current derived s).settled :=
    recordDerived_steps hc hstatus
  refine Outcome.Holds.ite (fun _ ↦ ?_) fun _ ↦ hfirst.tail (.run (.same rfl rfl rfl rfl))
  refine Outcome.Holds.bind (scheduleReadyNodes_sound R (recordDerived_coupled hc hstatus))
    fun s₂ h ↦ ?_
  exact (hfirst.trans h.steps).tail (.run (.same rfl rfl rfl rfl))

variable (R) in
theorem reconcileRun_sound (hc : Coupled s.settled) (hresolve : R.resolve) :
    Sound (reconcileRun env now s) fun p ↦ Steps R s.settled p.2.settled := by
  unfold reconcileRun
  split
  · next hcancelled =>
    exact .single (.cells (cancelRunTasks_evolves hc (by rw [hcancelled]; rfl)))
  · exact .refl
  · exact .refl
  · exact .refl
  · refine Outcome.Holds.bind (reconcileDerive_sound R hc hresolve) ?_
    rintro ⟨derived, s'⟩ ⟨hsteps, hstatus⟩
    refine Outcome.Holds.bind (reconcileFinish_sound R (hsteps.coupled hc)
      hstatus) fun s'' h ↦ ?_
    exact hsteps.trans h

theorem commit_sound (hc : Coupled s.settled) : Sound s.commit fun db ↦ db = s.settled := by
  rw [Session.commit_eq hc.toKeyed]
  exact Outcome.holds_ok.mpr rfl

variable (R) in
theorem reconcile_sound (hc : Coupled db) (hresolve : R.resolve) :
    Sound (reconcile env now db) (Steps R db) := by
  have hc₀ : Coupled ({ db with } : Session).settled := by rwa [Session.settled_flushed]
  refine Outcome.Holds.bind (reconcileRun_sound R hc₀ hresolve) fun p hp ↦ ?_
  refine (commit_sound (hp.coupled hc₀)).weaken ?_
  rintro _ rfl
  rwa [Session.settled_flushed] at hp

theorem scheduleRun_sound (hc : Coupled db) :
    Sound (scheduleRun env now db) (CellSteps R db) := by
  have hc₀ : Coupled ({ db with } : Session).settled := by rwa [Session.settled_flushed]
  refine Outcome.Holds.bind (scheduleReadyNodes_sound R hc₀) fun s' hs' ↦ ?_
  refine (commit_sound (hs'.coupled hc₀)).weaken ?_
  rintro _ rfl
  rwa [Session.settled_flushed] at hs'

/-! ## The reconciliation of an active run -/

/-- The stages of a reconciliation that is not cut short by the status. -/
structure ReconcileTrace (env : Env) (now : Time) (db : RunRecord) (promoted scheduled : Session)
    (derived : WorkflowRunStatus) (db' : RunRecord) : Prop where
  promote : promoteDueWaits env now { db with } = .ok promoted
  schedule : scheduleReadyNodes env now promoted = .ok scheduled
  derive : derived =
    deriveWorkflowState scheduled.run.graph.toWorkflowGraph scheduled.nodeRuns
  legal : derived = scheduled.run.status ∨ derived ∈ scheduled.run.status.transitions
  finish : ∃ finishedAt s', db' = s'.settled ∧
    (derived.isTerminal = false → finishedAt = scheduled.run.finishedAt) ∧
    reconcileFinish env now db.run.status derived
      { scheduled with
        run := { scheduled.run with status := derived, finishedAt := finishedAt } } = .ok s'

/-- A reconciliation of an active run derives a status and finishes with it; a cancelled run
loses its tasks, and the others stay as they are. -/
theorem reconcileRun_ok {status : WorkflowRunStatus} {s s' : Session}
    (h : reconcileRun env now s = .ok (status, s')) :
    s.run.status = .cancelled ∧ s' = cancelRunTasks now s ∨
      (s.run.status = .completed ∨ s.run.status = .failed ∨ s.run.status = .paused) ∧ s' = s ∨
      (s.run.status = .created ∨ s.run.status = .running ∨ s.run.status = .waiting) ∧
        ∃ s₁, reconcileDerive env now s = .ok (status, s₁) ∧
          reconcileFinish env now s.run.status status s₁ = .ok s' := by
  unfold reconcileRun at h
  cases hstatus : s.run.status with
  | cancelled =>
      simp only [hstatus] at h
      cases h
      exact .inl ⟨rfl, rfl⟩
  | completed | failed | paused =>
      simp only [hstatus] at h
      cases h
      exact .inr (.inl ⟨by simp, rfl⟩)
  | created | running | waiting =>
      simp only [hstatus] at h
      obtain ⟨⟨derived, s₁⟩, hderive, h⟩ := Outcome.bind_eq_ok_iff.mp h
      obtain ⟨s₂, hfinish, h⟩ := Outcome.bind_eq_ok_iff.mp h
      cases h
      exact .inr (.inr ⟨by simp, s₁, hderive, hfinish⟩)

theorem reconcile_cases (hc : Coupled db) (h : reconcile env now db = .ok db') :
    db.run.status = .cancelled ∧ db' = (cancelRunTasks now { db with }).settled ∨
      (db.run.status = .completed ∨ db.run.status = .failed ∨ db.run.status = .paused) ∧
        db' = db ∨
      (db.run.status = .created ∨ db.run.status = .running ∨ db.run.status = .waiting) ∧
        ∃ promoted scheduled derived, ReconcileTrace env now db promoted scheduled derived db' := by
  have hc₀ : Coupled ({ db with } : Session).settled := by rwa [Session.settled_flushed]
  obtain ⟨⟨status, s'⟩, hrun, hcommit⟩ := Outcome.bind_eq_ok_iff.mp h
  have hc' : Coupled s'.settled :=
    Steps.coupled ((reconcileRun_sound Rights.all hc₀ trivial).of_ok hrun) hc₀
  obtain rfl : db' = s'.settled := (commit_sound hc').of_ok hcommit
  rcases reconcileRun_ok hrun with ⟨hstatus, rfl⟩ | ⟨hstatus, rfl⟩ | ⟨hstatus, s₃, hderive, hfinish⟩
  · exact .inl ⟨hstatus, rfl⟩
  · exact .inr (.inl ⟨hstatus, Session.settled_flushed db⟩)
  · obtain ⟨s₁, s₂, finishedAt, hpromote, hschedule, heq, hlegal, htime, rfl⟩ :=
      reconcileDerive_ok hderive
    exact .inr (.inr ⟨hstatus, s₁, s₂, status, hpromote, hschedule, heq, hlegal, finishedAt, s',
      rfl, htime, hfinish⟩)

end Relayvia
