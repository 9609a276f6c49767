import Relayvia.Operations.Basic

/-!
# Steps of the execution backend

Every operation of the queue moves one cell, or for recovery every cell that is
due, and raises no status fault in a coupled state.
-/

namespace Relayvia

variable {R : Rights} {now : Time} {taskId : TaskId}
  {workerId leaseToken : String} {db : RunRecord}

/-- A task whose lease somebody holds is claimed or running. -/
theorem Coupled.leased (hc : Coupled db) {t : ExecutionTask} (hmem : t ∈ db.tasks)
    (howns : owns now workerId leaseToken t = true) : t.status = .claimed ∨ t.status = .running := by
  simp only [owns, Bool.decide_and, Bool.and_eq_true, decide_eq_true_eq] at howns
  have hfree := hc.unleased t hmem
  cases hstatus : t.status <;>
    simp_all [ExecutionTaskStatus.isTerminal, ExecutionTaskStatus.isQueued]

/-- The statuses of a cell whose leased task may take a result. -/
theorem running_of_legal {n : NodeRun} {t : ExecutionTask} {target : ExecutionTaskStatus}
    (hcoupling : Coupling n.isInput (n.status, some t.status))
    (hleased : t.status = .claimed ∨ t.status = .running)
    (hlegal : target ∈ t.status.transitions)
    (htarget : target = .completed ∨ target = .failed ∨ target = .retryWait) :
    n.status = .running ∧ t.status = .running := by
  have hrunning : t.status = .running := by
    rcases hleased with h | h
    · rw [h] at hlegal
      rcases htarget with rfl | rfl | rfl <;> simp [ExecutionTaskStatus.transitions] at hlegal
    · exact h
  exact ⟨by simpa [Coupling, hrunning] using hcoupling, hrunning⟩

/-! ## Results -/

/-- The rule for a fenced write. -/
theorem withLease_sound (hc : Coupled db) {body : ExecutionTask → Except Raised RunRecord}
    (hbody : ∀ t n, findTask db.tasks taskId = some t →
      findNodeRun db.nodeRuns t.nodeRunId = some n → t ∈ db.tasks → t.id = taskId →
      Coupling n.isInput (n.status, some t.status) →
      (t.status = .claimed ∨ t.status = .running) → Sound (body t) (Evolves R db)) :
    Sound (withLease now taskId workerId leaseToken db body) fun p ↦ Evolves R db p.2 := by
  unfold withLease
  split
  · next t ht =>
    obtain ⟨n, hn, hmem, hid, hcoupling⟩ := hc.cell_of_task ht
    split
    · exact Evolves.refl hc.toKeyed
    · next howns =>
      have hleased := hc.leased hmem (by simpa using howns)
      exact (hbody t n ht hn hmem hid hcoupling hleased).bind fun _ h ↦ h
  · exact Evolves.refl hc.toKeyed

theorem complete_sound (hc : Coupled db) {output executionMetadata : Dict}
    {artifacts : List Json}
    (hreported : ∀ t n, findTask db.tasks taskId = some t →
      findNodeRun db.nodeRuns t.nodeRunId = some n → R.report
        { n with
          status := .completed, output := some output, executionMetadata := executionMetadata,
          artifactRefs := artifacts, finishedAt := some now }) :
    Sound (complete now taskId workerId leaseToken output executionMetadata artifacts db)
      fun p ↦ Evolves R db p.2 := by
  refine withLease_sound hc fun t n ht hn hmem hid hcoupling hleased ↦ ?_
  subst hid
  refine transitionExecutionTask_sound.bind fun _ hlegal ↦ ?_
  obtain ⟨hnode, hrunning⟩ := running_of_legal hcoupling hleased hlegal (by simp)
  refine Outcome.Holds.bind (advanceNode_sound (n := n) hn ?_) ?_
  · simp [hnode, NodeRunStatus.transitions]
  rintro _ rfl
  refine Evolves.of_update hc hmem hn rfl rfl rfl (fun _ ↦ rfl) (fun _ ↦ rfl)
    (fun _ ↦ rfl) ?_
  refine .of_move rfl rfl rfl ⟨rfl, rfl⟩ (.inr (.inl ⟨rfl, rfl⟩)) ?_ (by simp [hnode]) (by simp)
    (.inr ⟨rfl, by simp [hnode]⟩) (fun _ _ ↦ hreported t n ht hn) (by simp [hnode])
    (by simp [ExecutionTaskStatus.isQueued]) (by simp)
  rw [hnode, hrunning]
  exact .complete

theorem fail_sound (hc : Coupled db) {error executionMetadata : Dict} {artifacts : List Json}
    (hreported : ∀ t n, findTask db.tasks taskId = some t →
      findNodeRun db.nodeRuns t.nodeRunId = some n → R.report
        { n with
          status := .failed, error := some error, executionMetadata := executionMetadata,
          artifactRefs := artifacts, finishedAt := some now }) :
    Sound (fail now taskId workerId leaseToken error executionMetadata artifacts db)
      fun p ↦ Evolves R db p.2 := by
  refine withLease_sound hc fun t n ht hn hmem hid hcoupling hleased ↦ ?_
  subst hid
  refine transitionExecutionTask_sound.bind fun _ hlegal ↦ ?_
  obtain ⟨hnode, hrunning⟩ := running_of_legal hcoupling hleased hlegal (by simp)
  refine Outcome.Holds.bind (advanceOpenNode_sound (n := n) hn (by rw [hnode]; rfl) ?_) ?_
  · simp [hnode, NodeRunStatus.transitions]
  rintro _ rfl
  refine Evolves.of_update hc hmem hn rfl rfl rfl (fun _ ↦ rfl) (fun _ ↦ rfl)
    (fun _ ↦ rfl) ?_
  refine .of_move rfl rfl rfl ⟨rfl, rfl⟩ (.inr (.inl ⟨rfl, rfl⟩)) ?_ (by simp [hnode]) (by simp)
    (.inl rfl) (fun _ _ ↦ hreported t n ht hn) (by simp [hnode])
    (by simp [ExecutionTaskStatus.isQueued]) (by simp)
  rw [hnode, hrunning]
  exact .fail

theorem waitNode_sound (hc : Coupled db) {waitingReason : String} {waitingMetadata : Dict}
    (hreported : ∀ t n, findTask db.tasks taskId = some t →
      findNodeRun db.nodeRuns t.nodeRunId = some n → R.report
        { n with
          status := .waiting, waitingReason := some waitingReason,
          waitingMetadata := waitingMetadata }) :
    Sound (waitNode now taskId workerId leaseToken waitingReason waitingMetadata db)
      fun p ↦ Evolves R db p.2 := by
  refine withLease_sound hc fun t n ht hn hmem hid hcoupling hleased ↦ ?_
  subst hid
  refine transitionExecutionTask_sound.bind fun _ hlegal ↦ ?_
  obtain ⟨hnode, hrunning⟩ := running_of_legal hcoupling hleased hlegal (by simp)
  refine Outcome.Holds.bind (advanceNode_sound (n := n) hn ?_) ?_
  · simp [hnode, NodeRunStatus.transitions]
  rintro _ rfl
  refine Outcome.Holds.ite (fun _ ↦ Outcome.holds_throw_bind.mpr id) fun _ ↦ ?_
  refine Evolves.of_update hc hmem hn rfl rfl rfl (fun _ ↦ rfl) (fun _ ↦ rfl)
    (fun _ ↦ rfl) ?_
  refine .of_move rfl rfl rfl ⟨rfl, rfl⟩ (.inr (.inl ⟨rfl, rfl⟩)) ?_ (by simp [hnode]) (by simp)
    (.inl rfl) (fun _ _ ↦ hreported t n ht hn) (by simp [hnode])
    (by simp [ExecutionTaskStatus.isQueued]) (by simp)
  rw [hnode, hrunning]
  exact .wait

theorem scheduleRetry_sound (hc : Coupled db) {backoffSeconds : ℕ} :
    Sound (scheduleRetry now taskId workerId leaseToken backoffSeconds db)
      fun p ↦ Evolves R db p.2 := by
  refine withLease_sound hc fun t n _ hn hmem hid hcoupling hleased ↦ ?_
  subst hid
  refine transitionExecutionTask_sound.bind fun _ hlegal ↦ ?_
  obtain ⟨hnode, hrunning⟩ := running_of_legal hcoupling hleased hlegal (by simp)
  refine Outcome.Holds.bind (nodeStatus_sound (n := n) hc.nodeIds_nodup hn (.inr ?_)) ?_
  · simp [hnode, NodeRunStatus.transitions]
  rintro _ rfl
  refine Evolves.of_update hc hmem hn rfl rfl rfl (fun _ ↦ rfl) (fun _ ↦ rfl)
    (fun _ ↦ rfl) ?_
  refine .of_move rfl rfl rfl ⟨rfl, rfl⟩ (.inl rfl) ?_ (by simp [hnode]) (by simp)
    (.inl rfl) (by simp) (by simp [hnode]) (fun _ ↦ rfl) (by simp)
  rw [hnode, hrunning]
  exact .retry

/-- An update of a task that keeps its status and its holder moves no cell. -/
theorem Evolves.of_task (hc : Coupled db) {db' : RunRecord} {t : ExecutionTask}
    {n : NodeRun} (hmem : t ∈ db.tasks) (hn : findNodeRun db.nodeRuns t.nodeRunId = some n)
    {ft : ExecutionTask → ExecutionTask} (hrun : db'.run = db.run)
    (hnodes : db'.nodeRuns = db.nodeRuns)
    (htasks : db'.tasks = Table.modify ExecutionTask.id t.id ft db.tasks)
    (htid : ∀ r, (ft r).id = r.id) (htnode : ∀ r, (ft r).nodeRunId = r.nodeRunId)
    (hstep : CellStep R db n (some t) n (some (ft t))) : Evolves R db db' :=
  .of_update hc hmem hn hrun (hnodes.trans (Table.modify_id _ _).symm) htasks (fun _ ↦ rfl) htid
    htnode hstep

theorem renewLease_sound (hc : Coupled db) {leaseSeconds : ℕ} :
    Sound (renewLease now taskId workerId leaseToken leaseSeconds db)
      fun p ↦ Evolves R db p.2 := by
  refine withLease_sound hc fun t n ht hn hmem hid _ _ ↦ ?_
  subst hid
  exact .of_task hc hmem hn rfl rfl rfl (fun _ ↦ rfl) (fun _ ↦ rfl)
    (.of_eq rfl rfl rfl rfl rfl rfl rfl)

/-! ## Claim and start -/

/-- The end of `claim` with `auto_start`, of `runner_claim` and of `start`: the cell
is launched. -/
theorem Evolves.launch (hc : Coupled db) {db' : RunRecord} {t : ExecutionTask} {n : NodeRun}
    (hmem : t ∈ db.tasks) (hn : findNodeRun db.nodeRuns t.nodeRunId = some n)
    (hcoupling : Coupling n.isInput (n.status, some t.status))
    (ht : t.status = .pending ∨ t.status = .claimed)
    {fn : NodeRun → NodeRun} {ft : ExecutionTask → ExecutionTask} (hrun : db'.run = db.run)
    (hnodes : db'.nodeRuns = Table.modify NodeRun.nodeId t.nodeRunId fn db.nodeRuns)
    (htasks : db'.tasks = Table.modify ExecutionTask.id t.id ft db.tasks)
    (hfn : ∀ r, (fn r).nodeId = r.nodeId ∧ (fn r).nodeType = r.nodeType ∧
      (fn r).nodeSubtype = r.nodeSubtype ∧ (fn r).status = .running ∧ (fn r).output = r.output)
    (hft : ∀ r, (ft r).id = r.id ∧ (ft r).nodeRunId = r.nodeRunId ∧ (ft r).status = .running ∧
      (ft r).requiredCapability = r.requiredCapability)
    (hholder : ((ft t).lockedBy = t.lockedBy ∧ (ft t).leaseToken = t.leaseToken) ∨
      ∃ party token, (ft t).lockedBy = some party ∧ (ft t).leaseToken = some token ∧
        R.grant t.id party token) :
    Evolves R db db' := by
  refine .of_update hc hmem hn hrun hnodes htasks (fun r ↦ (hfn r).1) (fun r ↦ (hft r).1)
    (fun r ↦ (hft r).2.1) ?_
  obtain ⟨hid, htype, hsubtype, hstatus, houtput⟩ := hfn n
  have hopen : n.status ≠ .pending ∧ n.status ≠ .waiting := by
    rcases ht with h | h <;> rw [h] at hcoupling <;> rcases hcoupling with h | h <;> simp [h]
  refine .of_move hid htype hsubtype ⟨(hft t).1, (hft t).2.2.2⟩ (.inr ?_) ?_ hopen.1
    (by simp [hstatus]) (.inl houtput) (by simp [hstatus]) (fun h ↦ absurd h hopen.2)
    (by simp [(hft t).2.2.1, ExecutionTaskStatus.isQueued]) (by simp [hstatus])
  · rw [(hft t).1]
    exact hholder
  rw [hstatus, (hft t).2.2.1]
  exact .launch ht

theorem isCandidate_pending {capabilities : Option (List String)} {t : ExecutionTask}
    (h : isCandidate now workerId capabilities db t = true) : t.status = .pending := by
  simp only [isCandidate, claimable, Bool.decide_and, Bool.and_eq_true, decide_eq_true_eq] at h
  exact h.1.1

/-- The NodeRun of a pending or claimed task may start. -/
theorem launch_legal {n : NodeRun} {s : ExecutionTaskStatus}
    (hcoupling : Coupling n.isInput (n.status, some s)) (hs : s = .pending ∨ s = .claimed) :
    n.status = .running ∨ NodeRunStatus.running ∈ n.status.transitions := by
  rcases hs with rfl | rfl <;> rcases hcoupling with h | h <;>
    simp [h, NodeRunStatus.transitions]

theorem claim_sound (hc : Coupled db) {leaseSeconds : ℕ} {capabilities : Option (List String)}
    {autoStart : Bool} (hgrant : R.grant taskId workerId leaseToken) :
    Sound (claim now workerId leaseToken leaseSeconds capabilities autoStart taskId db)
      fun p ↦ Evolves R db p.2 := by
  unfold claim
  split
  · next t ht =>
    obtain ⟨n, hn, hmem, hid, hcoupling⟩ := hc.cell_of_task ht
    subst hid
    refine Outcome.Holds.ite (fun _ ↦ Evolves.refl hc.toKeyed) fun hcandidate ↦ ?_
    have hpending := isCandidate_pending (by simpa using hcandidate)
    refine Outcome.Holds.ite (fun _ ↦ ?_) fun _ ↦ ?_
    · refine .of_task hc hmem hn rfl rfl rfl (fun _ ↦ rfl) (fun _ ↦ rfl) ?_
      have hopen : n.status ≠ .pending ∧ n.status ≠ .cancelled ∧ n.status ≠ .waiting := by
        rw [hpending] at hcoupling
        rcases hcoupling with h | h <;> simp [h]
      refine .of_move rfl rfl rfl ⟨rfl, rfl⟩ (.inr (.inr ⟨_, _, rfl, rfl, hgrant⟩)) ?_ hopen.1
        hopen.2.1 (.inl rfl) (fun h ↦ by simp [h]) (fun h ↦ absurd h hopen.2.2)
        (by simp [grantLease, ExecutionTaskStatus.isQueued]) (by simp [grantLease])
      rw [hpending]
      exact .claim
    · refine transitionExecutionTask_sound.bind fun _ _ ↦ ?_
      refine Outcome.Holds.bind (nodeStatus_sound (n := n) hc.nodeIds_nodup hn
        (launch_legal hcoupling (.inl hpending))) ?_
      rintro _ rfl
      refine Evolves.launch hc hmem hn hcoupling (.inl hpending) rfl rfl
        (Table.modify_modify ?_ _ _) (fun _ ↦ ⟨rfl, rfl, rfl, rfl, rfl⟩) (fun _ ↦ ⟨rfl, rfl, rfl, rfl⟩)
        (.inr ⟨_, _, rfl, rfl, hgrant⟩)
      exact fun _ ↦ rfl
  · exact Evolves.refl hc.toKeyed

theorem nodeCancelled_sound {db : RunRecord} {id : NodeId} {n : NodeRun}
    (hn : findNodeRun db.nodeRuns id = some n) (hopen : n.status.isTerminal = false) :
    Sound (nodeCancelled now db id) fun db' ↦
      db' = db.modifyNode id fun r ↦ { r with status := .cancelled, finishedAt := some now } :=
  advanceOpenNode_sound hn hopen (NodeRunStatus.cancelled_mem_transitions hopen)

theorem releaseOrCancelForRunState_sound (hc : Coupled db) {t : ExecutionTask} {n : NodeRun}
    (hmem : t ∈ db.tasks) (hn : findNodeRun db.nodeRuns t.nodeRunId = some n)
    (hcoupling : Coupling n.isInput (n.status, some t.status))
    (hleased : t.status = .claimed ∨ t.status = .running) (hrun : db.run.status ≠ .running) :
    Sound (releaseOrCancelForRunState now db t) (Evolves R db) := by
  have hlive : t.status.isTerminal = false := by rcases hleased with h | h <;> rw [h] <;> rfl
  have hopen := hcoupling.open_of_live hlive
  have hpending : n.status ≠ .pending ∧ n.status ≠ .waiting := by
    rcases hleased with h | h <;> rw [h] at hcoupling
    · rcases hcoupling with h | h <;> simp [h]
    · simp only [Coupling] at hcoupling
      simp [hcoupling]
  refine Outcome.Holds.ite (fun _ ↦ ?_) fun hother ↦ ?_
  · refine transitionExecutionTask_sound.bind fun _ _ ↦ ?_
    refine .of_task hc hmem hn rfl rfl rfl (fun _ ↦ rfl) (fun _ ↦ rfl) ?_
    refine .of_move rfl rfl rfl ⟨rfl, rfl⟩ (.inl rfl) (.release hleased) hpending.1 ?_ (.inl rfl)
      (fun h ↦ by simp [h]) (fun h ↦ absurd h hpending.2) (fun _ ↦ rfl) (by simp)
    intro h
    simp [h, NodeRunStatus.isTerminal] at hopen
  · refine transitionExecutionTask_sound.bind fun _ _ ↦ ?_
    refine Outcome.Holds.weaken (nodeCancelled_sound (n := n) ?_ hopen) ?_
    · exact hn
    rintro _ rfl
    refine Evolves.of_update hc hmem hn rfl rfl rfl (fun _ ↦ rfl) (fun _ ↦ rfl) (fun _ ↦ rfl) ?_
    exact
      { nodeId := rfl
        nodeType := rfl
        nodeSubtype := rfl
        move := .inr (.cancelTask hlive)
        output := .inl rfl
        queued := fun h ↦ absurd h hpending.1
        skipped := fun h ↦ absurd h hpending.1
        cancelled := fun _ _ ↦ by
          cases h : db.run.status <;> simp_all [WorkflowRunStatus.isTerminal]
        reported := fun _ h ↦ by simp at h
        resolved := fun h ↦ absurd h hpending.2
        rejected := fun h ↦ by simp at h
        taskId := fun u u' hu hu' ↦ by
          cases hu
          cases hu'
          rfl
        lease := fun u hu hqueued ↦ by
          cases hu
          cases hqueued
        holder := fun u hu ↦ by
          cases hu
          exact .inr (.inl ⟨t, rfl, rfl, rfl⟩)
        capability := fun u hu h ↦ by
          cases hu
          exact .inl ⟨t, rfl, h⟩ }

theorem start_sound (hc : Coupled db) :
    Sound (start now taskId workerId leaseToken db) fun p ↦ Evolves R db p.2 := by
  unfold start
  split
  · next t ht =>
    obtain ⟨n, hn, hmem, hid, hcoupling⟩ := hc.cell_of_task ht
    subst hid
    refine Outcome.Holds.ite (fun _ ↦ Evolves.refl hc.toKeyed) fun howns ↦ ?_
    have hleased := hc.leased hmem (by simpa using howns)
    refine Outcome.Holds.ite (fun hrun ↦ ?_) fun _ ↦ ?_
    · exact (releaseOrCancelForRunState_sound hc hmem hn hcoupling hleased hrun).bind fun _ h ↦ h
    · refine transitionExecutionTask_sound.bind fun _ hlegal ↦ ?_
      have hclaimed : t.status = .claimed := by
        rcases hleased with h | h
        · exact h
        · simp [h, ExecutionTaskStatus.transitions] at hlegal
      refine Outcome.Holds.bind (nodeStatus_sound (n := n) hc.nodeIds_nodup hn
        (launch_legal hcoupling (.inr hclaimed))) ?_
      rintro _ rfl
      exact Evolves.launch hc hmem hn hcoupling (.inr hclaimed) rfl rfl rfl
        (fun _ ↦ ⟨rfl, rfl, rfl, rfl, rfl⟩) (fun _ ↦ ⟨rfl, rfl, rfl, rfl⟩) (.inl ⟨rfl, rfl⟩)
  · exact Evolves.refl hc.toKeyed

/-! ## Recovery -/

/-- An operation that updates every task alike. -/
theorem Evolves.of_tasks (hc : Coupled db) {db' : RunRecord} {ft : ExecutionTask → ExecutionTask}
    (hrun : db'.run = db.run) (hnodes : db'.nodeRuns = db.nodeRuns)
    (htasks : db'.tasks = db.tasks.map ft) (htid : ∀ r, (ft r).id = r.id)
    (htnode : ∀ r, (ft r).nodeRunId = r.nodeRunId)
    (hstep : ∀ n t, t ∈ db.tasks → Coupling n.isInput (n.status, some t.status) →
      CellStep R db n (some t) n (some (ft t))) : Evolves R db db' := by
  refine .of_rows hc.toKeyed hrun (hnodes.trans (List.map_id' _).symm)
    (by rw [htasks, Table.map_key_map htid]) (by rw [htasks, Table.map_key_map htnode])
    (fun _ ↦ rfl) fun n hn ↦ ?_
  have htask' : taskOfNode db'.tasks n.nodeId = (taskOfNode db.tasks n.nodeId).map ft := by
    rw [htasks]
    exact Table.find?_map htnode _ _
  rw [htask']
  cases htask : taskOfNode db.tasks n.nodeId with
  | none => exact .refl n none
  | some t =>
      have hcoupling := hc.coupling _ n (hc.findNodeRun_eq_some_iff.mpr ⟨hn, rfl⟩)
      rw [cellStatus, htask] at hcoupling
      exact hstep n t (hc.taskOfNode_eq_some_iff.mp htask).1 hcoupling

theorem recoverExpired_evolves (hc : Coupled db) : Evolves R db (recoverExpired now db) := by
  refine Evolves.of_tasks hc rfl rfl rfl
    (fun r ↦ by split <;> rfl) (fun r ↦ by split <;> rfl) fun n t _ hcoupling ↦ ?_
  by_cases hexpired : leaseExpired now t = true
  · simp only [hexpired, if_true]
    have hleased : t.status = .claimed ∨ t.status = .running := by
      simp only [leaseExpired, Bool.decide_and, Bool.decide_or, Bool.and_eq_true, Bool.or_eq_true,
        decide_eq_true_eq] at hexpired
      exact hexpired.1
    have hnode : n.status = .queued ∨ n.status = .running := by
      rcases hleased with h | h <;> rw [h] at hcoupling
      · exact hcoupling
      · exact .inr hcoupling
    refine .of_move rfl rfl rfl ⟨rfl, rfl⟩ (.inl rfl) (.release hleased) ?_ ?_ (.inl rfl)
      (fun h ↦ by simp [h]) (fun h ↦ ?_) (fun _ ↦ rfl) (by simp)
    · rcases hnode with h | h <;> simp [h]
    · rcases hnode with h | h <;> simp [h]
    · simp [h] at hnode
  · simp only [hexpired, if_false, Bool.false_eq_true]
    exact .refl n _

theorem promoteRetry_sound (hc : Coupled db) {t : ExecutionTask} (hmem : t ∈ db.tasks)
    (hretry : t.status = .retryWait) :
    Sound (promoteRetry db t) fun db' ↦ Evolves R db db' ∧
      ∀ u ∈ db.tasks, u.id ≠ t.id → u ∈ db'.tasks := by
  obtain ⟨n, hn, -, -, hcoupling⟩ := hc.cell_of_task (hc.findTask_eq_some_iff.mpr ⟨hmem, rfl⟩)
  rw [hretry] at hcoupling
  have hnode : n.status = .retrying := hcoupling
  refine Outcome.Holds.bind (nodeStatus_sound (n := n) hc.nodeIds_nodup hn (.inr ?_)) ?_
  · simp [hnode, NodeRunStatus.transitions]
  rintro _ rfl
  refine ⟨?_, fun u hu hne ↦ Table.mem_modify.mpr (.inr ⟨hu, hne⟩)⟩
  refine Evolves.of_update hc hmem hn rfl rfl rfl (fun _ ↦ rfl) (fun _ ↦ rfl) (fun _ ↦ rfl) ?_
  refine .of_move rfl rfl rfl ⟨rfl, rfl⟩ (.inr (.inl ⟨rfl, rfl⟩)) ?_ (by simp [hnode]) (by simp)
    (.inl rfl) (by simp [hnode]) (by simp [hnode])
    (fun _ ↦ hc.unleased t hmem (by simp [hretry, ExecutionTaskStatus.isQueued])) (by simp)
  rw [hnode, hretry]
  exact .requeue

/-- In the loop over the due retries the remaining ones are still as they were. -/
structure RetryLoop (R : Rights) (db : RunRecord) (rest : List ExecutionTask)
    (db' : RunRecord) : Prop where
  steps : CellSteps R db db'
  nodup : (rest.map ExecutionTask.id).Nodup
  due : ∀ t ∈ rest, t ∈ db'.tasks ∧ t.status = .retryWait

theorem RetryLoop.next (hc : Coupled db) {t : ExecutionTask} {rest : List ExecutionTask}
    {db' : RunRecord} (h : RetryLoop R db (t :: rest) db') :
    Sound (promoteRetry db' t) (RetryLoop R db rest) := by
  obtain ⟨hmem, hretry⟩ := h.due t (by simp)
  have hnodup := h.nodup
  rw [List.map_cons, List.nodup_cons] at hnodup
  have hpromoted : Sound (promoteRetry db' t) fun db'' ↦ Evolves R db' db'' ∧
      ∀ u ∈ db'.tasks, u.id ≠ t.id → u ∈ db''.tasks :=
    promoteRetry_sound (h.steps.coupled hc) hmem hretry
  refine hpromoted.weaken ?_
  rintro db'' ⟨hevolves, hkept⟩
  refine ⟨h.steps.tail hevolves, hnodup.2, fun u hu ↦ ?_⟩
  obtain ⟨humem, huretry⟩ := h.due u (by simp [hu])
  refine ⟨hkept u humem fun heq ↦ hnodup.1 ?_, huretry⟩
  rw [← heq]
  exact List.mem_map_of_mem hu

theorem RetryLoop.start (hc : Coupled db) :
    RetryLoop R db (db.tasks.filter (retryDue now)) db := by
  refine ⟨.refl, hc.taskIds_nodup.sublist (List.filter_sublist.map _), fun t ht ↦ ?_⟩
  obtain ⟨hmem, hdue⟩ := List.mem_filter.mp ht
  simp only [retryDue, Bool.decide_and, Bool.and_eq_true, decide_eq_true_eq] at hdue
  exact ⟨hmem, hdue.1⟩

theorem promoteDueRetries_sound (hc : Coupled db) :
    Sound (promoteDueRetries now db) (CellSteps R db) :=
  Outcome.Holds.weaken (Outcome.holds_foldlM (fun _ _ _ ↦ RetryLoop.next hc) _ _ (.start hc))
    fun _ h ↦ h.steps

end Relayvia
