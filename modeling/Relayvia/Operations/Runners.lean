import Relayvia.Operations.Backend

/-!
# Steps of the Runner service
-/

namespace Relayvia

variable {R : Rights} {env : Env} {now : Time} {taskId : TaskId}
  {leaseToken runnerId : String} {runner : Runner} {db : RunRecord}

theorem startNodeOnRunner_sound {attempt : ℕ} {id : NodeId} {n : NodeRun}
    (hnodup : (db.nodeRuns.map NodeRun.nodeId).Nodup) (hn : findNodeRun db.nodeRuns id = some n)
    (hlegal : n.status = .running ∨ NodeRunStatus.running ∈ n.status.transitions) :
    Sound (startNodeOnRunner now attempt db id) fun db' ↦
      db' = db.modifyNode id fun r ↦
        { r with
          status := .running, attempt := attempt, startedAt := r.startedAt.or (some now) } := by
  refine Outcome.Holds.bind (nodeStatus_sound hnodup hn hlegal) ?_
  rintro _ rfl
  exact db.modifyNode_modifyNode id _ _ fun _ ↦ rfl

theorem runnerClaim_sound (hc : Coupled db) {leaseSeconds : ℕ}
    (hgrant : R.grant taskId runner.id leaseToken) :
    Sound (runnerClaim now runner leaseToken leaseSeconds taskId db)
      fun p ↦ Evolves R db p.2 := by
  unfold runnerClaim
  split
  · next t ht =>
    obtain ⟨n, hn, hmem, hid, hcoupling⟩ := hc.cell_of_task ht
    subst hid
    refine Outcome.Holds.ite (fun _ ↦ Evolves.refl hc.toKeyed) fun hcandidate ↦ ?_
    have hpending := isCandidate_pending (by simpa using hcandidate)
    refine transitionExecutionTask_sound.bind fun _ _ ↦ ?_
    refine Outcome.Holds.bind (startNodeOnRunner_sound (n := n) hc.nodeIds_nodup hn
      (launch_legal hcoupling (.inl hpending))) ?_
    rintro _ rfl
    split
    all_goals
      refine Evolves.launch hc hmem hn hcoupling (.inl hpending) rfl rfl
        (Table.modify_modify ?_ _ _) (fun _ ↦ ⟨rfl, rfl, rfl, rfl, rfl⟩) (fun _ ↦ ⟨rfl, rfl, rfl, rfl⟩)
        (.inr ⟨_, _, rfl, rfl, hgrant⟩)
      exact fun _ ↦ rfl
  · exact Evolves.refl hc.toKeyed

theorem runnerTaskHeartbeat_sound (hc : Coupled db) {leaseSeconds : ℕ} :
    Sound (runnerTaskHeartbeat now runner taskId leaseToken leaseSeconds db)
      fun p ↦ Evolves R db p.2 := by
  have hstale : ¬StatusFault (.relayvia runnerTaskStale) := by
    simp [StatusFault, runnerTaskStale]
  unfold runnerTaskHeartbeat
  split
  · next t ht =>
    obtain ⟨n, hn, hmem, hid, -⟩ := hc.cell_of_task ht
    subst hid
    refine Outcome.Holds.ite (fun _ ↦ hstale) fun _ ↦ ?_
    refine Outcome.Holds.ite (fun _ ↦ Evolves.refl hc.toKeyed) fun _ ↦ ?_
    exact .of_task hc hmem hn rfl rfl rfl (fun _ ↦ rfl) (fun _ ↦ rfl)
      (.of_eq rfl rfl rfl rfl rfl rfl rfl)
  · exact hstale

theorem applySubmission_sound (hc : Coupled db) {t : ExecutionTask} {n : NodeRun}
    {result output metadata : Dict} {references : List Json} {events : List RunEvent}
    (hmem : t ∈ db.tasks) (hn : findNodeRun db.nodeRuns t.nodeRunId = some n)
    (hcoupling : Coupling n.isInput (n.status, some t.status))
    (hleased : t.status = .claimed ∨ t.status = .running)
    (hreported : ∀ n', n'.nodeId = n.nodeId → n'.nodeType = n.nodeType →
      n'.nodeSubtype = n.nodeSubtype → n'.status = .completed ∨ n'.status = .failed → R.report n') :
    Sound (applySubmission env now runnerId t result output metadata references
      { db with events := events }) (Evolves R db) := by
  refine Outcome.Holds.ite (fun _ ↦ ?_) fun _ ↦ Outcome.Holds.ite (fun _ ↦ ?_) fun _ ↦ ?_
  · refine transitionExecutionTask_sound.bind fun _ hlegal ↦ ?_
    obtain ⟨hnode, hrunning⟩ := running_of_legal hcoupling hleased hlegal (by simp)
    refine Outcome.Holds.bind (advanceNode_sound (n := n) hn ?_) ?_
    · simp [hnode, NodeRunStatus.transitions]
    rintro _ rfl
    refine Evolves.of_update hc hmem hn rfl rfl rfl (fun _ ↦ rfl) (fun _ ↦ rfl)
      (fun _ ↦ rfl) ?_
    refine .of_move rfl rfl rfl ⟨rfl, rfl⟩ (.inr (.inl ⟨rfl, rfl⟩)) ?_ (by simp [hnode]) (by simp)
      (.inr ⟨rfl, by simp [hnode]⟩) (fun _ _ ↦ hreported _ rfl rfl rfl (.inl rfl)) (by simp [hnode])
      (by simp [ExecutionTaskStatus.isQueued]) (by simp)
    rw [hnode, hrunning]
    exact .complete
  · refine transitionExecutionTask_sound.bind fun _ hlegal ↦ ?_
    obtain ⟨hnode, hrunning⟩ := running_of_legal hcoupling hleased hlegal (by simp)
    refine Outcome.Holds.bind (nodeStatus_sound (n := n) hc.nodeIds_nodup hn (.inr ?_)) ?_
    · simp [hnode, NodeRunStatus.transitions]
    rintro _ rfl
    refine Evolves.of_update hc hmem hn rfl rfl rfl (fun _ ↦ rfl) (fun _ ↦ rfl)
      (fun _ ↦ rfl) ?_
    refine .of_move rfl rfl rfl ⟨rfl, rfl⟩ (.inl rfl) ?_ (by simp [hnode]) (by simp)
      (.inl rfl) (by simp) (by simp [hnode]) (fun _ ↦ rfl) (by simp)
    rw [hnode, hrunning]
    exact .retry
  · refine transitionExecutionTask_sound.bind fun _ hlegal ↦ ?_
    obtain ⟨hnode, hrunning⟩ := running_of_legal hcoupling hleased hlegal (by simp)
    have hstatus : statusOf db.nodeRuns t.nodeRunId ≠ some .failed := by
      simp [statusOf_eq hn, hnode]
    refine Outcome.Holds.ite (fun h ↦ absurd h hstatus) fun _ ↦ ?_
    refine Outcome.Holds.bind (advanceNode_sound (n := n) hn ?_) ?_
    · simp [hnode, NodeRunStatus.transitions]
    rintro _ rfl
    refine Evolves.of_update hc hmem hn rfl rfl rfl (fun _ ↦ rfl) (fun _ ↦ rfl)
      (fun _ ↦ rfl) ?_
    refine .of_move rfl rfl rfl ⟨rfl, rfl⟩ (.inr (.inl ⟨rfl, rfl⟩)) ?_ (by simp [hnode]) (by simp)
      (.inl rfl) (fun _ _ ↦ hreported _ rfl rfl rfl (.inr rfl)) (by simp [hnode])
      (by simp [ExecutionTaskStatus.isQueued]) (by simp)
    rw [hnode, hrunning]
    exact .fail

theorem submittedArtifacts_sound {result : Dict} {retry : Bool} :
    Sound (submittedArtifacts env result retry) fun _ ↦ True := by
  unfold submittedArtifacts
  split
  · refine Outcome.Holds.ite (fun _ ↦ trivial) fun _ ↦ ?_
    exact Outcome.Holds.lift (Outcome.holds_of_forall (fun _ _ ↦ trivial) fun _ _ ↦ id)
  · trivial

theorem runnerSubmit_sound (hc : Coupled db) {result : Dict}
    (hreported : ∀ t n, findTask db.tasks taskId = some t →
      findNodeRun db.nodeRuns t.nodeRunId = some n → ∀ n', n'.nodeId = n.nodeId →
        n'.nodeType = n.nodeType → n'.nodeSubtype = n.nodeSubtype →
          n'.status = .completed ∨ n'.status = .failed → R.report n') :
    Sound (runnerSubmit env now runnerId taskId leaseToken result db)
      fun p ↦ Evolves R db p.2 := by
  unfold runnerSubmit
  split
  · next t ht =>
    obtain ⟨n, hn, hmem, hid, hcoupling⟩ := hc.cell_of_task ht
    subst hid
    refine Outcome.Holds.ite (fun _ ↦ Evolves.refl hc.toKeyed) fun _ ↦ ?_
    refine Outcome.Holds.ite (fun _ ↦ Evolves.refl hc.toKeyed) fun howns ↦ ?_
    have hleased := hc.leased hmem (by simpa using howns)
    refine submittedArtifacts_sound.bind fun p _ ↦ ?_
    refine Outcome.Holds.bind (applySubmission_sound hc hmem hn hcoupling hleased
      (hreported t n ht hn)) fun db' hdb' ↦ ?_
    split
    · exact Outcome.Holds.ite (fun _ ↦ hdb') fun _ ↦ hdb'.congr rfl rfl rfl
    · exact hdb'
  · exact Evolves.refl hc.toKeyed

end Relayvia
