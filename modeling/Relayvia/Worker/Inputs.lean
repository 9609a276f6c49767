import Relayvia.Progress

/-!
# Inputs under reconciliation

A reconciliation writes only the input of NodeRuns that it queues.
-/

namespace Relayvia

variable {env : Env} {now : Time} {db db' : RunRecord} {s s' : Session}

/-- The rows that are not PENDING stay so and keep their input. -/
def InputsKept (nodeRuns nodeRuns' : List NodeRun) : Prop :=
  ∀ id n, findNodeRun nodeRuns id = some n → n.status ≠ .pending →
    ∃ n', findNodeRun nodeRuns' id = some n' ∧ n'.status ≠ .pending ∧ n'.input = n.input

namespace InputsKept

variable {nodeRuns nodeRuns' nodeRuns'' : List NodeRun}

theorem refl (nodeRuns : List NodeRun) : InputsKept nodeRuns nodeRuns :=
  fun _ n hn hopen ↦ ⟨n, hn, hopen, rfl⟩

theorem trans (h : InputsKept nodeRuns nodeRuns') (h' : InputsKept nodeRuns' nodeRuns'') :
    InputsKept nodeRuns nodeRuns'' := by
  intro id n hn hopen
  obtain ⟨n', hn', hopen', hinput⟩ := h id n hn hopen
  obtain ⟨n'', hn'', hopen'', hinput'⟩ := h' id n' hn' hopen'
  exact ⟨n'', hn'', hopen'', hinput'.trans hinput⟩

theorem map {f : NodeRun → NodeRun} (hid : ∀ n, (f n).nodeId = n.nodeId)
    (hinput : ∀ n, (f n).input = n.input)
    (hopen : ∀ n, n.status ≠ .pending → (f n).status ≠ .pending) (nodeRuns : List NodeRun) :
    InputsKept nodeRuns (nodeRuns.map f) := by
  intro id n hn hpending
  refine ⟨f n, ?_, hopen n hpending, hinput n⟩
  rw [findNodeRun, Table.find?_map hid, ← findNodeRun, hn]
  rfl

end InputsKept

theorem promoteWait_inputs (nodeRuns : List NodeRun) :
    InputsKept nodeRuns (nodeRuns.map (promoteWait env now)) := by
  refine .map (fun n ↦ ?_) (fun n ↦ ?_) (fun n hn ↦ ?_) nodeRuns
  all_goals
    unfold promoteWait
    split
  · rfl
  · rfl
  · rfl
  · rfl
  · simp
  · exact hn

theorem cancelRunTasks_inputs (s : Session) :
    InputsKept s.nodeRuns (cancelRunTasks now s).nodeRuns := by
  refine .map (fun n ↦ ?_) (fun n ↦ ?_) (fun n hn ↦ ?_) s.nodeRuns
  all_goals
    unfold cancelNode
    split
  · rfl
  · rfl
  · rfl
  · rfl
  · simp
  · exact hn

theorem scheduleReadyNodes_inputs (hc : Coupled s.settled)
    (h : scheduleReadyNodes env now s = .ok s') : InputsKept s.nodeRuns s'.nodeRuns := by
  by_cases hrunning : s.run.status = .running
  · have hscheduled := (scheduleReadyNodes_running Rights.all hc hrunning).of_ok h
    intro id n hn hopen
    have hskipped : findNodeRun (skipInactive now s).nodeRuns id = some n :=
      skipLoop_kept _ hn hopen
    rcases hscheduled.row id with ⟨hready, -, -⟩ | hkept
    · have hpending := (isReady_iff.mp (mem_readyNodes.mp hready).2).1
      rw [statusOf, hskipped] at hpending
      exact absurd (Option.some.inj hpending) hopen
    · exact ⟨n, hkept.trans hskipped, hopen, rfl⟩
  · rw [scheduleReadyNodes_idle hrunning] at h
    cases h
    exact .refl _

theorem workflowEvent_nodeRuns (s : Session) (derived : WorkflowRunStatus)
    (reason : Option String) : (workflowEvent s derived reason).nodeRuns = s.nodeRuns := by
  unfold workflowEvent
  split <;> rfl

theorem recordDerived_inputs (now : Time) (current derived : WorkflowRunStatus) (s : Session) :
    InputsKept s.nodeRuns (recordDerived now current derived s).nodeRuns := by
  unfold recordDerived
  split
  · exact .refl _
  · dsimp only
    rw [workflowEvent_nodeRuns]
    split
    · exact cancelRunTasks_inputs s
    · exact .refl _

theorem ReconcileTrace.inputs {s₁ s₂ : Session} {derived : WorkflowRunStatus}
    (h : ReconcileTrace env now db s₁ s₂ derived db') (hc : Coupled db) :
    InputsKept db.nodeRuns db'.nodeRuns := by
  obtain ⟨-, -, -, hpromoted⟩ := promoteDueWaits_ok h.promote
  have hpromote : InputsKept db.nodeRuns s₁.nodeRuns := by
    rw [hpromoted]
    exact promoteWait_inputs db.nodeRuns
  have hschedule := scheduleReadyNodes_inputs (h.promoted_coupled hc) h.schedule
  obtain ⟨finishedAt, s', rfl, -, hfinish⟩ := h.finish
  have hc₂ := h.derived_coupled hc finishedAt
  generalize hs₃ : ({ s₂ with
    run := { s₂.run with status := derived, finishedAt := finishedAt } } : Session) = s₃
      at hfinish hc₂
  have hrun : s₃.run.status = derived := by rw [← hs₃]
  have hnodes : s₃.nodeRuns = s₂.nodeRuns := by rw [← hs₃]
  have hderived : InputsKept db.nodeRuns s₃.nodeRuns := hnodes ▸ hpromote.trans hschedule
  have hrecorded := hderived.trans (recordDerived_inputs now db.run.status derived s₃)
  obtain ⟨s₄, rfl, ⟨-, rfl⟩ | ⟨-, hagain⟩⟩ := reconcileFinish_ok hfinish
  · exact hrecorded
  · exact hrecorded.trans (scheduleReadyNodes_inputs (recordDerived_coupled hc₂ hrun) hagain)

theorem reconcile_inputs (hc : Coupled db) (h : reconcile env now db = .ok db') :
    InputsKept db.nodeRuns db'.nodeRuns := by
  rcases reconcile_cases hc h with ⟨-, rfl⟩ | ⟨-, rfl⟩ | ⟨-, s₁, s₂, derived, htrace⟩
  · exact cancelRunTasks_inputs { db with }
  · exact .refl _
  · exact htrace.inputs hc

end Relayvia
