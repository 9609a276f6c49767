import Relayvia.Operations.System

/-!
# The coupling of tasks and NodeRuns

The invariant behind all operations, read back on the rows of a reachable state.
-/

namespace Relayvia

variable {env : Env} {db : RunRecord}

/-- What the tasks of a NodeRun say about its status. -/
structure TaskCoupling (db : RunRecord) (n : NodeRun) : Prop where
  atMostOne : db.tasks.countP (·.nodeRunId = n.nodeId) ≤ 1
  noTask : (∀ t ∈ db.tasks, t.nodeRunId ≠ n.nodeId) →
    n.status = .pending ∨ n.status = .skipped ∨ n.status = .cancelled ∨
      (n.isInput = true ∧ n.status = .completed)
  queued : ∀ t ∈ db.tasks, t.nodeRunId = n.nodeId → t.status = .pending ∨ t.status = .claimed →
    n.status = .queued ∨ n.status = .running
  running : ∀ t ∈ db.tasks, t.nodeRunId = n.nodeId → t.status = .running → n.status = .running
  retrying : ∀ t ∈ db.tasks, t.nodeRunId = n.nodeId → t.status = .retryWait →
    n.status = .retrying
  completed : ∀ t ∈ db.tasks, t.nodeRunId = n.nodeId → t.status = .completed →
    n.status = .completed ∨ n.status = .waiting ∨
      (n.status = .failed ∧ n.error = rejection.error) ∨ n.status = .cancelled
  failed : ∀ t ∈ db.tasks, t.nodeRunId = n.nodeId → t.status = .failed → n.status = .failed
  cancelled : ∀ t ∈ db.tasks, t.nodeRunId = n.nodeId → t.status = .cancelled →
    n.status = .cancelled

theorem Coupled.countP_le_one (hc : Coupled db) (id : NodeId) :
    db.tasks.countP (·.nodeRunId = id) ≤ 1 := by
  have hcount := List.nodup_iff_count_le_one.mp hc.taskNodes id
  rw [List.count, List.countP_map] at hcount
  rwa [List.countP_congr (q := fun t ↦ decide (t.nodeRunId = id)) fun t _ ↦ by simp] at hcount

theorem Coupled.taskCoupling (hc : Coupled db) {n : NodeRun} (hn : n ∈ db.nodeRuns) :
    TaskCoupling db n := by
  have hfind := hc.findNodeRun_eq_some_iff.mpr ⟨hn, rfl⟩
  have hcoupling := hc.coupling _ n hfind
  have htask : ∀ t ∈ db.tasks, t.nodeRunId = n.nodeId →
      Coupling n.isInput (n.status, some t.status) := by
    intro t ht hkey
    rwa [cellStatus, hc.taskOfNode_eq_some_iff.mpr ⟨ht, hkey⟩] at hcoupling
  refine
    { atMostOne := hc.countP_le_one n.nodeId
      noTask := fun hnone ↦ ?_
      queued := fun t ht hkey hstatus ↦ ?_
      running := fun t ht hkey hstatus ↦ ?_
      retrying := fun t ht hkey hstatus ↦ ?_
      completed := fun t ht hkey hstatus ↦ ?_
      failed := fun t ht hkey hstatus ↦ ?_
      cancelled := fun t ht hkey hstatus ↦ ?_ }
  · rwa [cellStatus, show taskOfNode db.tasks n.nodeId = none from
      Table.find?_eq_none_iff.mpr hnone] at hcoupling
  · have hcell := htask t ht hkey
    rcases hstatus with h | h <;> rwa [h] at hcell
  · simpa [Coupling, hstatus] using htask t ht hkey
  · simpa [Coupling, hstatus] using htask t ht hkey
  · have hcell := htask t ht hkey
    rw [hstatus] at hcell
    rcases hcell with h | h | h | h
    · exact .inl h
    · exact .inr (.inl h)
    · have herror := hc.rejected _ n t hfind (hc.taskOfNode_eq_some_iff.mpr ⟨ht, hkey⟩) h hstatus
      exact .inr (.inr (.inl ⟨h, herror⟩))
    · exact .inr (.inr (.inr h))
  · simpa [Coupling, hstatus] using htask t ht hkey
  · simpa [Coupling, hstatus] using htask t ht hkey

/-- In every reachable state each NodeRun has at most one task, their statuses are
coupled, and so no operation makes an illegal NodeRun transition or inserts a
second task. -/
theorem reachable_taskCoupling (h : Reachable env db) :
    (∀ n ∈ db.nodeRuns, TaskCoupling db n) ∧
      ∀ op error, RunOp.exec env op db = .error error → ¬StatusFault error := by
  have hc := h.coupled
  refine ⟨fun n hn ↦ hc.taskCoupling hn, fun op error herror ↦ ?_⟩
  exact (RunOp.exec_sound hc (RunOp.promised_all db op)).of_error herror

/-! ## A concrete run -/

/-- An environment for runs on fixed inputs: no text is an instant, every schema
holds, and nothing is redacted. -/
def plainEnv : Env where
  pyStr _ := ""
  pyInt
    | .int i => some i
    | _ => none
  isoformat _ := ""
  fromisoformat _ := .malformed
  shlexQuote s := s
  sanitizeOutput
    | .obj fields => fields
    | value => [("value", value)]
  sanitizeError error := error
  sanitizeMetadata
    | .obj fields => fields
    | _ => []
  sanitizeArtifacts artifacts := artifacts
  registerArtifacts _ := .ok ([], [])
  schemaValid _ := true
  schemaErrors _ _ := []

/-- Data Input, Human Approval, Data Output. -/
def approvalGraph : ParsedGraph where
  nodes :=
    [{ id := "in", type := .data, subtype := "input", name := "Input" },
      { id := "ask", type := .human, subtype := "approval", name := "Approval" },
      { id := "out", type := .data, subtype := "output", name := "Output" }]
  edges :=
    [{ id := "e1", source := "in", target := "ask" }, { id := "e2", source := "ask", target := "out" }]
  nodeIds_nodup := by decide
  edges_closed := by decide

def approvalRun : RunRecord where
  run := { id := "run", graph := approvalGraph }
  nodeRuns := approvalGraph.nodes.map (createNodeRun [])

theorem createRun_approvalRun :
    createRun plainEnv 0 "run" approvalGraph [] [] = .ok approvalRun :=
  rfl

theorem reachable_taskCoupling_approvalRun :
    (∀ n ∈ approvalRun.nodeRuns, TaskCoupling approvalRun n) ∧
      ∀ op error, RunOp.exec plainEnv op approvalRun = .error error → ¬StatusFault error :=
  reachable_taskCoupling (.created createRun_approvalRun)

end Relayvia
