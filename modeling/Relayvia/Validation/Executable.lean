import Mathlib.Data.Fintype.EquivFin
import Mathlib.Data.Fintype.Sets
import Relayvia.Branching

/-!
# Executable graphs

What an accepted graph promises to the scheduler: no cycle, one entry that reaches every
node, a Data Output behind every node, and the two branches of every Condition.
-/

namespace Relayvia

structure Executable (g : WorkflowGraph) : Prop where
  acyclic : ∀ id, ¬Relation.TransGen g.Arc id id
  entry : ∃ entry ∈ g.nodes, g.nodes.filter WorkflowNode.isInput = [entry] ∧
    ∀ node ∈ g.nodes, Relation.ReflTransGen g.Arc entry.id node.id
  output : ∀ node ∈ g.nodes, ∃ output ∈ g.nodes, output.isOutput = true ∧
    Relation.ReflTransGen g.Arc node.id output.id
  branches : ∀ node ∈ g.nodes, node.isCondition = true →
    ((g.outgoingEdges node.id).filter (·.sourceHandle = some "true")).length = 1 ∧
      ((g.outgoingEdges node.id).filter (·.sourceHandle = some "false")).length = 1 ∧
        ∀ e ∈ g.outgoingEdges node.id, e.sourceHandle = some "true" ∨ e.sourceHandle = some "false"

variable {env : Env} {context : ValidationContext} {g : WorkflowGraph}

/-! ## Identity -/

theorem nodup_of_duplicated {ids : List String} (h : duplicated ids = []) : ids.Nodup := by
  rw [List.nodup_iff_count_le_one]
  intro id
  by_contra hcount
  have hlt : 1 < ids.count id := Nat.lt_of_not_le hcount
  have hmem : id ∈ ids := List.count_pos_iff.mp (Nat.zero_lt_of_lt hlt)
  have hdup : id ∈ duplicated ids :=
    List.mem_filter.mpr ⟨List.mem_eraseDups.mpr hmem, decide_eq_true hlt⟩
  rw [h] at hdup
  cases hdup

theorem edges_closed_of_clean {seen : List (NodeId × NodeId × Option String)}
    {edges : List WorkflowEdge} (h : Clean (edgesIdentityIssues g seen edges)) :
    ∀ e ∈ edges, e.source ∈ g.nodeIds ∧ e.target ∈ g.nodeIds := by
  induction edges generalizing seen with
  | nil =>
      intro e he
      cases he
  | cons first edges ih =>
      rw [edgesIdentityIssues, clean_append] at h
      intro e he
      rcases List.mem_cons.mp he with rfl | he
      · have hfirst := h.1
        simp only [edgeIdentityIssues, clean_append, clean_issueIf] at hfirst
        constructor
        · by_contra hnot
          exact hfirst.1.1.1 hnot rfl
        · by_contra hnot
          exact hfirst.1.1.2 hnot rfl
      · exact ih h.2 e he

/-- The validation engine accepts only what the parser does. -/
theorem Accepted.parsed (h : Accepted env context g) : ∃ p : ParsedGraph, p.toWorkflowGraph = g := by
  obtain ⟨-, -, -, -, -, -, -, -, -, hidentity, -⟩ := accepted_iff.mp h
  simp only [validateIdentity, clean_append, clean_map] at hidentity
  have hnodup : g.nodeIds.Nodup := by
    apply nodup_of_duplicated
    apply List.eq_nil_iff_forall_not_mem.mpr
    intro id hid
    exact hidentity.1.1 id hid rfl
  exact ⟨{ toWorkflowGraph := g, nodeIds_nodup := hnodup,
           edges_closed := edges_closed_of_clean hidentity.2 }, rfl⟩

/-! ## Paths to an output -/

namespace ParsedGraph

variable {p : ParsedGraph}

/-- Every path of an acyclic graph ends. -/
theorem swap_arc_wellFounded (h : ∀ id, ¬Relation.TransGen p.Arc id id) :
    WellFounded fun a b : { id // id ∈ p.nodeIds } ↦ Relation.TransGen p.Arc b.1 a.1 := by
  have htrans : IsTrans { id // id ∈ p.nodeIds } fun a b ↦ Relation.TransGen p.Arc b.1 a.1 :=
    ⟨fun _ _ _ hab hbc ↦ hbc.trans hab⟩
  have hirrefl : Std.Irrefl fun a b : { id // id ∈ p.nodeIds } ↦
      Relation.TransGen p.Arc b.1 a.1 :=
    ⟨fun a ↦ h a.1⟩
  exact Finite.wellFounded_of_trans_of_irrefl _

/-- Where every node either reaches an output or has a way on, every node reaches one. -/
theorem output_of_outgoing (h : ∀ id, ¬Relation.TransGen p.Arc id id)
    (hstep : ∀ node ∈ p.nodes,
      (∃ output ∈ p.outputNodeIds, Relation.ReflTransGen p.Arc node.id output) ∨
        p.outgoingEdges node.id ≠ []) :
    ∀ node ∈ p.nodes, ∃ output ∈ p.outputNodeIds, Relation.ReflTransGen p.Arc node.id output := by
  have hall : ∀ id : { id // id ∈ p.nodeIds },
      ∃ output ∈ p.outputNodeIds, Relation.ReflTransGen p.Arc id.1 output := by
    intro id
    induction id using (swap_arc_wellFounded h).induction with
    | _ id ih =>
      obtain ⟨node, hnode, hid⟩ := List.mem_map.mp id.2
      rcases hstep node hnode with houtput | hnext
      · rwa [← hid]
      · obtain ⟨e, he⟩ := List.exists_mem_of_ne_nil _ hnext
        obtain ⟨he, hsource⟩ := List.mem_filter.mp he
        have harc : p.Arc id.1 e.target := ⟨e, he, by simpa [hid] using hsource, rfl⟩
        obtain ⟨output, houtput, hpath⟩ := ih ⟨e.target, (p.edges_closed e he).2⟩ (.single harc)
        exact ⟨output, houtput, .head harc hpath⟩
  intro node hnode
  exact hall ⟨node.id, List.mem_map_of_mem hnode⟩

end ParsedGraph

/-! ## Branches -/

theorem branches_of_clean {node : WorkflowNode} (h : Clean (branchIssues g node)) :
    ((g.outgoingEdges node.id).filter (·.sourceHandle = some "true")).length = 1 ∧
      ((g.outgoingEdges node.id).filter (·.sourceHandle = some "false")).length = 1 ∧
        ∀ e ∈ g.outgoingEdges node.id,
          e.sourceHandle = some "true" ∨ e.sourceHandle = some "false" := by
  simp only [branchIssues, clean_append, clean_flatMap, clean_issueIf] at h
  have hone (handle : String) (hhandle : handle ∈ conditionHandles) :
      ((g.outgoingEdges node.id).filter (·.sourceHandle = some handle)).length = 1 := by
    obtain ⟨hmissing, hseveral⟩ := h.2 handle hhandle
    have hne : ((g.outgoingEdges node.id).filter (·.sourceHandle = some handle)).length ≠ 0 :=
      fun heq ↦ hmissing heq rfl
    have hle : ¬1 < ((g.outgoingEdges node.id).filter (·.sourceHandle = some handle)).length :=
      fun hlt ↦ hseveral hlt rfl
    omega
  refine ⟨hone "true" (by decide), hone "false" (by decide), ?_⟩
  intro e he
  by_contra hother
  exact h.1 e he (not_or.mp hother) rfl

/-- The rule for a Condition of the graph found nothing. -/
theorem conditionIssues_of_validateNodes {issues : List ValidationIssue}
    (h : validateNodes env g = .ok issues) (hclean : Clean issues) {node : WorkflowNode}
    (hnode : node ∈ g.nodes) (hcondition : node.isCondition = true) :
    ∃ found, conditionIssues env g node = .ok found ∧ Clean found := by
  obtain ⟨perNode, hperNode, h⟩ := Outcome.bind_eq_ok_iff.mp h
  cases h
  obtain ⟨found, hfound, hnodeIssues⟩ := Outcome.exists_of_mapM hperNode hnode
  have hfoundClean : Clean found := fun issue hissue ↦
    hclean issue (List.mem_flatten.mpr ⟨found, hfound, hissue⟩)
  obtain ⟨htype, hsubtype⟩ : node.type = .logic ∧ node.subtype = "condition" := by
    simpa [WorkflowNode.isCondition] using hcondition
  simp only [htype, logicIssues, hsubtype] at hnodeIssues
  exact ⟨found, hnodeIssues, hfoundClean⟩

/-- Its expression and its branches are accepted. -/
theorem of_conditionIssues {node : WorkflowNode} {found : List ValidationIssue}
    (h : conditionIssues env g node = .ok found) (hclean : Clean found) :
    ∃ fields clauses, node.configValue "expression" = .obj fields ∧
      validateClause env node (.obj fields) = .ok clauses ∧ Clean clauses ∧
        Clean (branchIssues g node) := by
  unfold conditionIssues at h
  split at h
  · next fields hexpression =>
    obtain ⟨clauses, hclauses, h⟩ := Outcome.bind_eq_ok_iff.mp h
    cases h
    obtain ⟨hclean, hbranches⟩ := clean_append.mp hclean
    exact ⟨fields, clauses, hexpression, hclauses, hclean, hbranches⟩
  · cases h
    exact absurd rfl (hclean _ List.mem_cons_self)

theorem branches_of_validateNodes {issues : List ValidationIssue}
    (h : validateNodes env g = .ok issues) (hclean : Clean issues) {node : WorkflowNode}
    (hnode : node ∈ g.nodes) (hcondition : node.isCondition = true) :
    Clean (branchIssues g node) := by
  obtain ⟨found, hfound, hfoundClean⟩ :=
    conditionIssues_of_validateNodes h hclean hnode hcondition
  obtain ⟨-, -, -, -, -, hbranches⟩ := of_conditionIssues hfound hfoundClean
  exact hbranches

/-! ## Exempt nodes -/

/-- The Parallel, Merge and Condition nodes, which the dead end rule leaves out, have a way
on. -/
theorem outgoing_of_exempt {node : WorkflowNode} (hnode : node ∈ g.nodes)
    (hparallel : Clean (parallelMergeIssues g))
    (hcondition : node.isCondition = true → Clean (branchIssues g node))
    (hlogic : node.isLogic "condition" = true ∨ node.isLogic "parallel" = true ∨
      node.isLogic "merge" = true) : g.outgoingEdges node.id ≠ [] := by
  have hrule := clean_flatMap.mp (clean_append.mp hparallel).1 node hnode
  intro hnone
  rcases hlogic with hlogic | hlogic | hlogic
  · have hone := (branches_of_clean (hcondition hlogic)).1
    rw [hnone] at hone
    cases hone
  · rw [if_pos hlogic, parallelIssues, clean_append, clean_issueIf] at hrule
    exact hrule.1 (by simp [hnone]) rfl
  · have hnotParallel : ¬node.isLogic "parallel" = true := by
      simp only [WorkflowNode.isLogic, decide_eq_true_eq] at hlogic ⊢
      simp [hlogic.2]
    rw [if_neg hnotParallel, if_pos hlogic, mergeIssues, clean_append, clean_issueIf] at hrule
    exact hrule.2 (by simp [hnone]) rfl

/-- An accepted graph is executable. -/
theorem accepted_executable (h : Accepted env context g) : Executable g := by
  obtain ⟨p, rfl⟩ := h.parsed
  obtain ⟨⟨entry, hentry⟩, hwf, -, -, houtgoing⟩ := h.shaped
  have hacyclic : ∀ id, ¬Relation.TransGen p.Arc id id := by
    intro id hid
    exact hwf.transGen.asymmetric id id hid hid
  obtain ⟨-, -, nodeIssues, -, -, -, hnodes, -, -, -, htopology, -, hcleanNodes, -⟩ :=
    accepted_iff.mp h
  simp only [validateTopology, clean_append] at htopology
  obtain ⟨⟨⟨⟨⟨-, houtputs⟩, -⟩, hunreachable⟩, hdead⟩, hparallel⟩ := htopology
  have hreachable := reachable_of_clean hentry h.hasCycle_eq hunreachable
  have hsome : p.outputNodeIds ≠ [] := by
    simpa using (clean_append.mp houtputs).1
  have hbranches {node : WorkflowNode} (hnode : node ∈ p.nodes) :
      node.isCondition = true → Clean (branchIssues p.toWorkflowGraph node) :=
    branches_of_validateNodes hnodes hcleanNodes hnode
  have hstep : ∀ node ∈ p.nodes,
      (∃ output ∈ p.outputNodeIds, Relation.ReflTransGen p.Arc node.id output) ∨
        p.outgoingEdges node.id ≠ [] := by
    intro node hnode
    by_cases hexempt : exemptFromDeadEnd node = true
    · simp only [exemptFromDeadEnd, decide_eq_true_eq] at hexempt
      rcases hexempt with ⟨htype, hinput | houtput⟩ | ⟨htype, hlogic⟩
      · right
        apply houtgoing node hnode
        simp [WorkflowNode.isInput, htype, hinput]
      · left
        refine ⟨node.id, (ParsedGraph.mem_outputNodeIds hnode).mpr ?_, .refl⟩
        simp [WorkflowNode.isOutput, htype, houtput]
      · right
        apply outgoing_of_exempt hnode hparallel (hbranches hnode)
        simpa [WorkflowNode.isLogic, htype] using hlogic
    · left
      have hexempt : exemptFromDeadEnd node = false := by simpa using hexempt
      obtain ⟨output, houtput, hpath⟩ :=
        output_of_clean hentry h.hasCycle_eq hsome hreachable hdead hnode hexempt
      exact ⟨output, houtput, hpath.to_reflTransGen⟩
  constructor
  · exact hacyclic
  · obtain ⟨first, hfirst, hid⟩ := List.map_eq_singleton_iff.mp hentry
    have hmem : first ∈ p.nodes.filter WorkflowNode.isInput := by
      rw [hfirst]
      exact List.mem_cons_self
    refine ⟨first, (List.mem_filter.mp hmem).1, hfirst, ?_⟩
    intro node hnode
    rw [hid]
    exact hreachable node hnode
  · intro node hnode
    obtain ⟨output, houtput, hpath⟩ := ParsedGraph.output_of_outgoing hacyclic hstep node hnode
    obtain ⟨last, hlast, rfl⟩ := List.mem_map.mp houtput
    obtain ⟨hlast, hkind⟩ := List.mem_filter.mp hlast
    exact ⟨last, hlast, hkind, hpath⟩
  · intro node hnode hcondition
    exact branches_of_clean (hbranches hnode hcondition)

theorem accepted_executable_branchGraph : Executable branchGraph.toWorkflowGraph :=
  accepted_executable accepted_branchGraph

end Relayvia
