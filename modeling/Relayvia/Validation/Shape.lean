import Relayvia.Validation.Validator

/-!
# The shape of an accepted graph

What the topology rules promise to the runtime: one entry, no cycle, no node
without a way in, and no dead end behind a node that may wait.
-/

namespace Relayvia

variable {env : Env} {context : ValidationContext}

structure Shaped (g : WorkflowGraph) : Prop where
  entry : ∃ id, g.entryNodeIds = [id]
  acyclic : WellFounded g.Arc
  first : ∀ node ∈ g.nodes, node.isInput = true → g.incomingEdges node.id = []
  incoming : ∀ node ∈ g.nodes, node.isInput = false → g.incomingEdges node.id ≠ []
  outgoing : ∀ node ∈ g.nodes, node.isInput = true ∨ exemptFromDeadEnd node = false →
    g.outgoingEdges node.id ≠ []

namespace ParsedGraph

variable {g : ParsedGraph}

theorem node_eq {n m : WorkflowNode} (hn : n ∈ g.nodes) (hm : m ∈ g.nodes) (hid : n.id = m.id) :
    n = m :=
  List.inj_on_of_nodup_map g.nodeIds_nodup hn hm hid

theorem mem_entryNodeIds {n : WorkflowNode} (hn : n ∈ g.nodes) :
    n.id ∈ g.entryNodeIds ↔ n.isInput = true := by
  simp only [WorkflowGraph.entryNodeIds, List.mem_map, List.mem_filter]
  constructor
  · rintro ⟨m, ⟨hm, hinput⟩, hid⟩
    rwa [← node_eq hm hn hid]
  · exact fun h ↦ ⟨n, ⟨hn, h⟩, rfl⟩

theorem mem_outputNodeIds {n : WorkflowNode} (hn : n ∈ g.nodes) :
    n.id ∈ g.outputNodeIds ↔ n.isOutput = true := by
  simp only [WorkflowGraph.outputNodeIds, List.mem_map, List.mem_filter]
  constructor
  · rintro ⟨m, ⟨hm, houtput⟩, hid⟩
    rwa [← node_eq hm hn hid]
  · exact fun h ↦ ⟨n, ⟨hn, h⟩, rfl⟩

theorem incomingEdges_ne_nil {a b : NodeId} (h : g.Arc a b) : g.incomingEdges b ≠ [] := by
  obtain ⟨e, he, -, htarget⟩ := h
  exact List.ne_nil_of_mem (List.mem_filter.mpr ⟨he, by simpa using htarget⟩)

theorem outgoingEdges_ne_nil {a b : NodeId} (h : g.Arc a b) : g.outgoingEdges a ≠ [] := by
  obtain ⟨e, he, hsource, -⟩ := h
  exact List.ne_nil_of_mem (List.mem_filter.mpr ⟨he, by simpa using hsource⟩)

theorem arc_wellFounded (h : g.hasCycle = false) : WellFounded g.Arc := by
  have hleft : Worklist.leftover g.arcs g.nodeIds = [] := by
    exact not_not.mp (of_decide_eq_false h)
  have hacc := (Worklist.leftover_eq_nil_iff g.nodeIds_nodup g.arcs_closed).mp hleft
  rw [WorkflowGraph.edge_arcs_eq] at hacc
  refine ⟨fun id ↦ ⟨id, fun source harc ↦ ?_⟩⟩
  exact hacc source (mem_nodeIds_of_arc harc).1

end ParsedGraph

theorem entryNodeIds_of_clean {g : WorkflowGraph} (h : Clean (entryIssues g)) :
    ∃ id, g.entryNodeIds = [id] ∧ g.incomingEdges id = [] := by
  unfold entryIssues at h
  split at h
  · simp [Clean] at h
  · next id hid =>
    refine ⟨id, hid, List.eq_nil_iff_forall_not_mem.mpr fun e he ↦ ?_⟩
    exact clean_map.mp h e he rfl
  · simp [Clean] at h

/-- Every node of an accepted graph is reachable from its entry. -/
theorem reachable_of_clean {g : WorkflowGraph} {entry : NodeId} (hentry : g.entryNodeIds = [entry])
    (hacyclic : g.hasCycle = false) (h : Clean (unreachableIssues g)) :
    ∀ node ∈ g.nodes, Relation.ReflTransGen g.Arc entry node.id := by
  intro node hnode
  simp only [unreachableIssues, searchable, hentry, hacyclic] at h
  have hmem := clean_flatMap.mp h node hnode
  have hmem : node.id ∈ g.reachableFrom [entry] := by simpa using hmem
  obtain ⟨start, hstart, hpath⟩ := Worklist.mem_reachable_iff.mp hmem
  obtain rfl := List.mem_singleton.mp hstart
  rwa [WorkflowGraph.edge_arcs_eq] at hpath

/-- A node that the dead end rule checks reaches an output. -/
theorem output_of_clean {g : ParsedGraph} {entry : NodeId} (hentry : g.entryNodeIds = [entry])
    (hacyclic : g.hasCycle = false) (houtputs : g.outputNodeIds ≠ [])
    (hreachable : ∀ node ∈ g.nodes, Relation.ReflTransGen g.Arc entry node.id)
    (h : Clean (deadEndIssues g.toWorkflowGraph)) {node : WorkflowNode} (hnode : node ∈ g.nodes)
    (hexempt : exemptFromDeadEnd node = false) :
    ∃ output ∈ g.outputNodeIds, Relation.TransGen g.Arc node.id output := by
  have hfound : node.id ∈ g.reachableFrom [entry] := by
    refine Worklist.mem_reachable_iff.mpr ⟨entry, List.mem_singleton_self entry, ?_⟩
    rw [WorkflowGraph.edge_arcs_eq]
    exact hreachable node hnode
  have hguard : searchable g.toWorkflowGraph = true ∧ g.outputNodeIds ≠ [] := by
    simp [searchable, hentry, hacyclic, houtputs]
  rw [deadEndIssues, if_pos hguard, hentry] at h
  have hback : node.id ∈ reverseReachable g.toWorkflowGraph := by
    simpa [hfound, hexempt] using clean_flatMap.mp h node hnode
  obtain ⟨output, houtput, hback⟩ := List.mem_flatMap.mp hback
  rcases List.mem_cons.mp hback with rfl | hback
  · have hkind := (ParsedGraph.mem_outputNodeIds hnode).mp houtput
    simp_all [WorkflowNode.isOutput, exemptFromDeadEnd]
  · refine ⟨output, houtput, ?_⟩
    obtain ⟨-, hpath⟩ := Worklist.mem_strictlyBelow_iff.mp hback
    rw [WorkflowGraph.edge_reverseArcs_eq] at hpath
    exact Relation.transGen_swap.mp hpath

theorem Accepted.hasCycle_eq {g : WorkflowGraph} (h : Accepted env context g) :
    g.hasCycle = false := by
  obtain ⟨-, -, -, -, -, -, -, -, -, -, htopology, -⟩ := accepted_iff.mp h
  simp only [validateTopology, clean_append] at htopology
  simpa [cycleIssues] using htopology.1.1.1.2

theorem Accepted.shaped {g : ParsedGraph} (h : Accepted env context g.toWorkflowGraph) :
    Shaped g.toWorkflowGraph := by
  obtain ⟨-, -, -, -, -, -, -, -, -, -, htopology, -⟩ := accepted_iff.mp h
  simp only [validateTopology, clean_append] at htopology
  obtain ⟨⟨⟨⟨⟨hentries, houtputs⟩, -⟩, hunreachable⟩, hdead⟩, -⟩ := htopology
  obtain ⟨entry, hentry, hfirst⟩ := entryNodeIds_of_clean hentries
  have hacyclic : g.hasCycle = false := h.hasCycle_eq
  have hreachable := reachable_of_clean hentry hacyclic hunreachable
  have hinput {node : WorkflowNode} (hnode : node ∈ g.nodes) :
      node.isInput = true ↔ node.id = entry := by
    rw [← ParsedGraph.mem_entryNodeIds hnode, hentry, List.mem_singleton]
  refine ⟨⟨entry, hentry⟩, ParsedGraph.arc_wellFounded hacyclic, ?_, ?_, ?_⟩
  · intro node hnode hstart
    rw [(hinput hnode).mp hstart, hfirst]
  · intro node hnode hother
    rcases Relation.ReflTransGen.cases_tail (hreachable node hnode) with heq | ⟨a, -, harc⟩
    · simp [(hinput hnode).mpr heq] at hother
    · exact ParsedGraph.incomingEdges_ne_nil harc
  · have hsome : g.outputNodeIds ≠ [] := by
      simpa using (clean_append.mp houtputs).1
    rintro node hnode (hstart | hexempt)
    · obtain ⟨output, houtput⟩ := List.exists_mem_of_ne_nil _ hsome
      obtain ⟨last, hlast, rfl⟩ := List.mem_map.mp houtput
      obtain ⟨hlast, hkind⟩ := List.mem_filter.mp hlast
      have hne : entry ≠ last.id := by
        intro heq
        have hlastInput := (hinput hlast).mpr heq.symm
        simp_all [WorkflowNode.isInput, WorkflowNode.isOutput]
      rcases Relation.ReflTransGen.cases_head (hreachable last hlast) with heq | ⟨b, harc, -⟩
      · exact absurd heq hne
      · rw [(hinput hnode).mp hstart]
        exact ParsedGraph.outgoingEdges_ne_nil harc
    · obtain ⟨output, -, hpath⟩ :=
        output_of_clean hentry hacyclic hsome hreachable hdead hnode hexempt
      obtain ⟨b, harc, -⟩ := Relation.TransGen.head'_iff.mp hpath
      exact ParsedGraph.outgoingEdges_ne_nil harc

end Relayvia
