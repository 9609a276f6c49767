import Relayvia.Graph

/-!
# The sets of `GraphIndex`

`ancestors`, `descendants` and `cycle_nodes` in terms of paths.
-/

namespace Relayvia

variable {g : WorkflowGraph} {a b id : NodeId}

theorem mem_ancestors_iff :
    a ∈ g.ancestors id ↔ a ≠ id ∧ Relation.TransGen g.Arc a id := by
  rw [WorkflowGraph.ancestors, Worklist.mem_strictlyBelow_iff, WorkflowGraph.edge_reverseArcs_eq,
    Relation.transGen_swap]

theorem mem_descendants_iff :
    b ∈ g.descendants id ↔ b ≠ id ∧ Relation.TransGen g.Arc id b := by
  rw [WorkflowGraph.descendants, Worklist.mem_strictlyBelow_iff, WorkflowGraph.edge_arcs_eq]

/-- The loops of `ancestors` and `descendants` end on every graph, with the nodes other than
the start from which, and to which, a path leads. -/
theorem ancestors_descendants_exact (g : WorkflowGraph) :
    (∀ id, Worklist.Searches g.reverseArcs (· = id) []
        (Worklist.targets g.reverseArcs id).reverse (g.ancestors id) ∧
      Worklist.Searches g.arcs (· = id) [] (Worklist.targets g.arcs id).reverse
        (g.descendants id)) ∧
    (∀ id a, a ∈ g.ancestors id ↔ a ≠ id ∧ Relation.TransGen g.Arc a id) ∧
    (∀ id b, b ∈ g.descendants id ↔ b ≠ id ∧ Relation.TransGen g.Arc id b) ∧
    ∀ a b, a ∈ g.ancestors b ↔ b ∈ g.descendants a := by
  refine ⟨fun id ↦ ?_, fun _ _ ↦ mem_ancestors_iff, fun _ _ ↦ mem_descendants_iff, fun a b ↦ ?_⟩
  · exact ⟨Worklist.searches_strictlyBelow g.reverseArcs id,
      Worklist.searches_strictlyBelow g.arcs id⟩
  · rw [mem_ancestors_iff, mem_descendants_iff, ne_comm]

/-- A node that lies on a cycle. -/
def WorkflowGraph.OnCycle (g : WorkflowGraph) (c : NodeId) : Prop :=
  Relation.TransGen g.Arc c c

theorem ParsedGraph.mem_cycleNodes_iff (g : ParsedGraph) :
    id ∈ g.cycleNodes ↔ ∃ c, g.OnCycle c ∧ Relation.ReflTransGen g.Arc c id := by
  rw [WorkflowGraph.cycleNodes, Worklist.mem_leftover_iff g.nodeIds_nodup g.arcs_closed,
    Worklist.not_acc_iff, WorkflowGraph.edge_arcs_eq]
  refine and_iff_right_of_imp ?_
  rintro ⟨c, hcycle, hpath⟩
  rcases Relation.reflTransGen_iff_eq_or_transGen.mp hpath with rfl | hpath
  · obtain ⟨d, -, harc⟩ := Relation.TransGen.tail'_iff.mp hcycle
    exact (mem_nodeIds_of_arc harc).2
  · obtain ⟨d, -, harc⟩ := Relation.TransGen.tail'_iff.mp hpath
    exact (mem_nodeIds_of_arc harc).2

/-- The elimination of `cycle_nodes` ends, the nodes whose degree stays positive are those on
or behind a cycle, and there are some if and only if the graph has a cycle. -/
theorem cycleNodes_exact (g : ParsedGraph) :
    (∃ indegree, Worklist.Removes g.arcs g.nodeIds
        (Worklist.remaining g.arcs [],
          g.nodeIds.filter fun id ↦ Worklist.remaining g.arcs [] id = 0) indegree ∧
      g.cycleNodes = g.nodeIds.filter fun id ↦ 0 < indegree id) ∧
    (∀ id, id ∈ g.cycleNodes ↔ ∃ c, g.OnCycle c ∧ Relation.ReflTransGen g.Arc c id) ∧
    (g.hasCycle = true ↔ ∃ c, g.OnCycle c) := by
  refine ⟨Worklist.removes_leftover g.arcs g.nodeIds_nodup, fun _ ↦ g.mem_cycleNodes_iff, ?_⟩
  rw [WorkflowGraph.hasCycle, decide_eq_true_iff]
  constructor
  · intro hne
    obtain ⟨id, hid⟩ := List.exists_mem_of_ne_nil _ hne
    obtain ⟨c, hcycle, -⟩ := g.mem_cycleNodes_iff.mp hid
    exact ⟨c, hcycle⟩
  · rintro ⟨c, hcycle⟩
    apply List.ne_nil_of_mem
    exact g.mem_cycleNodes_iff.mpr ⟨c, hcycle, .refl⟩

end Relayvia
