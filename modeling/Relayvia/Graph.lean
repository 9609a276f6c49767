import Relayvia.Library.Worklist
import Relayvia.Python

/-!
# Workflow graphs and their index

The part of Graph Schema 1.0 that validation and the runtime read, and the
lookups and searches of `GraphIndex`.
-/

namespace Relayvia

abbrev NodeId := String

abbrev Dict := List (String × Json)

inductive NodeType where
  | agent | service | tool | logic | human | data
  deriving DecidableEq, Repr

def NodeType.value : NodeType → String
  | agent => "agent"
  | service => "service"
  | tool => "tool"
  | logic => "logic"
  | human => "human"
  | data => "data"

inductive VariableType where
  | string | number | integer | boolean | object | array
  deriving DecidableEq, Repr

def VariableType.value : VariableType → String
  | string => "string"
  | number => "number"
  | integer => "integer"
  | boolean => "boolean"
  | object => "object"
  | array => "array"

structure WorkflowVariable where
  type : VariableType
  default : Json := .null
  deriving DecidableEq

structure WorkflowNode where
  id : NodeId
  type : NodeType
  subtype : String
  name : String
  config : Dict := []
  inputMapping : Dict := []
  deriving DecidableEq

structure WorkflowEdge where
  id : String
  source : NodeId
  target : NodeId
  sourceHandle : Option String := none
  deriving DecidableEq

structure WorkflowGraph where
  nodes : List WorkflowNode := []
  edges : List WorkflowEdge := []
  vars : List (String × WorkflowVariable) := []
  deriving DecidableEq

namespace WorkflowNode

def isInput (n : WorkflowNode) : Bool :=
  n.type = .data ∧ n.subtype = "input"

def isOutput (n : WorkflowNode) : Bool :=
  n.type = .data ∧ n.subtype = "output"

def isCondition (n : WorkflowNode) : Bool :=
  n.type = .logic ∧ n.subtype = "condition"

end WorkflowNode

namespace WorkflowGraph

def nodeIds (g : WorkflowGraph) : List NodeId :=
  g.nodes.map WorkflowNode.id

/-- `index.node(node_id)`: the dict keeps the last node of an id. -/
def node? (g : WorkflowGraph) (id : NodeId) : Option WorkflowNode :=
  (g.nodes.filter (·.id = id)).getLast?

def incomingEdges (g : WorkflowGraph) (id : NodeId) : List WorkflowEdge :=
  g.edges.filter (·.target = id)

def outgoingEdges (g : WorkflowGraph) (id : NodeId) : List WorkflowEdge :=
  g.edges.filter (·.source = id)

def arcs (g : WorkflowGraph) : List (NodeId × NodeId) :=
  g.edges.map fun e ↦ (e.source, e.target)

def reverseArcs (g : WorkflowGraph) : List (NodeId × NodeId) :=
  g.edges.map fun e ↦ (e.target, e.source)

def ancestors (g : WorkflowGraph) (id : NodeId) : List NodeId :=
  Worklist.strictlyBelow g.reverseArcs id

def descendants (g : WorkflowGraph) (id : NodeId) : List NodeId :=
  Worklist.strictlyBelow g.arcs id

def reachableFrom (g : WorkflowGraph) (starts : List NodeId) : List NodeId :=
  Worklist.reachable g.arcs starts

def cycleNodes (g : WorkflowGraph) : List NodeId :=
  Worklist.leftover g.arcs g.nodeIds

def hasCycle (g : WorkflowGraph) : Bool :=
  g.cycleNodes ≠ []

def entryNodeIds (g : WorkflowGraph) : List NodeId :=
  (g.nodes.filter WorkflowNode.isInput).map WorkflowNode.id

def outputNodeIds (g : WorkflowGraph) : List NodeId :=
  (g.nodes.filter WorkflowNode.isOutput).map WorkflowNode.id

/-- Some edge leads from `a` to `b`. -/
def Arc (g : WorkflowGraph) (a b : NodeId) : Prop :=
  ∃ e ∈ g.edges, e.source = a ∧ e.target = b

theorem edge_arcs_iff {g : WorkflowGraph} {a b : NodeId} :
    Worklist.Edge g.arcs a b ↔ g.Arc a b := by
  simp [Worklist.Edge, arcs, Arc]

theorem edge_reverseArcs_iff {g : WorkflowGraph} {a b : NodeId} :
    Worklist.Edge g.reverseArcs a b ↔ g.Arc b a := by
  simp [Worklist.Edge, reverseArcs, Arc, and_comm]

theorem edge_arcs_eq {g : WorkflowGraph} : Worklist.Edge g.arcs = g.Arc := by
  funext a b
  exact propext edge_arcs_iff

theorem edge_reverseArcs_eq {g : WorkflowGraph} :
    Worklist.Edge g.reverseArcs = Function.swap g.Arc := by
  funext a b
  exact propext edge_reverseArcs_iff

theorem node?_some {g : WorkflowGraph} {id : NodeId} {n : WorkflowNode}
    (h : g.node? id = some n) : n ∈ g.nodes ∧ n.id = id := by
  have hmem := List.mem_of_getLast? h
  simpa using hmem

end WorkflowGraph

/-- A graph that `parse_workflow_graph` returned: node ids are unique and every
edge joins two nodes of the graph. -/
structure ParsedGraph extends WorkflowGraph where
  nodeIds_nodup : toWorkflowGraph.nodeIds.Nodup
  edges_closed : ∀ e ∈ edges,
    e.source ∈ toWorkflowGraph.nodeIds ∧ e.target ∈ toWorkflowGraph.nodeIds

namespace ParsedGraph

theorem node?_of_mem {g : ParsedGraph} {n : WorkflowNode} (hn : n ∈ g.nodes) :
    g.node? n.id = some n := by
  cases hlast : g.node? n.id with
  | none =>
      have hnil := List.getLast?_eq_none_iff.mp hlast
      have := List.filter_eq_nil_iff.mp hnil n hn
      simp at this
  | some m =>
      obtain ⟨hm, hid⟩ := WorkflowGraph.node?_some hlast
      rw [List.inj_on_of_nodup_map g.nodeIds_nodup hm hn hid]

theorem node?_eq_some_iff {g : ParsedGraph} {id : NodeId} {n : WorkflowNode} :
    g.node? id = some n ↔ n ∈ g.nodes ∧ n.id = id := by
  refine ⟨WorkflowGraph.node?_some, ?_⟩
  rintro ⟨hn, rfl⟩
  exact node?_of_mem hn

theorem exists_node {g : ParsedGraph} {id : NodeId} (h : id ∈ g.nodeIds) :
    ∃ n, g.node? id = some n := by
  obtain ⟨n, hn, rfl⟩ := List.mem_map.mp h
  exact ⟨n, node?_of_mem hn⟩

theorem arcs_closed (g : ParsedGraph) : ∀ arc ∈ g.arcs, arc.1 ∈ g.nodeIds := by
  intro arc harc
  obtain ⟨e, he, rfl⟩ := List.mem_map.mp harc
  exact (g.edges_closed e he).1

theorem mem_nodeIds_of_arc {g : ParsedGraph} {a b : NodeId} (h : g.Arc a b) :
    a ∈ g.nodeIds ∧ b ∈ g.nodeIds := by
  obtain ⟨e, he, rfl, rfl⟩ := h
  exact g.edges_closed e he

end ParsedGraph

end Relayvia
