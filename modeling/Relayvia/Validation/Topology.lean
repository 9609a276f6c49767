import Relayvia.Validation.Result

/-!
# Identity and topology rules

The first two passes of the validation engine: the structure of the edge list,
then entry and outputs, cycles, reachability, dead ends, and the shape of
Parallel and Merge nodes.
-/

namespace Relayvia

/-! ## Identity -/

/-- The ids that occur more than once, in the order of their first occurrences. -/
def duplicated (ids : List String) : List String :=
  ids.eraseDups.filter fun id ↦ 1 < ids.count id

def edgeIdentityIssues (g : WorkflowGraph) (seen : List (NodeId × NodeId × Option String))
    (e : WorkflowEdge) : List ValidationIssue :=
  issueIf (e.source ∉ g.nodeIds)
      { code := .invalidEdgeSource
        message := "Edge source node " ++ Python.repr e.source ++ " does not exist"
        edgeId := some e.id
        field := some "edges[].source" } ++
    issueIf (e.target ∉ g.nodeIds)
      { code := .invalidEdgeTarget
        message := "Edge target node " ++ Python.repr e.target ++ " does not exist"
        edgeId := some e.id
        field := some "edges[].target" } ++
    issueIf (e.source = e.target)
      { code := .selfConnection
        message := "Node " ++ Python.repr e.source ++ " cannot connect to itself"
        edgeId := some e.id
        nodeId := some e.source
        field := some "edges[]" } ++
    issueIf ((e.source, e.target, e.sourceHandle) ∈ seen)
      { code := .duplicateConnection
        message := "Duplicate connection " ++ Python.repr e.source ++ " -> " ++
          Python.repr e.target
        edgeId := some e.id
        nodeId := some e.source
        field := some "edges[]" }

/-- The loop over the edges with the set of the connections seen so far. -/
def edgesIdentityIssues (g : WorkflowGraph) :
    List (NodeId × NodeId × Option String) → List WorkflowEdge → List ValidationIssue
  | _, [] => []
  | seen, e :: edges =>
      edgeIdentityIssues g seen e ++
        edgesIdentityIssues g ((e.source, e.target, e.sourceHandle) :: seen) edges

def validateIdentity (g : WorkflowGraph) : List ValidationIssue :=
  (duplicated g.nodeIds).map (fun id ↦
      { code := .duplicateNodeId
        message := "Node id " ++ Python.repr id ++ " is duplicated"
        nodeId := some id
        field := some "nodes[].id" }) ++
    (duplicated (g.edges.map WorkflowEdge.id)).map (fun id ↦
      { code := .duplicateEdgeId
        message := "Edge id " ++ Python.repr id ++ " is duplicated"
        edgeId := some id
        field := some "edges[].id" }) ++
    edgesIdentityIssues g [] g.edges

/-! ## Entry and outputs -/

def entryIssues (g : WorkflowGraph) : List ValidationIssue :=
  match g.entryNodeIds with
  | [] =>
      [{ code := .missingInputNode
         message := "Workflow requires exactly one Data Input node"
         field := some "nodes[]" }]
  | [entry] =>
      (g.incomingEdges entry).map fun e ↦
        { code := .invalidInputNodeEdge
          message := "Data Input node must not have incoming edges"
          edgeId := some e.id
          nodeId := some entry
          field := some "edges[]" }
  | entries =>
      [{ code := .multipleInputNodes
         message := "Workflow must have a single Data Input node"
         field := some "nodes[]"
         details := [("node_ids", .arr (entries.map .str))] }]

def outputIssues (g : WorkflowGraph) : List ValidationIssue :=
  issueIf (g.outputNodeIds = [])
      { code := .missingOutputNode
        message := "Workflow requires at least one Data Output node"
        field := some "nodes[]" } ++
    g.outputNodeIds.flatMap fun output ↦
      (g.outgoingEdges output).map fun e ↦
        { code := .invalidOutputNodeEdge
          message := "Data Output node must not have outgoing edges"
          edgeId := some e.id
          nodeId := some output
          field := some "edges[]" }

/-! ## Cycles and reachability -/

/-- `sorted(set(ids))`. -/
def sortedIds (ids : List String) : List String :=
  ids.eraseDups.mergeSort fun a b ↦ a ≤ b

def cycleIssues (g : WorkflowGraph) : List ValidationIssue :=
  issueIf (g.hasCycle = true)
    { code := .unsupportedCycle
      message := "Workflow graph must be a DAG; cycles are not supported in V1"
      field := some "edges[]"
      details := [("node_ids", .arr ((sortedIds g.cycleNodes).map .str))] }

/-- `{node.name or node.id!r}`. -/
def nodeLabel (node : WorkflowNode) : String :=
  Python.repr (if node.name ≠ "" then node.name else node.id)

/-- The reachability passes run on acyclic graphs with one entry. -/
def searchable (g : WorkflowGraph) : Bool :=
  g.entryNodeIds.length = 1 ∧ g.hasCycle = false

def unreachableIssues (g : WorkflowGraph) : List ValidationIssue :=
  if searchable g then
    let reachable := g.reachableFrom g.entryNodeIds
    g.nodes.flatMap fun node ↦
      issueIf (node.id ∉ reachable)
        { code := .unreachableNode
          message := "Node " ++ nodeLabel node ++ " is not reachable from the Workflow Input"
          nodeId := some node.id
          field := some "nodes[]" }
  else []

/-- The nodes that the dead end rule leaves to other rules. -/
def exemptFromDeadEnd (node : WorkflowNode) : Bool :=
  (node.type = .data ∧ (node.subtype = "input" ∨ node.subtype = "output")) ∨
    (node.type = .logic ∧
      (node.subtype = "condition" ∨ node.subtype = "parallel" ∨ node.subtype = "merge"))

def reverseReachable (g : WorkflowGraph) : List NodeId :=
  g.outputNodeIds.flatMap fun output ↦ output :: g.ancestors output

def deadEndIssues (g : WorkflowGraph) : List ValidationIssue :=
  if searchable g ∧ g.outputNodeIds ≠ [] then
    let reachable := g.reachableFrom g.entryNodeIds
    let towardsOutput := reverseReachable g
    g.nodes.flatMap fun node ↦
      issueIf (node.id ∈ reachable ∧ node.id ∉ towardsOutput ∧ exemptFromDeadEnd node = false)
        { code := .deadEndBranch
          message := "Node " ++ nodeLabel node ++ " cannot reach any Data Output"
          nodeId := some node.id
          field := some "nodes[]" }
  else []

/-! ## Parallel and Merge -/

/-- The number of edges in the details of an issue. -/
def edgeCount (key : String) (edges : List WorkflowEdge) : Dict :=
  [(key, .int edges.length)]

def parallelIssues (g : WorkflowGraph) (node : WorkflowNode) : List ValidationIssue :=
  issueIf ((g.outgoingEdges node.id).length < 2)
      { code := .invalidParallel
        message := "Parallel node requires at least 2 outgoing branches"
        nodeId := some node.id
        field := some "config"
        details := edgeCount "outgoing" (g.outgoingEdges node.id) } ++
    issueIf ((g.incomingEdges node.id).length ≠ 1)
      { code := .invalidParallel
        message := "Parallel node requires exactly 1 incoming edge"
        nodeId := some node.id
        field := some "edges[]"
        details := edgeCount "incoming" (g.incomingEdges node.id) }

def mergeIssues (g : WorkflowGraph) (node : WorkflowNode) : List ValidationIssue :=
  issueIf (node.configValue "strategy" ≠ .str "all")
      { code := .invalidMerge
        message := "Merge node only supports strategy 'all' in V1"
        nodeId := some node.id
        field := some "config.strategy" } ++
    issueIf ((g.incomingEdges node.id).length < 2)
      { code := .invalidMerge
        message := "Merge node requires at least 2 incoming edges"
        nodeId := some node.id
        field := some "edges[]"
        details := edgeCount "incoming" (g.incomingEdges node.id) } ++
    issueIf ((g.outgoingEdges node.id).length ≠ 1)
      { code := .invalidMerge
        message := "Merge node requires exactly 1 outgoing edge"
        nodeId := some node.id
        field := some "edges[]"
        details := edgeCount "outgoing" (g.outgoingEdges node.id) }

/-- The nodes reached from `id` without a step out of a Merge node. -/
def mergeFree (g : WorkflowGraph) (id : NodeId) : List NodeId :=
  Worklist.reachable
    (g.arcs.filter fun arc ↦ ¬(g.node? arc.1).any (·.isLogic "merge"))
    ((g.outgoingEdges id).map WorkflowEdge.target)

/-- A branch of a Parallel node that reaches an Output without its Merge. -/
def pairingIssues (g : WorkflowGraph) (node : WorkflowNode) : List ValidationIssue :=
  if (g.descendants node.id).any fun id ↦ (g.node? id).any (·.subtype = "merge") then
    let bypassed := g.outputNodeIds.filter (· ∈ mergeFree g node.id)
    issueIf (bypassed ≠ [])
      { code := .invalidParallelMergeStructure
        message := "A Parallel branch bypasses its Merge join and reaches an Output directly"
        nodeId := some node.id
        field := some "edges[]"
        details := [("output_nodes", .arr ((sortedIds bypassed).map .str))] }
  else []

def parallelMergeIssues (g : WorkflowGraph) : List ValidationIssue :=
  (g.nodes.flatMap fun node ↦
      if node.isLogic "parallel" then parallelIssues g node
      else if node.isLogic "merge" then mergeIssues g node
      else []) ++
    if g.hasCycle then []
    else
      g.nodes.flatMap fun node ↦
        if node.isLogic "parallel" then pairingIssues g node else []

def validateTopology (g : WorkflowGraph) : List ValidationIssue :=
  entryIssues g ++ outputIssues g ++ cycleIssues g ++ unreachableIssues g ++ deadEndIssues g ++
    parallelMergeIssues g

end Relayvia
