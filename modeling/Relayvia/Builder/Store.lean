import Mathlib.Data.Rat.Defs
import Relayvia.Validation.Result

/-!
# The workflow builder's store

The graph that the browser edits, with what the page says about it: whether it has unsaved
edits and whether the displayed validation is out of date.  `setGraph` and
`markValidationStale` are not modelled: nothing calls them.
-/

namespace Relayvia

structure Position where
  x : ℚ
  y : ℚ
  deriving DecidableEq

structure BuilderNode extends WorkflowNode where
  position : Position
  metadata : Dict := []
  deriving DecidableEq

structure BuilderEdge extends WorkflowEdge where
  targetHandle : Option String := none
  label : Option String := none
  condition : Option Dict := none
  metadata : Dict := []
  deriving DecidableEq

/-- The `WorkflowGraph` of the API client. -/
structure BuilderGraph where
  nodes : List BuilderNode := []
  edges : List BuilderEdge := []
  vars : Dict := []
  metadata : Dict := []
  deriving DecidableEq

structure WorkflowNodePatch where
  name : Option String := none
  config : Option Dict := none
  inputMapping : Option Dict := none
  metadata : Option Dict := none

structure WorkflowEdgePatch where
  label : Option (Option String) := none
  source : Option NodeId := none
  target : Option NodeId := none
  sourceHandle : Option (Option String) := none
  targetHandle : Option (Option String) := none

def BuilderNode.patch (node : BuilderNode) (patch : WorkflowNodePatch) : BuilderNode :=
  { node with
    name := patch.name.getD node.name
    config := patch.config.getD node.config
    inputMapping := patch.inputMapping.getD node.inputMapping
    metadata := patch.metadata.getD node.metadata }

def BuilderEdge.patch (edge : BuilderEdge) (patch : WorkflowEdgePatch) : BuilderEdge :=
  { edge with
    label := patch.label.getD edge.label
    source := patch.source.getD edge.source
    target := patch.target.getD edge.target
    sourceHandle := patch.sourceHandle.getD edge.sourceHandle
    targetHandle := patch.targetHandle.getD edge.targetHandle }

namespace BuilderGraph

def hasNode (graph : BuilderGraph) (id : NodeId) : Bool :=
  graph.nodes.any (·.id = id)

def hasEdge (graph : BuilderGraph) (id : String) : Bool :=
  graph.edges.any (·.id = id)

def replaceNode (graph : BuilderGraph) (id : NodeId) (updater : BuilderNode → BuilderNode) :
    BuilderGraph :=
  { graph with nodes := graph.nodes.map fun node ↦ if node.id = id then updater node else node }

def replaceEdge (graph : BuilderGraph) (id : String) (updater : BuilderEdge → BuilderEdge) :
    BuilderGraph :=
  { graph with edges := graph.edges.map fun edge ↦ if edge.id = id then updater edge else edge }

/-- The graph without the places of its nodes on the canvas. -/
def unplaced (graph : BuilderGraph) : BuilderGraph :=
  { graph with nodes := graph.nodes.map fun node ↦ { node with position := ⟨0, 0⟩ } }

theorem unplaced_replaceNode_position (graph : BuilderGraph) (id : NodeId) (position : Position) :
    (graph.replaceNode id fun node ↦ { node with position }).unplaced = graph.unplaced := by
  simp only [unplaced, replaceNode, List.map_map]
  congr 1
  apply List.map_congr_left
  intro node _
  by_cases h : node.id = id <;> simp [h]

end BuilderGraph

inductive BuilderMode where
  | draft
  | version (version : ℕ) (changeNote : Option String)
  deriving DecidableEq

structure ValidationState where
  valid : Bool
  issues : List ValidationIssue
  validatedAt : String
  deriving DecidableEq

structure WorkflowBuilderState where
  workflowId : Option String := none
  workflowName : String := ""
  mode : BuilderMode := .draft
  graph : Option BuilderGraph := none
  readOnly : Bool := false
  initialized : Bool := false
  selectedNodeId : Option NodeId := none
  selectedEdgeId : Option String := none
  isDirty : Bool := false
  isSaving : Bool := false
  saveError : Option String := none
  lastSavedAt : Option String := none
  validation : Option ValidationState := none
  isValidating : Bool := false
  validationStale : Bool := true
  deriving DecidableEq

namespace WorkflowBuilderState

def initializeStore (workflowId workflowName : String) (graph : BuilderGraph) (mode : BuilderMode)
    (readOnly : Bool) : WorkflowBuilderState :=
  { workflowId := some workflowId, workflowName, graph := some graph, mode, readOnly,
    initialized := true }

def markSaved (s : WorkflowBuilderState) (updatedAt : String) : WorkflowBuilderState :=
  { s with isDirty := false, isSaving := false, saveError := none, lastSavedAt := some updatedAt }

def setSaving (s : WorkflowBuilderState) (isSaving : Bool) : WorkflowBuilderState :=
  { s with isSaving }

def setSaveError (s : WorkflowBuilderState) (saveError : Option String) : WorkflowBuilderState :=
  { s with saveError, isSaving := false }

def setValidation (s : WorkflowBuilderState) (result : ValidationResult) (validatedAt : String) :
    WorkflowBuilderState :=
  { s with
    validation := some
      { valid := result.valid, issues := result.errors ++ result.warnings, validatedAt }
    validationStale := false
    isValidating := false }

def setValidating (s : WorkflowBuilderState) (isValidating : Bool) : WorkflowBuilderState :=
  { s with isValidating }

/-- What every edit but a move sets along with the new graph. -/
def edited (s : WorkflowBuilderState) (graph : BuilderGraph) : WorkflowBuilderState :=
  { s with graph := some graph, isDirty := true, saveError := none, validationStale := true }

/-- The graph, when the store lets it be edited. -/
def editable (s : WorkflowBuilderState) : Option BuilderGraph :=
  if s.readOnly then none else s.graph

/-- `node` is what `createWorkflowNode` builds for the palette item. -/
def addNode (s : WorkflowBuilderState) (node : BuilderNode) : WorkflowBuilderState :=
  match s.editable with
  | none => s
  | some graph =>
      { s.edited { graph with nodes := graph.nodes ++ [node] } with
        selectedNodeId := some node.id, selectedEdgeId := none }

def updateNode (s : WorkflowBuilderState) (id : NodeId) (patch : WorkflowNodePatch) :
    WorkflowBuilderState :=
  match s.editable with
  | none => s
  | some graph =>
      if graph.hasNode id then s.edited (graph.replaceNode id (·.patch patch)) else s

def removeNode (s : WorkflowBuilderState) (id : NodeId) : WorkflowBuilderState :=
  match s.editable with
  | none => s
  | some graph =>
      if graph.hasNode id then
        let graph :=
          { graph with
            nodes := graph.nodes.filter (·.id ≠ id)
            edges := graph.edges.filter fun edge ↦ edge.source ≠ id ∧ edge.target ≠ id }
        { s.edited graph with
          selectedNodeId := if s.selectedNodeId = some id then none else s.selectedNodeId
          selectedEdgeId :=
            s.selectedEdgeId.filter fun edgeId ↦ edgeId ≠ "" ∧ graph.hasEdge edgeId }
      else s

/-- A move leaves the displayed validation in force. -/
def moveNode (s : WorkflowBuilderState) (id : NodeId) (position : Position) :
    WorkflowBuilderState :=
  match s.editable with
  | none => s
  | some graph =>
      match graph.nodes.find? (·.id = id) with
      | none => s
      | some node =>
          if node.position = position then s
          else
            { s with
              graph := some (graph.replaceNode id fun node ↦ { node with position })
              isDirty := true
              saveError := none }

/-- `id` is what `generateEdgeId` returns. -/
def addEdge (s : WorkflowBuilderState) (id : String) (source target : NodeId)
    (sourceHandle : Option String) : WorkflowBuilderState :=
  match s.editable with
  | none => s
  | some graph =>
      if source = "" ∨ target = "" ∨ source = target then s
      else if graph.hasNode source ∧ graph.hasNode target then
        let edge : BuilderEdge := { id, source, target, sourceHandle, label := sourceHandle }
        { s.edited { graph with edges := graph.edges ++ [edge] } with
          selectedNodeId := none, selectedEdgeId := some id }
      else s

def updateEdge (s : WorkflowBuilderState) (id : String) (patch : WorkflowEdgePatch) :
    WorkflowBuilderState :=
  match s.editable with
  | none => s
  | some graph =>
      if graph.hasEdge id then s.edited (graph.replaceEdge id (·.patch patch)) else s

def removeEdge (s : WorkflowBuilderState) (id : String) : WorkflowBuilderState :=
  match s.editable with
  | none => s
  | some graph =>
      if graph.hasEdge id then
        { s.edited { graph with edges := graph.edges.filter (·.id ≠ id) } with
          selectedEdgeId := if s.selectedEdgeId = some id then none else s.selectedEdgeId }
      else s

def selectNode (s : WorkflowBuilderState) (selectedNodeId : Option NodeId) :
    WorkflowBuilderState :=
  { s with selectedNodeId, selectedEdgeId := none }

def selectEdge (s : WorkflowBuilderState) (selectedEdgeId : Option String) :
    WorkflowBuilderState :=
  { s with selectedEdgeId, selectedNodeId := none }

end WorkflowBuilderState

/-- What the user does on the canvas and in the inspector. -/
inductive BuilderEdit where
  | addNode (node : BuilderNode)
  | updateNode (id : NodeId) (patch : WorkflowNodePatch)
  | removeNode (id : NodeId)
  | moveNode (id : NodeId) (position : Position)
  | addEdge (id : String) (source target : NodeId) (sourceHandle : Option String)
  | updateEdge (id : String) (patch : WorkflowEdgePatch)
  | removeEdge (id : String)
  | selectNode (id : Option NodeId)
  | selectEdge (id : Option String)

def BuilderEdit.apply : BuilderEdit → WorkflowBuilderState → WorkflowBuilderState
  | addNode node, s => s.addNode node
  | updateNode id patch, s => s.updateNode id patch
  | removeNode id, s => s.removeNode id
  | moveNode id position, s => s.moveNode id position
  | addEdge id source target sourceHandle, s => s.addEdge id source target sourceHandle
  | updateEdge id patch, s => s.updateEdge id patch
  | removeEdge id, s => s.removeEdge id
  | selectNode id, s => s.selectNode id
  | selectEdge id, s => s.selectEdge id

/-- The three things an edit can do to the graph and to what is said about it. -/
inductive BuilderEdit.Effect (s s' : WorkflowBuilderState) : Prop where
  | none (graph : s'.graph = s.graph) (isDirty : s'.isDirty = s.isDirty)
      (stale : s'.validationStale = s.validationStale)
  | edited (isDirty : s'.isDirty = true) (stale : s'.validationStale = true)
  | moved (isDirty : s'.isDirty = true) (stale : s'.validationStale = s.validationStale)
      (unplaced : s'.graph.map (·.unplaced) = s.graph.map (·.unplaced))

namespace WorkflowBuilderState

open BuilderEdit (Effect)

theorem editable_eq_some {s : WorkflowBuilderState} {graph : BuilderGraph}
    (h : s.editable = some graph) : s.graph = some graph := by
  unfold editable at h
  split at h
  · cases h
  · exact h

theorem moveNode_effect (s : WorkflowBuilderState) (id : NodeId) (position : Position) :
    Effect s (s.moveNode id position) := by
  unfold moveNode
  split
  · exact .none rfl rfl rfl
  · rename_i graph hgraph
    split
    · exact .none rfl rfl rfl
    · split
      · exact .none rfl rfl rfl
      · refine .moved rfl rfl ?_
        simp [editable_eq_some hgraph, BuilderGraph.unplaced_replaceNode_position]

end WorkflowBuilderState

theorem BuilderEdit.apply_effect (edit : BuilderEdit) (s : WorkflowBuilderState) :
    Effect s (edit.apply s) := by
  cases edit with
  | addNode node =>
      simp only [apply, WorkflowBuilderState.addNode]
      split
      · exact .none rfl rfl rfl
      · exact .edited rfl rfl
  | updateNode id patch =>
      simp only [apply, WorkflowBuilderState.updateNode]
      split
      · exact .none rfl rfl rfl
      · split
        · exact .edited rfl rfl
        · exact .none rfl rfl rfl
  | removeNode id =>
      simp only [apply, WorkflowBuilderState.removeNode]
      split
      · exact .none rfl rfl rfl
      · split
        · exact .edited rfl rfl
        · exact .none rfl rfl rfl
  | moveNode id position => exact s.moveNode_effect id position
  | addEdge id source target sourceHandle =>
      simp only [apply, WorkflowBuilderState.addEdge]
      split
      · exact .none rfl rfl rfl
      · split
        · exact .none rfl rfl rfl
        · split
          · exact .edited rfl rfl
          · exact .none rfl rfl rfl
  | updateEdge id patch =>
      simp only [apply, WorkflowBuilderState.updateEdge]
      split
      · exact .none rfl rfl rfl
      · split
        · exact .edited rfl rfl
        · exact .none rfl rfl rfl
  | removeEdge id =>
      simp only [apply, WorkflowBuilderState.removeEdge]
      split
      · exact .none rfl rfl rfl
      · split
        · exact .edited rfl rfl
        · exact .none rfl rfl rfl
  | selectNode id => exact .none rfl rfl rfl
  | selectEdge id => exact .none rfl rfl rfl

end Relayvia
