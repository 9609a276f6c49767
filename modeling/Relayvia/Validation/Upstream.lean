import Mathlib.Order.WellFounded
import Relayvia.Coupling
import Relayvia.References
import Relayvia.Validation.Shape

/-!
# References of an accepted graph

The validator checks the references of the listed fields, the runtime resolves the
whole config and input mapping of a node.  An accepted graph looks only upstream
exactly when the values that the list leaves out do.
-/

namespace Relayvia

variable {env : Env} {context : ValidationContext} {g : ParsedGraph}

/-- All entries but the first one of `key`. -/
def Dict.without (d : Dict) (key : String) : Dict :=
  d.eraseP (·.1 = key)

/-- The references that the Worker and the scheduler resolve for a node.  The Data
Input is born COMPLETED and never resolved. -/
def runtimeReferences (node : WorkflowNode) : List ContextReference :=
  if node.isInput then []
  else resolvedReferences (.obj node.config) ++ resolvedReferences (.obj node.inputMapping)

/-- What the runtime resolves besides the `referenceBearingValues`. -/
def unscannedValues (node : WorkflowNode) : List Json :=
  match node.type with
  | .agent => [.obj (Dict.without node.config "task_template")]
  | .service | .tool | .human => [.obj node.config]
  | .logic =>
      if node.subtype = "condition" then
        match node.configValue "expression" with
        | .obj expression =>
            [.obj (Dict.without node.config "expression"),
              .obj (Dict.without (Dict.without expression "left") "right"), .obj node.inputMapping]
        | _ => [.obj node.config, .obj node.inputMapping]
      else [.obj node.config, .obj node.inputMapping]
  | .data =>
      match node.subtype with
      | "input" => []
      | "transform" => [.obj (Dict.without node.config "mappings"), .obj node.inputMapping]
      | "output" => [.obj (Dict.without node.config "output_mapping"), .obj node.inputMapping]
      | _ => [.obj node.config, .obj node.inputMapping]

/-- A reference to a node names one above `id`, of a kind with an output. -/
def LooksUpstream (g : WorkflowGraph) (id : NodeId) (r : ContextReference) : Prop :=
  ∀ x, r.nodeId = some x → Relation.TransGen g.Arc x id ∧
    ∃ target, g.node? x = some target ∧ outputProviderKind target ≠ none

/-- The dispatch of a node reads the outputs of other nodes only through its references. -/
theorem dispatch_eq_of_agree {db db' : RunRecord} {node : WorkflowNode} (hrun : db'.run = db.run)
    (h : ContextResolver.Agree (contextResolver env db) (contextResolver env db')
      (runtimeReferences node)) : dispatch env db' node = dispatch env db node := by
  by_cases hdispatched : node.type = .tool ∨ node.type = .agent
  · have hother : node.isInput = false := by
      rcases hdispatched with htype | htype <;> simp [WorkflowNode.isInput, htype]
    rw [runtimeReferences, hother] at h
    obtain ⟨hconfig, hmapping⟩ := h.append
    have hstr : (contextResolver env db).pyStr = (contextResolver env db').pyStr := rfl
    have hfields := ContextResolver.resolveFields_congr hstr node.config hconfig
    have hinput := ContextResolver.resolveFields_congr hstr node.inputMapping hmapping
    simp only [dispatch, dispatchRunner, resolveToolConfig, codingAgentPayload, resolveConfig,
      hfields, hinput, hrun]
  · cases htype : node.type <;> simp [htype] at hdispatched <;> simp [dispatch, htype]

/-! ## The two lists -/

theorem Dict.get?_without {d : Dict} {key other : String} (h : key ≠ other) :
    Dict.get? (Dict.without d key) other = Dict.get? d other := by
  induction d with
  | nil => rfl
  | cons entry d ih =>
      obtain ⟨k, v⟩ := entry
      by_cases hkey : k = key
      · subst hkey
        simp [Dict.get?, Dict.without, List.lookup_cons, beq_false_of_ne h.symm]
      · simp only [Dict.get?, Dict.without, List.eraseP_cons, hkey, decide_false, cond_false,
          List.lookup_cons] at ih ⊢
        rw [ih]

theorem mem_fieldReferences_iff (d : Dict) (key : String) {r : ContextReference} :
    r ∈ fieldReferences d ↔ r ∈ resolvedReferences ((Dict.get? d key).getD .null) ∨
      r ∈ fieldReferences (Dict.without d key) := by
  induction d with
  | nil => simp [Dict.get?, Dict.without, fieldReferences, resolvedReferences]
  | cons entry d ih =>
      obtain ⟨k, v⟩ := entry
      by_cases hkey : k = key
      · subst hkey
        simp [Dict.get?, Dict.without, fieldReferences]
      · have hne : (key == k) = false := beq_false_of_ne fun h ↦ hkey h.symm
        simp only [Dict.get?, Dict.without, List.lookup_cons, hne, fieldReferences, List.mem_append,
          List.eraseP_cons, hkey, decide_false, cond_false] at ih ⊢
        rw [ih]
        tauto

/-- A false value holds no reference. -/
theorem resolvedReferences_of_falsy {v : Json} (h : v.truthy = false) :
    resolvedReferences v = [] := by
  cases v with
  | str text =>
      obtain rfl : text = "" := by simpa [Json.truthy] using h
      rfl
  | arr items =>
      obtain rfl : items = [] := by simpa [Json.truthy] using h
      rfl
  | obj fields =>
      obtain rfl : fields = [] := by simpa [Json.truthy] using h
      rfl
  | null | bool | int | float => rfl

/-- What the runtime resolves is what the validator scans and the rest. -/
theorem mem_runtimeReferences_iff {node : WorkflowNode} {r : ContextReference} :
    r ∈ runtimeReferences node ↔ (∃ v ∈ referenceBearingValues node, r ∈ resolvedReferences v) ∨
      ∃ v ∈ unscannedValues node, r ∈ resolvedReferences v := by
  have hconfig (key : String) : r ∈ resolvedReferences (.obj node.config) ↔
      r ∈ resolvedReferences (node.configValue key) ∨
        r ∈ resolvedReferences (.obj (Dict.without node.config key)) :=
    mem_fieldReferences_iff node.config key
  have hall (hother : node.isInput = false) : r ∈ runtimeReferences node ↔
      r ∈ resolvedReferences (.obj node.config) ∨ r ∈ resolvedReferences (.obj node.inputMapping) := by
    simp [runtimeReferences, hother]
  cases htype : node.type with
  | agent =>
      have htemplate : (∃ v ∈ (if (node.configValue "task_template").truthy = true then
          [node.configValue "task_template"] else []), r ∈ resolvedReferences v) ↔
            r ∈ resolvedReferences (node.configValue "task_template") := by
        split
        · simp
        · next h => simp [resolvedReferences_of_falsy (by simpa using h)]
      rw [hall (by simp [WorkflowNode.isInput, htype]), hconfig "task_template"]
      simp only [referenceBearingValues, unscannedValues, htype, List.mem_append, or_and_right,
        exists_or, htemplate, List.mem_singleton, exists_eq_left]
      tauto
  | service | tool | human =>
      rw [hall (by simp [WorkflowNode.isInput, htype])]
      simp [referenceBearingValues, unscannedValues, htype, or_comm]
  | logic =>
      rw [hall (by simp [WorkflowNode.isInput, htype])]
      simp only [referenceBearingValues, unscannedValues, htype]
      by_cases hcondition : node.subtype = "condition"
      · rw [if_pos hcondition, if_pos hcondition]
        cases hexpression : node.configValue "expression" with
        | obj expression =>
            have hleft := mem_fieldReferences_iff (r := r) expression "left"
            have hright := mem_fieldReferences_iff (r := r) (Dict.without expression "left") "right"
            have hget : Dict.get? (Dict.without expression "left") "right" =
                Dict.get? expression "right" := Dict.get?_without (by decide)
            rw [hget] at hright
            rw [hconfig "expression", hexpression]
            simp only [List.mem_cons, List.not_mem_nil, or_false, or_and_right, exists_or,
              exists_eq_left, resolvedReferences] at hleft hright ⊢
            tauto
        | null | bool | int | float | str | arr => simp
      · rw [if_neg hcondition, if_neg hcondition]
        simp
  | data =>
      simp only [referenceBearingValues, unscannedValues, htype]
      split
      · next hsubtype =>
        rw [hall (by simp [WorkflowNode.isInput, hsubtype]), hconfig "mappings"]
        simp only [hsubtype, List.mem_cons, List.not_mem_nil, or_false, or_and_right, exists_or,
          exists_eq_left]
        tauto
      · next hsubtype =>
        rw [hall (by simp [WorkflowNode.isInput, hsubtype]), hconfig "output_mapping"]
        simp only [hsubtype, List.mem_cons, List.not_mem_nil, or_false, or_and_right, exists_or,
          exists_eq_left]
        tauto
      · next htransform houtput =>
        split
        · next hinput => simp [runtimeReferences, WorkflowNode.isInput, htype, hinput]
        · next hsubtype => exact absurd hsubtype htransform
        · next hsubtype => exact absurd hsubtype houtput
        · next hinput _ _ =>
          rw [hall (by simpa [WorkflowNode.isInput] using fun _ ↦ hinput)]
          simp

/-! ## What the validator checks -/

theorem matchReference_scope {value : String} {r : ContextReference}
    (h : matchReference value = some r) {x : NodeId} (hx : r.nodeId = some x) :
    r.scope = "nodes." ++ x ++ ".output" := by
  obtain ⟨body, -, h⟩ := Option.bind_eq_some_iff.mp h
  dsimp only at h
  split at h
  · unfold ContextReference.ofSegments at h
    split at h <;> cases h <;> simp_all
  · cases h

theorem nodes_scope_ne (x : NodeId) : "nodes." ++ x ++ ".output" ≠ "workflow.variables" ∧
    "nodes." ++ x ++ ".output" ≠ "workflow.input" ∧ "nodes." ++ x ++ ".output" ≠ "run" := by
  refine ⟨?_, ?_, ?_⟩
  all_goals
    intro h
    have hchars := congrArg String.toList h
    simp at hchars

theorem nodeReferenceIssues_upstream (hacyclic : g.hasCycle = false) {node : WorkflowNode}
    {r : ContextReference} {x : NodeId} {issues : List ValidationIssue}
    (h : nodeReferenceIssues context g.toWorkflowGraph node r x = .ok issues)
    (hclean : Clean issues) :
    Relation.TransGen g.Arc x node.id ∧
      ∃ target, g.node? x = some target ∧ outputProviderKind target ≠ none := by
  unfold nodeReferenceIssues at h
  dsimp only at h
  split at h
  · cases h
    simp [Clean, referenceIssue] at hclean
  · next target htarget =>
    split at h
    · cases h
      simp [Clean, referenceIssue] at hclean
    · split at h
      · cases h
        simp [Clean, referenceIssue] at hclean
      · next kind hkind =>
        split at h
        · split at h
          all_goals
            cases h
            simp [Clean, referenceIssue] at hclean
        · next hupstream =>
          have hmem : x ∈ g.ancestors node.id := by
            by_contra hnot
            exact hupstream ⟨hacyclic, hnot⟩
          obtain ⟨-, hpath⟩ := Worklist.mem_strictlyBelow_iff.mp hmem
          refine ⟨?_, target, htarget, by simp [hkind]⟩
          rw [WorkflowGraph.edge_reverseArcs_eq] at hpath
          exact Relation.transGen_swap.mp hpath

theorem Accepted.valueReferenceIssues_clean (h : Accepted env context g.toWorkflowGraph)
    {node : WorkflowNode} (hnode : node ∈ g.nodes) {v : Json}
    (hv : v ∈ referenceBearingValues node) :
    ∃ found, valueReferenceIssues context g.toWorkflowGraph node v = .ok found ∧ Clean found := by
  obtain ⟨-, -, -, issues, -, -, -, hcontext, -, -, -, -, -, hclean, -⟩ := accepted_iff.mp h
  obtain ⟨collected, hcollected, hcontext⟩ := Outcome.bind_eq_ok_iff.mp hcontext
  cases hcontext
  obtain ⟨ofNode, hofNode, hvalues⟩ := Outcome.exists_of_mapM hcollected hnode
  obtain ⟨ofValue, hofValue, hvalue⟩ := Outcome.exists_of_mapM hvalues hv
  exact ⟨ofValue, hvalue, fun issue hissue ↦ hclean issue
    (List.mem_flatten.mpr ⟨ofValue, List.mem_flatten.mpr ⟨ofNode, hofNode, hofValue⟩, hissue⟩)⟩

/-- The scanned values of an accepted graph can be parsed. -/
theorem Accepted.exists_references (h : Accepted env context g.toWorkflowGraph)
    {node : WorkflowNode} (hnode : node ∈ g.nodes) {v : Json}
    (hv : v ∈ referenceBearingValues node) :
    ∃ references, extractContextReferences v = .ok references := by
  obtain ⟨found, hvalue, hclean⟩ := h.valueReferenceIssues_clean hnode hv
  cases hextract : extractContextReferences v with
  | ok references => exact ⟨references, rfl⟩
  | error e =>
      rw [valueReferenceIssues, hextract] at hvalue
      cases hvalue
      simp [Clean, referenceIssue] at hclean

/-- In an accepted graph no reference of a scanned value has an error. -/
theorem Accepted.referenceIssues_clean (h : Accepted env context g.toWorkflowGraph)
    {node : WorkflowNode} (hnode : node ∈ g.nodes) {v : Json} (hv : v ∈ referenceBearingValues node)
    {references : List ContextReference} (hextract : extractContextReferences v = .ok references)
    {r : ContextReference} (hr : r ∈ references) :
    ∃ found, referenceIssues context g.toWorkflowGraph node r = .ok found ∧ Clean found := by
  obtain ⟨issues, hvalue, hclean⟩ := h.valueReferenceIssues_clean hnode hv
  rw [valueReferenceIssues, hextract] at hvalue
  obtain ⟨perReference, hreferences, hvalue⟩ := Outcome.bind_eq_ok_iff.mp hvalue
  cases hvalue
  obtain ⟨found, hfound, hreference⟩ := Outcome.exists_of_mapM hreferences hr
  rw [ParsedGraph.node?_of_mem hnode] at hreference
  exact ⟨found, hreference, fun issue hissue ↦ hclean issue
    (List.mem_flatten.mpr ⟨found, hfound, hissue⟩)⟩

/-- In an accepted graph the scanned values look upstream. -/
theorem Accepted.scanned_upstream (h : Accepted env context g.toWorkflowGraph)
    {node : WorkflowNode} (hnode : node ∈ g.nodes) {v : Json} (hv : v ∈ referenceBearingValues node)
    {r : ContextReference} (hr : r ∈ resolvedReferences v) :
    LooksUpstream g.toWorkflowGraph node.id r := by
  intro x hx
  obtain ⟨references, hextract⟩ := h.exists_references hnode hv
  obtain ⟨found, hreference, hclean⟩ :=
    h.referenceIssues_clean hnode hv hextract (resolvedReferences_subset v hextract r hr)
  obtain ⟨value, hmatch⟩ := resolvedReferences_parsed v hr
  obtain ⟨hvariables, hinput, hrun⟩ := nodes_scope_ne x
  rw [← matchReference_scope hmatch hx] at hvariables hinput hrun
  rw [referenceIssues, if_neg hvariables, if_neg hinput, if_neg hrun, hx] at hreference
  exact nodeReferenceIssues_upstream h.hasCycle_eq hreference hclean

/-- A node of an accepted graph looks only upstream if and only if the values that the
validator does not scan do. -/
theorem accepted_looksUpstream_iff (h : Accepted env context g.toWorkflowGraph)
    {node : WorkflowNode} (hnode : node ∈ g.nodes) :
    (∀ r ∈ runtimeReferences node, LooksUpstream g.toWorkflowGraph node.id r) ↔
      ∀ v ∈ unscannedValues node, ∀ r ∈ resolvedReferences v,
        LooksUpstream g.toWorkflowGraph node.id r := by
  constructor
  · intro hall v hv r hr
    exact hall r (mem_runtimeReferences_iff.mpr (.inr ⟨v, hv, hr⟩))
  · intro hunscanned r hr
    rcases mem_runtimeReferences_iff.mp hr with ⟨v, hv, hr⟩ | ⟨v, hv, hr⟩
    · exact h.scanned_upstream hnode hv hr
    · exact hunscanned v hv r hr

/-! ## A graph that looks ahead -/

def shapeNode : WorkflowNode where
  id := "shape"
  type := .data
  subtype := "transform"
  name := "Shape"
  config := [("mappings", .obj [("x", .str "{{workflow.input.x}}")])]

/-- The command of the Tool needs the output of the transform behind it. -/
def toolNode : WorkflowNode where
  id := "tool"
  type := .tool
  subtype := "shell"
  name := "Tool"
  config := [("command", .str "{{nodes.last.output.y}}")]

def lastNode : WorkflowNode where
  id := "last"
  type := .data
  subtype := "transform"
  name := "Last"
  config := [("mappings", .obj [("y", .str "{{nodes.shape.output.x}}")])]

/-- Data Input, transform, Tool, transform, Data Output. -/
def aheadGraph : ParsedGraph where
  nodes :=
    [{ id := "in", type := .data, subtype := "input", name := "Input"
       config := [("schema", .obj [("type", .str "object")])] },
      shapeNode, toolNode, lastNode,
      { id := "out", type := .data, subtype := "output", name := "Output"
        config := [("output_mapping", .obj [])] }]
  edges :=
    [{ id := "e1", source := "in", target := "shape" },
      { id := "e2", source := "shape", target := "tool" },
      { id := "e3", source := "tool", target := "last" },
      { id := "e4", source := "last", target := "out" }]
  nodeIds_nodup := by decide
  edges_closed := by decide

theorem accepted_aheadGraph : Accepted plainEnv {} aheadGraph.toWorkflowGraph :=
  accepted_of_silent (by decide) (by decide) (by rfl) rfl rfl rfl rfl

/-- The last transform looks upstream. -/
theorem accepted_looksUpstream_lastNode :
    (runtimeReferences lastNode).map ContextReference.nodeId = [some "shape"] ∧
      ∀ r ∈ runtimeReferences lastNode, LooksUpstream aheadGraph.toWorkflowGraph "last" r := by
  refine ⟨by decide, ?_⟩
  have hnode : lastNode ∈ aheadGraph.nodes := by simp [aheadGraph]
  refine (accepted_looksUpstream_iff accepted_aheadGraph hnode).mpr fun v hv r hr ↦ ?_
  have hnone : (unscannedValues lastNode).flatMap resolvedReferences = [] := by decide
  have hmem : r ∈ (unscannedValues lastNode).flatMap resolvedReferences :=
    List.mem_flatMap.mpr ⟨v, hv, hr⟩
  rw [hnone] at hmem
  cases hmem

/-- The graph is accepted, and its Tool looks ahead. -/
theorem not_looksUpstream_toolNode : Accepted plainEnv {} aheadGraph.toWorkflowGraph ∧
    toolNode ∈ aheadGraph.nodes ∧
      ∃ r ∈ runtimeReferences toolNode, r.nodeId = some "last" ∧
        ¬LooksUpstream aheadGraph.toWorkflowGraph "tool" r := by
  obtain ⟨r, hr, hlast⟩ : ∃ r ∈ runtimeReferences toolNode, r.nodeId = some "last" := by decide
  refine ⟨accepted_aheadGraph, by simp [aheadGraph], r, hr, hlast, fun hlooks ↦ ?_⟩
  -- the path from the Tool to the transform closes a cycle
  have hback := (hlooks "last" hlast).1
  have hforth : Relation.TransGen aheadGraph.Arc "tool" "last" :=
    .single ⟨{ id := "e3", source := "tool", target := "last" }, by simp [aheadGraph], rfl, rfl⟩
  have hacyclic := (ParsedGraph.arc_wellFounded accepted_aheadGraph.hasCycle_eq).transGen
  exact hacyclic.asymmetric _ _ hback hforth

end Relayvia
