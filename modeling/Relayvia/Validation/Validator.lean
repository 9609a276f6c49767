import Relayvia.Library.Outcome
import Relayvia.Validation.Context
import Relayvia.Validation.Nodes
import Relayvia.Validation.Topology

/-!
# The validation engine

`validate_graph` runs the rules in their order and sorts the issues.  A graph is
accepted when it has no error.
-/

namespace Relayvia

/-- The last position of an id. -/
def positionOf (ids : List String) (id : String) : Option ℤ :=
  (ids.zipIdx.filter (·.1 = id)).getLast?.map fun p ↦ (p.2 : ℤ)

def issueRank (g : WorkflowGraph) (issue : ValidationIssue) : ℤ :=
  match (issue.nodeId.filter (· ≠ "")).bind (positionOf g.nodeIds) with
  | some position => position
  | none =>
      ((issue.edgeId.filter (· ≠ "")).bind (positionOf (g.edges.map WorkflowEdge.id))).getD (-1)

/-- The order of the report: group, position in the graph, code. -/
def issueBefore (g : WorkflowGraph) (a b : ℕ × ValidationIssue) : Bool :=
  a.1 < b.1 ∨ a.1 = b.1 ∧
    (issueRank g a.2 < issueRank g b.2 ∨
      issueRank g a.2 = issueRank g b.2 ∧ a.2.code.value ≤ b.2.code.value)

/-- The issues of all rules in the order of the pipeline. -/
def collectIssues (env : Env) (context : ValidationContext) (g : WorkflowGraph) :
    Except Raised (List (ℕ × ValidationIssue)) := do
  let references ← validateReferences env context g
  let nodes ← validateNodes env g
  let contextIssues ← validateContext context g
  let schema ← validateSchema env context g
  return (validateIdentity g).map (0, ·) ++ (validateTopology g).map (1, ·) ++
    references.map (2, ·) ++ nodes.map (3, ·) ++ contextIssues.map (4, ·) ++ schema.map (5, ·)

def validateGraph (env : Env) (context : ValidationContext) (g : WorkflowGraph) :
    Except Raised ValidationResult := do
  if g.nodes = [] then
    return {
      valid := false
      errors := [{ code := .graphEmpty, message := "Workflow graph is empty" }] }
  let collected ← collectIssues env context g
  return .fromIssues ((collected.mergeSort (issueBefore g)).map Prod.snd)

theorem validateGraph_eq {env : Env} {context : ValidationContext} {g : WorkflowGraph}
    {collected : List (ℕ × ValidationIssue)} (hnodes : g.nodes ≠ [])
    (hcollected : collectIssues env context g = .ok collected) :
    validateGraph env context g =
      .ok (.fromIssues ((collected.mergeSort (issueBefore g)).map Prod.snd)) := by
  unfold validateGraph
  rw [if_neg hnodes, hcollected]
  rfl

/-- `validate_graph` returns a valid result. -/
def Accepted (env : Env) (context : ValidationContext) (g : WorkflowGraph) : Prop :=
  ∃ result, validateGraph env context g = .ok result ∧ result.valid = true

/-- An accepted graph has nodes, every rule returns, and none reports an error. -/
theorem accepted_iff {env : Env} {context : ValidationContext} {g : WorkflowGraph} :
    Accepted env context g ↔ g.nodes ≠ [] ∧ ∃ references nodes contextIssues schema,
      validateReferences env context g = .ok references ∧ validateNodes env g = .ok nodes ∧
        validateContext context g = .ok contextIssues ∧ validateSchema env context g = .ok schema ∧
          Clean (validateIdentity g) ∧ Clean (validateTopology g) ∧ Clean references ∧
            Clean nodes ∧ Clean contextIssues ∧ Clean schema := by
  have hsorted (collected : List (ℕ × ValidationIssue)) :
      Clean ((collected.mergeSort (issueBefore g)).map Prod.snd) ↔
        Clean (collected.map Prod.snd) := by
    simp [Clean, (List.mergeSort_perm collected (issueBefore g)).mem_iff]
  constructor
  · rintro ⟨result, hresult, hvalid⟩
    unfold validateGraph at hresult
    split at hresult
    · cases hresult
      cases hvalid
    · next hnodes =>
      obtain ⟨collected, hcollected, hresult⟩ := Outcome.bind_eq_ok_iff.mp hresult
      cases hresult
      rw [ValidationResult.valid_fromIssues, hsorted] at hvalid
      obtain ⟨references, hreferences, hcollected⟩ := Outcome.bind_eq_ok_iff.mp hcollected
      obtain ⟨nodes, hnode, hcollected⟩ := Outcome.bind_eq_ok_iff.mp hcollected
      obtain ⟨contextIssues, hcontext, hcollected⟩ := Outcome.bind_eq_ok_iff.mp hcollected
      obtain ⟨schema, hschema, hcollected⟩ := Outcome.bind_eq_ok_iff.mp hcollected
      cases hcollected
      refine ⟨hnodes, references, nodes, contextIssues, schema, hreferences, hnode, hcontext,
        hschema, ?_⟩
      simpa [and_assoc, Function.comp_def] using hvalid
  · rintro ⟨hnodes, references, nodes, contextIssues, schema, hreferences, hnode, hcontext,
      hschema, hclean⟩
    have hcollected : collectIssues env context g = .ok ((validateIdentity g).map (0, ·) ++
        (validateTopology g).map (1, ·) ++ references.map (2, ·) ++ nodes.map (3, ·) ++
          contextIssues.map (4, ·) ++ schema.map (5, ·)) := by
      unfold collectIssues
      rw [hreferences, hnode, hcontext, hschema]
      rfl
    refine ⟨_, validateGraph_eq hnodes hcollected, ?_⟩
    rw [ValidationResult.valid_fromIssues, hsorted]
    simpa [and_assoc, Function.comp_def] using hclean

/-- A graph with nodes is accepted when no rule reports an issue. -/
theorem accepted_of_silent {env : Env} {context : ValidationContext} {g : WorkflowGraph}
    (hnodes : g.nodes ≠ []) (hidentity : validateIdentity g = [])
    (htopology : validateTopology g = []) (hreferences : validateReferences env context g = .ok [])
    (hconfig : validateNodes env g = .ok []) (hcontext : validateContext context g = .ok [])
    (hschema : validateSchema env context g = .ok []) : Accepted env context g := by
  refine accepted_iff.mpr ⟨hnodes, [], [], [], [], hreferences, hconfig, hcontext, hschema, ?_⟩
  simp [hidentity, htopology]

end Relayvia
