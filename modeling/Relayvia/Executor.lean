import Relayvia.System

/-!
# What executions report

The part of the Worker and of the default executor that the run-time state
depends on: which nodes are parked instead of executed, and what a Condition
reports.
-/

namespace Relayvia

/-- The duration of a Wait node in seconds, at least one. -/
def waitDuration (env : Env) (config : Dict) : ℤ :=
  match (Dict.get? config "duration_seconds").filter Json.truthy with
  | some value => ((env.pyInt value).map (max · 1)).getD 1
  | none => 1

/-- `_waiting_for`: the reason and the metadata of a node that is parked. -/
def waitingFor (env : Env) (now : Time) (type : NodeType) (subtype : String)
    (resolvedConfig : Dict) : Option (String × Dict) :=
  match type, subtype with
  | .human, "approval" =>
      let allowReject := ((Dict.get? resolvedConfig "allow_reject").getD (.bool true)).truthy
      some ("HUMAN_APPROVAL", [("allow_reject", .bool allowReject)])
  | .human, "input" => some ("HUMAN_INPUT", [])
  | .logic, "wait" =>
      let duration := waitDuration env resolvedConfig
      let resumeAt := env.isoformat (now + seconds duration.toNat)
      some ("WAIT_TIMER", [("resume_at", .str resumeAt), ("duration_seconds", .int duration)])
  | _, _ => none

/-- The output of a Condition that was evaluated. -/
def conditionOutput (isMatch : Bool) : Dict :=
  [("selected_branch", .str (if isMatch then "true" else "false")), ("matched", .bool isMatch)]

/-- A Human or Wait node, the ones that are parked. -/
def NodeRun.parks (n : NodeRun) : Bool :=
  (n.nodeType = .human ∧ (n.nodeSubtype = "approval" ∨ n.nodeSubtype = "input")) ∨
    (n.nodeType = .logic ∧ n.nodeSubtype = "wait")

theorem NodeRun.parks_of_waitingFor {env : Env} {now : Time} {n : NodeRun} {config : Dict}
    {result : String × Dict}
    (h : waitingFor env now n.nodeType n.nodeSubtype config = some result) : n.parks = true := by
  unfold waitingFor at h
  split at h
  · next htype hsubtype => simp [parks, htype, hsubtype]
  · next htype hsubtype => simp [parks, htype, hsubtype]
  · next htype hsubtype => simp [parks, htype, hsubtype]
  · cases h

/-- What the callers of the queue keep to: a Worker parks the nodes that wait and
no others and completes a Condition with its selected branch, and a Runner submits
the tasks that need a capability. -/
def RunOp.Executed (env : Env) (db : RunRecord) : RunOp → Prop
  | .complete _ task _ _ output _ _ =>
      ∀ t n, findTask db.tasks task = some t → findNodeRun db.nodeRuns t.nodeRunId = some n →
        n.nodeType = .logic → n.nodeSubtype = "condition" →
          ∃ isMatch, Dict.get? output "selected_branch" =
            Dict.get? (conditionOutput isMatch) "selected_branch"
  | .waitNode _ task _ _ waitingReason waitingMetadata =>
      ∀ t n, findTask db.tasks task = some t → findNodeRun db.nodeRuns t.nodeRunId = some n →
        ∃ now config,
          waitingFor env now n.nodeType n.nodeSubtype config = some (waitingReason, waitingMetadata)
  | .runnerSubmit _ _ task _ _ =>
      ∀ t, findTask db.tasks task = some t → t.requiredCapability ≠ none
  | _ => True

end Relayvia
