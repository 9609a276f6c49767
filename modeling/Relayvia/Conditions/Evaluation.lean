import Relayvia.Conditions.Comparison
import Relayvia.Executor

/-!
# Evaluation of Conditions

`_evaluate_expression` and `_execute_condition` of the default executor.
-/

namespace Relayvia

open Python (OperatorError)

mutual

/-- `_evaluate_expression`. -/
def evaluateExpression (same : Json → Json → Bool) : Json → Except OperatorError Bool
  | .obj fields =>
      match evaluateAt same "and" fields with
      | some result => result
      | none =>
          match evaluateAt same "or" fields with
          | some result => result
          | none =>
              compare same ((Dict.get? fields "left").getD .null)
                ((Dict.get? fields "operator").getD .null) ((Dict.get? fields "right").getD .null)
  | _ => .error (.valueError "invalid condition expression")

/-- The branch of the evaluator for `key`, when the expression has that key. -/
def evaluateAt (same : Json → Json → Bool) (key : String) :
    List (String × Json) → Option (Except OperatorError Bool)
  | [] => none
  | (k, value) :: fields =>
      if k = key then some (evaluateClauses same key value) else evaluateAt same key fields

def evaluateClauses (same : Json → Json → Bool) (key : String) :
    Json → Except OperatorError Bool
  | .arr items =>
      if items = [] then .error (.valueError ("invalid " ++ Python.repr key ++ " expression"))
      else if key = "and" then evaluateAll same items
      else evaluateAny same items
  | _ => .error (.valueError ("invalid " ++ Python.repr key ++ " expression"))

/-- `all(_evaluate_expression(clause) for clause in clauses)`. -/
def evaluateAll (same : Json → Json → Bool) : List Json → Except OperatorError Bool
  | [] => .ok true
  | clause :: clauses => do
      if ← evaluateExpression same clause then evaluateAll same clauses else return false

/-- `any(_evaluate_expression(clause) for clause in clauses)`. -/
def evaluateAny (same : Json → Json → Bool) : List Json → Except OperatorError Bool
  | [] => .ok false
  | clause :: clauses => do
      if ← evaluateExpression same clause then return true else evaluateAny same clauses

end

/-- `_execute_condition`: the output of the node, or the code and the message of its
failure. -/
def executeCondition (same : Json → Json → Bool) (resolvedConfig : Dict) :
    Except (String × String) Dict :=
  match Dict.get? resolvedConfig "expression" with
  | some (.obj expression) =>
      match evaluateExpression same (.obj expression) with
      | .ok isMatch => .ok (conditionOutput isMatch)
      | .error _ =>
          .error ("CONDITION_EVALUATION_FAILED",
            "Condition values cannot be compared with the configured operator")
  | _ => .error ("INVALID_CONDITION", "Condition expression is missing")

end Relayvia
