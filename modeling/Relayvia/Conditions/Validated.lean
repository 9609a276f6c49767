import Relayvia.Conditions.Evaluation
import Relayvia.Library.Clauses
import Relayvia.Output.Sanitize
import Relayvia.Validation.Executable
import Relayvia.Validation.Totality

/-!
# Conditions that validation accepted

Once its operands are resolved, the expression of an accepted Condition evaluates to its
Boolean value, which selects one outgoing edge, unless two operands cannot be compared.
-/

namespace Relayvia

open Python (OperatorError)

/-! ## What an expression says -/

structure Comparison where
  left : Json
  operator : Json
  right : Json

def Comparison.ofFields (fields : Dict) : Comparison where
  left := (Dict.get? fields "left").getD .null
  operator := (Dict.get? fields "operator").getD .null
  right := (Dict.get? fields "right").getD .null

def Comparison.result (same : Json → Json → Bool) (c : Comparison) : Except OperatorError Bool :=
  compare same c.left c.operator c.right

mutual

/-- The AND/OR expression that a JSON value writes down. -/
def readExpression : Json → Clauses.Expr Comparison
  | .obj fields =>
      match readAt "and" fields, readAt "or" fields with
      | some clauses, _ => .combine false clauses
      | none, some clauses => .combine true clauses
      | none, none => .atom (.ofFields fields)
  | _ => .atom (.ofFields [])

def readAt (key : String) : List (String × Json) → Option (List (Clauses.Expr Comparison))
  | [] => none
  | (k, value) :: fields => if k = key then some (readClauses value) else readAt key fields

def readClauses : Json → List (Clauses.Expr Comparison)
  | .arr items => readItems items
  | _ => []

def readItems : List Json → List (Clauses.Expr Comparison)
  | [] => []
  | item :: items => readExpression item :: readItems items

end

/-- An expression without a structural fault: a comparison by a known operator, or clauses of
this kind under one of the two keys. -/
inductive Evaluable : Json → Prop where
  | comparison {fields : Dict} {operator : String} :
      Dict.get? fields "and" = none → Dict.get? fields "or" = none →
      Dict.get? fields "operator" = some (.str operator) → operator ∈ conditionOperators →
      Evaluable (.obj fields)
  | all {fields : Dict} {items : List Json} :
      Dict.get? fields "and" = some (.arr items) → items ≠ [] →
      (∀ item ∈ items, Evaluable item) → Evaluable (.obj fields)
  | any {fields : Dict} {items : List Json} :
      Dict.get? fields "and" = none → Dict.get? fields "or" = some (.arr items) → items ≠ [] →
      (∀ item ∈ items, Evaluable item) → Evaluable (.obj fields)

variable {same : Json → Json → Bool} {expression : Json}

/-! ## The evaluator -/

theorem evaluateAt_eq (key : String) (fields : Dict) :
    evaluateAt same key fields = (Dict.get? fields key).map (evaluateClauses same key) := by
  apply Dict.scan_eq
  · rfl
  · intro k value rest
    rw [evaluateAt]

theorem readAt_eq (key : String) (fields : Dict) :
    readAt key fields = (Dict.get? fields key).map readClauses := by
  apply Dict.scan_eq
  · rfl
  · intro k value rest
    rw [readAt]

theorem evaluateAll_eq {items : List Json}
    (h : ∀ item ∈ items,
      evaluateExpression same item = (readExpression item).eval (Comparison.result same)) :
    evaluateAll same items =
      Clauses.Expr.evalUntil (Comparison.result same) false (readItems items) := by
  induction items with
  | nil => rfl
  | cons item items ih =>
      rw [evaluateAll, readItems, Clauses.Expr.evalUntil, h item List.mem_cons_self,
        ih fun other hother ↦ h other (List.mem_cons_of_mem _ hother)]
      apply bind_congr
      intro b
      cases b <;> rfl

theorem evaluateAny_eq {items : List Json}
    (h : ∀ item ∈ items,
      evaluateExpression same item = (readExpression item).eval (Comparison.result same)) :
    evaluateAny same items =
      Clauses.Expr.evalUntil (Comparison.result same) true (readItems items) := by
  induction items with
  | nil => rfl
  | cons item items ih =>
      rw [evaluateAny, readItems, Clauses.Expr.evalUntil, h item List.mem_cons_self,
        ih fun other hother ↦ h other (List.mem_cons_of_mem _ hother)]

theorem readExpression_and {fields : Dict} {items : List Json}
    (hand : Dict.get? fields "and" = some (.arr items)) :
    readExpression (.obj fields) = .combine false (readItems items) := by
  rw [readExpression, readAt_eq, hand]
  rfl

theorem readExpression_or {fields : Dict} {items : List Json}
    (hand : Dict.get? fields "and" = none) (hor : Dict.get? fields "or" = some (.arr items)) :
    readExpression (.obj fields) = .combine true (readItems items) := by
  rw [readExpression, readAt_eq, readAt_eq, hand, hor]
  rfl

theorem readExpression_comparison {fields : Dict} (hand : Dict.get? fields "and" = none)
    (hor : Dict.get? fields "or" = none) :
    readExpression (.obj fields) = .atom (.ofFields fields) := by
  rw [readExpression, readAt_eq, readAt_eq, hand, hor]
  rfl

/-- The evaluator is the evaluation from left to right. -/
theorem Evaluable.evaluate_eq (h : Evaluable expression) :
    evaluateExpression same expression =
      (readExpression expression).eval (Comparison.result same) := by
  induction h with
  | comparison hand hor _ _ =>
      rw [evaluateExpression, evaluateAt_eq, evaluateAt_eq, readExpression_comparison hand hor,
        hand, hor]
      rfl
  | all hand hne _ ih =>
      rw [evaluateExpression, evaluateAt_eq, readExpression_and hand, hand, Clauses.Expr.eval,
        ← evaluateAll_eq ih, Option.map_some, evaluateClauses, if_neg hne, if_pos rfl]
  | any hand hor hne _ ih =>
      rw [evaluateExpression, evaluateAt_eq, evaluateAt_eq, readExpression_or hand hor, hand, hor,
        Clauses.Expr.eval, ← evaluateAny_eq ih, Option.map_some, evaluateClauses, if_neg hne,
        if_neg (by decide)]
      rfl

theorem mem_atomsOf_readItems {items : List Json} {c : Comparison}
    (h : c ∈ Clauses.Expr.atomsOf (readItems items)) :
    ∃ item ∈ items, c ∈ (readExpression item).atoms := by
  induction items with
  | nil =>
      rw [readItems, Clauses.Expr.atomsOf] at h
      cases h
  | cons item items ih =>
      rw [readItems, Clauses.Expr.atomsOf] at h
      rcases List.mem_append.mp h with hitem | hitems
      · exact ⟨item, List.mem_cons_self, hitem⟩
      · obtain ⟨other, hother, hmem⟩ := ih hitems
        exact ⟨other, List.mem_cons_of_mem _ hother, hmem⟩

theorem Evaluable.operator (h : Evaluable expression) :
    ∀ c ∈ (readExpression expression).atoms,
      ∃ operator ∈ conditionOperators, c.operator = .str operator := by
  induction h with
  | comparison hand hor hoperator hknown =>
      rw [readExpression_comparison hand hor, Clauses.Expr.atoms]
      intro c hc
      rw [List.mem_singleton.mp hc, Comparison.ofFields, hoperator]
      exact ⟨_, hknown, rfl⟩
  | all hand _ _ ih =>
      rw [readExpression_and hand, Clauses.Expr.atoms]
      intro c hc
      obtain ⟨item, hitem, hmem⟩ := mem_atomsOf_readItems hc
      exact ih item hitem c hmem
  | any hand hor _ _ ih =>
      rw [readExpression_or hand hor, Clauses.Expr.atoms]
      intro c hc
      obtain ⟨item, hitem, hmem⟩ := mem_atomsOf_readItems hc
      exact ih item hitem c hmem

/-- The evaluation fails only where two operands cannot be compared. -/
theorem Evaluable.typeError (h : Evaluable expression) {e : OperatorError}
    (he : evaluateExpression same expression = .error e) :
    e = .typeError ∧
      ∃ c ∈ (readExpression expression).atoms, c.result same = .error .typeError := by
  rw [h.evaluate_eq] at he
  obtain ⟨c, hc, hresult⟩ := Clauses.Expr.exists_of_eval_error _ he
  obtain ⟨operator, hknown, hoperator⟩ := h.operator c hc
  rw [Comparison.result, hoperator] at hresult
  have htype := compare_typeError hknown hresult
  refine ⟨htype, c, hc, ?_⟩
  rw [Comparison.result, hoperator, hresult, htype]

/-! ## The validator -/

variable {env : Env} {node : WorkflowNode} {issues : List ValidationIssue}

theorem operator_of_comparisonIssues {fields : Dict}
    (h : comparisonIssues env node fields = .ok issues) (hclean : Clean issues) :
    ∃ operator ∈ conditionOperators, Dict.get? fields "operator" = some (.str operator) := by
  obtain ⟨unsupported, hunsupported, h⟩ := Outcome.bind_eq_ok_iff.mp h
  cases h
  obtain ⟨-, hoperator⟩ := clean_append.mp hclean
  rw [clean_issueIf] at hoperator
  obtain ⟨known, hknown, hnot⟩ := Outcome.map_eq_ok_iff.mp hunsupported
  obtain ⟨found, hfound, hsome⟩ := Outcome.map_eq_ok_iff.mp hknown
  have hfoundSome : found.isSome = true := by
    by_contra hnone
    refine hoperator ?_ rfl
    rw [← hnot, ← hsome]
    simpa using hnone
  cases hvalue : Dict.get? fields "operator" with
  | none =>
      rw [hvalue] at hfound
      cases hfound
      cases hfoundSome
  | some value =>
      rw [hvalue, Option.getD_some] at hfound
      cases value with
      | str operator =>
          cases hfound
          refine ⟨operator, ?_, rfl⟩
          obtain ⟨entry, hentry⟩ := Option.isSome_iff_exists.mp hfoundSome
          obtain ⟨before, after, htable, -⟩ := List.lookup_eq_some_iff.mp hentry
          have hmem : (operator, entry) ∈ conditionOperators.map (·, ()) := by
            rw [htable]
            exact List.mem_append_right before List.mem_cons_self
          obtain ⟨known, hknown, heq⟩ := List.mem_map.mp hmem
          cases heq
          exact hknown
      | null | bool | int | float =>
          cases hfound
          cases hfoundSome
      | arr | obj => cases hfound

theorem not_clean_expressionIssue {message : String} :
    ¬Clean [expressionIssue node message] := by
  intro h
  exact h _ List.mem_cons_self rfl

mutual

/-- What the validator accepts has no structural fault. -/
theorem evaluable_of_validateClause : ∀ (clause : Json) {issues : List ValidationIssue},
    validateClause env node clause = .ok issues → Clean issues → Evaluable clause
  | .obj fields, issues, h, hclean => by
      have hat (key : String) {result : Except Raised (List ValidationIssue)}
          (hresult : clausesAt env node key fields = some result) (hok : result = .ok issues) :
          ∃ items, Dict.get? fields key = some (.arr items) ∧ items ≠ [] ∧
            ∀ item ∈ items, Evaluable item := by
        rw [hok] at hresult
        exact evaluable_of_clausesAt fields hresult hclean
      have hnone (key : String) (hkey : clausesAt env node key fields = none) :
          Dict.get? fields key = none := by
        rw [clausesAt_eq] at hkey
        exact Option.map_eq_none_iff.mp hkey
      rw [validateClause] at h
      split at h
      · cases h
        exact absurd hclean not_clean_expressionIssue
      · next hand hor =>
        obtain ⟨items, hitems, hne, hall⟩ := hat "and" hand h
        exact .all hitems hne hall
      · next hand hor =>
        obtain ⟨items, hitems, hne, hall⟩ := hat "or" hor h
        exact .any (hnone "and" hand) hitems hne hall
      · next hand hor =>
        obtain ⟨operator, hknown, hoperator⟩ := operator_of_comparisonIssues h hclean
        exact .comparison (hnone "and" hand) (hnone "or" hor) hoperator hknown
  | .null, _, h, hclean | .bool _, _, h, hclean | .int _, _, h, hclean
  | .float _, _, h, hclean | .str _, _, h, hclean | .arr _, _, h, hclean => by
      cases h
      exact absurd hclean not_clean_expressionIssue

theorem evaluable_of_clausesAt {key : String} :
    ∀ (fields : List (String × Json)) {issues : List ValidationIssue},
      clausesAt env node key fields = some (.ok issues) → Clean issues →
        ∃ items, Dict.get? fields key = some (.arr items) ∧ items ≠ [] ∧
          ∀ item ∈ items, Evaluable item
  | [], _, h, _ => by cases h
  | (k, value) :: fields, issues, h, hclean => by
      rw [clausesAt] at h
      rw [Dict.get?, List.lookup_cons]
      by_cases hkey : k = key
      · rw [if_pos hkey] at h
        obtain ⟨items, rfl, hne, hall⟩ := evaluable_of_validateClauses value (Option.some.inj h) hclean
        exact ⟨items, by simp [hkey], hne, hall⟩
      · rw [if_neg hkey] at h
        rw [beq_false_of_ne fun h ↦ hkey h.symm]
        exact evaluable_of_clausesAt fields h hclean

theorem evaluable_of_validateClauses : ∀ (value : Json) {issues : List ValidationIssue},
    validateClauses env node value = .ok issues → Clean issues →
      ∃ items, value = .arr items ∧ items ≠ [] ∧ ∀ item ∈ items, Evaluable item
  | .arr [], _, h, hclean => by
      cases h
      exact absurd hclean not_clean_expressionIssue
  | .arr (item :: items), issues, h, hclean => by
      obtain ⟨first, hfirst, h⟩ := Outcome.bind_eq_ok_iff.mp h
      obtain ⟨rest, hrest, h⟩ := Outcome.bind_eq_ok_iff.mp h
      cases h
      obtain ⟨hfirstClean, hrestClean⟩ := clean_append.mp hclean
      have hitem := evaluable_of_validateClause item hfirst hfirstClean
      have hitems := evaluable_of_validateClauseItems items hrest hrestClean
      exact ⟨_, rfl, by simp, List.forall_mem_cons.mpr ⟨hitem, hitems⟩⟩
  | .null, _, h, hclean | .bool _, _, h, hclean | .int _, _, h, hclean
  | .float _, _, h, hclean | .str _, _, h, hclean | .obj _, _, h, hclean => by
      cases h
      exact absurd hclean not_clean_expressionIssue

theorem evaluable_of_validateClauseItems : ∀ (items : List Json) {issues : List ValidationIssue},
    validateClauseItems env node items = .ok issues → Clean issues →
      ∀ item ∈ items, Evaluable item
  | [], _, _, _ => by simp
  | item :: items, issues, h, hclean => by
      obtain ⟨first, hfirst, h⟩ := Outcome.bind_eq_ok_iff.mp h
      obtain ⟨rest, hrest, h⟩ := Outcome.bind_eq_ok_iff.mp h
      cases h
      obtain ⟨hfirstClean, hrestClean⟩ := clean_append.mp hclean
      have hitem := evaluable_of_validateClause item hfirst hfirstClean
      have hitems := evaluable_of_validateClauseItems items hrest hrestClean
      exact List.forall_mem_cons.mpr ⟨hitem, hitems⟩

end

/-! ## The resolver -/

variable {resolver : ContextResolver}

theorem resolveItems_ne_nil {items resolved : List Json}
    (h : resolver.resolveItems items = .ok resolved) (hne : items ≠ []) : resolved ≠ [] := by
  cases items with
  | nil => exact absurd rfl hne
  | cons item items =>
      rw [ContextResolver.resolveItems] at h
      obtain ⟨child, -, h⟩ := Outcome.bind_eq_ok_iff.mp h
      obtain ⟨rest, -, h⟩ := Outcome.bind_eq_ok_iff.mp h
      cases h
      exact List.cons_ne_nil child rest

theorem conditionOperators_plain {operator : String} (h : operator ∈ conditionOperators) :
    Python.contains ['{', '{'] operator.toList = false := by
  revert operator
  decide

/-- The clauses under a key, once they are resolved. -/
theorem resolved_clauses {fields resolved : Dict} {key : String} {items : List Json}
    (h : resolver.resolveFields fields = .ok resolved)
    (hitems : Dict.get? fields key = some (.arr items)) (hne : items ≠ []) :
    ∃ items', Dict.get? resolved key = some (.arr items') ∧ items' ≠ [] ∧
      ∀ item' ∈ items', ∃ item ∈ items, resolver.resolve item = .ok item' := by
  obtain ⟨value, hvalue, hget⟩ := resolveFields_get? h hitems
  rw [ContextResolver.resolve] at hvalue
  obtain ⟨items', hitems', hvalue⟩ := Outcome.bind_eq_ok_iff.mp hvalue
  cases hvalue
  exact ⟨items', hget, resolveItems_ne_nil hitems' hne, fun _ ↦ mem_resolveItems hitems'⟩

/-- The resolver replaces operands and keeps the structure. -/
theorem Evaluable.resolve (h : Evaluable expression) {resolved : Json}
    (hresolve : resolver.resolve expression = .ok resolved) : Evaluable resolved := by
  induction h generalizing resolved with
  | comparison hand hor hoperator hknown =>
      rw [ContextResolver.resolve] at hresolve
      obtain ⟨fields', hfields, hresolve⟩ := Outcome.bind_eq_ok_iff.mp hresolve
      cases hresolve
      obtain ⟨operator', hoperator', hget⟩ := resolveFields_get? hfields hoperator
      rw [resolve_plain _ (conditionOperators_plain hknown)] at hoperator'
      cases hoperator'
      exact .comparison (resolveFields_get?_none hfields hand)
        (resolveFields_get?_none hfields hor) hget hknown
  | all hand hne _ ih =>
      rw [ContextResolver.resolve] at hresolve
      obtain ⟨fields', hfields, hresolve⟩ := Outcome.bind_eq_ok_iff.mp hresolve
      cases hresolve
      obtain ⟨items', hand', hne', hitems⟩ := resolved_clauses hfields hand hne
      refine .all hand' hne' fun item' hitem' ↦ ?_
      obtain ⟨item, hitem, hresolved⟩ := hitems item' hitem'
      exact ih item hitem hresolved
  | any hand hor hne _ ih =>
      rw [ContextResolver.resolve] at hresolve
      obtain ⟨fields', hfields, hresolve⟩ := Outcome.bind_eq_ok_iff.mp hresolve
      cases hresolve
      obtain ⟨items', hor', hne', hitems⟩ := resolved_clauses hfields hor hne
      refine .any (resolveFields_get?_none hfields hand) hor' hne' fun item' hitem' ↦ ?_
      obtain ⟨item, hitem, hresolved⟩ := hitems item' hitem'
      exact ih item hitem hresolved

/-! ## The branch -/

/-- The output of a Condition holds no secret. -/
theorem sanitizeOutput_conditionOutput (T : TextTables) (b : Bool) :
    sanitizeOutput T [] (.obj (conditionOutput b)) = conditionOutput b := by
  have hselected : isSensitiveKey T "selected_branch" = false := by
    rw [isSensitiveKey_of_ascii (by decide)]
    decide
  have hmatched : isSensitiveKey T "matched" = false := by
    rw [isSensitiveKey_of_ascii (by decide)]
    decide
  have htext : redactText T [] (if b then "true" else "false") = if b then "true" else "false" := by
    rw [redactText_nil, redactInline_of_no_sign, String.ofList_toList]
    cases b <;> simp
  have hvalue : sanitizeValue T [] (.obj (conditionOutput b)) = .obj (conditionOutput b) := by
    simp only [conditionOutput, sanitizeValue, sanitizeFields, hselected, hmatched, htext,
      Bool.false_eq_true, if_false]
  rw [sanitizeOutput, sanitize, hvalue]
  cases b <;> rfl

/-- The edge of the selected handle is the only active one out of a Condition. -/
theorem active_of_selected {g : ParsedGraph} (hnode : node ∈ g.nodes)
    (hcondition : node.isCondition = true) (hbranches : Clean (branchIssues g.toWorkflowGraph node))
    {nodeRuns : List NodeRun} {n : NodeRun} (hn : findNodeRun nodeRuns node.id = some n)
    (hstatus : n.status = .completed) {handle : String} (hhandle : handle ∈ conditionHandles)
    (hselected : n.selectedBranch = some handle) :
    ∃ e, (g.outgoingEdges node.id).filter (edgeIsActive g.toWorkflowGraph nodeRuns) = [e] ∧
      e.sourceHandle = some handle := by
  have hfound : g.node? node.id = some node := ParsedGraph.node?_eq_some_iff.mpr ⟨hnode, rfl⟩
  have hcases : handle = "true" ∨ handle = "false" := by
    simpa [conditionHandles] using hhandle
  have hactive : ∀ e ∈ g.outgoingEdges node.id,
      edgeIsActive g.toWorkflowGraph nodeRuns e = decide (e.sourceHandle = some handle) := by
    intro e he
    have hsource : e.source = node.id := by simpa using (List.mem_filter.mp he).2
    rw [edgeIsActive_eq, hsource, sourceState, hn]
    simp [hstatus, hselected, activeFrom, hsource, hfound, hcondition, hcases]
  rw [List.filter_congr hactive]
  obtain ⟨htrue, hfalse, -⟩ := branches_of_clean hbranches
  have hone : ((g.outgoingEdges node.id).filter (·.sourceHandle = some handle)).length = 1 := by
    rcases hcases with rfl | rfl
    · exact htrue
    · exact hfalse
  obtain ⟨e, he⟩ := List.length_eq_one_iff.mp hone
  refine ⟨e, he, ?_⟩
  have hmem : e ∈ (g.outgoingEdges node.id).filter (·.sourceHandle = some handle) := by
    rw [he]
    exact List.mem_cons_self
  simpa using (List.mem_filter.mp hmem).2

/-! ## Accepted Conditions -/

/-- The Boolean value of the expression, whatever value stands for the comparisons that fail. -/
def HasValue (same : Json → Json → Bool) (e : Clauses.Expr Comparison) (b : Bool) : Prop :=
  ∀ v : Comparison → Bool, (∀ c d, c.result same = .ok d → v c = d) → e.value v = b

theorem Evaluable.hasValue (h : Evaluable expression) {b : Bool}
    (hb : evaluateExpression same expression = .ok b) :
    HasValue same (readExpression expression) b := by
  intro v hv
  rw [h.evaluate_eq] at hb
  exact Clauses.Expr.value_of_eval hv _ hb

/-- The expression of an accepted Condition, once the config is resolved. -/
theorem evaluable_of_validateNodes {g : WorkflowGraph} (hnodes : validateNodes env g = .ok issues)
    (hclean : Clean issues) (hnode : node ∈ g.nodes) (hcondition : node.isCondition = true)
    {config : Dict} (hresolve : resolver.resolveFields node.config = .ok config) :
    ∃ fields, Dict.get? config "expression" = some (.obj fields) ∧ Evaluable (.obj fields) := by
  obtain ⟨found, hfound, hfoundClean⟩ :=
    conditionIssues_of_validateNodes hnodes hclean hnode hcondition
  obtain ⟨fields, clauses, hexpression, hclauses, hclausesClean, -⟩ :=
    of_conditionIssues hfound hfoundClean
  have hevaluable := evaluable_of_validateClause _ hclauses hclausesClean
  have hget : Dict.get? node.config "expression" = some (.obj fields) := by
    unfold WorkflowNode.configValue at hexpression
    cases hvalue : Dict.get? node.config "expression" with
    | none =>
        rw [hvalue] at hexpression
        cases hexpression
    | some value =>
        rw [hvalue, Option.getD_some] at hexpression
        rw [hexpression]
  obtain ⟨resolved, hresolved, hgetResolved⟩ := resolveFields_get? hresolve hget
  have hkept := hevaluable.resolve hresolved
  rw [ContextResolver.resolve] at hresolved
  obtain ⟨fields', -, hresolved⟩ := Outcome.bind_eq_ok_iff.mp hresolved
  cases hresolved
  exact ⟨fields', hgetResolved, hkept⟩

/-- The resolved expression of an accepted Condition fails only where two operands cannot be
compared.  Otherwise its Boolean value selects the one edge that stays active. -/
theorem validated_condition_evaluates {g : ParsedGraph}
    (hnodes : validateNodes env g.toWorkflowGraph = .ok issues) (hclean : Clean issues)
    (hnode : node ∈ g.nodes) (hcondition : node.isCondition = true) {config : Dict}
    (hresolve : resolver.resolveFields node.config = .ok config) (same : Json → Json → Bool) :
    ∃ fields, Dict.get? config "expression" = some (.obj fields) ∧
      (∀ e, evaluateExpression same (.obj fields) = .error e →
        e = .typeError ∧
          ∃ c ∈ (readExpression (.obj fields)).atoms, c.result same = .error .typeError) ∧
      ∀ b, evaluateExpression same (.obj fields) = .ok b →
        HasValue same (readExpression (.obj fields)) b ∧
          executeCondition same config = .ok (conditionOutput b) ∧
          ∀ (T : TextTables) (nodeRuns : List NodeRun) (n : NodeRun),
            findNodeRun nodeRuns node.id = some n → n.status = .completed →
            n.output = some (sanitizeOutput T [] (.obj (conditionOutput b))) →
              (n.selectedBranch = some "true" ↔ b = true) ∧
                ∃ e, (g.outgoingEdges node.id).filter (edgeIsActive g.toWorkflowGraph nodeRuns) = [e] ∧
                  e.sourceHandle = some (if b then "true" else "false") := by
  obtain ⟨fields, hfields, hevaluable⟩ :=
    evaluable_of_validateNodes hnodes hclean hnode hcondition hresolve
  refine ⟨fields, hfields, fun e he ↦ hevaluable.typeError he, fun b hb ↦ ?_⟩
  refine ⟨hevaluable.hasValue hb, ?_, fun T nodeRuns n hn hstatus houtput ↦ ?_⟩
  · rw [executeCondition, hfields]
    dsimp only
    rw [hb]
  · have hselected : n.selectedBranch = some (if b then "true" else "false") := by
      rw [NodeRun.selectedBranch, houtput, sanitizeOutput_conditionOutput]
      rfl
    have hbranches := branches_of_validateNodes hnodes hclean hnode hcondition
    refine ⟨?_, active_of_selected hnode hcondition hbranches hn hstatus ?_ hselected⟩
    · rw [hselected]
      cases b <;> simp
    · cases b <;> decide

/-- The Condition of `branchGraph`. -/
def checkNode : WorkflowNode :=
  { id := "check", type := .logic, subtype := "condition", name := "Check"
    config :=
      [("expression", .obj [("left", .str "a"), ("operator", .str "=="), ("right", .str "a")])] }

/-- The rows once its output is stored. -/
def checkedRows : List NodeRun :=
  [{ createNodeRun [] checkNode with status := .completed, output := some (conditionOutput true) }]

theorem validated_condition_evaluates_branchGraph : ∃ fields,
    evaluateExpression (fun _ _ ↦ false) (.obj fields) = .ok true ∧
      HasValue (fun _ _ ↦ false) (readExpression (.obj fields)) true ∧
      ∃ e, (branchGraph.outgoingEdges "check").filter
          (edgeIsActive branchGraph.toWorkflowGraph checkedRows) = [e] ∧
        e.sourceHandle = some "true" := by
  have hnodes : validateNodes plainEnv branchGraph.toWorkflowGraph = .ok [] := rfl
  have hresolve : (ContextResolver.resolveFields { pyStr := fun _ ↦ "" } checkNode.config) =
      .ok checkNode.config := rfl
  have hmem : checkNode ∈ branchGraph.nodes := List.mem_cons_of_mem _ List.mem_cons_self
  obtain ⟨fields, hfields, -, hok⟩ :=
    validated_condition_evaluates hnodes clean_nil hmem rfl hresolve fun _ _ ↦ false
  have htrue : evaluateExpression (fun _ _ ↦ false) (.obj fields) = .ok true := by
    cases hfields
    decide
  obtain ⟨hvalue, -, hactive⟩ := hok true htrue
  have houtput := sanitizeOutput_conditionOutput ⟨fun _ ↦ false, id, fun _ ↦ ""⟩ true
  obtain ⟨-, hedge⟩ := hactive _ checkedRows _ rfl rfl (congrArg some houtput.symm)
  exact ⟨fields, htrue, hvalue, hedge⟩

end Relayvia
