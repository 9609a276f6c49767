import Relayvia.Coupling
import Relayvia.Validation.Validator

/-!
# When validation returns

The validation of a graph of the contract over a registry of valid schemas raises only
where a mapped field meets a property whose `type` is a list.
-/

namespace Relayvia

open Outcome

/-! ## What the contract promises -/

/-- A clause of `ConditionExpression`: the clauses in it are clauses, its operator is text. -/
inductive ContractClause : Json → Prop where
  | clause {fields : Dict} :
      (∀ key items, Dict.get? fields key = some (.arr items) → key = "and" ∨ key = "or" →
        ∀ item ∈ items, ContractClause item) →
      (∀ v, Dict.get? fields "operator" = some v → v = .null ∨ ∃ operator, v = .str operator) →
      ContractClause (.obj fields)

/-- What the config models of Graph Schema 1.0 say of the values that validation looks up. -/
structure ConfigContract (node : WorkflowNode) : Prop where
  agent : node.type = .agent → ∃ id, node.configValue "agent_id" = .str id
  service : node.type = .service → ∃ id, node.configValue "service_id" = .str id
  action : node.type = .service → ∃ id, node.configValue "service_action_id" = .str id
  condition : node.type = .logic → node.subtype = "condition" →
    ContractClause (node.configValue "expression")

structure ContractGraph extends ParsedGraph where
  configs : ∀ node ∈ nodes, ConfigContract node

def isNameList : Json → Bool
  | .arr items => items.all (·.str?.isSome)
  | _ => false

/-- What the Draft 7 meta-schema says of the keywords that validation reads: `required` is a
list of names, `properties` an object, and the `type` of a property a name or a list of names. -/
def draft7Shape (schema : Dict) : Bool :=
  (Dict.get? schema "required").all isNameList &&
    match Dict.get? schema "properties" with
    | none => true
    | some (.obj properties) => properties.all fun (_, property) ↦
        (property.get? "type").all fun type ↦ type.str?.isSome || isNameList type
    | some _ => false

/-- All schemas of the registry passed `validate_json_schema`. -/
structure ValidationContext.SchemasValid (env : Env) (context : ValidationContext) : Prop where
  agents : ∀ entry ∈ context.agents,
    env.schemaValid entry.2.inputSchema = true ∧ env.schemaValid entry.2.outputSchema = true
  actions : ∀ entry ∈ context.serviceActions,
    env.schemaValid entry.2.pathSchema = true ∧ env.schemaValid entry.2.querySchema = true ∧
      env.schemaValid entry.2.inputSchema = true ∧ env.schemaValid entry.2.outputSchema = true

/-! ## Where it raises -/

/-- The mapping gives a value to a property whose type is a list. -/
def ListTyped (schema mapping : Dict) : Prop :=
  Dict.get? schema "type" = some (.str "object") ∧ ∃ entry ∈ mapping, ∃ target names,
    Dict.get? (dictOrEmpty (Dict.get? schema "properties")) entry.1 = some (.obj target) ∧
      Dict.get? target "type" = some (.arr names)

/-- The schemas that the mapping of a node is compared with, each with its part of it. -/
def mappedSchemas (context : ValidationContext) (node : WorkflowNode) : List (Dict × Dict) :=
  match node.type with
  | .agent =>
      match getKey context.agents (node.configValue "agent_id") with
      | .ok (some agent) => [(agent.inputSchema, node.inputMapping)]
      | _ => []
  | .service =>
      match getKey context.serviceActions (node.configValue "service_action_id") with
      | .ok (some action) =>
          if ["path", "query", "body"].any fun key ↦ (Dict.get? node.inputMapping key).isSome then
            [(action.pathSchema, locationMapping node "path"),
              (action.querySchema, locationMapping node "query"),
              (action.inputSchema, locationMapping node "body")]
          else [(action.inputSchema, node.inputMapping)]
      | _ => []
  | _ => []

variable {env : Env} {context : ValidationContext}

/-! ## The passes that always return -/

theorem agentIssues_returns {node : WorkflowNode} (h : ConfigContract node)
    (htype : node.type = .agent) : Decides (agentIssues env context node) True := by
  obtain ⟨id, hid⟩ := h.agent htype
  unfold agentIssues
  rw [hid]
  dsimp only [getKey]
  split
  · exact decides_pure
  · rw [ok_bind]
    split <;> exact decides_pure

theorem serviceIssues_returns {node : WorkflowNode} (h : ConfigContract node)
    (htype : node.type = .service) : Decides (serviceIssues env context node) True := by
  obtain ⟨id, hid⟩ := h.service htype
  obtain ⟨actionId, haction⟩ := h.action htype
  unfold serviceIssues
  rw [hid, haction]
  have hservice : Decides (serviceReferenceIssues env context node (.str id)) True := by
    unfold serviceReferenceIssues
    dsimp only [getKey]
    split
    · exact decides_pure
    · rw [ok_bind]
      split
      · exact decides_pure
      · split <;> exact decides_pure
  have hreference : Decides (actionReferenceIssues env context node (.str id) (.str actionId))
      True := by
    unfold actionReferenceIssues
    dsimp only [getKey]
    split
    · exact decides_pure
    · rw [ok_bind]
      split
      · exact decides_pure
      · split <;> exact decides_pure
  exact hservice.andThen fun _ _ ↦ hreference.andThen fun _ _ ↦ decides_pure

theorem forNodes_decides {g : WorkflowGraph}
    {rule : WorkflowNode → Except Raised (List ValidationIssue)} {p : WorkflowNode → Prop}
    (h : ∀ node ∈ g.nodes, Decides (rule node) (p node)) :
    Decides (forNodes g rule) (∀ node ∈ g.nodes, p node) :=
  ((decides_mapM h).bind fun _ _ ↦ decides_pure).congr (by simp)

theorem validateReferences_returns (g : ContractGraph) :
    Decides (validateReferences env context g.toWorkflowGraph) True := by
  have hrule : ∀ node ∈ g.nodes, Decides (match node.type with
      | .agent => agentIssues env context node
      | .service => serviceIssues env context node
      | _ => .ok []) True := by
    intro node hnode
    cases htype : node.type with
    | agent => exact agentIssues_returns (g.configs node hnode) htype
    | service => exact serviceIssues_returns (g.configs node hnode) htype
    | tool | logic | human | data => exact decides_ok
  exact (forNodes_decides hrule).congr (by simp)

theorem clausesAt_eq (node : WorkflowNode) (key : String) (fields : Dict) :
    clausesAt env node key fields = (Dict.get? fields key).map (validateClauses env node) := by
  apply Dict.scan_eq
  · rfl
  · intro k value rest
    rw [clausesAt]

theorem validateClauseItems_returns {node : WorkflowNode} {items : List Json}
    (h : ∀ item ∈ items, Decides (validateClause env node item) True) :
    Decides (validateClauseItems env node items) True := by
  induction items with
  | nil => exact decides_ok
  | cons item items ih =>
      rw [validateClauseItems]
      apply (h item (by simp)).andThen
      intro _ _
      exact (ih fun other hother ↦ h other (by simp [hother])).andThen fun _ _ ↦ decides_pure

theorem validateClauses_returns {node : WorkflowNode} {value : Json}
    (h : ∀ items, value = .arr items →
      ∀ item ∈ items, Decides (validateClause env node item) True) :
    Decides (validateClauses env node value) True := by
  unfold validateClauses
  split
  · next clause clauses =>
    have hitems := h _ rfl
    apply (hitems clause (by simp)).andThen
    intro _ _
    have hrest := validateClauseItems_returns fun item (hitem : item ∈ clauses) ↦
      hitems item (List.mem_cons_of_mem _ hitem)
    exact hrest.andThen fun _ _ ↦ decides_pure
  · exact decides_ok

theorem comparisonIssues_returns {node : WorkflowNode} {fields : Dict}
    (h : ∀ v, Dict.get? fields "operator" = some v → v = .null ∨ ∃ operator, v = .str operator) :
    Decides (comparisonIssues env node fields) True := by
  have hoperator : Decides (unsupportedOperator ((Dict.get? fields "operator").getD .null))
      True := by
    apply Decides.map
    apply Decides.map
    cases hfound : Dict.get? fields "operator" with
    | none => exact decides_ok
    | some v =>
        obtain rfl | ⟨operator, rfl⟩ := h v hfound
        · exact decides_ok
        · exact decides_ok
  exact hoperator.andThen fun _ _ ↦ decides_pure

/-- The recursion of the validator follows the clauses. -/
theorem validateClause_returns {node : WorkflowNode} {clause : Json} (h : ContractClause clause) :
    Decides (validateClause env node clause) True := by
  induction h with
  | @clause fields _ hoperator ih =>
      have hkey (key : String) (h : key = "and" ∨ key = "or") {x : Except Raised _}
          (hx : clausesAt env node key fields = some x) : Decides x True := by
        rw [clausesAt_eq] at hx
        obtain ⟨value, hvalue, rfl⟩ := Option.map_eq_some_iff.mp hx
        apply validateClauses_returns
        rintro items rfl
        exact ih key items hvalue h
      rw [validateClause]
      split
      · exact decides_ok
      · next hand _ => exact hkey "and" (by simp) hand
      · next _ hor => exact hkey "or" (by simp) hor
      · exact comparisonIssues_returns hoperator

theorem logicIssues_returns {g : WorkflowGraph} {node : WorkflowNode} (h : ConfigContract node)
    (htype : node.type = .logic) : Decides (logicIssues env g node) True := by
  unfold logicIssues
  split
  · next hsubtype =>
    have hclause := h.condition htype hsubtype
    unfold conditionIssues
    split
    · next hexpression =>
      rw [hexpression] at hclause
      exact (validateClause_returns hclause).andThen fun _ _ ↦ decides_pure
    · exact decides_ok
  · exact decides_ok
  · exact decides_ok
  · exact decides_ok

theorem validateNodes_returns (g : ContractGraph) :
    Decides (validateNodes env g.toWorkflowGraph) True := by
  refine Decides.congr (c := ∀ node ∈ g.nodes, True) (forNodes_decides fun node hnode ↦ ?_) (by simp)
  cases htype : node.type with
  | logic => exact logicIssues_returns (g.configs node hnode) htype
  | agent | service | tool | human | data => exact decides_ok

/-! ## References -/

theorem nodeOutputSchema_returns (g : ContractGraph) (id : NodeId) :
    Decides (nodeOutputSchema context g.toWorkflowGraph id) True := by
  unfold nodeOutputSchema
  cases hnode : g.node? id with
  | none => exact decides_ok
  | some node =>
      have hconfig := g.configs node (WorkflowGraph.node?_some hnode).1
      cases htype : node.type with
      | agent =>
          obtain ⟨key, hkey⟩ := hconfig.agent htype
          simp only [htype, hkey]
          exact decides_ok
      | service =>
          obtain ⟨key, hkey⟩ := hconfig.action htype
          simp only [htype, hkey]
          exact decides_ok
      | tool | logic | human | data =>
          simp only [htype]
          exact decides_ok

theorem nodeReferenceIssues_returns (g : ContractGraph) (node : WorkflowNode)
    (r : ContextReference) (target : NodeId) :
    Decides (nodeReferenceIssues context g.toWorkflowGraph node r target) True := by
  unfold nodeReferenceIssues
  dsimp only
  split
  · exact decides_pure
  · split
    · exact decides_pure
    · split
      · exact decides_pure
      · split
        · split <;> exact decides_pure
        · split
          · split <;> exact decides_pure
          · apply (nodeOutputSchema_returns g target).andThen
            intro schema _
            cases schema <;> exact decides_pure

theorem referenceIssues_returns (g : ContractGraph) (node : WorkflowNode)
    (r : ContextReference) :
    Decides (referenceIssues context g.toWorkflowGraph node r) True := by
  unfold referenceIssues
  split
  · exact decides_ok
  · split
    · exact decides_ok
    · split
      · exact decides_ok
      · split
        · exact nodeReferenceIssues_returns g node r _
        · exact decides_ok

theorem validateContext_returns (g : ContractGraph) :
    Decides (validateContext context g.toWorkflowGraph) True := by
  have hvalue (node : WorkflowNode) (v : Json) :
      Decides (valueReferenceIssues context g.toWorkflowGraph node v) True := by
    unfold valueReferenceIssues
    split
    · exact decides_ok
    · next references _ =>
      have hreferences := decides_mapM fun r (_ : r ∈ references) ↦
        @referenceIssues_returns context g ((g.node? node.id).getD node) r
      exact (hreferences.congr (by simp)).andThen fun _ _ ↦ decides_pure
  have hnodes := decides_mapM fun node (_ : node ∈ g.nodes) ↦
    decides_mapM fun v (_ : v ∈ referenceBearingValues node) ↦ hvalue node v
  exact (hnodes.congr (by simp)).andThen fun _ _ ↦ decides_pure

/-! ## The mappings -/

theorem str_of_isNameList {items : List Json} (h : isNameList (.arr items) = true) {item : Json}
    (hitem : item ∈ items) : ∃ name, item = .str name := by
  have hname := List.all_eq_true.mp h item hitem
  cases item with
  | str name => exact ⟨name, rfl⟩
  | null | bool | int | float | arr | obj => cases hname

/-- The fields that a valid schema requires are names. -/
theorem requiredFields_names {schema : Dict} (h : draft7Shape schema = true) :
    ∃ items, requiredFields schema = .ok items ∧ ∀ item ∈ items, ∃ name, item = .str name := by
  have hrequired := (Bool.and_eq_true_iff.mp h).1
  unfold requiredFields
  cases hfound : Dict.get? schema "required" with
  | none => exact ⟨[], rfl, by simp⟩
  | some value =>
      rw [hfound, Option.all_some] at hrequired
      cases value with
      | arr items => exact ⟨items, rfl, fun item hitem ↦ str_of_isNameList hrequired hitem⟩
      | null | bool | int | float | str | obj => cases hrequired

/-- The type of a property of a valid schema is a name or a list. -/
theorem propertyType_of_shape {schema : Dict} (h : draft7Shape schema = true) {key : String}
    {target : Dict} (htarget :
      Dict.get? (dictOrEmpty (Dict.get? schema "properties")) key = some (.obj target)) :
    Dict.get? target "type" = none ∨ (∃ name, Dict.get? target "type" = some (.str name)) ∨
      ∃ names, Dict.get? target "type" = some (.arr names) := by
  have hproperties := (Bool.and_eq_true_iff.mp h).2
  cases hfound : Dict.get? schema "properties" with
  | none =>
      rw [hfound] at htarget
      cases htarget
  | some value =>
      rw [hfound] at hproperties htarget
      cases value with
      | obj properties =>
          obtain ⟨l₁, l₂, rfl, -⟩ := List.lookup_eq_some_iff.mp htarget
          have hall := List.all_eq_true.mp hproperties (key, .obj target) (by simp)
          cases htype : Dict.get? target "type" with
          | none => exact .inl rfl
          | some type =>
              have htype : (Json.obj target).get? "type" = some type := htype
              dsimp only at hall
              rw [htype, Option.all_some] at hall
              cases type with
              | str name => exact .inr (.inl ⟨name, rfl⟩)
              | arr names => exact .inr (.inr ⟨names, rfl⟩)
              | null | bool | int | float | obj => cases hall
      | null | bool | int | float | str | arr => cases htarget

theorem mappingSourceType_returns (g : ContractGraph) (value : Json) :
    Decides (mappingSourceType context g.toWorkflowGraph value) True := by
  unfold mappingSourceType
  split
  all_goals try exact decides_ok
  split
  · exact decides_ok
  · unfold referenceType
    split
    · exact decides_ok
    · split
      · exact decides_ok
      · split
        · exact decides_ok
        · split
          · exact (nodeOutputSchema_returns g _).andThen fun _ _ ↦ decides_pure
          · exact decides_ok

/-- The property of the mapped field has a list of types. -/
def MeetsList (properties : Dict) (entry : String × Json) : Prop :=
  ∃ target names, Dict.get? properties entry.1 = some (.obj target) ∧
    Dict.get? target "type" = some (.arr names)

theorem fieldIssues_decides (g : ContractGraph) (node : WorkflowNode) (fieldPrefix : String)
    {properties : Dict} (entry : String × Json)
    (h : ∀ target, Dict.get? properties entry.1 = some (.obj target) →
      Dict.get? target "type" = none ∨ (∃ name, Dict.get? target "type" = some (.str name)) ∨
        ∃ names, Dict.get? target "type" = some (.arr names)) :
    Decides (fieldIssues env context g.toWorkflowGraph node fieldPrefix properties entry)
      (¬MeetsList properties entry) := by
  obtain ⟨key, value⟩ := entry
  unfold fieldIssues
  dsimp only
  split
  · next target htarget =>
    -- the look-up of the type decides, everything behind it returns
    have hknown : Decides (hasKey (knownTypes.map (·, ())) ((Dict.get? target "type").getD .null))
        (¬MeetsList properties (key, value)) := by
      have hmeets : MeetsList properties (key, value) ↔
          ∃ names, Dict.get? target "type" = some (.arr names) := by
        simp [MeetsList, htarget]
      rw [hmeets]
      obtain hnone | ⟨name, hname⟩ | ⟨names, hnames⟩ := h target htarget
      · rw [hnone]
        exact decides_ok.congr (by simp)
      · rw [hname]
        exact decides_ok.congr (by simp)
      · rw [hnames]
        exact not_not_intro ⟨names, rfl⟩
    refine (hknown.bind fun known _ ↦ (?_ : Decides _ True)).congr (by simp)
    split
    · exact decides_pure
    · apply (mappingSourceType_returns g value).andThen
      intro source _
      cases source with
      | none => exact decides_pure
      | some type =>
          dsimp only
          split <;> exact decides_pure
  · next hnone =>
    apply decides_pure.congr
    simp only [true_iff]
    rintro ⟨target, names, htarget, -⟩
    exact hnone target htarget

theorem mappingIssues_decides (g : ContractGraph) (node : WorkflowNode) {schema : Dict}
    (h : draft7Shape schema = true) (mapping : Dict) (fieldPrefix : String) :
    Decides (mappingIssues env context g.toWorkflowGraph node schema mapping fieldPrefix)
      (¬ListTyped schema mapping) := by
  unfold mappingIssues
  split
  · next htype =>
    apply decides_pure.congr
    simp only [true_iff]
    rintro ⟨hobject, -⟩
    exact htype hobject
  · next htype =>
    obtain ⟨items, hitems, hnames⟩ := requiredFields_names h
    have hmissing : ∀ item ∈ items, Decides (hasKey mapping item) True := by
      intro item hitem
      obtain ⟨name, rfl⟩ := hnames item hitem
      exact decides_ok
    have hmapM := decides_mapM fun item hitem ↦ (hmissing item hitem).andThen fun found _ ↦
      (decides_pure (a := issueIf (found = false)
        { code := .missingRequiredInput
          message := "Required input " ++ env.repr item ++ " is not mapped"
          nodeId := some node.id
          field := some (fieldPrefix ++ "." ++ env.str item) }))
    have htypes := decides_mapM fun entry (_ : entry ∈ mapping) ↦
      @fieldIssues_decides env context g node fieldPrefix _ entry
        fun target htarget ↦ propertyType_of_shape h htarget
    rw [hitems]
    dsimp only
    refine ((hmapM.congr (by simp)).andThen fun _ _ ↦ htypes.bind fun _ _ ↦ decides_pure).congr ?_
    simp only [ne_eq, not_not] at htype
    simp [ListTyped, htype, MeetsList]

/-- A mapping of the node gives a value to a property whose type is a list. -/
def MapsToList (context : ValidationContext) (node : WorkflowNode) : Prop :=
  ∃ pair ∈ mappedSchemas context node, ListTyped pair.1 pair.2

section

variable (hdraft : ∀ schema, env.schemaValid schema = true → draft7Shape schema = true)
  (hvalid : context.SchemasValid env)

include hdraft hvalid

theorem agentMappingIssues_decides (g : ContractGraph) {node : WorkflowNode}
    (hconfig : ConfigContract node) (htype : node.type = .agent) :
    Decides (agentMappingIssues env context g.toWorkflowGraph node) (¬MapsToList context node) := by
  obtain ⟨id, hid⟩ := hconfig.agent htype
  unfold agentMappingIssues MapsToList mappedSchemas
  rw [htype, hid]
  dsimp only [getKey]
  rw [ok_bind]
  cases hagent : context.agents.lookup id with
  | none => exact decides_pure.congr (by simp)
  | some agent =>
      obtain ⟨l₁, l₂, heq, -⟩ := List.lookup_eq_some_iff.mp hagent
      obtain ⟨hinput, -⟩ := hvalid.agents (id, agent) (by simp [heq])
      exact (mappingIssues_decides g node (hdraft _ hinput) _ _).congr (by simp)

theorem serviceMappingIssues_decides (g : ContractGraph) {node : WorkflowNode}
    (hconfig : ConfigContract node) (htype : node.type = .service) :
    Decides (serviceMappingIssues env context g.toWorkflowGraph node)
      (¬MapsToList context node) := by
  obtain ⟨id, hid⟩ := hconfig.action htype
  unfold serviceMappingIssues MapsToList mappedSchemas
  rw [htype, hid]
  dsimp only [getKey]
  rw [ok_bind]
  cases haction : context.serviceActions.lookup id with
  | none => exact decides_pure.congr (by simp)
  | some action =>
      obtain ⟨l₁, l₂, heq, -⟩ := List.lookup_eq_some_iff.mp haction
      obtain ⟨hpath, hquery, hinput, -⟩ := hvalid.actions (id, action) (by simp [heq])
      dsimp only
      split
      · have hcheck {schema : Dict} (hschema : env.schemaValid schema = true) (location : String) :
            Decides (mappingIssues env context g.toWorkflowGraph node schema
              (locationMapping node location) ("input_mapping." ++ location))
              (¬ListTyped schema (locationMapping node location)) :=
          mappingIssues_decides g node (hdraft _ hschema) _ _
        refine ((hcheck hpath "path").bind fun _ _ ↦ (hcheck hquery "query").bind fun _ _ ↦
          (hcheck hinput "body").bind fun _ _ ↦ decides_pure).congr ?_
        simp
      · exact (mappingIssues_decides g node (hdraft _ hinput) _ _).congr (by simp)

theorem validateSchema_decides (g : ContractGraph) :
    Decides (validateSchema env context g.toWorkflowGraph)
      (∀ node ∈ g.nodes, ¬MapsToList context node) := by
  have hnode : ∀ node ∈ g.nodes, Decides (match node.type with
      | .agent => agentMappingIssues env context g.toWorkflowGraph node
      | .service => serviceMappingIssues env context g.toWorkflowGraph node
      | _ => .ok []) (¬MapsToList context node) := by
    intro node hnode
    have hconfig := g.configs node hnode
    cases htype : node.type with
    | agent => exact agentMappingIssues_decides hdraft hvalid g hconfig htype
    | service => exact serviceMappingIssues_decides hdraft hvalid g hconfig htype
    | tool | logic | human | data =>
        exact decides_ok.congr (by simp [MapsToList, mappedSchemas, htype])
  exact forNodes_decides hnode

/-- The validation of a graph returns if and only if no mapping of a node gives a value to a
property whose type is a list. -/
theorem validateGraph_returns_iff (g : ContractGraph) :
    (∃ result, validateGraph env context g.toWorkflowGraph = .ok result) ↔
      ∀ node ∈ g.nodes, ¬MapsToList context node := by
  apply Decides.returns_iff
  unfold validateGraph
  split
  · next hempty => exact decides_pure.congr (by simp [hempty])
  · have hcollected : Decides (collectIssues env context g.toWorkflowGraph)
        (∀ node ∈ g.nodes, ¬MapsToList context node) := by
      apply (validateReferences_returns g).andThen
      intro _ _
      apply (validateNodes_returns g).andThen
      intro _ _
      apply (validateContext_returns g).andThen
      intro _ _
      exact ((validateSchema_decides hdraft hvalid g).bind fun _ _ ↦ decides_pure).congr (by simp)
    exact (hcollected.bind fun _ _ ↦ decides_pure).congr (by simp)

end

/-! ## A nullable property -/

/-- An environment that checks of a schema what the model says of it. -/
def draftEnv : Env :=
  { plainEnv with schemaValid := draft7Shape }

/-- Data Input, an Agent that is given a title, Data Output. -/
def titleGraph : ContractGraph where
  nodes :=
    [{ id := "in", type := .data, subtype := "input", name := "Input"
       config := [("schema", .obj [("type", .str "object")])] },
      { id := "agent", type := .agent, subtype := "agent", name := "Agent"
        config := [("agent_id", .str "a")], inputMapping := [("title", .str "x")] },
      { id := "out", type := .data, subtype := "output", name := "Output"
        config := [("output_mapping", .obj [])] }]
  edges :=
    [{ id := "e1", source := "in", target := "agent" },
      { id := "e2", source := "agent", target := "out" }]
  nodeIds_nodup := by decide
  edges_closed := by decide
  configs := by
    intro node hnode
    constructor <;> intro htype
    all_goals
      simp only [List.mem_cons, List.not_mem_nil, or_false] at hnode
      obtain rfl | rfl | rfl := hnode <;> cases htype
    exact ⟨"a", rfl⟩

/-- The Agent whose title has the given type. -/
def titleContext (type : Json) : ValidationContext where
  agents :=
    [("a",
      { id := "a", name := "Writer", enabled := true
        inputSchema :=
          [("type", .str "object"), ("properties", .obj [("title", .obj [("type", type)])])] })]

theorem schemasValid_titleContext {type : Json}
    (htype : type = .str "string" ∨ type = .arr [.str "string", .str "null"]) :
    (titleContext type).SchemasValid draftEnv := by
  obtain rfl | rfl := htype
  all_goals
    constructor
    · simp only [titleContext, List.mem_singleton, forall_eq]
      decide
    · simp [titleContext]

/-- A title that must be text. -/
theorem validateGraph_returns_titleGraph : ∃ result,
    validateGraph draftEnv (titleContext (.str "string")) titleGraph.toWorkflowGraph =
      .ok result := by
  apply (validateGraph_returns_iff (fun _ h ↦ h) (schemasValid_titleContext (.inl rfl))
    titleGraph).mpr
  rintro node hnode ⟨pair, hpair, -, entry, hentry, target, names, htarget, hnames⟩
  simp only [titleGraph, List.mem_cons, List.not_mem_nil, or_false] at hnode
  obtain rfl | rfl | rfl := hnode
  · cases hpair
  · obtain rfl := List.mem_singleton.mp hpair
    obtain rfl := List.mem_singleton.mp hentry
    cases htarget
    cases hnames
  · cases hpair

/-- A title that may be null is a valid schema, and the look-up of its type raises. -/
theorem not_validateGraph_returns_titleGraph :
    (titleContext (.arr [.str "string", .str "null"])).SchemasValid draftEnv ∧
      validateGraph draftEnv (titleContext (.arr [.str "string", .str "null"]))
        titleGraph.toWorkflowGraph = .error .typeError :=
  ⟨schemasValid_titleContext (.inr rfl), rfl⟩

end Relayvia
