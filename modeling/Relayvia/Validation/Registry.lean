import Relayvia.Coupling
import Relayvia.Validation.Validator

/-!
# The registry in the validation engine

The rows that a graph refers to are converted twice: for publishing and for the
creation of a run.  The conversion for publishing leaves the path and query schemas of
the Service Actions out.
-/

namespace Relayvia

/-! ## Rows -/

/-- The columns of `agents` that the conversions read. -/
structure AgentRow where
  id : String
  name : String
  enabled : Bool
  connectorType : String
  status : String
  inputSchema : Option Dict
  outputSchema : Option Dict

structure ServiceRow where
  id : String
  name : String
  enabled : Bool
  status : String

structure ServiceActionRow where
  id : String
  serviceId : String
  name : String
  enabled : Bool
  querySchema : Option Dict
  pathSchema : Option Dict
  inputSchema : Option Dict
  outputSchema : Option Dict

/-- The three tables, and how the database compares an id with a bound value. -/
structure Registry where
  agents : List AgentRow := []
  services : List ServiceRow := []
  actions : List ServiceActionRow := []
  matchesId : String → Json → Bool := fun id value ↦ value = .str id

/-- `column.in_(ids)`. -/
def Registry.isIn (db : Registry) (ids : List Json) (id : String) : Bool :=
  ids.any (db.matchesId id)

structure ReferencedIds where
  agents : List Json := []
  services : List Json := []
  actions : List Json := []

/-- `if value: ids.add(value)`; a list or a dict cannot be hashed. -/
def addId (ids : List Json) (value : Json) : Except Raised (List Json) :=
  if value.truthy then
    match value with
    | .arr _ | .obj _ => .error .typeError
    | _ => .ok (ids ++ [value])
  else .ok ids

/-- `_referenced_ids`. -/
def referencedIds (g : WorkflowGraph) : Except Raised ReferencedIds :=
  g.nodes.foldlM
    (fun ids node ↦
      match node.type with
      | .agent => do
          return { ids with agents := ← addId ids.agents (node.configValue "agent_id") }
      | .service => do
          let services ← addId ids.services (node.configValue "service_id")
          let actions ← addId ids.actions (node.configValue "service_action_id")
          return { ids with services, actions }
      | _ => .ok ids)
    {}

/-! ## Conversions -/

def AgentRow.registryAgent (agent : AgentRow) : RegistryAgent where
  id := agent.id
  name := agent.name
  enabled := agent.enabled
  connectorType := agent.connectorType
  status := agent.status
  inputSchema := agent.inputSchema.getD []
  outputSchema := agent.outputSchema.getD []

def ServiceRow.registryService (service : ServiceRow) : RegistryService where
  id := service.id
  name := service.name
  enabled := service.enabled
  status := service.status

/-- `build_validation_context`. -/
def buildValidationContext (db : Registry) (g : WorkflowGraph) :
    Except Raised ValidationContext := do
  let ids ← referencedIds g
  return {
    agents := (db.agents.filter (db.isIn ids.agents ·.id)).map fun agent ↦
      (agent.id, agent.registryAgent)
    services := (db.services.filter (db.isIn ids.services ·.id)).map fun service ↦
      (service.id, service.registryService)
    serviceActions := (db.actions.filter (db.isIn ids.actions ·.id)).map fun action ↦
      (action.id,
        { id := action.id
          serviceId := action.serviceId
          name := action.name
          enabled := action.enabled
          inputSchema := action.inputSchema.getD []
          outputSchema := action.outputSchema.getD [] }) }

structure LoadedRegistry where
  agents : List (String × AgentRow)
  services : List (String × ServiceRow)
  actions : List (String × ServiceActionRow)

/-- `_load_registry`. -/
def loadRegistry (db : Registry) (g : WorkflowGraph) : Except Raised LoadedRegistry := do
  let ids ← referencedIds g
  return {
    agents := (db.agents.filter (db.isIn ids.agents ·.id)).map fun agent ↦ (agent.id, agent)
    services := (db.services.filter (db.isIn ids.services ·.id)).map fun service ↦
      (service.id, service)
    actions := (db.actions.filter (db.isIn ids.actions ·.id)).map fun action ↦
      (action.id, action) }

/-- `_registry_context`. -/
def registryContext (loaded : LoadedRegistry) : ValidationContext where
  agents := loaded.agents.map fun (id, agent) ↦ (id, agent.registryAgent)
  services := loaded.services.map fun (id, service) ↦ (id, service.registryService)
  serviceActions := loaded.actions.map fun (id, action) ↦
    (id,
      { id := action.id
        serviceId := action.serviceId
        name := action.name
        enabled := action.enabled
        querySchema := action.querySchema.getD []
        pathSchema := action.pathSchema.getD []
        inputSchema := action.inputSchema.getD []
        outputSchema := action.outputSchema.getD [] })

/-- `validate_graph_with_context`: what a graph is published against. -/
def validateGraphWithContext (env : Env) (db : Registry) (g : WorkflowGraph) :
    Except Raised ValidationResult := do
  validateGraph env (← buildValidationContext db g) g

/-- `validate_graph` over the context of the creation of a run. -/
def validateForRun (env : Env) (db : Registry) (g : WorkflowGraph) :
    Except Raised ValidationResult := do
  validateGraph env (registryContext (← loadRegistry db g)) g

/-! ## Contexts without location schemas -/

/-- An Action without its path and query schemas. -/
def RegistryServiceAction.withoutLocations (action : RegistryServiceAction) :
    RegistryServiceAction :=
  { action with pathSchema := [], querySchema := [] }

def ValidationContext.withoutLocations (context : ValidationContext) : ValidationContext :=
  { context with
    serviceActions := context.serviceActions.map fun (id, action) ↦ (id, action.withoutLocations) }

theorem buildValidationContext_eq {db : Registry} {g : WorkflowGraph} :
    buildValidationContext db g =
      (loadRegistry db g).map fun loaded ↦ (registryContext loaded).withoutLocations := by
  unfold buildValidationContext loadRegistry
  cases referencedIds g with
  | error e => rfl
  | ok ids =>
      simp [pure, Except.pure, Except.map, bind, Except.bind, registryContext,
        ValidationContext.withoutLocations, RegistryServiceAction.withoutLocations,
        Function.comp_def]

variable {env : Env} {context : ValidationContext} {g : WorkflowGraph} {node : WorkflowNode}

theorem getKey_map {α β : Type} (f : α → β) (table : List (String × α)) (key : Json) :
    getKey (table.map fun (id, a) ↦ (id, f a)) key = (getKey table key).map (Option.map f) := by
  have hlookup (id : String) :
      (table.map fun (id, a) ↦ (id, f a)).lookup id = (table.lookup id).map f := by
    induction table with
    | nil => rfl
    | cons entry table ih =>
        obtain ⟨k, a⟩ := entry
        simp only [List.map_cons, List.lookup_cons]
        cases id == k
        · exact ih
        · rfl
  cases key with
  | str id => exact congrArg Except.ok (hlookup id)
  | _ => rfl

theorem actionReferenceIssues_withoutLocations (serviceId actionId : Json) :
    actionReferenceIssues env context.withoutLocations node serviceId actionId =
      actionReferenceIssues env context node serviceId actionId := by
  unfold actionReferenceIssues
  split
  · rfl
  · simp only [ValidationContext.withoutLocations, getKey_map]
    cases getKey context.serviceActions actionId with
    | error e => rfl
    | ok found => cases found <;> rfl

theorem validateReferences_withoutLocations :
    validateReferences env context.withoutLocations g = validateReferences env context g := by
  unfold validateReferences
  congr 1
  funext node
  cases node.type with
  | service =>
      simp only [serviceIssues, actionReferenceIssues_withoutLocations]
      rfl
  | _ => rfl

theorem nodeOutputSchema_withoutLocations (id : NodeId) :
    nodeOutputSchema context.withoutLocations g id = nodeOutputSchema context g id := by
  unfold nodeOutputSchema
  split
  · split
    · rfl
    · simp only [ValidationContext.withoutLocations, getKey_map]
      cases getKey context.serviceActions _ with
      | error e => rfl
      | ok found => cases found <;> rfl
    · rfl
  · rfl

theorem validateContext_withoutLocations :
    validateContext context.withoutLocations g = validateContext context g := by
  have hreference (node : WorkflowNode) : referenceIssues context.withoutLocations g node =
      referenceIssues context g node := by
    funext r
    simp only [referenceIssues, nodeReferenceIssues, nodeOutputSchema_withoutLocations]
  have hvalue (node : WorkflowNode) : valueReferenceIssues context.withoutLocations g node =
      valueReferenceIssues context g node := by
    funext value
    simp only [valueReferenceIssues, hreference]
  simp only [validateContext, hvalue]

theorem mappingIssues_withoutLocations (schema mapping : Dict) (fieldPrefix : String) :
    mappingIssues env context.withoutLocations g node schema mapping fieldPrefix =
      mappingIssues env context g node schema mapping fieldPrefix := by
  have hsource (value : Json) : mappingSourceType context.withoutLocations g value =
      mappingSourceType context g value := by
    unfold mappingSourceType
    split <;> simp only [referenceType, nodeOutputSchema_withoutLocations]
  have hfield (properties : Dict) : fieldIssues env context.withoutLocations g node fieldPrefix
      properties = fieldIssues env context g node fieldPrefix properties := by
    funext entry
    simp only [fieldIssues, hsource]
  simp only [mappingIssues, hfield]

/-! ## Locations -/

/-- The type of a mapped value is known to suit its property, or one of them is unknown. -/
def FieldFits (context : ValidationContext) (g : WorkflowGraph) (properties : Dict)
    (entry : String × Json) : Prop :=
  ∀ target, Dict.get? properties entry.1 = some (.obj target) →
    ∃ known, hasKey (knownTypes.map (·, ())) ((Dict.get? target "type").getD .null) = .ok known ∧
      (known = true → ∃ source, mappingSourceType context g entry.2 = .ok source ∧
        ∀ s ∈ source, checkCompatibility s ((Dict.get? target "type").getD .null) = (true, false))

/-- The mapping gives an object schema what it requires and allows. -/
structure MappingFits (context : ValidationContext) (g : WorkflowGraph) (schema mapping : Dict) :
    Prop where
  required : ∃ items, requiredFields schema = .ok items ∧
    ∀ item ∈ items, hasKey mapping item = .ok true
  closed : Dict.get? schema "additionalProperties" = some (.bool false) → ∀ entry ∈ mapping,
    (Dict.get? (dictOrEmpty (Dict.get? schema "properties")) entry.1).isSome = true
  types : ∀ entry ∈ mapping,
    FieldFits context g (dictOrEmpty (Dict.get? schema "properties")) entry

theorem fieldIssues_eq_nil_iff {fieldPrefix : String} {properties : Dict} {entry : String × Json} :
    fieldIssues env context g node fieldPrefix properties entry = .ok [] ↔
      FieldFits context g properties entry := by
  obtain ⟨key, value⟩ := entry
  simp only [fieldIssues, FieldFits]
  cases hproperty : Dict.get? properties key with
  | none => simp [pure, Except.pure]
  | some property =>
      cases property with
      | obj target =>
          cases hknown : hasKey (knownTypes.map (·, ())) ((Dict.get? target "type").getD .null) with
          | error e => simp [hknown, bind, Except.bind]
          | ok known =>
              cases known with
              | false => simp [hknown, bind, Except.bind, pure, Except.pure]
              | true =>
                  cases mappingSourceType context g value with
                  | error e => simp [hknown, bind, Except.bind]
                  | ok source =>
                      cases source with
                      | none => simp [hknown, bind, Except.bind, pure, Except.pure]
                      | some s =>
                          cases hcompatible : checkCompatibility s
                              ((Dict.get? target "type").getD .null) with
                          | mk compatible narrowing =>
                              cases compatible <;> cases narrowing <;>
                                simp [hknown, hcompatible, bind, Except.bind, pure, Except.pure]
      | _ => simp [pure, Except.pure]

/-- A mapping without issues is one that fits, or one without an object schema. -/
theorem mappingIssues_eq_nil_iff {schema mapping : Dict} {fieldPrefix : String} :
    mappingIssues env context g node schema mapping fieldPrefix = .ok [] ↔
      (Dict.get? schema "type" = some (.str "object") → MappingFits context g schema mapping) := by
  have hmissing (items : List Json) (issue : Json → ValidationIssue) :
      (∃ missing, (items.mapM fun required ↦ do
          return issueIf ((← hasKey mapping required) = false) (issue required)) = .ok missing ∧
        missing.flatten = []) ↔ ∀ item ∈ items, hasKey mapping item = .ok true := by
    rw [Outcome.mapM_flatten_nil_iff]
    refine forall₂_congr fun item _ ↦ ?_
    cases hasKey mapping item with
    | error e => simp [bind, Except.bind]
    | ok found => cases found <;> simp [bind, Except.bind, pure, Except.pure, issueIf]
  have hunknown (properties : Dict) (issue : String × Json → ValidationIssue) :
      (if Dict.get? schema "additionalProperties" = some (.bool false) then
        mapping.flatMap fun entry ↦
          issueIf ((Dict.get? properties entry.1).isNone = true) (issue entry) else []) = [] ↔
      (Dict.get? schema "additionalProperties" = some (.bool false) → ∀ entry ∈ mapping,
        (Dict.get? properties entry.1).isSome = true) := by
    split
    · next hclosed => simp [hclosed, issueIf, Option.isSome_iff_ne_none]
    · next hopen => simp [hopen]
  by_cases htype : Dict.get? schema "type" = some (.str "object")
  · simp only [mappingIssues, htype, ne_eq, not_true_eq_false, if_false, true_imp_iff]
    constructor
    · intro h
      obtain ⟨items, hitems, h⟩ := Outcome.bind_eq_ok_iff.mp h
      obtain ⟨missing, hmiss, h⟩ := Outcome.bind_eq_ok_iff.mp h
      obtain ⟨types, htypes, h⟩ := Outcome.bind_eq_ok_iff.mp h
      obtain ⟨hfound, htyped⟩ := List.append_eq_nil_iff.mp (Except.ok.inj h)
      obtain ⟨hfound, hallowed⟩ := List.append_eq_nil_iff.mp hfound
      refine ⟨⟨items, hitems, (hmissing items _).mp ⟨missing, hmiss, hfound⟩⟩, ?_, ?_⟩
      · exact (hunknown _ _).mp hallowed
      · exact fun entry hentry ↦
          fieldIssues_eq_nil_iff.mp (Outcome.mapM_flatten_nil_iff.mp ⟨types, htypes, htyped⟩ entry hentry)
    · rintro ⟨⟨items, hitems, hrequired⟩, hclosed, htypes⟩
      have hfields : ∀ entry ∈ mapping, fieldIssues env context g node fieldPrefix
          (dictOrEmpty (Dict.get? schema "properties")) entry = .ok [] :=
        fun entry hentry ↦ fieldIssues_eq_nil_iff.mpr (htypes entry hentry)
      obtain ⟨missing, hmiss, hfound⟩ := (hmissing items fun required ↦
        { code := .missingRequiredInput
          message := "Required input " ++ env.repr required ++ " is not mapped"
          nodeId := some node.id
          field := some (fieldPrefix ++ "." ++ env.str required) }).mpr hrequired
      obtain ⟨types, htyped, hnone⟩ := Outcome.mapM_flatten_nil_iff.mpr hfields
      refine Outcome.bind_eq_ok_iff.mpr ⟨items, hitems, ?_⟩
      refine Outcome.bind_eq_ok_iff.mpr ⟨missing, hmiss, ?_⟩
      refine Outcome.bind_eq_ok_iff.mpr ⟨types, htyped, congrArg Except.ok ?_⟩
      rw [hfound, hnone, List.append_nil, List.nil_append]
      exact (hunknown _ _).mpr hclosed
  · simp [mappingIssues, htype, pure, Except.pure]

/-! ## Nodes -/

/-- What the schema pass reports on one node. -/
def nodeSchemaIssues (env : Env) (context : ValidationContext) (g : WorkflowGraph)
    (node : WorkflowNode) : Except Raised (List ValidationIssue) :=
  match node.type with
  | .agent => agentMappingIssues env context g node
  | .service => serviceMappingIssues env context g node
  | _ => .ok []

theorem validateSchema_eq : validateSchema env context g = do
    return (← g.nodes.mapM (nodeSchemaIssues env context g)).flatten :=
  rfl

/-- The explicit path and query mapping of a Service node fits the schemas of its Action. -/
def ActionFits (context : ValidationContext) (g : WorkflowGraph) (node : WorkflowNode) : Prop :=
  node.type = .service →
    (["path", "query", "body"].any fun key ↦ (Dict.get? node.inputMapping key).isSome) = true →
      ∀ action, getKey context.serviceActions (node.configValue "service_action_id") =
          .ok (some action) →
        (Dict.get? action.pathSchema "type" = some (.str "object") →
          MappingFits context g action.pathSchema (locationMapping node "path")) ∧
        (Dict.get? action.querySchema "type" = some (.str "object") →
          MappingFits context g action.querySchema (locationMapping node "query"))

theorem mappingIssues_nil (mapping : Dict) (fieldPrefix : String) :
    mappingIssues env context g node [] mapping fieldPrefix = .ok [] := by
  rw [mappingIssues_eq_nil_iff]
  intro h
  cases h

theorem agentMappingIssues_withoutLocations :
    agentMappingIssues env context.withoutLocations g node =
      agentMappingIssues env context g node := by
  simp only [agentMappingIssues, mappingIssues_withoutLocations]
  rfl

/-- Without the location schemas an explicit mapping is checked in its body only, and that
is enough if and only if the locations fit. -/
theorem serviceMappingIssues_withoutLocations {issues : List ValidationIssue}
    (h : serviceMappingIssues env context g node = .ok issues) :
    ∃ rest, serviceMappingIssues env context.withoutLocations g node = .ok rest ∧
      rest <:+ issues ∧ (rest.length = issues.length → ActionFits context g node) := by
  simp only [serviceMappingIssues] at h
  obtain ⟨found, hfound, h⟩ := Outcome.bind_eq_ok_iff.mp h
  have hkey : getKey context.withoutLocations.serviceActions
      (node.configValue "service_action_id") =
        .ok (found.map RegistryServiceAction.withoutLocations) := by
    simp only [ValidationContext.withoutLocations, getKey_map, hfound]
    rfl
  simp only [serviceMappingIssues, mappingIssues_withoutLocations, hkey]
  cases found with
  | none =>
      cases h
      refine ⟨[], rfl, List.suffix_refl [], fun _ _ _ action haction ↦ ?_⟩
      rw [hfound] at haction
      cases haction
  | some action =>
      by_cases hexplicit :
          (["path", "query", "body"].any fun key ↦ (Dict.get? node.inputMapping key).isSome) = true
      · simp only [hexplicit, if_true] at h
        obtain ⟨path, hpath, h⟩ := Outcome.bind_eq_ok_iff.mp h
        obtain ⟨query, hquery, h⟩ := Outcome.bind_eq_ok_iff.mp h
        obtain ⟨body, hbody, h⟩ := Outcome.bind_eq_ok_iff.mp h
        cases h
        refine ⟨body, ?_, ⟨path ++ query, rfl⟩, fun hlength _ _ action' haction' ↦ ?_⟩
        · simp only [Option.map_some, Outcome.ok_bind, hexplicit, if_true,
            RegistryServiceAction.withoutLocations, mappingIssues_nil, hbody]
          rfl
        · rw [hfound] at haction'
          cases haction'
          have hnone : path = [] ∧ query = [] := by
            simp only [List.length_append] at hlength
            exact ⟨List.eq_nil_of_length_eq_zero (by omega),
              List.eq_nil_of_length_eq_zero (by omega)⟩
          rw [hnone.1] at hpath
          rw [hnone.2] at hquery
          exact ⟨mappingIssues_eq_nil_iff.mp hpath, mappingIssues_eq_nil_iff.mp hquery⟩
      · simp only [hexplicit] at h
        refine ⟨issues, ?_, List.suffix_refl issues, fun _ _ hlocations ↦ absurd hlocations hexplicit⟩
        simp only [Option.map_some, Outcome.ok_bind, hexplicit]
        exact h

theorem serviceMappingIssues_of_fits (hservice : node.type = .service)
    (h : ActionFits context g node) :
    serviceMappingIssues env context.withoutLocations g node =
      serviceMappingIssues env context g node := by
  have hkey : getKey context.withoutLocations.serviceActions
      (node.configValue "service_action_id") =
        (getKey context.serviceActions (node.configValue "service_action_id")).map
          (Option.map RegistryServiceAction.withoutLocations) := getKey_map _ _ _
  simp only [serviceMappingIssues, mappingIssues_withoutLocations, hkey]
  cases hfound : getKey context.serviceActions (node.configValue "service_action_id") with
  | error e => rfl
  | ok found =>
      cases found with
      | none => rfl
      | some action =>
          by_cases hexplicit :
              (["path", "query", "body"].any fun key ↦
                (Dict.get? node.inputMapping key).isSome) = true
          · obtain ⟨hpath, hquery⟩ := h hservice hexplicit action hfound
            simp only [Except.map, Option.map_some, Outcome.ok_bind, hexplicit, if_true,
              RegistryServiceAction.withoutLocations, mappingIssues_nil,
              mappingIssues_eq_nil_iff.mpr hpath, mappingIssues_eq_nil_iff.mpr hquery]
          · simp only [Except.map, Option.map_some, Outcome.ok_bind, hexplicit]
            rfl

theorem nodeSchemaIssues_withoutLocations {issues : List ValidationIssue}
    (h : nodeSchemaIssues env context g node = .ok issues) :
    ∃ rest, nodeSchemaIssues env context.withoutLocations g node = .ok rest ∧ rest <:+ issues ∧
      (rest.length = issues.length → ActionFits context g node) := by
  unfold nodeSchemaIssues at h ⊢
  cases htype : node.type with
  | service =>
      rw [htype] at h
      exact serviceMappingIssues_withoutLocations h
  | agent =>
      rw [htype] at h
      refine ⟨issues, agentMappingIssues_withoutLocations.trans h, List.suffix_refl issues, ?_⟩
      simp [ActionFits, htype]
  | _ =>
      rw [htype] at h
      refine ⟨issues, h, List.suffix_refl issues, ?_⟩
      simp [ActionFits, htype]

theorem nodeSchemaIssues_of_fits (h : ActionFits context g node) :
    nodeSchemaIssues env context.withoutLocations g node =
      nodeSchemaIssues env context g node := by
  unfold nodeSchemaIssues
  split
  · exact agentMappingIssues_withoutLocations
  · next hservice => exact serviceMappingIssues_of_fits hservice h
  · rfl

/-! ## Graphs -/

theorem validateSchema_of_fits (h : ∀ node ∈ g.nodes, ActionFits context g node) :
    validateSchema env context.withoutLocations g = validateSchema env context g := by
  rw [validateSchema_eq, validateSchema_eq,
    Outcome.mapM_congr fun node hnode ↦ nodeSchemaIssues_of_fits (h node hnode)]

/-- The issues of all rules, without and with the location schemas. -/
theorem collectIssues_withoutLocations {collected : List (ℕ × ValidationIssue)}
    (h : collectIssues env context g = .ok collected) :
    ∃ rest, collectIssues env context.withoutLocations g = .ok rest ∧ rest.Sublist collected ∧
      (rest.length = collected.length → ∀ node ∈ g.nodes, ActionFits context g node) := by
  unfold collectIssues at h
  obtain ⟨references, hreferences, h⟩ := Outcome.bind_eq_ok_iff.mp h
  obtain ⟨nodes, hnodes, h⟩ := Outcome.bind_eq_ok_iff.mp h
  obtain ⟨contextIssues, hcontext, h⟩ := Outcome.bind_eq_ok_iff.mp h
  obtain ⟨schema, hschema, h⟩ := Outcome.bind_eq_ok_iff.mp h
  cases h
  rw [validateSchema_eq] at hschema
  obtain ⟨yss, hyss, hschema⟩ := Outcome.bind_eq_ok_iff.mp hschema
  cases hschema
  obtain ⟨rests, hrests, hsublist, hfits⟩ :=
    Outcome.mapM_suffix (fun _ _ ↦ nodeSchemaIssues_withoutLocations) hyss
  refine ⟨(validateIdentity g).map (0, ·) ++ (validateTopology g).map (1, ·) ++
      references.map (2, ·) ++ nodes.map (3, ·) ++ contextIssues.map (4, ·) ++
        rests.flatten.map (5, ·), ?_, ?_, fun hlength ↦ hfits ?_⟩
  · unfold collectIssues
    rw [validateReferences_withoutLocations, hreferences, hnodes, validateContext_withoutLocations,
      hcontext, validateSchema_eq, hrests]
    rfl
  · exact (List.Sublist.refl _).append (hsublist.map _)
  · simp only [List.length_append, List.length_map] at hlength
    omega

/-- The number of issues in a report. -/
theorem ValidationResult.length_fromIssues (issues : List ValidationIssue) :
    (ValidationResult.fromIssues issues).errors.length +
      (ValidationResult.fromIssues issues).warnings.length = issues.length := by
  have hwarnings : issues.filter (·.severity = .warning) =
      issues.filter fun issue ↦ !decide (issue.severity = .error) := by
    apply List.filter_congr
    intro issue _
    cases issue.severity <;> rfl
  simp only [fromIssues, hwarnings]
  exact (List.length_eq_length_filter_add _).symm

/-- The explicit locations of every Service node fit. -/
def Registry.LocationsFit (db : Registry) (g : WorkflowGraph) : Prop :=
  ∀ loaded, loadRegistry db g = .ok loaded → ∀ node ∈ g.nodes,
    ActionFits (registryContext loaded) g node

theorem validateGraph_withoutLocations {result : ValidationResult}
    (h : validateGraph env context g = .ok result) :
    ∃ published, validateGraph env context.withoutLocations g = .ok published ∧
      (∀ issue ∈ published.errors, issue ∈ result.errors) ∧
      (published = result → ∀ node ∈ g.nodes, ActionFits context g node) := by
  unfold validateGraph at h ⊢
  split at h
  · next hempty =>
    cases h
    refine ⟨_, if_pos hempty, fun _ h ↦ h, fun _ node hnode ↦ ?_⟩
    rw [hempty] at hnode
    cases hnode
  · next hnodes =>
    obtain ⟨collected, hcollected, h⟩ := Outcome.bind_eq_ok_iff.mp h
    cases h
    obtain ⟨rest, hrest, hsublist, hfits⟩ := collectIssues_withoutLocations hcollected
    rw [if_neg hnodes, hrest]
    refine ⟨_, rfl, ?_, fun hsame ↦ hfits ?_⟩
    · intro issue hissue
      simp only [ValidationResult.fromIssues, List.mem_filter, List.mem_map, List.mem_mergeSort]
        at hissue ⊢
      obtain ⟨⟨entry, hentry, rfl⟩, herror⟩ := hissue
      exact ⟨⟨entry, hsublist.subset hentry, rfl⟩, herror⟩
    · have hrests := ValidationResult.length_fromIssues
        ((rest.mergeSort (issueBefore g)).map Prod.snd)
      have hall := ValidationResult.length_fromIssues
        ((collected.mergeSort (issueBefore g)).map Prod.snd)
      rw [hsame] at hrests
      simp only [List.length_map, List.length_mergeSort] at hrests hall
      omega

theorem validateGraph_of_fits (h : ∀ node ∈ g.nodes, ActionFits context g node) :
    validateGraph env context.withoutLocations g = validateGraph env context g := by
  unfold validateGraph collectIssues
  rw [validateReferences_withoutLocations, validateContext_withoutLocations,
    validateSchema_of_fits h]

/-- The report for publishing is the report for a run if and only if the explicit path and
query mappings fit the schemas of their Actions.  It never reports another error. -/
theorem registry_views_agree_iff (env : Env) (db : Registry) (g : WorkflowGraph) :
    (∀ published, validateGraphWithContext env db g = .ok published →
      (validateForRun env db g = .ok published ↔ db.LocationsFit g)) ∧
    ∀ result, validateForRun env db g = .ok result →
      ∃ published, validateGraphWithContext env db g = .ok published ∧
        ∀ issue ∈ published.errors, issue ∈ result.errors := by
  unfold validateGraphWithContext validateForRun Registry.LocationsFit
  rw [buildValidationContext_eq]
  cases hloaded : loadRegistry db g with
  | error e =>
      constructor
      · intro published h
        cases h
      · intro result h
        cases h
  | ok loaded =>
      constructor
      · intro published hpublished
        constructor
        · intro hrun loaded' hloaded'
          cases hloaded'
          obtain ⟨published', hpublished', -, hfits⟩ := validateGraph_withoutLocations hrun
          apply hfits
          exact Except.ok.inj (hpublished'.symm.trans hpublished)
        · intro hfits
          exact (validateGraph_of_fits (hfits loaded rfl)).symm.trans hpublished
      · intro result hrun
        obtain ⟨published, hpublished, herrors, -⟩ := validateGraph_withoutLocations hrun
        exact ⟨published, hpublished, herrors⟩

/-! ## A concrete Action -/

/-- Data Input, a Service call with an explicit mapping, Data Output. -/
def lookupGraph : ParsedGraph where
  nodes :=
    [{ id := "in", type := .data, subtype := "input", name := "Input"
       config := [("schema", .obj [("type", .str "object")])] },
      { id := "act", type := .service, subtype := "http", name := "Lookup"
        config := [("service_id", .str "s"), ("service_action_id", .str "a")]
        inputMapping := [("body", .obj [])] },
      { id := "out", type := .data, subtype := "output", name := "Output"
        config := [("output_mapping", .obj [])] }]
  edges :=
    [{ id := "e1", source := "in", target := "act" },
      { id := "e2", source := "act", target := "out" }]
  nodeIds_nodup := by decide
  edges_closed := by decide

def lookupRegistry (pathSchema : Option Dict) : Registry where
  services := [{ id := "s", name := "Service", enabled := true, status := "healthy" }]
  actions :=
    [{ id := "a", serviceId := "s", name := "lookup", enabled := true, querySchema := none,
       pathSchema := pathSchema, inputSchema := none, outputSchema := none }]

/-- The path parameter `id` is required. -/
def idSchema : Dict :=
  [("type", .str "object"), ("required", .arr [.str "id"])]

theorem accepted_lookupGraph (pathSchema : Option Dict) : ∃ context,
    buildValidationContext (lookupRegistry pathSchema) lookupGraph.toWorkflowGraph = .ok context ∧
      Accepted plainEnv context lookupGraph.toWorkflowGraph := by
  exact ⟨_, rfl, accepted_of_silent (by decide) (by decide) (by rfl) rfl rfl rfl rfl⟩

/-- Without a path schema both reports are the same. -/
theorem registry_views_agree_iff_lookupGraph : ∃ published,
    validateGraphWithContext plainEnv (lookupRegistry none) lookupGraph.toWorkflowGraph =
      .ok published ∧ published.valid = true ∧
    validateForRun plainEnv (lookupRegistry none) lookupGraph.toWorkflowGraph = .ok published := by
  obtain ⟨context, hcontext, published, hpublished, hvalid⟩ := accepted_lookupGraph none
  have hreport : validateGraphWithContext plainEnv (lookupRegistry none)
      lookupGraph.toWorkflowGraph = .ok published := by
    unfold validateGraphWithContext
    rw [hcontext]
    exact hpublished
  refine ⟨published, hreport, hvalid, ?_⟩
  apply ((registry_views_agree_iff plainEnv _ _).1 published hreport).mpr
  intro loaded hloaded node hnode hservice _ action haction
  cases hloaded
  have hschemas : action.pathSchema = [] ∧ action.querySchema = [] := by
    simp only [lookupGraph, List.mem_cons, List.not_mem_nil, or_false] at hnode
    rcases hnode with rfl | rfl | rfl
    · cases hservice
    · cases haction
      exact ⟨rfl, rfl⟩
    · cases hservice
  rw [hschemas.1, hschemas.2]
  constructor
  · intro htype
    cases htype
  · intro htype
    cases htype

/-- The missing path parameter is an error for the run, and the graph is published. -/
theorem not_registry_views_agree : ∃ published,
    validateGraphWithContext plainEnv (lookupRegistry (some idSchema))
      lookupGraph.toWorkflowGraph = .ok published ∧ published.valid = true ∧
    validateForRun plainEnv (lookupRegistry (some idSchema)) lookupGraph.toWorkflowGraph ≠
      .ok published := by
  obtain ⟨context, hcontext, published, hpublished, hvalid⟩ := accepted_lookupGraph (some idSchema)
  refine ⟨published, ?_, hvalid, fun hrun ↦ ?_⟩
  · unfold validateGraphWithContext
    rw [hcontext]
    exact hpublished
  · obtain ⟨loaded, hloaded, hrun⟩ := Outcome.bind_eq_ok_iff.mp hrun
    cases hloaded
    obtain ⟨-, -, -, -, schema, -, -, -, hschema, -, -, -, -, -, hclean⟩ :=
      accepted_iff.mp ⟨published, hrun, hvalid⟩
    cases hschema
    exact hclean _ (List.mem_singleton_self _) rfl

end Relayvia
