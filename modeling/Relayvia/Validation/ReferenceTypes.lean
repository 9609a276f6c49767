import Relayvia.Validation.Variables

/-!
# Types of references

The schema rule types a reference by the first segment of its path.  The declared type is the
one that the schema gives to the whole path, along the `properties` of nested objects.
-/

namespace Relayvia

/-! ## Nested schemas -/

/-- The schema of the value at a path. -/
def subschema : Json → List String → Option Json
  | schema, [] => some schema
  | schema, key :: path => do
      let properties ← schema.get? "properties"
      let child ← properties.get? key
      subschema child path

/-- The type of the value at a path. -/
def typeAt (schema : Json) (path : List String) : Option Json :=
  (subschema schema path).bind fun sub ↦ (sub.get? "type").filter (· ≠ .null)

/-- The schema that describes what the reference points into. -/
def referencedSchema (context : ValidationContext) (g : WorkflowGraph) (r : ContextReference) :
    Except Raised (Option Json) :=
  if r.scope = "workflow.variables" ∨ r.scope = "run" then .ok none
  else if r.scope = "workflow.input" then .ok (entrySchema g)
  else
    match r.nodeId with
    | some target => (nodeOutputSchema context g target).map (Option.map .obj)
    | none => .ok none

/-- The type that is declared for the referenced value; a variable declares its own. -/
def declaredType (context : ValidationContext) (g : WorkflowGraph) (r : ContextReference) :
    Except Raised (Option Json) :=
  if r.scope = "workflow.variables" then
    .ok ((g.vars.lookup r.pathText).map fun declared ↦ .str declared.type.value)
  else (referencedSchema context g r).map fun schema ↦ schema.bind (typeAt · r.path)

variable {env : Env} {context : ValidationContext} {g : WorkflowGraph} {r : ContextReference}

theorem fieldType_eq (schema : Json) (r : ContextReference) :
    fieldType schema r = typeAt schema [r.firstField] := by
  unfold fieldType typeAt
  cases hproperties : schema.get? "properties" with
  | none => simp [subschema, hproperties]
  | some properties =>
      cases hchild : properties.get? r.firstField with
      | none => simp [subschema, hproperties, hchild]
      | some child =>
          cases htype : child.get? "type" with
          | none => simp [subschema, hproperties, hchild, htype]
          | some type =>
              by_cases hnull : type = .null <;>
                simp [subschema, hproperties, hchild, htype, hnull, Option.filter]

/-- What `_reference_type` returns where the reference points into a schema. -/
theorem referenceType_eq (hscope : r.scope ≠ "workflow.variables") :
    referenceType context g r =
      (referencedSchema context g r).map fun schema ↦ schema.bind (typeAt · [r.firstField]) := by
  unfold referenceType referencedSchema
  rw [if_neg hscope]
  by_cases hinput : r.scope = "workflow.input"
  · simp [hinput, fieldType_eq, Except.map]
  by_cases hrun : r.scope = "run"
  · simp [hrun, Except.map]
  rw [if_neg hinput, if_neg hrun, if_neg (by simp [hscope, hrun]), if_neg hinput]
  cases r.nodeId with
  | none => rfl
  | some target =>
      dsimp only
      cases nodeOutputSchema context g target with
      | error e => rfl
      | ok schema =>
          cases schema with
          | none => rfl
          | some fields => exact congrArg Except.ok (fieldType_eq (.obj fields) r)

/-! ## Reported mismatches -/

/-- A reported mismatch names a property whose type is not the type of the value. -/
theorem mismatch_of_fieldIssues {node : WorkflowNode} {fieldPrefix key text : String}
    {properties : Dict} {issues : List ValidationIssue} (htext : asPureReference text = some r)
    (h : fieldIssues env context g node fieldPrefix properties (key, .str text) = .ok issues)
    {issue : ValidationIssue} (hissue : issue ∈ issues) :
    ∃ target sourceType, Dict.get? properties key = some (.obj target) ∧
      referenceType context g r = .ok (some sourceType) ∧
        Dict.get? target "type" ≠ some sourceType := by
  unfold fieldIssues at h
  dsimp only at h
  cases hproperty : Dict.get? properties key with
  | none =>
      rw [hproperty] at h
      cases h
      cases hissue
  | some property =>
      rw [hproperty] at h
      cases property with
      | null | bool | int | float | str | arr =>
          cases h
          cases hissue
      | obj target =>
          dsimp only at h
          obtain ⟨known, -, h⟩ := Outcome.bind_eq_ok_iff.mp h
          split at h
          · cases h
            cases hissue
          · obtain ⟨source, hsource, h⟩ := Outcome.bind_eq_ok_iff.mp h
            rw [mappingSourceType, htext] at hsource
            cases source with
            | none =>
                cases h
                cases hissue
            | some sourceType =>
                refine ⟨target, sourceType, rfl, hsource, ?_⟩
                intro htype
                simp only [htype, Option.getD_some, checkCompatibility, if_pos] at h
                cases h
                cases hissue

/-- The mismatches of a mapping are those of its entries. -/
theorem mismatch_of_mappingIssues {node : WorkflowNode} {schema mapping : Dict}
    {fieldPrefix : String} {issues : List ValidationIssue}
    (h : mappingIssues env context g node schema mapping fieldPrefix = .ok issues)
    {issue : ValidationIssue} (hissue : issue ∈ issues)
    (hcode : issue.code = .schemaTypeMismatch) :
    ∃ entry ∈ mapping, ∃ found,
      fieldIssues env context g node fieldPrefix (dictOrEmpty (Dict.get? schema "properties"))
        entry = .ok found ∧ issue ∈ found := by
  unfold mappingIssues at h
  split at h
  · cases h
    cases hissue
  · obtain ⟨required, -, h⟩ := Outcome.bind_eq_ok_iff.mp h
    obtain ⟨missing, hmissing, h⟩ := Outcome.bind_eq_ok_iff.mp h
    obtain ⟨types, htypes, h⟩ := Outcome.bind_eq_ok_iff.mp h
    cases h
    rcases List.mem_append.mp hissue with hissue | hissue
    · exfalso
      rcases List.mem_append.mp hissue with hissue | hissue
      · obtain ⟨found, hfound, hissue⟩ := List.mem_flatten.mp hissue
        obtain ⟨name, -, hname⟩ := Outcome.exists_of_mem_mapM hmissing hfound
        obtain ⟨mapped, -, hname⟩ := Outcome.bind_eq_ok_iff.mp hname
        cases hname
        rw [eq_of_mem_issueIf hissue] at hcode
        cases hcode
      · split at hissue
        · obtain ⟨entry, -, hissue⟩ := List.mem_flatMap.mp hissue
          rw [eq_of_mem_issueIf hissue] at hcode
          cases hcode
        · cases hissue
    · obtain ⟨found, hfound, hissue⟩ := List.mem_flatten.mp hissue
      obtain ⟨entry, hentry, hfound⟩ := Outcome.exists_of_mem_mapM htypes hfound
      exact ⟨entry, hentry, found, hfound, hissue⟩

/-! ## Exact types -/

/-- The schema gives the first segment no type, or the type of the whole path. -/
def FirstSegmentTypes (schema : Json) (r : ContextReference) : Prop :=
  typeAt schema [r.firstField] = none ∨ typeAt schema [r.firstField] = typeAt schema r.path

theorem firstSegmentTypes_of_length {schema : Json} (h : r.path.length = 1) :
    FirstSegmentTypes schema r := by
  obtain ⟨name, hname⟩ := List.length_eq_one_iff.mp h
  right
  rw [ContextReference.firstField, hname]
  rfl

/-- What the schema rule may say of a reference: its declared type or nothing. -/
structure TypedExactly (env : Env) (context : ValidationContext) (g : WorkflowGraph)
    (r : ContextReference) : Prop where
  declared : ∀ t, referenceType context g r = .ok (some t) →
    declaredType context g r = .ok (some t)
  /-- no mismatch where the declared type is the type of the target -/
  accepted : ∀ node fieldPrefix properties key text target t issues,
    asPureReference text = some r → Dict.get? properties key = some (.obj target) →
    Dict.get? target "type" = some t → declaredType context g r = .ok (some t) →
    fieldIssues env context g node fieldPrefix properties (key, .str text) = .ok issues →
      ∀ issue ∈ issues, issue.code ≠ .schemaTypeMismatch
  /-- no mismatch where the schema does not describe the path -/
  undescribed : ∀ node fieldPrefix properties key text issues,
    asPureReference text = some r → declaredType context g r = .ok none →
    fieldIssues env context g node fieldPrefix properties (key, .str text) = .ok issues →
      ∀ issue ∈ issues, issue.code ≠ .schemaTypeMismatch

theorem referenceType_declared
    (h : ∀ schema, referencedSchema context g r = .ok (some schema) → FirstSegmentTypes schema r)
    {t : Json} (ht : referenceType context g r = .ok (some t)) :
    declaredType context g r = .ok (some t) := by
  unfold declaredType
  by_cases hscope : r.scope = "workflow.variables"
  · rw [referenceType, if_pos hscope] at ht
    rw [if_pos hscope, ht]
  · rw [referenceType_eq hscope] at ht
    rw [if_neg hscope]
    obtain ⟨found, hfound, hfirst⟩ := Outcome.map_eq_ok_iff.mp ht
    obtain ⟨schema, rfl, hfirst⟩ := Option.bind_eq_some_iff.mp hfirst
    rw [hfound]
    rcases h schema hfound with hnone | hsame
    · cases hnone.symm.trans hfirst
    · exact congrArg Except.ok (hsame.symm.trans hfirst)

/-- The types are exact for the references whose first segment has no type of its own in the
schema, or the type of the whole path. -/
theorem typedExactly_iff (env : Env) (context : ValidationContext) (g : WorkflowGraph)
    (r : ContextReference) : TypedExactly env context g r ↔
      ∀ schema, referencedSchema context g r = .ok (some schema) → FirstSegmentTypes schema r := by
  constructor
  · intro h schema hschema
    have hscope : r.scope ≠ "workflow.variables" := by
      intro hscope
      rw [referencedSchema, if_pos (.inl hscope)] at hschema
      cases hschema
    cases hfirst : typeAt schema [r.firstField] with
    | none => exact .inl hfirst
    | some t =>
        have htype : referenceType context g r = .ok (some t) := by
          rw [referenceType_eq hscope, hschema, ← hfirst]
          rfl
        have hdeclared := h.declared t htype
        rw [declaredType, if_neg hscope, hschema] at hdeclared
        right
        rw [hfirst]
        exact (Except.ok.inj hdeclared).symm
  · intro h
    constructor
    · intro t ht
      exact referenceType_declared h ht
    · intro node fieldPrefix properties key text target t issues htext htarget ht hdeclared hissues
        issue hissue
      exfalso
      obtain ⟨target', source, htarget', hsource, hne⟩ :=
        mismatch_of_fieldIssues htext hissues hissue
      rw [htarget] at htarget'
      cases htarget'
      have hsame := referenceType_declared h hsource
      rw [hdeclared] at hsame
      cases hsame
      exact hne ht
    · intro node fieldPrefix properties key text issues htext hnone hissues issue hissue
      exfalso
      obtain ⟨target, source, -, hsource, -⟩ := mismatch_of_fieldIssues htext hissues hissue
      have hsame := referenceType_declared h hsource
      rw [hnone] at hsame
      cases hsame

/-- A mapping of references that have the declared types of their targets has no mismatch. -/
theorem mapping_accepted {node : WorkflowNode} {schema mapping : Dict} {fieldPrefix : String}
    {issues : List ValidationIssue}
    (hmapping : ∀ entry ∈ mapping, ∃ text r target t, entry.2 = .str text ∧
      asPureReference text = some r ∧
      (∀ schema, referencedSchema context g r = .ok (some schema) → FirstSegmentTypes schema r) ∧
      Dict.get? (dictOrEmpty (Dict.get? schema "properties")) entry.1 = some (.obj target) ∧
      Dict.get? target "type" = some t ∧ declaredType context g r = .ok (some t))
    (h : mappingIssues env context g node schema mapping fieldPrefix = .ok issues) :
    ∀ issue ∈ issues, issue.code ≠ .schemaTypeMismatch := by
  intro issue hissue hcode
  obtain ⟨⟨key, value⟩, hentry, found, hfound, hmem⟩ := mismatch_of_mappingIssues h hissue hcode
  obtain ⟨text, r, target, t, rfl, htext, hfirst, htarget, ht, hdeclared⟩ := hmapping _ hentry
  have hexact := (typedExactly_iff env context g r).mpr hfirst
  exact hexact.accepted node fieldPrefix _ key text target t found htext htarget ht hdeclared hfound
    issue hmem hcode

/-! ## What a declared type says -/

/-- The value and the values below it have the types of the schema, where `hasType` says what
a type means. -/
inductive Conforms (hasType : Json → Json → Prop) : Json → Json → Prop where
  | intro {schema value : Json} :
      (∀ t, schema.get? "type" = some t → hasType t value) →
      (∀ properties key child v, schema.get? "properties" = some properties →
        properties.get? key = some child → value.get? key = some v → Conforms hasType child v) →
      Conforms hasType schema value

theorem Conforms.typeAt {hasType : Json → Json → Prop} {schema value v t : Json}
    {path : List String} (h : Conforms hasType schema value) (hpath : value.Leads path v)
    (ht : Relayvia.typeAt schema path = some t) : hasType t v := by
  induction hpath generalizing schema with
  | here =>
      obtain ⟨htype, -⟩ := h
      rw [Relayvia.typeAt, subschema, Option.bind_some] at ht
      exact htype t (Option.eq_some_of_filter_eq_some ht)
  | field hfield _ ih =>
      obtain ⟨-, hproperties⟩ := h
      rw [Relayvia.typeAt, subschema] at ht
      obtain ⟨sub, hsub, htype⟩ := Option.bind_eq_some_iff.mp ht
      obtain ⟨properties, hschema, hsub⟩ := Option.bind_eq_some_iff.mp hsub
      obtain ⟨child, hchild, hsub⟩ := Option.bind_eq_some_iff.mp hsub
      refine ih (hproperties _ _ child _ hschema hchild hfield) ?_
      rw [Relayvia.typeAt, hsub]
      exact htype

/-- A reference to the workflow input resolves to a value of the type that the schema rule
computes. -/
theorem resolved_input_typed {hasType : Json → Json → Prop} {resolver : ContextResolver}
    {schema v t : Json} (hscope : r.scope = "workflow.input") (hschema : entrySchema g = some schema)
    (hfirst : FirstSegmentTypes schema r)
    (hinput : Conforms hasType schema (.obj resolver.workflowInput))
    (ht : referenceType context g r = .ok (some t)) (hv : resolver.resolveReference r = .ok v) :
    hasType t v := by
  have hreferenced : referencedSchema context g r = .ok (some schema) := by
    simp [referencedSchema, hscope, hschema]
  have hdeclared : declaredType context g r = .ok (some t) := by
    apply referenceType_declared _ ht
    intro schema' hschema'
    rw [hreferenced] at hschema'
    cases hschema'
    exact hfirst
  rw [declaredType, if_neg (by simp [hscope]), hreferenced] at hdeclared
  rw [ContextResolver.resolveReference, if_pos hscope] at hv
  exact hinput.typeAt (ContextResolver.navigate_eq_ok_iff.mp hv) (Except.ok.inj hdeclared)

/-! ## A nested input -/

/-- The user of the input has a name. -/
def profileSchema : Json :=
  .obj [("type", .str "object"),
    ("properties", .obj [("user", .obj [("type", .str "object"),
      ("properties", .obj [("name", .obj [("type", .str "string")])])])])]

/-- The agent wants a name, and gets the name of the user. -/
def profileGraph : ParsedGraph where
  nodes :=
    [{ id := "in", type := .data, subtype := "input", name := "Input"
       config := [("schema", profileSchema)] },
      { id := "greet", type := .agent, subtype := "agent", name := "Greet"
        config := [("agent_id", .str "a")]
        inputMapping := [("name", .str "\x7b\x7bworkflow.input.user.name\x7d\x7d")] },
      { id := "out", type := .data, subtype := "output", name := "Output"
        config := [("output_mapping", .obj [])] }]
  edges :=
    [{ id := "e1", source := "in", target := "greet" },
      { id := "e2", source := "greet", target := "out" }]
  nodeIds_nodup := by decide
  edges_closed := by decide

def profileContext : ValidationContext where
  agents :=
    [("a",
      { id := "a"
        name := "A"
        enabled := true
        inputSchema := [("type", .str "object"),
          ("properties", .obj [("name", .obj [("type", .str "string")])])] })]

def userName : ContextReference :=
  { raw := "\x7b\x7bworkflow.input.user.name\x7d\x7d"
    scope := "workflow.input"
    path := ["user", "name"] }

/-- The declared type is the type of the target, and the rule reports the type of the user. -/
theorem not_typedExactly_userName :
    asPureReference userName.raw = some userName ∧
      declaredType profileContext profileGraph.toWorkflowGraph userName =
        .ok (some (.str "string")) ∧
      (∃ issue, validateSchema plainEnv profileContext profileGraph.toWorkflowGraph = .ok [issue] ∧
        issue.code = .schemaTypeMismatch ∧ issue.severity = .error ∧
          Dict.get? issue.details "source_type" = some (.str "object") ∧
          Dict.get? issue.details "target_type" = some (.str "string")) ∧
      ¬TypedExactly plainEnv profileContext profileGraph.toWorkflowGraph userName := by
  refine ⟨by decide, by decide, ⟨_, rfl, rfl, rfl, rfl, rfl⟩, fun h ↦ ?_⟩
  have hwrong := h.declared (.str "object") (by decide)
  revert hwrong
  decide

end Relayvia
