import Relayvia.Runs
import Relayvia.Validation.Upstream

/-!
# References to workflow variables

The validator takes the whole path of a reference for the name of a variable, the
resolver cuts it at the dots and walks nested objects.
-/

namespace Relayvia

variable {env : Env} {context : ValidationContext} {g : ParsedGraph}

/-- The path leads through nested objects from one value to another. -/
inductive Json.Leads : Json → List String → Json → Prop where
  | here {v : Json} : Leads v [] v
  | field {fields : Dict} {key : String} {child v : Json} {path : List String} :
      Dict.get? fields key = some child → Leads child path v → Leads (.obj fields) (key :: path) v

theorem Json.leads_nil_iff {v w : Json} : Leads v [] w ↔ v = w := by
  constructor
  · intro h
    cases h
    rfl
  · rintro rfl
    exact .here

theorem ContextResolver.navigate_eq_ok_iff {r : ContextReference} {path : List String}
    {data v : Json} : navigate r data path = .ok v ↔ data.Leads path v := by
  induction path generalizing data with
  | nil => simp [navigate, Json.leads_nil_iff]
  | cons key path ih =>
      cases hchild : data.get? key with
      | none =>
          simp only [navigate, hchild, reduceCtorEq, false_iff]
          intro h
          cases h with
          | field hfield _ => simp [Json.get?, ← Dict.get?.eq_def, hfield] at hchild
      | some child =>
          simp only [navigate, hchild, ih]
          constructor
          · intro h
            cases data with
            | obj fields => exact .field hchild h
            | null | bool | int | float | str | arr => cases hchild
          · intro h
            cases h with
            | field hfield h =>
                cases hfield.symm.trans hchild
                exact h

/-- The values that the validator scans hold the reference. -/
def WorkflowGraph.Mentions (g : WorkflowGraph) (r : ContextReference) : Prop :=
  ∃ node ∈ g.nodes, ∃ v ∈ referenceBearingValues node, ∃ references,
    extractContextReferences v = .ok references ∧ r ∈ references

theorem Accepted.variable_of_mentions (h : Accepted env context g.toWorkflowGraph)
    {r : ContextReference} (hr : g.Mentions r) (hscope : r.scope = "workflow.variables") :
    ∃ declared, g.vars.lookup r.pathText = some declared := by
  obtain ⟨node, hnode, v, hv, references, hextract, hr⟩ := hr
  obtain ⟨found, hfound, hclean⟩ := h.referenceIssues_clean hnode hv hextract hr
  rw [referenceIssues, if_pos hscope] at hfound
  cases hfound
  apply Option.isSome_iff_exists.mp
  simpa [referenceIssue, Option.isSome_iff_ne_none] using hclean

/-- The name of the variable has no dot, or the variable named by the first segment has a
default that nests the one of the matched variable. -/
def ReachesDefault (g : WorkflowGraph) (r : ContextReference) : Prop :=
  r.path.length = 1 ∨ ∃ name rest outer inner, r.path = name :: rest ∧
    g.vars.lookup name = some outer ∧ g.vars.lookup r.pathText = some inner ∧
      outer.default.Leads rest inner.default

theorem lookup_initializeVariables (g : WorkflowGraph) (name : String) :
    Dict.get? (initializeVariables g) name =
      (g.vars.lookup name).map WorkflowVariable.default := by
  unfold initializeVariables Dict.get?
  induction g.vars with
  | nil => rfl
  | cons declared vars ih =>
      rw [List.map_cons, List.lookup_cons, List.lookup_cons, ih]
      split <;> rfl

theorem ContextResolver.resolve_variable {resolver : ContextResolver} {g : WorkflowGraph}
    (hvariables : resolver.workflowVariables = initializeVariables g) {r : ContextReference}
    (hscope : r.scope = "workflow.variables") {name : String} {rest : List String}
    (hpath : r.path = name :: rest) {v : Json} :
    resolver.resolveReference r = .ok v ↔
      ∃ outer, g.vars.lookup name = some outer ∧ outer.default.Leads rest v := by
  rw [resolveReference, hscope, if_neg (by decide), if_pos rfl, navigate_eq_ok_iff, hvariables,
    hpath]
  constructor
  · intro h
    cases h with
    | field hfield h =>
        rw [lookup_initializeVariables] at hfield
        obtain ⟨outer, houter, rfl⟩ := Option.map_eq_some_iff.mp hfield
        exact ⟨outer, houter, h⟩
  · rintro ⟨outer, houter, h⟩
    apply Json.Leads.field _ h
    rw [lookup_initializeVariables, houter]
    rfl

theorem contextResolver_createRun {now : Time} {id : String} {snapshot input : Dict}
    {db : RunRecord} (hdb : createRun env now id g snapshot input = .ok db) :
    (contextResolver env db).workflowVariables = initializeVariables g.toWorkflowGraph := by
  obtain ⟨-, -, hdb⟩ := Outcome.bind_eq_ok_iff.mp hdb
  cases hdb
  rfl

/-- A variable reference of an accepted graph resolves to the default of the variable that
the validator matched if and only if the path reaches it. -/
theorem accepted_resolves_variable_iff {now : Time} {id : String} {snapshot input : Dict}
    {db : RunRecord} (h : Accepted env context g.toWorkflowGraph)
    (hdb : createRun env now id g snapshot input = .ok db) {r : ContextReference}
    (hr : g.Mentions r) (hscope : r.scope = "workflow.variables") :
    (∃ declared, g.vars.lookup r.pathText = some declared ∧
      (contextResolver env db).resolveReference r = .ok declared.default) ↔
        ReachesDefault g.toWorkflowGraph r := by
  obtain ⟨declared, hdeclared⟩ := h.variable_of_mentions hr hscope
  obtain ⟨-, -, v, -, references, hextract, hr⟩ := hr
  obtain ⟨value, hmatch⟩ := extractContextReferences_parsed v hextract r hr
  obtain ⟨name, rest, hpath⟩ := matchReference_path hmatch
  have hresolve {v : Json} := ContextResolver.resolve_variable (v := v)
    (contextResolver_createRun hdb) hscope hpath
  constructor
  · rintro ⟨inner, hinner, h⟩
    obtain ⟨outer, houter, hleads⟩ := hresolve.mp h
    exact .inr ⟨name, rest, outer, inner, hpath, houter, hinner, hleads⟩
  · rintro (hone | ⟨name', rest', outer, inner, hpath', houter, hinner, hleads⟩)
    · obtain rfl : rest = [] := by simpa [hpath] using hone
      have hname : r.pathText = name := by simp [ContextReference.pathText, hpath]
      rw [hname] at hdeclared ⊢
      exact ⟨declared, hdeclared, hresolve.mpr ⟨declared, hdeclared, .here⟩⟩
    · obtain ⟨rfl, rfl⟩ := List.cons.inj (hpath.symm.trans hpath')
      exact ⟨inner, hinner, hresolve.mpr ⟨outer, houter, hleads⟩⟩

/-! ## A dotted name -/

/-- Data Input and Data Output; the output is the variable of this name. -/
def colorGraph (name : String) : ParsedGraph where
  nodes :=
    [{ id := "in", type := .data, subtype := "input", name := "Input"
       config := [("schema", .obj [("type", .str "object")])] },
      { id := "out", type := .data, subtype := "output", name := "Output"
        config :=
          [("output_mapping",
            .obj [("color", .str ("\x7b\x7bworkflow.variables." ++ name ++ "\x7d\x7d"))])] }]
  edges := [{ id := "e", source := "in", target := "out" }]
  vars := [(name, { type := .string, default := .str "blue" })]
  nodeIds_nodup := by simp [WorkflowGraph.nodeIds]
  edges_closed := by simp [WorkflowGraph.nodeIds]

/-- The reference to a variable whose path has these segments. -/
def variableReference (path : List String) : ContextReference where
  raw := "\x7b\x7bworkflow.variables." ++ ".".intercalate path ++ "\x7d\x7d"
  scope := "workflow.variables"
  path := path

theorem mentions_colorGraph {name : String} {path : List String}
    (hpath : (parseContextReferences ("\x7b\x7bworkflow.variables." ++ name ++ "\x7d\x7d")) =
      .ok [variableReference path]) :
    (colorGraph name).Mentions (variableReference path) := by
  refine ⟨_, List.mem_cons_of_mem _ (List.mem_singleton.mpr rfl), _,
    List.mem_singleton.mpr rfl, [variableReference path], ?_, List.mem_singleton.mpr rfl⟩
  change extractContextReferences (.obj [("color", .str _)]) = _
  rw [extractContextReferences, extractFromFields, extractContextReferences, hpath]
  rfl

theorem createRun_colorGraph (name : String) :
    ∃ db, createRun plainEnv 0 "run" (colorGraph name) [] [] = .ok db :=
  ⟨_, rfl⟩

/-- A name without a dot. -/
theorem accepted_resolves_variable_colorGraph : ∃ db,
    createRun plainEnv 0 "run" (colorGraph "color") [] [] = .ok db ∧
      (contextResolver plainEnv db).resolveReference (variableReference ["color"]) =
        .ok (.str "blue") := by
  have haccepted : Accepted plainEnv {} (colorGraph "color").toWorkflowGraph :=
    accepted_of_silent (by decide) (by decide) (by rfl) rfl rfl rfl rfl
  obtain ⟨db, hdb⟩ := createRun_colorGraph "color"
  obtain ⟨declared, hdeclared, hresolve⟩ := (accepted_resolves_variable_iff haccepted hdb
    (@mentions_colorGraph "color" ["color"] rfl) rfl).mpr (.inl rfl)
  refine ⟨db, hdb, ?_⟩
  cases hdeclared
  exact hresolve

/-- The graph is accepted, and the run cannot resolve its variable. -/
theorem not_resolves_variable_themeGraph : ∃ db declared,
    Accepted plainEnv {} (colorGraph "theme.color").toWorkflowGraph ∧
      createRun plainEnv 0 "run" (colorGraph "theme.color") [] [] = .ok db ∧
        (colorGraph "theme.color").Mentions (variableReference ["theme", "color"]) ∧
          (colorGraph "theme.color").vars.lookup "theme.color" = some declared ∧
            (contextResolver plainEnv db).resolveReference (variableReference ["theme", "color"]) =
              .error ⟨"\x7b\x7bworkflow.variables.theme.color\x7d\x7d",
                "Value 'theme.color' is not available"⟩ := by
  obtain ⟨db, hdb⟩ := createRun_colorGraph "theme.color"
  refine ⟨db, { type := .string, default := .str "blue" },
    accepted_of_silent (by decide) (by decide) (by rfl) rfl rfl rfl rfl, hdb,
      mentions_colorGraph rfl, rfl, ?_⟩
  cases hdb
  rfl

end Relayvia
