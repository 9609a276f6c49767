import Relayvia.Bookkeeping.RunRow
import Relayvia.References
import Relayvia.Worker.LostLease

/-!
# What a run resolves stays resolved

The data of the run row never change and an output is written once, so a value that is resolved
at some time of a run is resolved to the same value at every later time.  Only the status of the
run is read anew.
-/

namespace Relayvia

variable {env : Env} {db db' : RunRecord} {op : RunOp} {r : ContextReference}

/-- One transaction on the rows of a run: an operation, or the commit of the input that a Worker
resolved. -/
inductive RunTransaction (env : Env) (db : RunRecord) : RunRecord → Prop
  | op {db' : RunRecord} {op : RunOp} {returned : Bool}
      (h : op.exec env db = .ok (returned, db')) : RunTransaction env db db'
  | input (id : NodeId) (input : Dict) :
      RunTransaction env db (db.modifyNode id fun r ↦ { r with input := input })

/-- The rows of a run after any number of transactions. -/
abbrev RunSteps (env : Env) : RunRecord → RunRecord → Prop :=
  Relation.ReflTransGen (RunTransaction env)

theorem RunTransaction.steps (h : RunTransaction env db db') (hc : Coupled db) :
    Steps Rights.all db db' := by
  cases h with
  | op h => exact (RunOp.exec_sound hc (RunOp.promised_all db _)).of_ok h
  | input id input => exact .single (.cells (.setInput hc.toKeyed id input))

theorem RunSteps.steps (h : RunSteps env db db') (hc : Coupled db) :
    Steps Rights.all db db' := by
  induction h with
  | refl => exact .refl
  | tail _ hstep ih => exact ih.trans (hstep.steps (Steps.coupled ih hc))

theorem RunSteps.coupled (h : RunSteps env db db') (hc : Coupled db) : Coupled db' :=
  Steps.coupled (h.steps hc) hc

/-! ## The run row -/

/-- The columns that creation writes and no operation changes. -/
structure SameData (run run' : WorkflowRun) : Prop where
  id : run'.id = run.id
  graph : run'.graph = run.graph
  executionSnapshot : run'.executionSnapshot = run.executionSnapshot
  input : run'.input = run.input
  workflowVariables : run'.workflowVariables = run.workflowVariables
  createdAt : run'.createdAt = run.createdAt

theorem RunChange.sameData {run run' : WorkflowRun} (h : RunChange op run run') :
    SameData run run' := by
  cases h <;> exact ⟨rfl, rfl, rfl, rfl, rfl, rfl⟩

theorem SameData.trans {run run' run'' : WorkflowRun} (h : SameData run run')
    (h' : SameData run' run'') : SameData run run'' where
  id := h'.id.trans h.id
  graph := h'.graph.trans h.graph
  executionSnapshot := h'.executionSnapshot.trans h.executionSnapshot
  input := h'.input.trans h.input
  workflowVariables := h'.workflowVariables.trans h.workflowVariables
  createdAt := h'.createdAt.trans h.createdAt

theorem RunTransaction.sameData (h : RunTransaction env db db') (hc : Coupled db) :
    SameData db.run db'.run := by
  cases h with
  | op h => exact (RunOp.exec_runChange hc h).sameData
  | input id input => exact ⟨rfl, rfl, rfl, rfl, rfl, rfl⟩

theorem RunSteps.sameData (h : RunSteps env db db') (hc : Coupled db) :
    SameData db.run db'.run := by
  induction h with
  | refl => exact ⟨rfl, rfl, rfl, rfl, rfl, rfl⟩
  | tail hrest hstep ih => exact ih.trans (hstep.sameData (RunSteps.coupled hrest hc))

/-! ## Outputs -/

/-- Only COMPLETED NodeRuns have an output. -/
def OutputsFinal (db : RunRecord) : Prop :=
  ∀ n ∈ db.nodeRuns, n.output.isSome = true → n.status = .completed

theorem OutputsFinal.evolves {R : Rights} (h : OutputsFinal db) (hc : Coupled db)
    (hstep : Evolves R db db') : OutputsFinal db' := by
  intro n' hn' houtput
  have hfind := hstep.keyed.findNodeRun_eq_some_iff.mpr ⟨hn', rfl⟩
  obtain ⟨n, hn, hcell⟩ := hstep.cell_back hc.toKeyed hfind
  have hmem := (hc.findNodeRun_eq_some_iff.mp hn).1
  rcases hcell.output with hsame | ⟨hcompleted, -⟩
  · have hstatus := h n hmem (by rwa [← hsame])
    have hkept := hcell.frozen (hc.coupling _ n hn) (by rw [hstatus]; rfl)
    rw [hkept.1, hstatus]
  · exact hcompleted

theorem createRun_outputsFinal {now : Time} {id : String} {graph : ParsedGraph}
    {executionSnapshot input : Dict}
    (h : createRun env now id graph executionSnapshot input = .ok db) : OutputsFinal db := by
  obtain ⟨-, -, -, hnodes⟩ := createRun_ok h
  intro n hn houtput
  rw [hnodes] at hn
  obtain ⟨node, -, rfl⟩ := List.mem_map.mp hn
  unfold createNodeRun at houtput ⊢
  dsimp only at houtput ⊢
  split at houtput
  · next hinput => rw [if_pos hinput]
  · cases houtput

theorem RunSteps.outputsFinal (h : RunSteps env db db') (hc : Coupled db)
    (hfinal : OutputsFinal db) : OutputsFinal db' := by
  refine (h.steps hc).invariant (fun db db' hc hfinal hstep ↦ ?_) hc hfinal
  cases hstep with
  | cells hstep => exact hfinal.evolves hc hstep
  | run hstep =>
      intro n hn
      rw [hstep.nodeRuns] at hn
      exact hfinal n hn

/-- The outputs that a resolver reads are those of the NodeRuns under their ids. -/
theorem lookup_outputs {rows : List NodeRun} (hnodup : (rows.map NodeRun.nodeId).Nodup)
    (id : NodeId) :
    (rows.filterMap fun n ↦ n.output.map fun output ↦ (n.nodeId, Json.obj output)).lookup id =
      (findNodeRun rows id).bind fun n ↦ n.output.map Json.obj := by
  induction rows with
  | nil => rfl
  | cons n rows ih =>
      rw [List.map_cons, List.nodup_cons] at hnodup
      have hrest := ih hnodup.2
      by_cases hid : n.nodeId = id
      · have hfind : findNodeRun (n :: rows) id = some n := by simp [findNodeRun, Table.find?, hid]
        have hnone : findNodeRun rows id = none :=
          Table.find?_eq_none_iff.mpr fun m hm heq ↦
            hnodup.1 (List.mem_map.mpr ⟨m, hm, heq.trans hid.symm⟩)
        rw [hfind, Option.bind_some]
        cases houtput : n.output with
        | none =>
            rw [List.filterMap_cons_none (by rw [houtput]; rfl), hrest, hnone]
            rfl
        | some output =>
            rw [List.filterMap_cons_some (by rw [houtput]; rfl), hid]
            simp
      · have hfind : findNodeRun (n :: rows) id = findNodeRun rows id := by
          simp [findNodeRun, Table.find?, hid]
        rw [hfind, ← hrest]
        cases houtput : n.output with
        | none => rw [List.filterMap_cons_none (by rw [houtput]; rfl)]
        | some output =>
            have hne : (id == n.nodeId) = false := by simpa using Ne.symm hid
            rw [List.filterMap_cons_some (by rw [houtput]; rfl), List.lookup_cons, hne]

/-- An output that is there stays. -/
theorem RunSteps.output_kept (h : RunSteps env db db') (hc : Coupled db)
    (hfinal : OutputsFinal db) {id : NodeId} {output : Json}
    (houtput : (contextResolver env db).nodeOutputs.lookup id = some output) :
    (contextResolver env db').nodeOutputs.lookup id = some output := by
  rw [contextResolver, lookup_outputs hc.nodeIds_nodup] at houtput
  rw [contextResolver, lookup_outputs (h.coupled hc).nodeIds_nodup]
  obtain ⟨n, hn, houtput⟩ := Option.bind_eq_some_iff.mp houtput
  obtain ⟨fields, hfields, rfl⟩ := Option.map_eq_some_iff.mp houtput
  have hmem := (hc.findNodeRun_eq_some_iff.mp hn).1
  have hcompleted := hfinal n hmem (by rw [hfields]; rfl)
  obtain ⟨n', hn', -, hkept⟩ := (h.steps hc).frozen hc hn (by rw [hcompleted]; rfl)
  rw [hn', Option.bind_some, hkept, hfields, Option.map_some]

/-! ## References -/

/-- The only part of the context that a run changes. -/
def ContextReference.readsStatus (r : ContextReference) : Bool :=
  r.scope = "run" ∧ (r.path = [] ∨ r.path.head? = some "status")

theorem navigate_run {run run' : WorkflowRun} (hdata : SameData run run') (status status' : Json)
    {path : List String} (hempty : path ≠ []) (hstatus : path.head? ≠ some "status") :
    ContextResolver.navigate r (.obj [("id", .str run'.id), ("status", status'),
        ("created_at", .str (env.isoformat run'.createdAt))]) path =
      ContextResolver.navigate r (.obj [("id", .str run.id), ("status", status),
        ("created_at", .str (env.isoformat run.createdAt))]) path := by
  obtain ⟨part, path, rfl⟩ := List.exists_cons_of_ne_nil hempty
  have hpart : (part == "status") = false := by simpa using hstatus
  rw [hdata.id, hdata.createdAt]
  simp only [ContextResolver.navigate, Json.get?, List.lookup_cons, hpart]

/-- A reference that resolves keeps its value. -/
theorem resolveReference_stable (h : RunSteps env db db') (hc : Coupled db)
    (hfinal : OutputsFinal db) (hreads : r.readsStatus = false) {value : Json}
    (hvalue : (contextResolver env db).resolveReference r = .ok value) :
    (contextResolver env db').resolveReference r = .ok value := by
  have hdata := h.sameData hc
  unfold ContextResolver.resolveReference at hvalue ⊢
  have hinput : (contextResolver env db').workflowInput = (contextResolver env db).workflowInput :=
    hdata.input
  have hvariables : (contextResolver env db').workflowVariables =
      (contextResolver env db).workflowVariables := hdata.workflowVariables
  rw [hinput, hvariables]
  split
  · next hscope => rwa [if_pos hscope] at hvalue
  · next hscope =>
    rw [if_neg hscope] at hvalue
    split
    · next hscope => rwa [if_pos hscope] at hvalue
    · next hscope =>
      rw [if_neg hscope] at hvalue
      split
      · next hrun =>
        rw [if_pos hrun] at hvalue
        have hreads : ¬(r.path = [] ∨ r.path.head? = some "status") := by
          simpa [ContextReference.readsStatus, hrun] using hreads
        obtain ⟨hempty, hstatus⟩ := not_or.mp hreads
        exact (navigate_run hdata _ _ hempty hstatus).trans hvalue
      · next hrun =>
        rw [if_neg hrun] at hvalue
        cases hnode : r.nodeId with
        | none =>
            rw [hnode] at hvalue
            cases hvalue
        | some id =>
            rw [hnode] at hvalue
            dsimp only at hvalue ⊢
            cases houtput : (contextResolver env db).nodeOutputs.lookup id with
            | none =>
                rw [houtput] at hvalue
                cases hvalue
            | some output =>
                rw [houtput] at hvalue
                rw [h.output_kept hc hfinal houtput]
                exact hvalue

theorem resolveFields_stable (h : RunSteps env db db') (hc : Coupled db)
    (hfinal : OutputsFinal db) {fields values : Dict}
    (hreads : ∀ r ∈ fieldReferences fields, r.readsStatus = false)
    (hvalues : (contextResolver env db).resolveFields fields = .ok values) :
    (contextResolver env db').resolveFields fields = .ok values := by
  have hstr : (contextResolver env db').pyStr = (contextResolver env db).pyStr := rfl
  rw [← hvalues]
  refine ContextResolver.resolveFields_congr hstr fields fun r hr ↦ ?_
  obtain ⟨v, hv⟩ := ContextResolver.resolveReference_of_resolveFields fields hvalues r hr
  rw [hv]
  exact resolveReference_stable h hc hfinal (hreads r hr) hv

/-! ## Workers -/

/-- The rows under any number of Workers are those of a run. -/
theorem WorkerWorld.ReachableBy.runSteps {env : WorkerEnv}
    {allowed : WorkerWorld → WorkerStep → Prop} {s : WorkerWorld}
    (h : WorkerWorld.ReachableBy env allowed s) :
    ∃ db, Coupled db ∧ OutputsFinal db ∧ RunSteps env.toEnv db s.db := by
  induction h with
  | created hcreate =>
      exact ⟨_, createRun_coupled hcreate, createRun_outputsFinal hcreate, .refl⟩
  | step step _ _ ih =>
      obtain ⟨db, hc, hfinal, hsteps⟩ := ih
      refine ⟨db, hc, hfinal, ?_⟩
      rcases step.exec_db env _ with hsame | ⟨op, returned, -, hexec⟩ | ⟨id, input, hinput⟩
      · rwa [hsame]
      · exact hsteps.tail (.op hexec)
      · rw [hinput]
        exact hsteps.tail (.input id input)

/-- Run steps one after the other. -/
theorem WorkerStep.execAll_runSteps {env : WorkerEnv} (steps : List WorkerStep) (s : WorkerWorld) :
    RunSteps env.toEnv s.db (execAll env steps s).db := by
  induction steps generalizing s with
  | nil => exact .refl
  | cons step steps ih =>
      have hrest := ih (step.exec env s)
      rcases step.exec_db env s with hsame | ⟨op, returned, -, hexec⟩ | ⟨id, input, hinput⟩
      · rwa [hsame] at hrest
      · exact .head (.op hexec) hrest
      · rw [hinput] at hrest
        exact .head (.input id input) hrest

/-- Every attempt of a node is executed on the same input and the same config: what a Worker
loads for a node at some time, any Worker loads for it at every later time, whatever happens to
the run in between, unless the node reads the status of the run. -/
theorem attempts_load_the_same {env : WorkerEnv} {allowed : WorkerWorld → WorkerStep → Prop}
    {s : WorkerWorld} (h : WorkerWorld.ReachableBy env allowed s) (steps : List WorkerStep)
    {p p' : WorkerProcess} (hnode : Dict.get? p'.payload "node_id" = Dict.get? p.payload "node_id")
    {node : WorkflowNode} {input config : Dict}
    (hload : p.load env.toEnv s.db = .loaded node input (.ok config))
    (hreads : ∀ r ∈ fieldReferences node.inputMapping ++ fieldReferences node.config,
      r.readsStatus = false) :
    p'.load env.toEnv (WorkerStep.execAll env steps s).db = .loaded node input (.ok config) := by
  obtain ⟨db, hc, hfinal, hbefore⟩ := h.runSteps
  have hc' := hbefore.coupled hc
  have hfinal' := hbefore.outputsFinal hc hfinal
  have hlater : RunSteps env.toEnv s.db (WorkerStep.execAll env steps s).db :=
    WorkerStep.execAll_runSteps steps s
  have hgraph := (hlater.sameData hc').graph
  unfold WorkerProcess.load at hload ⊢
  dsimp only at hload ⊢
  rw [hnode, hgraph]
  split at hload
  · split at hload
    · next values hvalues =>
      simp only [WorkerPhase.loaded.injEq] at hload
      obtain ⟨rfl, rfl, hconfig⟩ := hload
      obtain ⟨hmapping, hnodeConfig⟩ := List.forall_mem_append.mp hreads
      rw [resolveFields_stable hlater hc' hfinal' hmapping hvalues,
        resolveFields_stable hlater hc' hfinal' hnodeConfig hconfig]
    · cases hload
  · cases hload

/-! ## Two attempts -/

/-- A Service that is called with the topic of the workflow input. -/
def topicNode : WorkflowNode where
  id := "act"
  type := .service
  subtype := "http"
  name := "Service"
  inputMapping := [("topic", .str "{{workflow.input.topic}}")]

def topicGraph : ParsedGraph where
  nodes :=
    [{ id := "in", type := .data, subtype := "input", name := "Input" }, topicNode,
      { id := "out", type := .data, subtype := "output", name := "Output" }]
  edges :=
    [{ id := "e1", source := "in", target := "act" }, { id := "e2", source := "act", target := "out" }]
  nodeIds_nodup := by decide
  edges_closed := by decide

def topicRun : RunRecord where
  run := { id := "run", graph := topicGraph, input := [("topic", .str "tides")] }
  nodeRuns := topicGraph.nodes.map (createNodeRun [("topic", .str "tides")])

theorem createRun_topicRun :
    createRun plainEnv 0 "run" topicGraph [] [("topic", .str "tides")] = .ok topicRun :=
  rfl

/-- The first Worker crashes, and a second one takes the task after its lease. -/
def secondAttempt : List WorkerStep :=
  [.load 0, .crash 0, .run (.recoverExpired (seconds 61)), .claim 1 (seconds 61) "v" "u" 60 0,
    .start 1 (seconds 61)]

theorem attempts_load_the_same_topicRun : ∃ s p p',
    WorkerWorld.ReachableBy plainWorkerEnv (fun _ _ ↦ True) s ∧ s.processes 0 = some p ∧
      (WorkerStep.execAll plainWorkerEnv secondAttempt s).processes 1 = some p' ∧
        p'.load plainEnv (WorkerStep.execAll plainWorkerEnv secondAttempt s).db =
          .loaded topicNode [("topic", .str "tides")] (.ok []) := by
  have hcreated : WorkerWorld.ReachableBy plainWorkerEnv (fun _ _ ↦ True) { db := topicRun } :=
    .created createRun_topicRun
  have hstarted := hcreated.execAll
    [.run (.startRun 0), .run (.schedule 0), .claim 0 0 "w" "t" 60 0, .start 0 0]
    fun _ _ _ ↦ trivial
  exact ⟨_, _, _, hstarted, rfl, rfl,
    attempts_load_the_same hstarted secondAttempt rfl rfl (by decide)⟩

end Relayvia
