import Relayvia.Catalog.Integrity
import Relayvia.Stability

/-!
# The versions of a workflow

Versions are only ever appended, each one is a draft that Full Validation accepts, and those of
one workflow are numbered without a gap.  A run executes the version that its creation resolves.
-/

namespace Relayvia

variable {env : CatalogEnv} {db db' : Catalog} {id : String}

/-- One operation that commits. -/
def CatalogStep (env : CatalogEnv) (db db' : Catalog) : Prop :=
  ∃ op : CatalogOp, op.Fresh db ∧ op.exec env db = .ok db'

/-- The tables after any number of operations. -/
abbrev CatalogSteps (env : CatalogEnv) : Catalog → Catalog → Prop :=
  Relation.ReflTransGen (CatalogStep env)

theorem CatalogSteps.reachable (h : CatalogSteps env db db') (hdb : CatalogReachable env db) :
    CatalogReachable env db' := by
  induction h with
  | refl => exact hdb
  | tail _ hstep ih =>
      obtain ⟨op, hfresh, hop⟩ := hstep
      exact ih.step hfresh hop

/-- Full Validation accepts the graph in some state of the registry. -/
def Publishable (env : CatalogEnv) (g : WorkflowGraph) : Prop :=
  ∃ registry result, validateGraphWithContext env.toEnv registry g = .ok result ∧
    result.valid = true

def versionsOf (versions : List WorkflowVersionRow) (id : String) : List WorkflowVersionRow :=
  versions.filter (·.workflowId = id)

/-! ## One operation -/

/-- What an operation does to the workflows and their versions. -/
inductive VersionChange (env : CatalogEnv) (db : Catalog) :
    List WorkflowRow → List WorkflowVersionRow → Prop
  | edit (f : WorkflowRow → WorkflowRow) (hid : ∀ row, (f row).id = row.id)
      (hcurrent : ∀ row, (f row).currentVersion = row.currentVersion) :
      VersionChange env db (db.workflows.map f) db.versions
  | create {row : WorkflowRow} (hnew : row.id ∉ db.workflows.map WorkflowRow.id)
      (hcurrent : row.currentVersion = none) :
      VersionChange env db (db.workflows ++ [row]) db.versions
  | delete (id : String) (hunused : ∀ version ∈ db.versions, version.workflowId ≠ id) :
      VersionChange env db (db.workflows.filter (·.id ≠ id)) db.versions
  | publish {workflow : WorkflowRow} (hworkflow : workflow ∈ db.workflows)
      (hvalid : Publishable env workflow.draft.toWorkflowGraph) :
      VersionChange env db
        (Table.modify WorkflowRow.id workflow.id
          (fun row ↦
            { row with currentVersion := some (nextVersion db workflow), status := .active })
          db.workflows)
        (db.versions ++
          [{ workflowId := workflow.id, version := nextVersion db workflow
             graph := workflow.draft }])

theorem VersionChange.same (hworkflows : db'.workflows = db.workflows)
    (hversions : db'.versions = db.versions) :
    VersionChange env db db'.workflows db'.versions := by
  have h : VersionChange env db (db.workflows.map id) db.versions :=
    .edit id (fun _ ↦ rfl) fun _ ↦ rfl
  rw [hworkflows, hversions]
  rwa [List.map_id] at h

theorem createVersion_change (h : createVersion env db id = .ok db') :
    VersionChange env db db'.workflows db'.versions := by
  obtain ⟨workflow, hworkflow, h⟩ := Outcome.bind_eq_ok_iff.mp h
  have hworkflow : db.workflow? id = some workflow := required_eq_ok (liftM_eq_ok hworkflow)
  obtain ⟨_, -, h⟩ := Outcome.bind_eq_ok_iff.mp h
  obtain ⟨validation, hvalidation, h⟩ := Outcome.bind_eq_ok_iff.mp h
  dsimp only at h
  split at h
  · cases h
  · next hvalid =>
    cases h
    obtain rfl := Table.key_of_find? hworkflow
    exact .publish (Table.mem_of_find? hworkflow) ⟨_, _, hvalidation, not_not.mp hvalid⟩

theorem deleteWorkflow_change (h : deleteWorkflow db id = .ok db') :
    VersionChange env db db'.workflows db'.versions := by
  obtain ⟨workflow, hworkflow, h⟩ := Outcome.bind_eq_ok_iff.mp h
  split at h
  · cases h
    exact .edit _ (fun row ↦ by split <;> rfl) fun row ↦ by split <;> rfl
  · next hunused =>
    cases h
    refine .delete workflow.id fun version hversion heq ↦ hunused ?_
    exact List.any_eq_true.mpr ⟨version, hversion, by simpa using heq⟩

theorem CatalogOp.exec_change {op : CatalogOp} (hfresh : op.Fresh db)
    (h : op.exec env db = .ok db') : VersionChange env db db'.workflows db'.versions := by
  cases op with
  | createAgent around id payload =>
      obtain ⟨agent, -, h⟩ := Outcome.bind_eq_ok_iff.mp h
      cases h
      exact .same rfl rfl
  | updateAgent around id changes =>
      obtain ⟨agent, -, h⟩ := Outcome.bind_eq_ok_iff.mp h
      obtain ⟨agent', -, h⟩ := Outcome.bind_eq_ok_iff.mp h
      cases h
      exact .same rfl rfl
  | deleteAgent id =>
      obtain ⟨agent, -, h⟩ := Outcome.bind_eq_ok_iff.mp (liftM_eq_ok h)
      obtain ⟨_, -, h⟩ := Outcome.bind_eq_ok_iff.mp h
      cases h
      exact .same rfl rfl
  | createService around id payload =>
      obtain ⟨service, -, h⟩ := Outcome.bind_eq_ok_iff.mp h
      cases h
      exact .same rfl rfl
  | updateService around id changes =>
      obtain ⟨service, -, h⟩ := Outcome.bind_eq_ok_iff.mp h
      obtain ⟨service', -, h⟩ := Outcome.bind_eq_ok_iff.mp h
      cases h
      exact .same rfl rfl
  | deleteService id =>
      obtain ⟨service, -, h⟩ := Outcome.bind_eq_ok_iff.mp (liftM_eq_ok h)
      obtain ⟨_, -, h⟩ := Outcome.bind_eq_ok_iff.mp h
      cases h
      exact .same rfl rfl
  | createAction id serviceId payload =>
      obtain ⟨_, -, h⟩ := Outcome.bind_eq_ok_iff.mp h
      obtain ⟨action, -, h⟩ := Outcome.bind_eq_ok_iff.mp h
      cases h
      exact .same rfl rfl
  | updateAction serviceId id changes =>
      obtain ⟨action, -, h⟩ := Outcome.bind_eq_ok_iff.mp h
      obtain ⟨action', -, h⟩ := Outcome.bind_eq_ok_iff.mp h
      cases h
      exact .same rfl rfl
  | deleteAction serviceId id =>
      obtain ⟨action, -, h⟩ := Outcome.bind_eq_ok_iff.mp (liftM_eq_ok h)
      obtain ⟨_, -, h⟩ := Outcome.bind_eq_ok_iff.mp h
      cases h
      exact .same rfl rfl
  | createWorkflow id name graph =>
      obtain ⟨_, -, h⟩ := Outcome.bind_eq_ok_iff.mp (liftM_eq_ok h)
      obtain ⟨_, -, h⟩ := Outcome.bind_eq_ok_iff.mp h
      cases h
      exact .create hfresh rfl
  | updateWorkflow id name status =>
      obtain ⟨workflow, -, h⟩ := Outcome.bind_eq_ok_iff.mp (liftM_eq_ok h)
      obtain ⟨_, -, h⟩ := Outcome.bind_eq_ok_iff.mp h
      cases h
      exact .edit _ (fun row ↦ by split <;> rfl) fun row ↦ by split <;> rfl
  | deleteWorkflow id => exact deleteWorkflow_change (liftM_eq_ok h)
  | updateDraftGraph id graph =>
      obtain ⟨workflow, -, h⟩ := Outcome.bind_eq_ok_iff.mp (liftM_eq_ok h)
      obtain ⟨_, -, h⟩ := Outcome.bind_eq_ok_iff.mp h
      cases h
      exact .edit _ (fun row ↦ by split <;> rfl) fun row ↦ by split <;> rfl
  | createVersion id => exact createVersion_change h

/-! ## Numbers -/

/-- The versions of every workflow are numbered from one on, its current version is the last
one, and every version has its workflow. -/
structure Numbered (workflows : List WorkflowRow) (versions : List WorkflowVersionRow) : Prop where
  ids : (workflows.map WorkflowRow.id).Nodup
  owned : ∀ version ∈ versions, version.workflowId ∈ workflows.map WorkflowRow.id
  numbers : ∀ workflow ∈ workflows, (versionsOf versions workflow.id).map (·.version) =
    List.range' 1 (workflow.currentVersion.getD 0)
  current : ∀ workflow ∈ workflows, workflow.currentVersion ≠ some 0

theorem foldl_max_range (k : ℕ) : (List.range' 1 k).foldl max 0 = k := by
  induction k with
  | zero => rfl
  | succ k ih =>
      rw [List.range'_concat, List.foldl_append, ih, List.foldl_cons, List.foldl_nil]
      omega

namespace Numbered

variable {workflows : List WorkflowRow} {versions : List WorkflowVersionRow}

theorem edit (h : Numbered workflows versions) {f : WorkflowRow → WorkflowRow}
    (hid : ∀ row, (f row).id = row.id)
    (hcurrent : ∀ row, (f row).currentVersion = row.currentVersion) :
    Numbered (workflows.map f) versions where
  ids := by
    rw [Table.map_key_map hid]
    exact h.ids
  owned version hversion := by
    rw [Table.map_key_map hid]
    exact h.owned version hversion
  numbers workflow hworkflow := by
    obtain ⟨row, hrow, rfl⟩ := List.mem_map.mp hworkflow
    rw [hid, hcurrent]
    exact h.numbers row hrow
  current workflow hworkflow := by
    obtain ⟨row, hrow, rfl⟩ := List.mem_map.mp hworkflow
    rw [hcurrent]
    exact h.current row hrow

/-- No version has the id of a workflow that does not exist. -/
theorem versionsOf_new (h : Numbered workflows versions)
    (hnew : id ∉ workflows.map WorkflowRow.id) : versionsOf versions id = [] := by
  refine List.filter_eq_nil_iff.mpr fun version hversion heq ↦ hnew ?_
  rw [← of_decide_eq_true heq]
  exact h.owned version hversion

theorem create (h : Numbered workflows versions) {row : WorkflowRow}
    (hnew : row.id ∉ workflows.map WorkflowRow.id) (hcurrent : row.currentVersion = none) :
    Numbered (workflows ++ [row]) versions where
  ids := by
    rw [List.map_append, List.map_singleton, ← List.concat_eq_append]
    exact h.ids.concat hnew
  owned version hversion := by
    rw [List.map_append]
    exact List.mem_append_left _ (h.owned version hversion)
  numbers workflow hworkflow := by
    rcases List.mem_append.mp hworkflow with hold | hrow
    · exact h.numbers workflow hold
    · rw [List.mem_singleton.mp hrow, hcurrent, h.versionsOf_new hnew]
      rfl
  current workflow hworkflow := by
    rcases List.mem_append.mp hworkflow with hold | hrow
    · exact h.current workflow hold
    · rw [List.mem_singleton.mp hrow, hcurrent]
      simp

theorem delete (h : Numbered workflows versions)
    (hunused : ∀ version ∈ versions, version.workflowId ≠ id) :
    Numbered (workflows.filter (·.id ≠ id)) versions where
  ids := h.ids.sublist (List.filter_sublist.map _)
  owned version hversion := by
    obtain ⟨workflow, hworkflow, hid⟩ := List.mem_map.mp (h.owned version hversion)
    refine List.mem_map.mpr ⟨workflow, List.mem_filter.mpr ⟨hworkflow, ?_⟩, hid⟩
    rw [hid]
    simpa using hunused version hversion
  numbers workflow hworkflow := h.numbers workflow (List.mem_of_mem_filter hworkflow)
  current workflow hworkflow := h.current workflow (List.mem_of_mem_filter hworkflow)

theorem nextVersion_eq (h : Numbered db.workflows db.versions) {workflow : WorkflowRow}
    (hworkflow : workflow ∈ db.workflows) :
    nextVersion db workflow = workflow.currentVersion.getD 0 + 1 := by
  have hnumbers := h.numbers workflow hworkflow
  rw [versionsOf] at hnumbers
  rw [nextVersion, hnumbers, foldl_max_range, max_self]

theorem publish (h : Numbered workflows versions) {workflow : WorkflowRow}
    (hworkflow : workflow ∈ workflows) (graph : ContractGraph) {next : ℕ}
    (hnext : next = workflow.currentVersion.getD 0 + 1) :
    Numbered
      (Table.modify WorkflowRow.id workflow.id
        (fun row ↦ { row with currentVersion := some next, status := .active }) workflows)
      (versions ++ [{ workflowId := workflow.id, version := next, graph := graph }]) where
  ids := by
    rw [Table.map_key_modify (fun _ ↦ by rfl)]
    exact h.ids
  owned version hversion := by
    rw [Table.map_key_modify (fun _ ↦ by rfl)]
    rcases List.mem_append.mp hversion with hold | hnew
    · exact h.owned version hold
    · rw [List.mem_singleton.mp hnew]
      exact List.mem_map_of_mem hworkflow
  numbers row hrow := by
    rw [versionsOf, List.filter_append, List.map_append]
    rcases Table.mem_modify.mp hrow with ⟨old, hold, hid, rfl⟩ | ⟨hold, hid⟩
    · have hnumbers := h.numbers workflow hworkflow
      rw [versionsOf] at hnumbers
      dsimp only
      rw [hid, hnumbers, hnext, Option.getD_some, List.range'_concat]
      simp [Nat.add_comm]
    · have hother := h.numbers row hold
      rw [versionsOf] at hother
      rw [hother]
      simp [Ne.symm hid]
  current row hrow := by
    rcases Table.mem_modify.mp hrow with ⟨old, -, -, rfl⟩ | ⟨hold, -⟩
    · rw [hnext]
      simp
    · exact h.current row hold

end Numbered

theorem VersionChange.numbered {workflows : List WorkflowRow}
    {versions : List WorkflowVersionRow} (h : VersionChange env db workflows versions)
    (hdb : Numbered db.workflows db.versions) : Numbered workflows versions := by
  cases h with
  | edit f hid hcurrent => exact hdb.edit hid hcurrent
  | create hnew hcurrent => exact hdb.create hnew hcurrent
  | delete id hunused => exact hdb.delete hunused
  | publish hworkflow _ => exact hdb.publish hworkflow _ (hdb.nextVersion_eq hworkflow)

theorem CatalogReachable.numbered (h : CatalogReachable env db) :
    Numbered db.workflows db.versions := by
  induction h with
  | empty => exact ⟨List.nodup_nil, by simp, by simp, by simp⟩
  | step _ hfresh h ih => exact (CatalogOp.exec_change hfresh h).numbered ih

/-! ## The history -/

theorem VersionChange.kept {workflows : List WorkflowRow} {versions : List WorkflowVersionRow}
    (h : VersionChange env db workflows versions) : db.versions <+: versions := by
  cases h with
  | edit | create | delete => exact List.prefix_rfl
  | publish => exact List.prefix_append _ _

theorem VersionChange.publishable {workflows : List WorkflowRow}
    {versions : List WorkflowVersionRow} (h : VersionChange env db workflows versions)
    (hdb : ∀ version ∈ db.versions, Publishable env version.graph.toWorkflowGraph) :
    ∀ version ∈ versions, Publishable env version.graph.toWorkflowGraph := by
  cases h with
  | edit | create | delete => exact hdb
  | publish _ hvalid =>
      intro version hversion
      rcases List.mem_append.mp hversion with hold | hnew
      · exact hdb version hold
      · rw [List.mem_singleton.mp hnew]
        exact hvalid

theorem CatalogReachable.publishable (h : CatalogReachable env db) :
    ∀ version ∈ db.versions, Publishable env version.graph.toWorkflowGraph := by
  induction h with
  | empty => simp
  | step _ hfresh h ih => exact (CatalogOp.exec_change hfresh h).publishable ih

theorem CatalogSteps.kept (h : CatalogSteps env db db') : db.versions <+: db'.versions := by
  induction h with
  | refl => exact List.prefix_rfl
  | tail _ hstep ih =>
      obtain ⟨op, hfresh, hop⟩ := hstep
      exact ih.trans (CatalogOp.exec_change hfresh hop).kept

/-- Versions are immutable: whatever the API does, the versions of a reachable catalog stay what
they are at their place in the history and keep their workflow, those of a workflow are numbered
1, 2, .. up to its current version, and each one is a draft that Full Validation accepts. -/
theorem versions_are_immutable (h : CatalogReachable env db) (hsteps : CatalogSteps env db db') :
    db.versions <+: db'.versions ∧
      (∀ version ∈ db.versions, ∃ workflow ∈ db'.workflows, workflow.id = version.workflowId) ∧
      (∀ workflow ∈ db'.workflows, (versionsOf db'.versions workflow.id).map (·.version) =
        List.range' 1 (workflow.currentVersion.getD 0)) ∧
      ∀ version ∈ db'.versions, Publishable env version.graph.toWorkflowGraph := by
  have hlater := hsteps.reachable h
  have hkept := CatalogSteps.kept hsteps
  refine ⟨hkept, fun version hversion ↦ ?_, hlater.numbered.numbers, hlater.publishable⟩
  exact List.mem_map.mp (hlater.numbered.owned version (hkept.subset hversion))

/-! ## Runs of a version -/

/-- `WorkflowRunCreate`. -/
structure WorkflowRunCreate where
  workflowVersionId : Option String := none
  version : Option ℤ := none
  input : Dict := []

def versionNotFound : RelayviaError :=
  notFound "WORKFLOW_VERSION_NOT_FOUND" "Workflow Version not found"

/-- `_resolve_version`; `versionId` is the primary key of a version. -/
def resolveVersion (versionId : WorkflowVersionRow → String) (db : Catalog)
    (workflow : WorkflowRow) (payload : WorkflowRunCreate) :
    Except RelayviaError WorkflowVersionRow :=
  let numbered (number : ℤ) : Except RelayviaError WorkflowVersionRow :=
    match db.versions.find? fun row ↦
        row.workflowId = workflow.id ∧ (row.version : ℤ) = number with
    | some version => return version
    | none => throw versionNotFound
  match payload.workflowVersionId.filter (· ≠ "") with
  | some key =>
      match db.versions.find? (versionId · = key) with
      | some version =>
          if version.workflowId ≠ workflow.id then throw versionNotFound else return version
      | none => throw versionNotFound
  | none =>
      match payload.version with
      | some number => numbered number
      | none =>
          match workflow.currentVersion.filter (· ≠ 0) with
          | some number => numbered number
          | none =>
              throw
                { code := "WORKFLOW_HAS_NO_VERSION"
                  message := "Workflow has no Version yet; create a Version before running"
                  statusCode := 409 }

/-- The registry tables that `create_run` reads beside the Runners. -/
def Catalog.runRegistry (db : Catalog) (runners : List RunnerRow)
    (runnerIds : ∀ runner ∈ runners, Python.isUuid runner.id = true) : RunRegistry where
  agents := db.agents.map fun agent ↦ agent.toAgentRecord
  services := db.services.map fun service ↦ service.toServiceRecord
  actions := db.actions.map fun action ↦ action.toServiceActionRecord
  runners := runners
  runnerIds := runnerIds

/-- `create_run`. -/
def createVersionRun (env : CatalogEnv) (versionId : WorkflowVersionRow → String) (now : Time)
    (offlineAfterSeconds : ℕ) (runId : String) (runners : List RunnerRow)
    (runnerIds : ∀ runner ∈ runners, Python.isUuid runner.id = true) (db : Catalog)
    (workflowId : String) (payload : WorkflowRunCreate) : Except Raised RunRecord := do
  let workflow ← required "WORKFLOW_NOT_FOUND" "Workflow not found" (db.workflow? workflowId)
  let version ← resolveVersion versionId db workflow payload
  createCheckedRun env.toEnv now offlineAfterSeconds runId (db.runRegistry runners runnerIds)
    version.graph.toParsedGraph payload.input

variable {versionId : WorkflowVersionRow → String} {workflow : WorkflowRow}
  {version : WorkflowVersionRow} {payload : WorkflowRunCreate}

/-- The version that a request names, or the current one. -/
structure Resolves (versionId : WorkflowVersionRow → String) (workflow : WorkflowRow)
    (payload : WorkflowRunCreate) (version : WorkflowVersionRow) : Prop where
  owner : version.workflowId = workflow.id
  named : ∀ key, payload.workflowVersionId.filter (· ≠ "") = some key → versionId version = key
  numbered : payload.workflowVersionId.filter (· ≠ "") = none →
    ∀ number, payload.version = some number → (version.version : ℤ) = number
  latest : payload.workflowVersionId.filter (· ≠ "") = none → payload.version = none →
    workflow.currentVersion = some version.version

theorem resolveVersion_ok (h : resolveVersion versionId db workflow payload = .ok version) :
    version ∈ db.versions ∧ Resolves versionId workflow payload version := by
  have hnumbered {number : ℤ} (h : (match db.versions.find? fun row ↦
      row.workflowId = workflow.id ∧ (row.version : ℤ) = number with
        | some version => return version
        | none => throw versionNotFound : Except RelayviaError WorkflowVersionRow) = .ok version) :
      version ∈ db.versions ∧ version.workflowId = workflow.id ∧
        (version.version : ℤ) = number := by
    split at h
    · next row hrow =>
      cases h
      exact ⟨List.mem_of_find?_eq_some hrow, by simpa using List.find?_some hrow⟩
    · cases h
  unfold resolveVersion at h
  dsimp only at h
  split at h
  · next key hkey =>
    split at h
    · next row hrow =>
      split at h
      · cases h
      · next howner =>
        cases h
        refine ⟨List.mem_of_find?_eq_some hrow, not_not.mp howner, fun key' hkey' ↦ ?_, ?_, ?_⟩
        · cases hkey.symm.trans hkey'
          simpa using List.find?_some hrow
        · exact fun hnone ↦ by rw [hkey] at hnone; cases hnone
        · exact fun hnone ↦ by rw [hkey] at hnone; cases hnone
    · cases h
  · next hnone =>
    split at h
    · next number hnumber =>
      obtain ⟨hmem, howner, heq⟩ := hnumbered h
      refine ⟨hmem, howner, fun key hkey ↦ ?_, fun _ number' hnumber' ↦ ?_, fun _ hversion ↦ ?_⟩
      · rw [hnone] at hkey
        cases hkey
      · cases hnumber.symm.trans hnumber'
        exact heq
      · rw [hnumber] at hversion
        cases hversion
    · next hversion =>
      split at h
      · next number hnumber =>
        obtain ⟨hmem, howner, heq⟩ := hnumbered h
        refine ⟨hmem, howner, fun key hkey ↦ ?_, fun _ number' hnumber' ↦ ?_, fun _ _ ↦ ?_⟩
        · rw [hnone] at hkey
          cases hkey
        · rw [hversion] at hnumber'
          cases hnumber'
        · rw [(Option.filter_eq_some_iff.mp hnumber).1, Int.ofNat_inj.mp heq]
      · cases h

/-- A run executes one immutable version: the one that the request names, else the newest one.
Whatever happens to the registry, to the workflow and to the run later, that version and its
workflow exist, the run keeps its graph, and the run keeps the registry data that it was created
with. -/
theorem run_keeps_its_version {now : Time} {offlineAfterSeconds : ℕ} {runId workflowId : String}
    {runners : List RunnerRow} {runnerIds : ∀ runner ∈ runners, Python.isUuid runner.id = true}
    {created record : RunRecord} (h : CatalogReachable env db)
    (hcreate : createVersionRun env versionId now offlineAfterSeconds runId runners runnerIds db
      workflowId payload = .ok created)
    (hcatalog : CatalogSteps env db db') (hrun : RunSteps env.toEnv created record) :
    ∃ workflow ∈ db.workflows, workflow.id = workflowId ∧
      ∃ version ∈ db'.versions, Resolves versionId workflow payload version ∧
        record.run.graph = version.graph.toParsedGraph ∧
        record.run.executionSnapshot = created.run.executionSnapshot ∧
        (∃ workflow' ∈ db'.workflows, workflow'.id = workflowId) ∧
        ∀ other ∈ db'.versions, other.workflowId = workflowId →
          other.version = version.version → other = version := by
  obtain ⟨workflow, hworkflow, hcreate⟩ := Outcome.bind_eq_ok_iff.mp hcreate
  have hworkflow : db.workflow? workflowId = some workflow := required_eq_ok (liftM_eq_ok hworkflow)
  obtain ⟨version, hversion, hcreate⟩ := Outcome.bind_eq_ok_iff.mp hcreate
  obtain ⟨hmem, hresolves⟩ := resolveVersion_ok (liftM_eq_ok hversion)
  obtain ⟨loaded, hgraph, -, -, hcreated⟩ := createCheckedRun_ok hcreate
  have hdata := hrun.sameData (createRun_coupled hcreated)
  have hid : workflow.id = workflowId := Table.key_of_find? hworkflow
  have hlater := (hcatalog.reachable h).numbered
  have hmem' : version ∈ db'.versions := (CatalogSteps.kept hcatalog).subset hmem
  have howner : version.workflowId = workflowId := hresolves.owner.trans hid
  refine ⟨workflow, Table.mem_of_find? hworkflow, hid, version, hmem', hresolves, ?_, ?_, ?_, ?_⟩
  · rw [hdata.graph, hgraph]
  · exact hdata.executionSnapshot
  · rw [← howner]
    exact List.mem_map.mp (hlater.owned version hmem')
  · intro other hother howner' hnumber
    obtain ⟨workflow', hworkflow', hid'⟩ := List.mem_map.mp (hlater.owned version hmem')
    have hnodup : ((versionsOf db'.versions workflow'.id).map (·.version)).Nodup := by
      rw [hlater.numbers workflow' hworkflow']
      exact List.nodup_range'
    refine List.inj_on_of_nodup_map hnodup (List.mem_filter.mpr ⟨hother, ?_⟩)
      (List.mem_filter.mpr ⟨hmem', ?_⟩) hnumber
    · simp [hid', howner, howner']
    · simp [hid']

/-! ## Two versions -/

/-- Data Input and Data Output. -/
def copyGraph : ContractGraph where
  nodes :=
    [{ id := "in", type := .data, subtype := "input", name := "Input"
       config := [("schema", .obj [("type", .str "object")])] },
      { id := "out", type := .data, subtype := "output", name := "Output"
        config := [("output_mapping", .obj [])] }]
  edges := [{ id := "e", source := "in", target := "out" }]
  nodeIds_nodup := by decide
  edges_closed := by decide
  configs := by
    intro node hnode
    simp only [List.mem_cons, List.not_mem_nil, or_false] at hnode
    constructor <;> intro htype <;> obtain rfl | rfl := hnode <;> cases htype

def copyRow : WorkflowRow where
  id := "workflow"
  name := "copy"
  draft := copyGraph

/-- The workflow with one version of that graph. -/
def copyCatalog : Catalog where
  workflows := [{ copyRow with currentVersion := some 1, status := .active }]
  versions := [{ workflowId := "workflow", version := 1, graph := copyGraph }]

theorem accepted_copyGraph : ∃ result,
    validateGraphWithContext plainEnv {} copyGraph.toWorkflowGraph = .ok result ∧
      result.valid = true := by
  obtain ⟨result, hresult, hvalid⟩ : Accepted plainEnv {} copyGraph.toWorkflowGraph :=
    accepted_of_silent (by decide) (by decide) (by rfl) rfl rfl rfl rfl
  exact ⟨result, hresult, hvalid⟩

/-- The draft of a workflow becomes its next version. -/
theorem createVersion_copyGraph (db : Catalog) (row : WorkflowRow)
    (hrow : db.workflow? "workflow" = some row) (hdraft : row.draft = copyGraph)
    (hregistry : db.registry = {}) :
    createVersion plainCatalogEnv db "workflow" = .ok
      { db with
        workflows := Table.modify WorkflowRow.id "workflow"
          (fun workflow ↦
            { workflow with currentVersion := some (nextVersion db row), status := .active })
          db.workflows
        versions := db.versions ++
          [{ workflowId := row.id, version := nextVersion db row, graph := row.draft }] } := by
  obtain ⟨result, hresult, hvalid⟩ := accepted_copyGraph
  refine Outcome.bind_eq_ok_iff.mpr ⟨row, by rw [hrow]; rfl, ?_⟩
  rw [hdraft, hregistry]
  refine Outcome.bind_eq_ok_iff.mpr ⟨[], rfl, ?_⟩
  refine Outcome.bind_eq_ok_iff.mpr ⟨result, hresult, ?_⟩
  exact if_neg (not_not.mpr hvalid)

theorem copyCatalog_reachable : CatalogReachable plainCatalogEnv copyCatalog := by
  have hcreate : (CatalogOp.createWorkflow "workflow" "copy" (some copyGraph)).exec
      plainCatalogEnv {} = .ok { workflows := [copyRow] } := rfl
  have hversion : (CatalogOp.createVersion "workflow").exec plainCatalogEnv
      { workflows := [copyRow] } = .ok copyCatalog :=
    createVersion_copyGraph { workflows := [copyRow] } copyRow rfl rfl rfl
  exact (CatalogReachable.empty.step (by simp [CatalogOp.Fresh]) hcreate).step (by trivial) hversion

/-- A second version of the draft. -/
theorem copyCatalog_steps : ∃ db, CatalogSteps plainCatalogEnv copyCatalog db ∧
    db.versions = copyCatalog.versions ++
      [{ workflowId := "workflow", version := 2, graph := copyGraph }] :=
  ⟨_, .single ⟨.createVersion "workflow", trivial,
    createVersion_copyGraph copyCatalog _ rfl rfl rfl⟩, rfl⟩

theorem versions_are_immutable_copyCatalog : ∃ db, CatalogSteps plainCatalogEnv copyCatalog db ∧
    copyCatalog.versions ≠ db.versions ∧ copyCatalog.versions <+: db.versions := by
  obtain ⟨db, hsteps, hversions⟩ := copyCatalog_steps
  refine ⟨db, hsteps, ?_, (versions_are_immutable copyCatalog_reachable hsteps).1⟩
  rw [hversions]
  simp

/-- A run of the current version that is started while a second version is made. -/
theorem run_keeps_its_version_copyCatalog : ∃ created record db,
    createVersionRun plainCatalogEnv (fun row ↦ row.workflowId) 0 60 "run" [] (by simp) copyCatalog
        "workflow" {} = .ok created ∧
      RunOp.exec plainEnv (.startRun 0) created = .ok (true, record) ∧
      CatalogSteps plainCatalogEnv copyCatalog db ∧ db.versions ≠ copyCatalog.versions ∧
      ∃ version ∈ db.versions, version.version = 1 ∧
        record.run.graph = version.graph.toParsedGraph := by
  obtain ⟨db, hsteps, hversions⟩ := copyCatalog_steps
  obtain ⟨created, hcreated, record, hstart⟩ : ∃ created,
      createVersionRun plainCatalogEnv (fun row ↦ row.workflowId) 0 60 "run" [] (by simp)
        copyCatalog "workflow" {} = .ok created ∧
        ∃ record, RunOp.exec plainEnv (.startRun 0) created = .ok (true, record) :=
    ⟨_, rfl, _, rfl⟩
  obtain ⟨workflow, hworkflow, -, version, hversion, hresolves, hgraph, -⟩ :=
    run_keeps_its_version copyCatalog_reachable hcreated hsteps (.single (.op hstart))
  rw [List.mem_singleton.mp hworkflow] at hresolves
  refine ⟨created, record, db, hcreated, hstart, hsteps, ?_, version, hversion, ?_, hgraph⟩
  · rw [hversions]
    simp
  · exact (Option.some.inj (hresolves.latest rfl rfl)).symm

end Relayvia
