import Relayvia.Catalog.Workflows

/-!
# Referential integrity of the catalog

What the nodes of the stored graphs use exists.  A stored graph is checked when it is written,
and a row that a stored graph uses is not deleted.
-/

namespace Relayvia

variable {env : CatalogEnv} {db db' : Catalog} {node : WorkflowNode} {id : String}

/-! ## What a node uses -/

/-- The rows that a node uses exist, and its action belongs to its Service. -/
def Catalog.Provides (db : Catalog) (node : WorkflowNode) : Prop :=
  match node.type with
  | .agent => ∃ agent ∈ db.agents, node.configValue "agent_id" = .str agent.id
  | .service =>
      ∃ service ∈ db.services, ∃ action ∈ db.actions,
        node.configValue "service_id" = .str service.id ∧
          node.configValue "service_action_id" = .str action.id ∧ action.serviceId = service.id
  | _ => True

/-- Every stored graph uses only what exists, and the ids of the actions are a key. -/
structure Catalog.Consistent (db : Catalog) : Prop where
  actionIds : (db.actions.map (·.id)).Nodup
  provides : ∀ g ∈ db.storedGraphs, ∀ node ∈ g.nodes, db.Provides node

/-- No row goes away and no action changes its Service. -/
structure KeepsRows (db db' : Catalog) : Prop where
  agents : ∀ agent ∈ db.agents, ∃ agent' ∈ db'.agents, agent'.id = agent.id
  services : ∀ service ∈ db.services, ∃ service' ∈ db'.services, service'.id = service.id
  actions : ∀ action ∈ db.actions,
    ∃ action' ∈ db'.actions, action'.id = action.id ∧ action'.serviceId = action.serviceId

theorem KeepsRows.of_eq (hagents : db'.agents = db.agents) (hservices : db'.services = db.services)
    (hactions : db'.actions = db.actions) : KeepsRows db db' where
  agents agent h := ⟨agent, hagents ▸ h, rfl⟩
  services service h := ⟨service, hservices ▸ h, rfl⟩
  actions action h := ⟨action, hactions ▸ h, rfl, rfl⟩

theorem Catalog.Provides.keep (h : db.Provides node) (hkeeps : KeepsRows db db') :
    db'.Provides node := by
  unfold Provides at h ⊢
  cases htype : node.type with
  | agent =>
      simp only [htype] at h ⊢
      obtain ⟨agent, hagent, hid⟩ := h
      obtain ⟨agent', hagent', hkey⟩ := hkeeps.agents agent hagent
      exact ⟨agent', hagent', by rw [hkey, hid]⟩
  | service =>
      simp only [htype] at h ⊢
      obtain ⟨service, hservice, action, haction, hserviceId, hactionId, howner⟩ := h
      obtain ⟨service', hservice', hkey⟩ := hkeeps.services service hservice
      obtain ⟨action', haction', hactionKey, howner'⟩ := hkeeps.actions action haction
      refine ⟨service', hservice', action', haction', ?_, ?_, ?_⟩
      · rw [hkey, hserviceId]
      · rw [hactionKey, hactionId]
      · rw [howner', howner, hkey]
  | tool | logic | human | data => simp only

/-! ## The check of a graph -/

theorem getRow_eq_some {R : Type} {key : R → String} {rows : List R} {value : Json} {row : R}
    (h : getRow key rows value = some row) : row ∈ rows ∧ value = .str (key row) := by
  cases value with
  | str id => exact ⟨Table.mem_of_find? h, congrArg Json.str (Table.key_of_find? h).symm⟩
  | _ => cases h

theorem referenceWarnings_provides {warnings : List GraphWarning}
    (h : referenceWarnings db node = .ok warnings) : db.Provides node := by
  unfold referenceWarnings at h
  unfold Catalog.Provides
  cases htype : node.type with
  | agent =>
      simp only [htype, agentReferenceWarnings] at h ⊢
      split at h
      · cases h
      · next agent hagent =>
        obtain ⟨hmem, hid⟩ := getRow_eq_some hagent
        exact ⟨agent, hmem, hid⟩
  | service =>
      simp only [htype, serviceReferenceWarnings] at h ⊢
      split at h
      · cases h
      · next service hservice =>
        split at h
        · cases h
        · next action haction =>
          split at h
          · cases h
          · next howner =>
            obtain ⟨hmem, hserviceId⟩ := getRow_eq_some hservice
            obtain ⟨hmem', hactionId⟩ := getRow_eq_some haction
            have howner : Json.str service.id = .str action.serviceId := by
              rw [← hserviceId]
              exact not_not.mp howner
            exact ⟨service, hmem, action, hmem', hserviceId, hactionId,
              (Json.str.inj howner).symm⟩
  | tool | logic | human | data => simp only

/-- A graph that passes the check uses only what exists. -/
theorem validateRegistryReferences_provides {g : WorkflowGraph} {warnings : List GraphWarning}
    (h : validateRegistryReferences db g = .ok warnings) : ∀ node ∈ g.nodes, db.Provides node := by
  obtain ⟨results, hresults, -⟩ := Outcome.bind_eq_ok_iff.mp h
  intro node hnode
  obtain ⟨warnings, -, hwarnings⟩ := Outcome.exists_of_mapM hresults hnode
  exact referenceWarnings_provides hwarnings

/-! ## The scan -/

theorem storedNodes_graphJson (g : WorkflowGraph) :
    (storedNodes (graphJson g)).map Json.obj = g.nodes.map nodeJson := by
  change (List.filterMap _ (g.nodes.map nodeJson)).map Json.obj = _
  induction g.nodes with
  | nil => rfl
  | cons node nodes ih => exact congrArg (nodeJson node :: ·) ih

/-- The scan finds the graph exactly when a node of the type has the id under its key. -/
theorem referenced_iff {resourceType : ResourceType} {g : WorkflowGraph} :
    (storedNodes (graphJson g)).any (nodeReferences · resourceType id) = true ↔
      ∃ node ∈ g.nodes, node.type.value = resourceType.usage.1 ∧
        Dict.get? node.config resourceType.usage.2 = some (.str id) := by
  have hread (fields : Dict) (node : WorkflowNode) (h : Json.obj fields = nodeJson node) :
      nodeReferences fields resourceType id = true ↔ node.type.value = resourceType.usage.1 ∧
        Dict.get? node.config resourceType.usage.2 = some (.str id) := by
    cases Json.obj.inj h
    simp [nodeReferences, Dict.get?, List.lookup_cons]
  have hmaps := storedNodes_graphJson g
  rw [List.any_eq_true]
  constructor
  · rintro ⟨fields, hfields, hreferences⟩
    have hmem : Json.obj fields ∈ g.nodes.map nodeJson := hmaps ▸ List.mem_map_of_mem hfields
    obtain ⟨node, hnode, heq⟩ := List.mem_map.mp hmem
    exact ⟨node, hnode, (hread fields node heq.symm).mp hreferences⟩
  · rintro ⟨node, hnode, huses⟩
    have hmem : nodeJson node ∈ (storedNodes (graphJson g)).map Json.obj :=
      hmaps ▸ List.mem_map_of_mem hnode
    obtain ⟨fields, hfields, heq⟩ := List.mem_map.mp hmem
    exact ⟨fields, hfields, (hread fields node heq).mpr huses⟩

/-- What may be deleted is used by no node of a stored graph. -/
theorem unused_of_ensure {resourceType : ResourceType}
    (h : ensureResourceNotReferenced db resourceType id = .ok ()) {g : ContractGraph}
    (hg : g ∈ db.storedGraphs) (hnode : node ∈ g.nodes)
    (htype : node.type.value = resourceType.usage.1) :
    node.configValue resourceType.usage.2 ≠ .str id := by
  intro hvalue
  have hreferenced : isResourceReferenced db resourceType id = true := by
    refine List.any_eq_true.mpr ⟨g, hg, referenced_iff.mpr ⟨node, hnode, htype, ?_⟩⟩
    unfold WorkflowNode.configValue at hvalue
    cases hget : Dict.get? node.config resourceType.usage.2 with
    | none => simp [hget] at hvalue
    | some value => simpa [hget] using hvalue
  rw [ensureResourceNotReferenced, if_pos hreferenced] at h
  cases h

/-! ## Operations -/

/-- A computation of the services inside one that may raise more. -/
theorem liftM_eq_ok {α : Type} {x : Except RelayviaError α} {a : α}
    (h : (liftM x : Except Raised α) = .ok a) : x = .ok a := by
  cases x with
  | ok b =>
      cases h
      rfl
  | error e => cases h

theorem required_eq_ok {α : Type} {code message : String} {row : Option α} {a : α}
    (h : required code message row = .ok a) : row = some a := by
  cases row with
  | some b =>
      cases h
      rfl
  | none => cases h

/-- Rows come and change, and the stored graphs that are new were checked. -/
theorem Catalog.Consistent.keep (h : db.Consistent) (hkeeps : KeepsRows db db')
    (hactionIds : (db'.actions.map (·.id)).Nodup)
    (hgraphs : ∀ g ∈ db'.storedGraphs,
      g ∈ db.storedGraphs ∨ ∀ node ∈ g.nodes, db.Provides node) : db'.Consistent where
  actionIds := hactionIds
  provides g hg node hnode := by
    rcases hgraphs g hg with hold | hchecked
    · exact (h.provides g hold node hnode).keep hkeeps
    · exact (hchecked node hnode).keep hkeeps

/-- Only the workflows change, and the drafts that are new were checked. -/
theorem Catalog.Consistent.of_workflows (h : db.Consistent) {workflows : List WorkflowRow}
    {versions : List WorkflowVersionRow}
    (hworkflows : ∀ row ∈ workflows,
      row.draft ∈ db.storedGraphs ∨ ∀ node ∈ row.draft.nodes, db.Provides node)
    (hversions : ∀ row ∈ versions, row.graph ∈ db.storedGraphs) :
    { db with workflows := workflows, versions := versions : Catalog }.Consistent := by
  refine h.keep (.of_eq rfl rfl rfl) h.actionIds fun g hg ↦ ?_
  rcases List.mem_append.mp hg with hg | hg
  · obtain ⟨row, hrow, rfl⟩ := List.mem_map.mp hg
    exact hworkflows row hrow
  · obtain ⟨row, hrow, rfl⟩ := List.mem_map.mp hg
    exact .inl (hversions row hrow)

theorem draft_stored {row : WorkflowRow} (h : row ∈ db.workflows) : row.draft ∈ db.storedGraphs :=
  List.mem_append_left _ (List.mem_map_of_mem h)

theorem version_stored {row : WorkflowVersionRow} (h : row ∈ db.versions) :
    row.graph ∈ db.storedGraphs :=
  List.mem_append_right _ (List.mem_map_of_mem h)

/-- Changes of a row that keep its draft. -/
theorem modify_drafts {f : WorkflowRow → WorkflowRow} {row : WorkflowRow}
    (h : row ∈ Table.modify WorkflowRow.id id f db.workflows)
    (hf : ∀ row, (f row).draft = row.draft) : row.draft ∈ db.storedGraphs := by
  obtain ⟨row', hrow', rfl⟩ := List.mem_map.mp h
  split
  · rw [hf]
    exact draft_stored hrow'
  · exact draft_stored hrow'

/-! ### Deletion -/

theorem deleteAgent_consistent (hc : db.Consistent) (h : deleteAgent db id = .ok db') :
    db'.Consistent := by
  obtain ⟨agent, hagent, h⟩ := Outcome.bind_eq_ok_iff.mp h
  obtain ⟨_, hunused, h⟩ := Outcome.bind_eq_ok_iff.mp h
  cases h
  refine ⟨hc.actionIds, fun g hg node hnode ↦ ?_⟩
  have hprovides := hc.provides g hg node hnode
  unfold Catalog.Provides at hprovides ⊢
  cases htype : node.type with
  | agent =>
      simp only [htype] at hprovides ⊢
      obtain ⟨agent', hmem, hid⟩ := hprovides
      refine ⟨agent', List.mem_filter.mpr ⟨hmem, ?_⟩, hid⟩
      have hne := unused_of_ensure hunused hg hnode (by rw [htype]; rfl)
      have hne : agent'.id ≠ agent.id := fun heq ↦ hne (hid.trans (congrArg Json.str heq))
      simpa using hne
  | service => simpa only [htype] using hprovides
  | tool | logic | human | data => simp only

/-- The cascade takes no action that a node uses: the node would use the Service too. -/
theorem deleteService_consistent (hc : db.Consistent) (h : deleteService db id = .ok db') :
    db'.Consistent := by
  obtain ⟨service, hservice, h⟩ := Outcome.bind_eq_ok_iff.mp h
  obtain ⟨_, hunused, h⟩ := Outcome.bind_eq_ok_iff.mp h
  cases h
  refine ⟨hc.actionIds.sublist (List.filter_sublist.map _), fun g hg node hnode ↦ ?_⟩
  have hprovides := hc.provides g hg node hnode
  unfold Catalog.Provides at hprovides ⊢
  cases htype : node.type with
  | service =>
      simp only [htype] at hprovides ⊢
      obtain ⟨service', hmem, action, haction, hserviceId, hactionId, howner⟩ := hprovides
      have hne := unused_of_ensure hunused hg hnode (by rw [htype]; rfl)
      have hne : service'.id ≠ service.id :=
        fun heq ↦ hne (hserviceId.trans (congrArg Json.str heq))
      refine ⟨service', List.mem_filter.mpr ⟨hmem, by simpa using hne⟩, action,
        List.mem_filter.mpr ⟨haction, ?_⟩, hserviceId, hactionId, howner⟩
      rw [howner]
      simpa using hne
  | agent => simpa only [htype] using hprovides
  | tool | logic | human | data => simp only

theorem deleteAction_consistent {serviceId : String} (hc : db.Consistent)
    (h : deleteAction db serviceId id = .ok db') : db'.Consistent := by
  obtain ⟨action, haction, h⟩ := Outcome.bind_eq_ok_iff.mp h
  obtain ⟨_, hunused, h⟩ := Outcome.bind_eq_ok_iff.mp h
  cases h
  refine ⟨hc.actionIds.sublist (List.filter_sublist.map _), fun g hg node hnode ↦ ?_⟩
  have hprovides := hc.provides g hg node hnode
  unfold Catalog.Provides at hprovides ⊢
  cases htype : node.type with
  | service =>
      simp only [htype] at hprovides ⊢
      obtain ⟨service, hservice, action', hmem, hserviceId, hactionId, howner⟩ := hprovides
      have hne := unused_of_ensure hunused hg hnode (by rw [htype]; rfl)
      have hne : action'.id ≠ action.id := fun heq ↦ hne (hactionId.trans (congrArg Json.str heq))
      exact ⟨service, hservice, action', List.mem_filter.mpr ⟨hmem, by simpa using hne⟩,
        hserviceId, hactionId, howner⟩
  | agent => simpa only [htype] using hprovides
  | tool | logic | human | data => simp only

/-! ### Workflows -/

theorem createWorkflow_consistent {name : String} {graph : Option ContractGraph}
    (hc : db.Consistent) (h : createWorkflow env db id name graph = .ok db') :
    db'.Consistent := by
  obtain ⟨_, -, h⟩ := Outcome.bind_eq_ok_iff.mp h
  obtain ⟨warnings, hchecked, h⟩ := Outcome.bind_eq_ok_iff.mp h
  cases h
  apply hc.of_workflows
  · intro row hrow
    rcases List.mem_append.mp hrow with hrow | hrow
    · exact .inl (draft_stored hrow)
    · rw [List.mem_singleton.mp hrow]
      exact .inr (validateRegistryReferences_provides hchecked)
  · exact fun row ↦ version_stored

theorem updateWorkflow_consistent {name : Option String} {status : Option WorkflowStatus}
    (hc : db.Consistent) (h : updateWorkflow env db id name status = .ok db') :
    db'.Consistent := by
  obtain ⟨workflow, -, h⟩ := Outcome.bind_eq_ok_iff.mp h
  obtain ⟨_, -, h⟩ := Outcome.bind_eq_ok_iff.mp h
  cases h
  apply hc.of_workflows
  · exact fun row hrow ↦ .inl (modify_drafts hrow fun _ ↦ rfl)
  · exact fun row ↦ version_stored

theorem deleteWorkflow_consistent (hc : db.Consistent) (h : deleteWorkflow db id = .ok db') :
    db'.Consistent := by
  obtain ⟨workflow, -, h⟩ := Outcome.bind_eq_ok_iff.mp h
  split at h
  · cases h
    apply hc.of_workflows
    · exact fun row hrow ↦ .inl (modify_drafts hrow fun _ ↦ rfl)
    · exact fun row ↦ version_stored
  · cases h
    apply hc.of_workflows
    · exact fun row hrow ↦ .inl (draft_stored (List.mem_of_mem_filter hrow))
    · exact fun row ↦ version_stored

theorem updateDraftGraph_consistent {graph : ContractGraph} (hc : db.Consistent)
    (h : updateDraftGraph db id graph = .ok db') : db'.Consistent := by
  obtain ⟨workflow, -, h⟩ := Outcome.bind_eq_ok_iff.mp h
  obtain ⟨warnings, hchecked, h⟩ := Outcome.bind_eq_ok_iff.mp h
  cases h
  apply hc.of_workflows
  · intro row hrow
    obtain ⟨row', hrow', rfl⟩ := List.mem_map.mp hrow
    split
    · exact .inr (validateRegistryReferences_provides hchecked)
    · exact .inl (draft_stored hrow')
  · exact fun row ↦ version_stored

theorem createVersion_consistent (hc : db.Consistent) (h : createVersion env db id = .ok db') :
    db'.Consistent := by
  obtain ⟨workflow, hworkflow, h⟩ := Outcome.bind_eq_ok_iff.mp h
  have hworkflow : db.workflow? id = some workflow := required_eq_ok (liftM_eq_ok hworkflow)
  obtain ⟨_, -, h⟩ := Outcome.bind_eq_ok_iff.mp h
  obtain ⟨validation, -, h⟩ := Outcome.bind_eq_ok_iff.mp h
  dsimp only at h
  split at h
  · cases h
  · cases h
    apply hc.of_workflows
    · exact fun row hrow ↦ .inl (modify_drafts hrow fun _ ↦ rfl)
    · intro row hrow
      rcases List.mem_append.mp hrow with hrow | hrow
      · exact version_stored hrow
      · rw [List.mem_singleton.mp hrow]
        exact draft_stored (Table.mem_of_find? hworkflow)

/-! ### Registry rows -/

theorem mem_modify_key {R : Type} {key : R → String} {rows : List R} {row row' : R}
    (hkey : key row' = id) (h : row ∈ rows) :
    ∃ r ∈ Table.modify key id (fun _ ↦ row') rows, key r = key row := by
  refine ⟨if key row = id then row' else row, List.mem_map.mpr ⟨row, h, rfl⟩, ?_⟩
  split
  · next hid => rw [hkey, hid]
  · rfl

/-- Rows of one registry table come or change. -/
theorem Catalog.Consistent.of_rows (h : db.Consistent) {agents : List CatalogAgent}
    {services : List CatalogService} {actions : List CatalogAction}
    (hkeeps : KeepsRows db { db with agents := agents, services := services, actions := actions })
    (hactionIds : (actions.map (·.id)).Nodup) :
    { db with agents := agents, services := services, actions := actions : Catalog }.Consistent :=
  h.keep hkeeps hactionIds fun _ hg ↦ .inl hg

theorem updateAction_consistent {serviceId : String} {changes : ServiceActionUpdate}
    {action action' : CatalogAction} (hc : db.Consistent)
    (haction : db.action? serviceId id = some action)
    (h : updateAction env db.actions changes action = .ok action') :
    { db with actions := Table.modify (·.id) id (fun _ ↦ action') db.actions : Catalog
      }.Consistent := by
  obtain ⟨hid', howner'⟩ := updateAction_ids h
  have hmem : action ∈ db.actions := List.mem_of_find?_eq_some haction
  have hid : action.id = id := by
    have hfound := List.find?_some haction
    simp only [decide_eq_true_eq] at hfound
    exact hfound.1
  have hrow : ∀ row ∈ db.actions, (if row.id = id then action' else row).id = row.id ∧
      (if row.id = id then action' else row).serviceId = row.serviceId := by
    intro row hrow
    split
    · next hkey =>
      obtain rfl := List.inj_on_of_nodup_map hc.actionIds hrow hmem (hkey.trans hid.symm)
      exact ⟨hid', howner'⟩
    · exact ⟨rfl, rfl⟩
  apply hc.of_rows
  · refine ⟨fun agent h ↦ ⟨agent, h, rfl⟩, fun service h ↦ ⟨service, h, rfl⟩, fun row h ↦ ?_⟩
    exact ⟨_, List.mem_map_of_mem h, hrow row h⟩
  · have hids : (Table.modify (·.id) id (fun _ ↦ action') db.actions).map (·.id) =
        db.actions.map (·.id) := by
      rw [Table.modify, List.map_map]
      exact List.map_congr_left fun row h ↦ (hrow row h).1
    rw [hids]
    exact hc.actionIds

/-- Every operation keeps the catalog consistent. -/
theorem CatalogOp.exec_consistent {op : CatalogOp} (hc : db.Consistent) (hfresh : op.Fresh db)
    (h : op.exec env db = .ok db') : db'.Consistent := by
  cases op with
  | createAgent around id payload =>
      obtain ⟨agent, -, h⟩ := Outcome.bind_eq_ok_iff.mp h
      cases h
      apply hc.of_rows _ hc.actionIds
      exact ⟨fun row h ↦ ⟨row, List.mem_append_left _ h, rfl⟩, fun row h ↦ ⟨row, h, rfl⟩,
        fun row h ↦ ⟨row, h, rfl, rfl⟩⟩
  | updateAgent around id changes =>
      obtain ⟨agent, hagent, h⟩ := Outcome.bind_eq_ok_iff.mp h
      obtain ⟨agent', hupdate, h⟩ := Outcome.bind_eq_ok_iff.mp h
      cases h
      have hagent : db.agent? id = some agent := required_eq_ok (liftM_eq_ok hagent)
      have hkey := @Table.key_of_find? _ _ _ (fun row : CatalogAgent ↦ row.id) _ _ _ hagent
      have hid : agent'.id = id := (updateAgent_id (liftM_eq_ok hupdate)).trans hkey
      apply hc.of_rows _ hc.actionIds
      exact ⟨fun row h ↦ mem_modify_key hid h, fun row h ↦ ⟨row, h, rfl⟩,
        fun row h ↦ ⟨row, h, rfl, rfl⟩⟩
  | deleteAgent id => exact deleteAgent_consistent hc (liftM_eq_ok h)
  | createService around id payload =>
      obtain ⟨service, -, h⟩ := Outcome.bind_eq_ok_iff.mp h
      cases h
      apply hc.of_rows _ hc.actionIds
      exact ⟨fun row h ↦ ⟨row, h, rfl⟩, fun row h ↦ ⟨row, List.mem_append_left _ h, rfl⟩,
        fun row h ↦ ⟨row, h, rfl, rfl⟩⟩
  | updateService around id changes =>
      obtain ⟨service, hservice, h⟩ := Outcome.bind_eq_ok_iff.mp h
      obtain ⟨service', hupdate, h⟩ := Outcome.bind_eq_ok_iff.mp h
      cases h
      have hservice : db.service? id = some service := required_eq_ok (liftM_eq_ok hservice)
      have hkey := @Table.key_of_find? _ _ _ (fun row : CatalogService ↦ row.id) _ _ _ hservice
      have hid : service'.id = id := (updateService_id (liftM_eq_ok hupdate)).trans hkey
      apply hc.of_rows _ hc.actionIds
      exact ⟨fun row h ↦ ⟨row, h, rfl⟩, fun row h ↦ mem_modify_key hid h,
        fun row h ↦ ⟨row, h, rfl, rfl⟩⟩
  | deleteService id => exact deleteService_consistent hc (liftM_eq_ok h)
  | createAction id serviceId payload =>
      obtain ⟨_, -, h⟩ := Outcome.bind_eq_ok_iff.mp h
      obtain ⟨action, hcreate, h⟩ := Outcome.bind_eq_ok_iff.mp h
      cases h
      have hid : action.id = id := createAction_id (liftM_eq_ok hcreate)
      apply hc.of_rows
      · exact ⟨fun row h ↦ ⟨row, h, rfl⟩, fun row h ↦ ⟨row, h, rfl⟩,
          fun row h ↦ ⟨row, List.mem_append_left _ h, rfl, rfl⟩⟩
      · rw [List.map_append, List.map_singleton, hid]
        rw [← List.concat_eq_append]
        exact hc.actionIds.concat hfresh
  | updateAction serviceId id changes =>
      obtain ⟨action, haction, h⟩ := Outcome.bind_eq_ok_iff.mp h
      obtain ⟨action', hupdate, h⟩ := Outcome.bind_eq_ok_iff.mp h
      cases h
      exact updateAction_consistent hc (required_eq_ok (liftM_eq_ok haction))
        (liftM_eq_ok hupdate)
  | deleteAction serviceId id => exact deleteAction_consistent hc (liftM_eq_ok h)
  | createWorkflow id name graph => exact createWorkflow_consistent hc (liftM_eq_ok h)
  | updateWorkflow id name status => exact updateWorkflow_consistent hc (liftM_eq_ok h)
  | deleteWorkflow id => exact deleteWorkflow_consistent hc (liftM_eq_ok h)
  | updateDraftGraph id graph => exact updateDraftGraph_consistent hc (liftM_eq_ok h)
  | createVersion id => exact createVersion_consistent hc h

/-! ## Reachable catalogs -/

theorem CatalogReachable.consistent (h : CatalogReachable env db) : db.Consistent := by
  induction h with
  | empty => exact ⟨List.nodup_nil, by simp [Catalog.storedGraphs]⟩
  | step _ hfresh h ih => exact CatalogOp.exec_consistent ih hfresh h

/-- The agent, the Service and the action that a node of a stored draft or version uses
exist, and the action belongs to the Service that the node names. -/
theorem registry_integrity (h : CatalogReachable env db) {g : ContractGraph}
    (hg : (∃ workflow ∈ db.workflows, workflow.draft = g) ∨
      ∃ version ∈ db.versions, version.graph = g) (hnode : node ∈ g.nodes) :
    (node.type = .agent →
      ∃ agent ∈ db.agents, node.configValue "agent_id" = .str agent.id) ∧
      (node.type = .service → ∃ service ∈ db.services, ∃ action ∈ db.actions,
        node.configValue "service_id" = .str service.id ∧
          node.configValue "service_action_id" = .str action.id ∧
            action.serviceId = service.id) := by
  have hstored : g ∈ db.storedGraphs := by
    rcases hg with ⟨workflow, hworkflow, rfl⟩ | ⟨version, hversion, rfl⟩
    · exact draft_stored hworkflow
    · exact version_stored hversion
  have hprovides := h.consistent.provides g hstored node hnode
  unfold Catalog.Provides at hprovides
  constructor
  · intro htype
    simpa only [htype] using hprovides
  · intro htype
    simpa only [htype] using hprovides

/-! ## A catalog -/

/-- Checks that pass, as the real ones do for lower-case names and valid payloads. -/
def plainCatalogEnv : CatalogEnv where
  toEnv := plainEnv
  sqlLower name := name
  pyLower name := name
  validateHttpUrl url _ := .ok url
  normalizeActionPath path := .ok path
  validateHeaders _ := .ok ()
  validateMetadata _ := .ok ()

/-- One node, which calls an action. -/
def callGraph : ContractGraph where
  nodes :=
    [{ id := "call", type := .service, subtype := "http", name := "Call"
       config := [("service_id", .str "service"), ("service_action_id", .str "action")] }]
  edges := []
  nodeIds_nodup := by decide
  edges_closed := by decide
  configs := by
    intro node hnode
    rw [List.mem_singleton.mp hnode]
    exact ⟨fun h ↦ (by cases h), fun _ ↦ ⟨"service", rfl⟩, fun _ ↦ ⟨"action", rfl⟩,
      fun h ↦ (by cases h)⟩

/-- A Service, its action, and a workflow that calls it. -/
theorem registry_integrity_callGraph : ∃ db, CatalogReachable plainCatalogEnv db ∧
    (∃ workflow ∈ db.workflows, workflow.draft = callGraph) ∧
      ∀ node ∈ callGraph.nodes, ∃ service ∈ db.services, ∃ action ∈ db.actions,
        node.configValue "service_id" = .str service.id ∧
          node.configValue "service_action_id" = .str action.id ∧
            action.serviceId = service.id := by
  obtain ⟨db₁, h₁, db₂, h₂, hfresh₂, db₃, h₃, hfresh₃, hdraft⟩ :
      ∃ db₁, (CatalogOp.createService {} "service"
          { name := "billing", baseUrl := "https://billing.example.com" }).exec
            plainCatalogEnv {} = .ok db₁ ∧
        ∃ db₂, (CatalogOp.createAction "action" "service"
            { name := "charge", path := "/charge" }).exec plainCatalogEnv db₁ = .ok db₂ ∧
          db₁.actions = [] ∧
            ∃ db₃, (CatalogOp.createWorkflow "workflow" "payments" (some callGraph)).exec
                plainCatalogEnv db₂ = .ok db₃ ∧ db₂.workflows = [] ∧
              ∃ workflow ∈ db₃.workflows, workflow.draft = callGraph :=
    ⟨_, rfl, _, rfl, rfl, _, rfl, rfl, _, .head _, rfl⟩
  have hreachable : CatalogReachable plainCatalogEnv db₃ :=
    ((CatalogReachable.empty.step (by simp [CatalogOp.Fresh]) h₁).step
      (by simp [CatalogOp.Fresh, hfresh₂]) h₂).step (by simp [CatalogOp.Fresh, hfresh₃]) h₃
  refine ⟨db₃, hreachable, hdraft, fun node hnode ↦ ?_⟩
  apply (registry_integrity hreachable (.inl hdraft) hnode).2
  rw [List.mem_singleton.mp hnode]

end Relayvia
