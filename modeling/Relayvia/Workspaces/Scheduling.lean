import Relayvia.Workspaces.Rows

/-!
# The workspaces that scheduling creates

A turn of the scheduling loop adds one task, and one workspace with it when the
node declares one and goes to a Runner.
-/

namespace Relayvia

variable {env : Env} {now : Time} {db db' : RunRecord} {s s' : Session} {id : NodeId}

/-- The node asks for a workspace of a repository. -/
def declaresWorkspace (node : WorkflowNode) : Bool :=
  match Dict.get? node.config "workspace" with
  | some (.obj config) => (Dict.get? config "repository").any Json.truthy
  | _ => false

/-- The turn of the node creates a workspace. -/
def attaches (env : Env) (db : RunRecord) (id : NodeId) : Bool :=
  (db.run.graph.node? id).any fun node ↦
    match dispatch env db node with
    | .runner _ _ => declaresWorkspace node
    | _ => false

theorem attaches_congr {db' : RunRecord} (hrun : db'.run = db.run)
    (houtputs : db'.nodeRuns.map (fun n ↦ (n.nodeId, n.output)) =
      db.nodeRuns.map fun n ↦ (n.nodeId, n.output)) (id : NodeId) :
    attaches env db' id = attaches env db id := by
  simp only [attaches, dispatch_congr hrun houtputs, hrun]

theorem workspaceId_inj {id id' : NodeId} : workspaceId id = workspaceId id' ↔ id = id' :=
  String.append_right_inj _

/-! ## One turn -/

/-- The task of a turn. -/
structure TurnTask (id : NodeId) (t : ExecutionTask) : Prop where
  nodeRunId : t.nodeRunId = id
  status : t.status = .pending
  named : ∀ x, workspaceOf t = some x → x = workspaceId id

/-- The workspace of a turn, with the task that names it. -/
structure TurnWorkspace (id : NodeId) (t : ExecutionTask) (w : Workspace) : Prop where
  nodeRunId : w.nodeRunId = id
  id_eq : w.id = workspaceId id
  status : w.status = .creating
  named : workspaceOf t = some w.id
  capability : t.requiredCapability ≠ none

/-- What a turn adds.  Only the insert of a workspace flushes the earlier tasks. -/
inductive Turn (env : Env) (id : NodeId) (s s' : Session) : Prop
  | plain (t : ExecutionTask) (ht : TurnTask id t) (hnone : workspaceOf t = none)
      (hattaches : attaches env s.toRunRecord id = false)
      (htasks : s'.tasks = s.tasks) (hadded : s'.added = s.added ++ [t])
      (hworkspaces : s'.workspaces = s.workspaces)
  | attached (t : ExecutionTask) (w : Workspace) (ht : TurnTask id t) (hw : TurnWorkspace id t w)
      (hattaches : attaches env s.toRunRecord id = true) (htasks : s'.tasks = s.settled.tasks)
      (hadded : s'.added = [t]) (hworkspaces : s'.workspaces = s.workspaces ++ [w])

theorem enqueue_turn {n : NodeRun} {node : WorkflowNode} {payload : Dict}
    {requiredCapability runnerId : Option String} :
    Returns (enqueue env now s n node payload requiredCapability runnerId) fun s' ↦
      s'.tasks = s.tasks ∧ s'.workspaces = s.workspaces ∧ ∃ t : ExecutionTask,
        t.nodeRunId = node.id ∧ t.status = .pending ∧ t.payload = payload ∧
          t.requiredCapability = requiredCapability ∧ s'.added = s.added ++ [t] :=
  Outcome.Holds.bind (returns_any _) fun _ _ ↦ ⟨rfl, rfl, _, rfl, rfl, rfl, rfl, rfl⟩

/-- Inserting the workspace flushes the session and names the row in the payload. -/
theorem attachWorkspace_turn {node : WorkflowNode} {payload : Dict} {runnerId : Option String} :
    Returns (attachWorkspace env s node payload runnerId) fun p ↦
      declaresWorkspace node = false ∧ p = (s, payload) ∨
        declaresWorkspace node = true ∧ p.1.tasks = s.settled.tasks ∧ p.1.added = [] ∧
          ∃ w reference, p.1.workspaces = s.workspaces ++ [w] ∧ w.nodeRunId = node.id ∧
            w.id = workspaceId node.id ∧ w.status = .creating ∧
              p.2 = payload ++ [("workspace", .obj (("id", .str w.id) :: reference))] := by
  unfold attachWorkspace declaresWorkspace
  cases Dict.get? node.config "workspace" with
  | none => exact .inl ⟨rfl, rfl⟩
  | some value =>
      cases value with
      | obj config =>
          dsimp only
          cases Dict.get? config "repository" with
          | none => exact .inl ⟨rfl, rfl⟩
          | some repository =>
              refine Outcome.Holds.ite (fun h ↦ .inl ⟨by simpa using h, rfl⟩) fun htrue ↦ ?_
              refine Outcome.Holds.bind (Outcome.holds_of_forall (fun _ ↦ Session.flush_ok)
                fun _ _ ↦ trivial) ?_
              rintro _ rfl
              exact .inr ⟨by simpa using htrue, rfl, rfl, _, _, rfl, rfl, rfl, rfl, rfl⟩
      | _ => exact .inl ⟨rfl, rfl⟩

theorem workspaceOf_eq_none {t : ExecutionTask} (h : Dict.get? t.payload "workspace" = none) :
    workspaceOf t = none := by
  rw [workspaceOf, h]

/-- The reference that a task hands to the Runner. -/
theorem workspaceOf_payload {t : ExecutionTask} {id : NodeId} {base reference : Dict}
    (hpayload : t.payload = base ++ [("workspace", .obj (("id", .str (workspaceId id)) :: reference))])
    (hbase : Dict.get? base "workspace" = none) : workspaceOf t = some (workspaceId id) := by
  have hne : workspaceId id ≠ "" := by
    simp [workspaceId]
  have hreference : Dict.get? t.payload "workspace" =
      some (.obj (("id", .str (workspaceId id)) :: reference)) := by
    rw [Dict.get?] at hbase ⊢
    rw [hpayload, List.lookup_append, hbase]
    rfl
  have hid : Dict.get? (("id", .str (workspaceId id)) :: reference) "id" =
      some (.str (workspaceId id)) := rfl
  simp [workspaceOf, hreference, hid, Json.str?, hne]

theorem scheduleNode_turn :
    Returns (scheduleNode env now s id) fun r ↦ ∀ s', r = some s' → Turn env id s s' := by
  unfold scheduleNode
  split
  · next n node hn hnode =>
    have hid : node.id = id := (s.run.graph.node?_eq_some_iff.mp hnode).2
    have hattaches : attaches env s.toRunRecord id =
        match dispatch env s.toRunRecord node with
        | .runner _ _ => declaresWorkspace node
        | _ => false := by
      simp [attaches, hnode]
    refine Outcome.Holds.ite (fun _ ↦ Outcome.holds_pure.mpr (by simp)) fun _ ↦ ?_
    dsimp only
    split
    · exact Outcome.holds_pure.mpr (by simp)
    · next hdispatch =>
      refine Outcome.Holds.bind enqueue_turn fun s₁ hs₁ ↦ Outcome.holds_pure.mpr ?_
      rintro s' ⟨⟩
      obtain ⟨htasks, hworkspaces, t, htnode, hstatus, hpayload, -, hadded⟩ := hs₁
      have hnone : workspaceOf t = none :=
        workspaceOf_eq_none (by simp [hpayload, Dict.get?, List.lookup_cons])
      exact .plain t ⟨htnode.trans hid, hstatus, by simp [hnone]⟩ hnone
        (by rw [hattaches, hdispatch]) htasks hadded hworkspaces
    · next target input hdispatch =>
      refine Outcome.Holds.bind attachWorkspace_turn ?_
      rintro ⟨s₁, payload⟩ hs₁
      refine Outcome.Holds.bind enqueue_turn fun s₂ hs₂ ↦ Outcome.holds_pure.mpr ?_
      rintro s' ⟨⟩
      obtain ⟨htasks, hworkspaces, t, htnode, hstatus, hpayload, hcapability, hadded⟩ := hs₂
      rcases hs₁ with ⟨hdeclares, heq⟩ | ⟨hdeclares, htasks₁, hadded₁, w, reference, hworkspaces₁,
        hwnode, hwid, hwstatus, rfl⟩
      · cases heq
        have hnone : workspaceOf t = none :=
          workspaceOf_eq_none (by simp [hpayload, Dict.get?, List.lookup_cons])
        exact .plain t ⟨htnode.trans hid, hstatus, by simp [hnone]⟩ hnone
          (by rw [hattaches, hdispatch]; exact hdeclares) htasks hadded hworkspaces
      · rw [hwid] at hpayload
        have hnamed : workspaceOf t = some (workspaceId id) :=
          hid ▸ workspaceOf_payload hpayload (by simp [Dict.get?, List.lookup_cons])
        have hwid' : w.id = workspaceId id := hid ▸ hwid
        exact .attached t w ⟨htnode.trans hid, hstatus, by simp [hnamed]⟩
          ⟨hwnode.trans hid, hwid', hwstatus, by rw [hnamed, hwid'], by simp [hcapability]⟩
          (by rw [hattaches, hdispatch]; exact hdeclares) (htasks.trans htasks₁)
          (by rw [hadded, hadded₁]; rfl) (hworkspaces.trans hworkspaces₁)
  · exact Outcome.holds_pure.mpr (by simp)

namespace Turn

/-- The settled rows after a turn. -/
theorem settled (h : Turn env id s s') : ∃ t, TurnTask id t ∧
    s'.settled.tasks = s.settled.tasks ++ [t] ∧
      (workspaceOf t = none ∧ s'.workspaces = s.workspaces ∨
        ∃ w, TurnWorkspace id t w ∧ s'.workspaces = s.workspaces ++ [w]) := by
  cases h with
  | plain t ht hnone _ htasks hadded hworkspaces =>
      exact ⟨{ t with id := s.settled.tasks.length }, ⟨ht.nodeRunId, ht.status, ht.named⟩,
        Session.settled_add_tasks rfl htasks hadded, .inl ⟨hnone, hworkspaces⟩⟩
  | attached t w ht hw _ htasks hadded hworkspaces =>
      refine ⟨{ t with id := s.settled.tasks.length }, ⟨ht.nodeRunId, ht.status, ht.named⟩, ?_,
        .inr ⟨w, ?_, hworkspaces⟩⟩
      · simp [Session.settled, Session.numbered, htasks, hadded]
      · exact ⟨hw.nodeRunId, hw.id_eq, hw.status, hw.named, hw.capability⟩

end Turn

/-! ## Workspaces and their tasks -/

/-- Every workspace belongs to the NodeRun of one task, which names it, `Q` holds of
the two, and no task names another workspace. -/
structure WorkspacesBound (Q : Workspace → ExecutionTask → Prop) (db : RunRecord) : Prop where
  nodup : (db.workspaces.map Workspace.nodeRunId).Nodup
  ids : ∀ w ∈ db.workspaces, w.id = workspaceId w.nodeRunId
  named : ∀ t ∈ db.tasks, ∀ x, workspaceOf t = some x → x = workspaceId t.nodeRunId
  bound : ∀ w ∈ db.workspaces, ∃ t ∈ db.tasks, t.nodeRunId = w.nodeRunId ∧
    workspaceOf t = some w.id ∧ t.requiredCapability ≠ none ∧ Q w t
  covered : ∀ t ∈ db.tasks, ∀ x, workspaceOf t = some x →
    ∃ w ∈ db.workspaces, w.nodeRunId = t.nodeRunId

variable {Q : Workspace → ExecutionTask → Prop}

namespace WorkspacesBound

theorem ids_nodup (h : WorkspacesBound Q db) : (db.workspaces.map Workspace.id).Nodup := by
  have hids : db.workspaces.map Workspace.id =
      (db.workspaces.map Workspace.nodeRunId).map workspaceId := by
    rw [List.map_map]
    exact List.map_congr_left h.ids
  rw [hids]
  exact h.nodup.map fun _ _ ↦ workspaceId_inj.mp

theorem mono {Q' : Workspace → ExecutionTask → Prop} (h : WorkspacesBound Q db)
    (hQ : ∀ w t, Q w t → Q' w t) : WorkspacesBound Q' db where
  nodup := h.nodup
  ids := h.ids
  named := h.named
  bound w hw := by
    obtain ⟨t, ht, hkey, hnamed, hcapability, hQt⟩ := h.bound w hw
    exact ⟨t, ht, hkey, hnamed, hcapability, hQ w t hQt⟩
  covered := h.covered

/-- The relation holds for all tasks of the NodeRun, since there is one only. -/
theorem forall_task (h : WorkspacesBound Q db) (hk : Keyed db) {w : Workspace}
    (hw : w ∈ db.workspaces) {t : ExecutionTask} (ht : t ∈ db.tasks)
    (hkey : t.nodeRunId = w.nodeRunId) :
    workspaceOf t = some w.id ∧ t.requiredCapability ≠ none ∧ Q w t := by
  obtain ⟨u, hu, hukey, hnamed, hcapability, hQ⟩ := h.bound w hw
  obtain rfl : u = t := List.inj_on_of_nodup_map hk.taskNodes hu ht (hukey.trans hkey.symm)
  exact ⟨hnamed, hcapability, hQ⟩

/-- A task names the workspace of its own NodeRun. -/
theorem names_iff (h : WorkspacesBound Q db) (hk : Keyed db) {w : Workspace}
    (hw : w ∈ db.workspaces) {t : ExecutionTask} (ht : t ∈ db.tasks) :
    workspaceOf t = some w.id ↔ t.nodeRunId = w.nodeRunId := by
  refine ⟨fun hnamed ↦ ?_, fun hkey ↦ (h.forall_task hk hw ht hkey).1⟩
  have hid := h.named t ht _ hnamed
  rw [h.ids w hw] at hid
  exact (workspaceId_inj.mp hid).symm

/-- Updates of the rows one by one keep the relation when they keep `Q`. -/
theorem of_maps (h : WorkspacesBound Q db) {f : ExecutionTask → ExecutionTask}
    {g : Workspace → Workspace} (htasks : db'.tasks = db.tasks.map f)
    (hworkspaces : db'.workspaces = db.workspaces.map g)
    (hf : ∀ t ∈ db.tasks, (f t).nodeRunId = t.nodeRunId ∧ (f t).payload = t.payload ∧
      (f t).requiredCapability = t.requiredCapability)
    (hg : ∀ w ∈ db.workspaces, (g w).id = w.id ∧ (g w).nodeRunId = w.nodeRunId)
    (hQ : ∀ w ∈ db.workspaces, ∀ t ∈ db.tasks, t.nodeRunId = w.nodeRunId →
      t.requiredCapability ≠ none → Q w t → Q (g w) (f t)) : WorkspacesBound Q db' where
  nodup := by
    have hkeys : (db.workspaces.map g).map Workspace.nodeRunId =
        db.workspaces.map Workspace.nodeRunId := by
      rw [List.map_map]
      exact List.map_congr_left fun w hw ↦ (hg w hw).2
    rw [hworkspaces, hkeys]
    exact h.nodup
  ids := by
    rw [hworkspaces]
    intro w' hw'
    obtain ⟨w, hw, rfl⟩ := List.mem_map.mp hw'
    rw [(hg w hw).1, (hg w hw).2]
    exact h.ids w hw
  named := by
    rw [htasks]
    intro t' ht' x hx
    obtain ⟨t, ht, rfl⟩ := List.mem_map.mp ht'
    rw [workspaceOf, (hf t ht).2.1] at hx
    rw [(hf t ht).1]
    exact h.named t ht x hx
  bound := by
    rw [hworkspaces, htasks]
    intro w' hw'
    obtain ⟨w, hw, rfl⟩ := List.mem_map.mp hw'
    obtain ⟨t, ht, hkey, hnamed, hcapability, hQt⟩ := h.bound w hw
    obtain ⟨hnode, hpayload, hcap⟩ := hf t ht
    refine ⟨f t, List.mem_map_of_mem ht, ?_, ?_, by rwa [hcap], hQ w hw t ht hkey hcapability hQt⟩
    · rw [hnode, (hg w hw).2, hkey]
    · rwa [workspaceOf, hpayload, (hg w hw).1]
  covered := by
    rw [hworkspaces, htasks]
    intro t' ht' x hx
    obtain ⟨t, ht, rfl⟩ := List.mem_map.mp ht'
    rw [workspaceOf, (hf t ht).2.1] at hx
    obtain ⟨w, hw, hkey⟩ := h.covered t ht x hx
    exact ⟨g w, List.mem_map_of_mem hw, by rw [(hg w hw).2, (hf t ht).1, hkey]⟩

theorem of_map (h : WorkspacesBound Q db) {f : ExecutionTask → ExecutionTask}
    (htasks : db'.tasks = db.tasks.map f) (hworkspaces : db'.workspaces = db.workspaces)
    (hf : ∀ t ∈ db.tasks, (f t).nodeRunId = t.nodeRunId ∧ (f t).payload = t.payload ∧
      (f t).requiredCapability = t.requiredCapability)
    (hQ : ∀ w ∈ db.workspaces, ∀ t ∈ db.tasks, t.nodeRunId = w.nodeRunId →
      t.requiredCapability ≠ none → Q w t → Q w (f t)) : WorkspacesBound Q db' :=
  h.of_maps (g := fun w ↦ w) htasks (by simp [hworkspaces]) hf (fun _ _ ↦ ⟨rfl, rfl⟩) hQ

/-- An update of one workspace. -/
theorem modifyWorkspace (h : WorkspacesBound Q db) {id : String} {g : Workspace → Workspace}
    (hg : ∀ w, (g w).id = w.id ∧ (g w).nodeRunId = w.nodeRunId)
    (hQ : ∀ w ∈ db.workspaces, w.id = id → ∀ t ∈ db.tasks, t.nodeRunId = w.nodeRunId →
      Q w t → Q (g w) t) : WorkspacesBound Q (db.modifyWorkspace id g) := by
  refine h.of_maps (f := fun t ↦ t) (List.map_id _).symm rfl (fun _ _ ↦ ⟨rfl, rfl, rfl⟩)
    (fun w _ ↦ ?_) fun w hw t ht hkey _ hQt ↦ ?_
  · split
    · exact hg w
    · exact ⟨rfl, rfl⟩
  · split
    · next hid => exact hQ w hw hid t ht hkey hQt
    · exact hQt

/-- An update of one task and of the workspace that it names. -/
theorem modifyBoth (h : WorkspacesBound Q db) (hk : Keyed db) {taskId : TaskId} {t : ExecutionTask}
    {f : ExecutionTask → ExecutionTask} {g : Workspace → Workspace}
    (ht : findTask db.tasks taskId = some t)
    (htasks : db'.tasks = Table.modify ExecutionTask.id taskId f db.tasks)
    (hworkspaces : db'.workspaces =
      match workspaceOf t with
      | some id => Table.modify Workspace.id id g db.workspaces
      | none => db.workspaces)
    (hf : ∀ u, (f u).nodeRunId = u.nodeRunId ∧ (f u).payload = u.payload ∧
      (f u).requiredCapability = u.requiredCapability)
    (hg : ∀ w, (g w).id = w.id ∧ (g w).nodeRunId = w.nodeRunId)
    (hQ : ∀ w ∈ db.workspaces, t.nodeRunId = w.nodeRunId → Q w t → Q (g w) (f t)) :
    WorkspacesBound Q db' := by
  obtain ⟨hmem, hid⟩ := hk.findTask_eq_some_iff.mp ht
  have hrows : db'.workspaces =
      db.workspaces.map fun w ↦ if workspaceOf t = some w.id then g w else w := by
    rw [hworkspaces]
    cases workspaceOf t with
    | none => simp
    | some id =>
        refine List.map_congr_left fun w _ ↦ ?_
        by_cases heq : w.id = id
        · simp [heq]
        · simp [heq, Ne.symm heq]
  refine h.of_maps htasks hrows (fun u _ ↦ ?_) (fun w _ ↦ ?_) fun w hw u hu hkey _ hQu ↦ ?_
  · split
    · exact hf u
    · exact ⟨rfl, rfl, rfl⟩
  · split
    · exact hg w
    · exact ⟨rfl, rfl⟩
  · by_cases hut : u.id = taskId
    · obtain rfl : u = t := List.inj_on_of_nodup_map hk.taskIds_nodup hu hmem (hut.trans hid.symm)
      rw [if_pos hut, if_pos ((h.names_iff hk hw hu).mpr hkey)]
      exact hQ w hw hkey hQu
    · have hother : workspaceOf t ≠ some w.id := by
        intro hnamed
        have hkey' := (h.names_iff hk hw hmem).mp hnamed
        have heq : u = t := List.inj_on_of_nodup_map hk.taskNodes hu hmem (hkey.trans hkey'.symm)
        exact hut (heq ▸ hid)
      rw [if_neg hut, if_neg hother]
      exact hQu

theorem rowStep (h : WorkspacesBound Q db) {finishes : ExecutionTask → Prop}
    (hstep : RowStep finishes db db')
    (hQ : ∀ w ∈ db.workspaces, ∀ t ∈ db.tasks, t.nodeRunId = w.nodeRunId →
      t.requiredCapability ≠ none → ∀ t', TaskStep db.run.status finishes t t' → Q w t → Q w t') :
    WorkspacesBound Q db' := by
  obtain ⟨f, htasks, hf⟩ := hstep.tasks
  exact h.of_map htasks hstep.workspaces
    (fun t ht ↦ ⟨(hf t ht).nodeRunId, (hf t ht).payload, (hf t ht).capability⟩)
    fun w hw t ht hkey hcapability hQt ↦ hQ w hw t ht hkey hcapability _ (hf t ht) hQt

theorem congr (h : WorkspacesBound Q db) (htasks : db'.tasks = db.tasks)
    (hworkspaces : db'.workspaces = db.workspaces) : WorkspacesBound Q db' :=
  h.of_map (f := fun t ↦ t) (by simp [htasks]) hworkspaces (fun _ _ ↦ ⟨rfl, rfl, rfl⟩)
    fun _ _ _ _ _ _ hQt ↦ hQt

/-- A turn binds the workspace that it creates. -/
theorem turn (h : WorkspacesBound Q s.settled) (hturn : Turn env id s s')
    (hfresh : ∀ t ∈ s.settled.tasks, t.nodeRunId ≠ id)
    (hnew : ∀ w t, w.status = .creating → t.status = .pending → Q w t) :
    WorkspacesBound Q s'.settled := by
  obtain ⟨t, ht, htasks, hworkspaces⟩ := hturn.settled
  have hold : ∀ w ∈ s.workspaces, ∃ u ∈ s'.settled.tasks, u.nodeRunId = w.nodeRunId ∧
      workspaceOf u = some w.id ∧ u.requiredCapability ≠ none ∧ Q w u := by
    intro w hw
    obtain ⟨u, hu, hrest⟩ := h.bound w hw
    exact ⟨u, by simp [htasks, hu], hrest⟩
  have hnamed : ∀ u ∈ s'.settled.tasks, ∀ x, workspaceOf u = some x → x = workspaceId u.nodeRunId := by
    rw [htasks]
    intro u hu x hx
    rcases List.mem_append.mp hu with hmem | hmem
    · exact h.named u hmem x hx
    · rw [List.mem_singleton.mp hmem] at hx ⊢
      rw [ht.nodeRunId]
      exact ht.named x hx
  rcases hworkspaces with ⟨hnone, heq⟩ | ⟨w, hw, heq⟩
  · refine ⟨?_, ?_, hnamed, ?_, fun u hu x hx ↦ ?_⟩
    · exact heq ▸ h.nodup
    · exact heq ▸ h.ids
    · exact heq ▸ hold
    · rw [htasks] at hu
      rcases List.mem_append.mp hu with hmem | hmem
      · exact heq ▸ h.covered u hmem x hx
      · rw [List.mem_singleton.mp hmem, hnone] at hx
        cases hx
  · refine ⟨?_, fun w' hw' ↦ ?_, hnamed, fun w' hw' ↦ ?_, fun u hu x hx ↦ ?_⟩
    · show (s'.workspaces.map Workspace.nodeRunId).Nodup
      rw [heq, List.map_append, List.nodup_append]
      refine ⟨h.nodup, by simp, ?_⟩
      rintro i hi j hj rfl
      obtain ⟨w', hw', rfl⟩ := List.mem_map.mp hi
      obtain ⟨u, hu, hukey, -⟩ := h.bound w' hw'
      have hid : w'.nodeRunId = id := by
        rw [List.map_cons, List.map_nil, List.mem_singleton] at hj
        rw [hj, hw.nodeRunId]
      exact hfresh u hu (hukey.trans hid)
    · rcases List.mem_append.mp (heq ▸ hw') with hmem | hmem
      · exact h.ids w' hmem
      · rw [List.mem_singleton.mp hmem, hw.id_eq, hw.nodeRunId]
    · rcases List.mem_append.mp (heq ▸ hw') with hmem | hmem
      · exact hold w' hmem
      · rw [List.mem_singleton.mp hmem]
        exact ⟨t, by simp [htasks], ht.nodeRunId.trans hw.nodeRunId.symm, hw.named,
          hw.capability, hnew w t hw.status ht.status⟩
    · show ∃ w ∈ s'.workspaces, w.nodeRunId = u.nodeRunId
      rw [htasks] at hu
      rw [heq]
      rcases List.mem_append.mp hu with hmem | hmem
      · obtain ⟨w', hw', hkey⟩ := h.covered u hmem x hx
        exact ⟨w', by simp [show w' ∈ s.workspaces from hw'], hkey⟩
      · rw [List.mem_singleton.mp hmem]
        exact ⟨w, by simp, hw.nodeRunId.trans ht.nodeRunId.symm⟩

end WorkspacesBound

/-! ## The loop -/

/-- An invariant of the scheduling loop, in which `ids` are the nodes to come. -/
theorem scheduleLoop_rule {I : List NodeId → Session → Prop}
    (hcontinue : ∀ {id ids s}, I (id :: ids) s → I ids s)
    (hturn : ∀ {id ids s s'}, (∀ t ∈ s.settled.tasks, t.nodeRunId ≠ id) → Turn env id s s' →
      (∀ id', attaches env s'.toRunRecord id' = attaches env s.toRunRecord id') →
        I (id :: ids) s → I ids s')
    (ids : List NodeId) {s : Session} (hc : Coupled s.settled) (hrunning : s.run.status = .running)
    (hnodup : ids.Nodup)
    (hready : ∀ id ∈ ids, isReady s.run.graph.toWorkflowGraph s.nodeRuns id = true)
    (h : I ids s) : Returns (scheduleLoop env now s ids) (I []) := by
  refine scheduleLoop_turns (fun _ ↦ hcontinue) ?_ ids hc hrunning hnodup hready h
  intro id ids s s' hc _ hready hschedule hqueued h
  obtain ⟨n, hn, hpending⟩ := exists_of_isReady hready
  have hfresh : ∀ t ∈ s.settled.tasks, t.nodeRunId ≠ id :=
    Table.find?_eq_none_iff.mp (hc.no_task hn hpending)
  exact hturn hfresh (scheduleNode_turn.of_ok hschedule s' rfl)
    (attaches_congr hqueued.run hqueued.outputs_eq) h

theorem scheduleReadyNodes_rule {I : List NodeId → Session → Prop}
    (hcontinue : ∀ {id ids s}, I (id :: ids) s → I ids s)
    (hturn : ∀ {id ids s s'}, (∀ t ∈ s.settled.tasks, t.nodeRunId ≠ id) → Turn env id s s' →
      (∀ id', attaches env s'.toRunRecord id' = attaches env s.toRunRecord id') →
        I (id :: ids) s → I ids s')
    (hc : Coupled s.settled)
    (hrunning : s.run.status = .running → I (readyNodes (skipInactive now s)) (skipInactive now s))
    (hidle : s.run.status ≠ .running → I [] s) :
    Returns (scheduleReadyNodes env now s) (I []) := by
  by_cases hstatus : s.run.status = .running
  · have hskip : CellSteps Rights.all s.settled (skipInactive now s).settled :=
      skipInactive_steps hc hstatus
    refine Outcome.Holds.ite (fun h ↦ absurd hstatus h) fun _ ↦ ?_
    exact scheduleLoop_rule hcontinue hturn _ (hskip.coupled hc) hstatus
      (s.run.graph.nodeIds_nodup.sublist List.filter_sublist)
      (fun id hid ↦ (mem_readyNodes.mp hid).2) (hrunning hstatus)
  · exact Outcome.Holds.ite (fun _ ↦ hidle hstatus) fun h ↦ absurd hstatus h

/-- Scheduling binds the workspaces that it creates. -/
theorem scheduleReadyNodes_bound (hc : Coupled s.settled) (h : WorkspacesBound Q s.settled)
    (hnew : ∀ w t, w.status = .creating → t.status = .pending → Q w t) :
    Returns (scheduleReadyNodes env now s) fun s' ↦ WorkspacesBound Q s'.settled :=
  scheduleReadyNodes_rule (I := fun _ s ↦ WorkspacesBound Q s.settled) (fun h ↦ h)
    (fun hfresh hturn _ h ↦ h.turn hturn hfresh hnew) hc (fun _ ↦ h.congr rfl rfl) fun _ ↦ h

/-- The tasks that wait for their insert are PENDING. -/
theorem scheduleReadyNodes_added (hc : Coupled s.settled)
    (h : ∀ t ∈ s.added, t.status = .pending) :
    Returns (scheduleReadyNodes env now s) fun s' ↦ ∀ t ∈ s'.added, t.status = .pending := by
  refine scheduleReadyNodes_rule (I := fun _ s ↦ ∀ t ∈ s.added, t.status = .pending) (fun h ↦ h)
    (fun _ hturn _ h ↦ ?_) hc (fun _ ↦ h) fun _ ↦ h
  cases hturn with
  | plain t ht _ _ _ hadded _ =>
      rw [hadded]
      intro u hu
      rcases List.mem_append.mp hu with hu | hu
      · exact h u hu
      · rw [List.mem_singleton.mp hu]
        exact ht.status
  | attached t w ht _ _ _ hadded _ =>
      rw [hadded]
      intro u hu
      rw [List.mem_singleton.mp hu]
      exact ht.status

/-! ## Reconciliation -/

theorem promoteDueWaits_rows (h : promoteDueWaits env now s = .ok s') :
    s'.tasks = s.tasks ∧ s'.added = s.added ∧ s'.workspaces = s.workspaces := by
  unfold promoteDueWaits at h
  split at h
  · cases h
  · cases h
    exact ⟨rfl, rfl, rfl⟩

theorem cancelTask_same (t : ExecutionTask) : (cancelTask now t).nodeRunId = t.nodeRunId ∧
    (cancelTask now t).payload = t.payload ∧
      (cancelTask now t).requiredCapability = t.requiredCapability := by
  unfold cancelTask
  split <;> exact ⟨rfl, rfl, rfl⟩

theorem recordDerived_rows (now : Time) (current derived : WorkflowRunStatus) (s : Session) :
    (recordDerived now current derived s).workspaces = s.workspaces ∧
      (recordDerived now current derived s).added = s.added ∧
      (recordDerived now current derived s).tasks =
        if derived = .failed ∧ derived ≠ current then s.tasks.map (cancelTask now) else s.tasks := by
  have hevent (s : Session) : (workflowEvent s derived (waitingReason s.nodeRuns)).workspaces =
      s.workspaces ∧ (workflowEvent s derived (waitingReason s.nodeRuns)).added = s.added ∧
        (workflowEvent s derived (waitingReason s.nodeRuns)).tasks = s.tasks := by
    unfold workflowEvent
    split <;> exact ⟨rfl, rfl, rfl⟩
  unfold recordDerived
  by_cases hsame : derived = current
  · simp [hsame]
  · rw [if_neg hsame]
    by_cases hfailed : derived = .failed
    · rw [if_pos hfailed, if_pos ⟨hfailed, hsame⟩]
      exact hevent _
    · rw [if_neg hfailed, if_neg fun h ↦ hfailed h.1]
      exact hevent _

/-- The cancellation of the settled rows: it reaches the flushed tasks only. -/
def cancelFlushed (now : Time) (flushed : List ExecutionTask) (t : ExecutionTask) : ExecutionTask :=
  if t.nodeRunId ∈ flushed.map ExecutionTask.nodeRunId then cancelTask now t else t

theorem cancelFlushed_of_mem {flushed : List ExecutionTask} {t : ExecutionTask} (ht : t ∈ flushed) :
    cancelFlushed now flushed t = cancelTask now t :=
  if_pos (List.mem_map_of_mem ht)

theorem settled_cancel (hnodup : (s.settled.tasks.map ExecutionTask.nodeRunId).Nodup)
    (hadded : s'.added = s.added) (htasks : s'.tasks = s.tasks.map (cancelTask now)) :
    s'.settled.tasks = s.settled.tasks.map (cancelFlushed now s.tasks) := by
  have hflushed : s.tasks.map (cancelTask now) = s.tasks.map (cancelFlushed now s.tasks) :=
    List.map_congr_left fun t ht ↦ (cancelFlushed_of_mem ht).symm
  have hpending : (Session.numbered s.tasks.length s.added).map (cancelFlushed now s.tasks) =
      Session.numbered s.tasks.length s.added := by
    refine (List.map_congr_left fun t ht ↦ if_neg fun hmem ↦ ?_).trans (List.map_id _)
    obtain ⟨u, hu, heq⟩ := List.mem_map.mp hmem
    rw [Session.settled, List.map_append, List.nodup_append] at hnodup
    exact hnodup.2.2 _ (List.mem_map_of_mem hu) _ (List.mem_map_of_mem ht) heq
  simp only [Session.settled, htasks, hadded, List.length_map, List.map_append]
  rw [hflushed, hpending]

/-- Cancelling the flushed tasks of a session. -/
theorem WorkspacesBound.cancel (h : WorkspacesBound Q s.settled)
    (hnodup : (s.settled.tasks.map ExecutionTask.nodeRunId).Nodup)
    (hworkspaces : s'.workspaces = s.workspaces) (hadded : s'.added = s.added)
    (htasks : s'.tasks = s.tasks.map (cancelTask now))
    (hQ : ∀ w ∈ s.workspaces, ∀ t ∈ s.tasks, t.nodeRunId = w.nodeRunId →
      Q w t → Q w (cancelTask now t)) : WorkspacesBound Q s'.settled := by
  refine h.of_map (settled_cancel hnodup hadded htasks) hworkspaces (fun t _ ↦ ?_)
    fun w hw t ht hkey _ hQt ↦ ?_
  · unfold cancelFlushed
    split
    · exact cancelTask_same t
    · exact ⟨rfl, rfl, rfl⟩
  · unfold cancelFlushed
    split
    · next hmem =>
      obtain ⟨u, hu, heq⟩ := List.mem_map.mp hmem
      obtain rfl : u = t := List.inj_on_of_nodup_map hnodup (List.mem_append_left _ hu) ht heq
      exact hQ w hw u hu hkey hQt
    · exact hQt

namespace ReconcileTrace

variable {s₁ s₂ : Session} {derived : WorkflowRunStatus}

theorem scheduled_bound (h : ReconcileTrace env now db s₁ s₂ derived db') (hc : Coupled db)
    (hbound : WorkspacesBound Q db)
    (hnew : ∀ w t, w.status = .creating → t.status = .pending → Q w t) :
    WorkspacesBound Q s₂.settled := by
  obtain ⟨htasks, hadded, hworkspaces⟩ := promoteDueWaits_rows h.promote
  have hpromoted : WorkspacesBound Q s₁.settled :=
    hbound.congr (by simp [Session.settled, htasks, hadded, Session.numbered]) hworkspaces
  exact (scheduleReadyNodes_bound (h.promoted_coupled hc) hpromoted hnew).of_ok h.schedule

end ReconcileTrace

/-- Reconciliation keeps a relation that its cancellations keep. -/
theorem reconcile_bound (hc : Coupled db) (hbound : WorkspacesBound Q db)
    (hnew : ∀ w t, w.status = .creating → t.status = .pending → Q w t)
    (hcancelled : db.run.status = .cancelled → ∀ w ∈ db.workspaces, ∀ t ∈ db.tasks,
      t.nodeRunId = w.nodeRunId → Q w t → Q w (cancelTask now t))
    (hfailed : ∀ s₁ s₂, db.run.status = .running ∨ db.run.status = .waiting →
      ReconcileTrace env now db s₁ s₂ .failed db' → ∀ w ∈ s₂.workspaces,
        ∀ t ∈ s₂.tasks, t.nodeRunId = w.nodeRunId → Q w t → Q w (cancelTask now t))
    (h : reconcile env now db = .ok db') : WorkspacesBound Q db' := by
  rcases reconcile_cases hc h with ⟨hstatus, rfl⟩ | ⟨-, rfl⟩ |
    ⟨hactive, s₁, s₂, derived, htrace⟩
  · have hsettled : WorkspacesBound Q ({ db with } : Session).settled := by
      rwa [Session.settled_flushed]
    exact hsettled.cancel (by rw [Session.settled_flushed]; exact hc.taskNodes) rfl rfl rfl
      (hcancelled hstatus)
  · exact hbound
  · have hbound₂ := htrace.scheduled_bound hc hbound hnew
    obtain ⟨finishedAt, s', rfl, -, hfinish⟩ := htrace.finish
    have hc₃ := htrace.derived_coupled hc finishedAt
    obtain ⟨s₄, rfl, hlast⟩ := reconcileFinish_ok hfinish
    obtain ⟨hworkspaces, hadded, htasks⟩ := recordDerived_rows now db.run.status derived
      { s₂ with run := { s₂.run with status := derived, finishedAt := finishedAt } }
    have hrecorded : WorkspacesBound Q (recordDerived now db.run.status derived
        { s₂ with
          run := { s₂.run with status := derived, finishedAt := finishedAt } }).settled := by
      by_cases hcancel : derived = .failed ∧ derived ≠ db.run.status
      · rw [if_pos hcancel] at htasks
        obtain ⟨rfl, -⟩ := hcancel
        have hrunning : db.run.status = .running ∨ db.run.status = .waiting := by
          have hlegal := htrace.legal
          rw [htrace.scheduled_run hc] at hlegal
          rcases hactive with h | h
          · simp [h, WorkflowRunStatus.transitions] at hlegal
          · exact h
        have hbound₃ : WorkspacesBound Q ({ s₂ with
            run := { s₂.run with status := .failed, finishedAt := finishedAt } } : Session).settled :=
          hbound₂.congr rfl rfl
        exact hbound₃.cancel hc₃.taskNodes hworkspaces hadded htasks
          (hfailed s₁ s₂ hrunning htrace)
      · rw [if_neg hcancel] at htasks
        exact hbound₂.congr (by simp [Session.settled, htasks, hadded]) hworkspaces
    rcases hlast with ⟨-, rfl⟩ | ⟨rfl, hschedule⟩
    · exact hrecorded.congr rfl rfl
    · have hlast := (scheduleReadyNodes_bound (recordDerived_coupled hc₃ rfl) hrecorded hnew).of_ok
        hschedule
      exact hlast.congr rfl rfl

theorem scheduleRun_bound (hc : Coupled db) (hbound : WorkspacesBound Q db)
    (hnew : ∀ w t, w.status = .creating → t.status = .pending → Q w t)
    (h : scheduleRun env now db = .ok db') : WorkspacesBound Q db' := by
  have hc₀ : Coupled ({ db with } : Session).settled := by rwa [Session.settled_flushed]
  have hbound₀ : WorkspacesBound Q ({ db with } : Session).settled := by
    rwa [Session.settled_flushed]
  obtain ⟨s', hschedule, hcommit⟩ := Outcome.bind_eq_ok_iff.mp h
  have hc' := ((scheduleReadyNodes_sound Rights.all hc₀).of_ok hschedule).coupled hc₀
  obtain rfl := (commit_sound hc').of_ok hcommit
  exact (scheduleReadyNodes_bound hc₀ hbound₀ hnew).of_ok hschedule

/-- A new run has no tasks and no workspaces. -/
theorem createRun_bound {runId : String} {graph : ParsedGraph} {executionSnapshot input : Dict}
    (h : createRun env now runId graph executionSnapshot input = .ok db) :
    WorkspacesBound Q db := by
  obtain ⟨_, -, h⟩ := Outcome.bind_eq_ok_iff.mp h
  cases h
  exact ⟨List.nodup_nil, by simp, by simp, by simp, by simp⟩

end Relayvia
