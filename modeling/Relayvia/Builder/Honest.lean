import Relayvia.Builder.Page

/-!
# What the toolbar says about unsaved and unvalidated edits

The answers carry no graph: `markSaved` and `setValidation` clear the flags whatever was
edited since their request was sent.
-/

namespace Relayvia

open BuilderEdit (Effect)

namespace BuilderPage

variable {p p' : BuilderPage}

/-- Steps that touch neither flag, graph, draft nor displayed validation. -/
theorem Honest.congr (h : p.Honest) (hgraph : p'.store.graph = p.store.graph)
    (hdirty : p'.store.isDirty = p.store.isDirty)
    (hstale : p'.store.validationStale = p.store.validationStale)
    (hdraft : p'.draft = p.draft) (hvalidated : p'.validated = p.validated) : p'.Honest := by
  constructor
  · rw [hgraph, hdirty, hdraft]
    exact h.saved
  · rw [hgraph, hstale, hvalidated]
    exact h.validated

theorem Honest.edit (h : p.Honest) (e : BuilderEdit) :
    BuilderPage.Honest { p with store := e.apply p.store } := by
  cases e.apply_effect p.store with
  | none hgraph hdirty hstale => exact h.congr hgraph hdirty hstale rfl rfl
  | edited hdirty hstale =>
      constructor
      · intro hclean
        simp [hdirty] at hclean
      · intro hfresh
        simp [hstale] at hfresh
  | moved hdirty hstale hunplaced =>
      constructor
      · intro hclean
        simp [hdirty] at hclean
      · intro hfresh
        obtain ⟨graph, hvalidated, hsame⟩ := h.validated (hstale ▸ hfresh)
        exact ⟨graph, hvalidated, hunplaced.trans hsame⟩

/-- A confirmed save: the edits are declared saved. -/
theorem honest_markSaved_iff (h : p.Honest)
    (hgraph : p'.store.graph = p.store.graph) (hdirty : p'.store.isDirty = false)
    (hstale : p'.store.validationStale = p.store.validationStale)
    (hdraft : p'.draft = p.draft) (hvalidated : p'.validated = p.validated) :
    p'.Honest ↔ p.store.graph = some p.draft := by
  constructor
  · intro h'
    have := h'.saved hdirty
    rwa [hgraph, hdraft] at this
  · intro hsame
    constructor
    · intro _
      rw [hgraph, hdraft, hsame]
    · rw [hgraph, hstale, hvalidated]
      exact h.validated

/-- A displayed validation: it is declared fresh. -/
theorem honest_setValidation_iff {graph : BuilderGraph} (h : p.Honest)
    (hgraph : p'.store.graph = p.store.graph) (hdirty : p'.store.isDirty = p.store.isDirty)
    (hstale : p'.store.validationStale = false)
    (hdraft : p'.draft = p.draft) (hvalidated : p'.validated = some graph) :
    p'.Honest ↔ p.store.graph.map (·.unplaced) = some graph.unplaced := by
  constructor
  · intro h'
    obtain ⟨graph', heq, hsame⟩ := h'.validated hstale
    rw [hvalidated] at heq
    cases heq
    rwa [hgraph] at hsame
  · intro hsame
    constructor
    · rw [hgraph, hdirty, hdraft]
      exact h.saved
    · intro _
      exact ⟨graph, hvalidated, by rw [hgraph, hsame]⟩

theorem honest_storeDraft_iff (h : p.Honest) (i : ℕ) :
    (p.storeDraft i).Honest ↔ (BuilderEvent.storeDraft i).Timely p := by
  simp only [storeDraft, BuilderEvent.Timely]
  split
  · rename_i hnone
    simp [hnone, h]
  · rename_i request hrequest
    split
    · rename_i hstored
      simp [hrequest, hstored, h]
    · rename_i hstored
      constructor
      · rintro h' request' hrequest' - hclean
        rw [hrequest] at hrequest'
        cases hrequest'
        exact h'.saved hclean
      · intro htimely
        exact ⟨htimely request hrequest (by simpa using hstored), h.validated⟩

theorem honest_saveSucceeds_iff (h : p.Honest) (i : ℕ) (updatedAt : String) :
    (p.saveSucceeds i updatedAt).Honest ↔ (BuilderEvent.saveSucceeds i updatedAt).Timely p := by
  simp only [saveSucceeds, BuilderEvent.Timely]
  split
  · rename_i hnone
    simp [hnone, h]
  · rename_i request hrequest
    split
    · rename_i hconfirmed
      simp only [hrequest, Option.some.injEq, forall_eq', hconfirmed.1, forall_const]
      have hanswered : request.answered = false := by simpa using hconfirmed.2
      simp only [hanswered, forall_const]
      split
      · exact honest_markSaved_iff h rfl rfl rfl rfl rfl
      · exact honest_markSaved_iff h rfl rfl rfl rfl rfl
    · rename_i hnot
      refine iff_of_true h ?_
      rintro request' hrequest' hstored hanswered
      rw [hrequest] at hrequest'
      cases hrequest'
      exact absurd ⟨hstored, by simp [hanswered]⟩ hnot

theorem honest_saveFails (h : p.Honest) (i : ℕ) (message : String) :
    (p.saveFails i message).Honest := by
  unfold saveFails
  split
  · exact h
  · split
    · exact h
    · split
      · exact h.congr rfl rfl rfl rfl rfl
      · exact h.congr rfl rfl rfl rfl rfl

theorem honest_validationSucceeds_iff (h : p.Honest) (i : ℕ) (result : ValidationResult)
    (validatedAt : String) :
    (p.validationSucceeds i result validatedAt).Honest ↔
      (BuilderEvent.validationSucceeds i result validatedAt).Timely p := by
  simp only [validationSucceeds, BuilderEvent.Timely]
  split
  · rename_i hnone
    simp [hnone, h]
  · rename_i request hrequest
    split
    · rename_i hanswered
      simp [hrequest, hanswered, h]
    · rename_i hanswered
      have hanswered : request.answered = false := by simpa using hanswered
      simp only [hrequest, Option.some.injEq, forall_eq', hanswered, forall_const]
      split
      · rename_i horigin
        simp only [horigin, true_or, forall_const]
        exact honest_setValidation_iff h rfl rfl rfl rfl rfl
      · rename_i horigin
        split
        · rename_i hvalid
          refine iff_of_true (h.congr rfl rfl rfl rfl rfl) ?_
          simp [horigin, hvalid]
        · rename_i hvalid
          simp only [hvalid, or_true, forall_const]
          exact honest_setValidation_iff h rfl rfl rfl rfl rfl

theorem honest_validationFails (h : p.Honest) (i : ℕ) : (p.validationFails i).Honest := by
  unfold validationFails
  split
  · exact h
  · split
    · exact h
    · split
      · exact h.congr rfl rfl rfl rfl rfl
      · exact h.congr rfl rfl rfl rfl rfl

theorem honest_save (h : p.Honest) (canSave : Bool) : (p.save canSave).Honest := by
  unfold save
  split
  · exact h
  · split
    · exact h
    · exact h.congr rfl rfl rfl rfl rfl

theorem honest_onValidate (h : p.Honest) : p.onValidate.Honest := by
  unfold onValidate
  split
  · exact h
  · exact h.congr rfl rfl rfl rfl rfl

theorem honest_submitVersion (h : p.Honest) (canSave : Bool) :
    (p.submitVersion canSave).Honest := by
  unfold submitVersion
  split
  · exact h
  · split
    · exact h
    · split
      · exact h.congr rfl rfl rfl rfl rfl
      · exact h.congr rfl rfl rfl rfl rfl

theorem honest_openDraft (workflowId workflowName : String) (draft : BuilderGraph) :
    (openDraft workflowId workflowName draft).Honest := by
  constructor
  · intro _
    rfl
  · intro hfresh
    cases hfresh

end BuilderPage

/-- One event keeps the toolbar honest exactly when it is timely. -/
theorem BuilderEvent.honest_exec_iff (event : BuilderEvent) {p : BuilderPage} (h : p.Honest) :
    (event.exec p).Honest ↔ event.Timely p := by
  cases event with
  | edit e => exact iff_of_true (h.edit e) trivial
  | save canSave => exact iff_of_true (p.honest_save h canSave) trivial
  | validate => exact iff_of_true (p.honest_onValidate h) trivial
  | submitVersion canSave => exact iff_of_true (p.honest_submitVersion h canSave) trivial
  | storeDraft i => exact p.honest_storeDraft_iff h i
  | saveSucceeds i updatedAt => exact p.honest_saveSucceeds_iff h i updatedAt
  | saveFails i message => exact iff_of_true (p.honest_saveFails h i message) trivial
  | validationSucceeds i result validatedAt =>
      exact p.honest_validationSucceeds_iff h i result validatedAt
  | validationFails i => exact iff_of_true (p.honest_validationFails h i) trivial

/-! ## Runs without an edit while a request is under way -/

namespace BuilderPage

/-- Every request under way was sent for the graph that is being edited. -/
structure UpToDate (p : BuilderPage) : Prop where
  saves : ∀ request ∈ p.saves, ¬(request.stored ∧ request.answered) →
    p.store.graph = some request.graph
  stored : ∀ request ∈ p.saves, request.stored → ¬request.answered →
    p.store.graph = some p.draft
  validations : ∀ request ∈ p.validations, ¬request.answered →
    p.store.graph = some request.graph

variable {p p' : BuilderPage}

theorem UpToDate.timely (h : p.UpToDate) (event : BuilderEvent) : event.Timely p := by
  cases event with
  | storeDraft i =>
      intro request hrequest hstored _
      exact h.saves request (List.mem_of_getElem? hrequest) (by simp [hstored])
  | saveSucceeds i updatedAt =>
      intro request hrequest hstored hanswered
      exact h.stored request (List.mem_of_getElem? hrequest) hstored (by simp [hanswered])
  | validationSucceeds i result validatedAt =>
      intro request hrequest hanswered _
      rw [h.validations request (List.mem_of_getElem? hrequest) (by simp [hanswered])]
      rfl
  | _ => trivial

theorem UpToDate.addSave (h : p.UpToDate) {request : SaveRequest}
    (hgraph : p'.store.graph = p.store.graph) (hdraft : p'.draft = p.draft)
    (hsaves : p'.saves = p.saves ++ [request]) (hvalidations : p'.validations = p.validations)
    (hcurrent : p.store.graph = some request.graph) (hstored : request.stored = false) :
    p'.UpToDate := by
  constructor
  · intro r hr hpending
    rw [hsaves, List.mem_append, List.mem_singleton] at hr
    rw [hgraph]
    rcases hr with hr | rfl
    · exact h.saves r hr hpending
    · exact hcurrent
  · intro r hr hr_stored hr_answered
    rw [hsaves, List.mem_append, List.mem_singleton] at hr
    rw [hgraph, hdraft]
    rcases hr with hr | rfl
    · exact h.stored r hr hr_stored hr_answered
    · simp [hstored] at hr_stored
  · rw [hgraph, hvalidations]
    exact h.validations

theorem UpToDate.addValidation (h : p.UpToDate) {request : ValidateRequest}
    (hgraph : p'.store.graph = p.store.graph) (hdraft : p'.draft = p.draft)
    (hsaves : p'.saves = p.saves) (hvalidations : p'.validations = p.validations ++ [request])
    (hcurrent : p.store.graph = some request.graph) : p'.UpToDate := by
  constructor
  · rw [hgraph, hsaves]
    exact h.saves
  · rw [hgraph, hsaves, hdraft]
    exact h.stored
  · intro r hr hpending
    rw [hvalidations, List.mem_append, List.mem_singleton] at hr
    rw [hgraph]
    rcases hr with hr | rfl
    · exact h.validations r hr hpending
    · exact hcurrent

/-- The answer to a save: the request is under way no more. -/
theorem UpToDate.answerSave (h : p.UpToDate) {i : ℕ} {request : SaveRequest}
    (hrequest : p.saves[i]? = some request)
    (hgraph : p'.store.graph = p.store.graph) (hdraft : p'.draft = p.draft)
    (hsaves : p'.saves = p.saves.set i { request with answered := true })
    (hvalidations : p'.validations = p.validations) (hpending : ¬request.answered) :
    p'.UpToDate := by
  constructor
  · intro r hr hr_pending
    rw [hsaves] at hr
    rw [hgraph]
    rcases List.mem_or_eq_of_mem_set hr with hr | rfl
    · exact h.saves r hr hr_pending
    · exact h.saves request (List.mem_of_getElem? hrequest) (fun hdone ↦ hpending hdone.2)
  · intro r hr hr_stored hr_answered
    rw [hsaves] at hr
    rw [hgraph, hdraft]
    rcases List.mem_or_eq_of_mem_set hr with hr | rfl
    · exact h.stored r hr hr_stored hr_answered
    · exact absurd rfl hr_answered
  · rw [hgraph, hvalidations]
    exact h.validations

theorem UpToDate.answerValidation (h : p.UpToDate) {i : ℕ} {request : ValidateRequest}
    (hgraph : p'.store.graph = p.store.graph) (hdraft : p'.draft = p.draft)
    (hsaves : p'.saves = p.saves)
    (hvalidations : p'.validations = p.validations.set i { request with answered := true }) :
    p'.UpToDate := by
  constructor
  · rw [hgraph, hsaves]
    exact h.saves
  · rw [hgraph, hsaves, hdraft]
    exact h.stored
  · intro r hr hpending
    rw [hvalidations] at hr
    rw [hgraph]
    rcases List.mem_or_eq_of_mem_set hr with hr | rfl
    · exact h.validations r hr hpending
    · exact absurd rfl hpending

theorem UpToDate.storeDraft (h : p.UpToDate) (i : ℕ) : (p.storeDraft i).UpToDate := by
  unfold BuilderPage.storeDraft
  split
  · exact h
  · rename_i request hrequest
    split
    · exact h
    · rename_i hstored
      have hmem := List.mem_of_getElem? hrequest
      have hcurrent := h.saves request hmem (fun hdone ↦ hstored hdone.1)
      constructor
      · intro r hr hpending
        rcases List.mem_or_eq_of_mem_set hr with hr | rfl
        · exact h.saves r hr hpending
        · exact hcurrent
      · intro _ _ _ _
        exact hcurrent
      · exact h.validations

theorem UpToDate.saveSucceeds (h : p.UpToDate) (i : ℕ) (updatedAt : String) :
    (p.saveSucceeds i updatedAt).UpToDate := by
  unfold BuilderPage.saveSucceeds
  split
  · exact h
  · rename_i request hrequest
    split
    · rename_i hconfirmed
      have hcurrent := h.saves request (List.mem_of_getElem? hrequest)
        (fun hdone ↦ hconfirmed.2 hdone.2)
      split
      · exact h.answerSave hrequest rfl rfl rfl rfl hconfirmed.2
      · have hanswered : UpToDate
            { p with
              store := p.store.markSaved updatedAt
              saves := p.saves.set i { request with answered := true } } :=
          h.answerSave hrequest rfl rfl rfl rfl hconfirmed.2
        exact hanswered.addValidation rfl rfl rfl rfl hcurrent
    · exact h

theorem UpToDate.saveFails (h : p.UpToDate) (i : ℕ) (message : String) :
    (p.saveFails i message).UpToDate := by
  unfold BuilderPage.saveFails
  split
  · exact h
  · rename_i request hrequest
    split
    · exact h
    · rename_i hpending
      split
      · exact h.answerSave hrequest rfl rfl rfl rfl hpending
      · exact h.answerSave hrequest rfl rfl rfl rfl hpending

theorem UpToDate.validationSucceeds (h : p.UpToDate) (i : ℕ) (result : ValidationResult)
    (validatedAt : String) : (p.validationSucceeds i result validatedAt).UpToDate := by
  unfold BuilderPage.validationSucceeds
  split
  · exact h
  · split
    · exact h
    · split
      · exact h.answerValidation rfl rfl rfl rfl
      · split
        · exact h.answerValidation rfl rfl rfl rfl
        · exact h.answerValidation rfl rfl rfl rfl

theorem UpToDate.validationFails (h : p.UpToDate) (i : ℕ) :
    (p.validationFails i).UpToDate := by
  unfold BuilderPage.validationFails
  split
  · exact h
  · split
    · exact h
    · split
      · exact h.answerValidation rfl rfl rfl rfl
      · exact h.answerValidation rfl rfl rfl rfl

theorem UpToDate.send (h : p.UpToDate) (canSave : Bool) :
    (p.save canSave).UpToDate ∧ p.onValidate.UpToDate ∧ (p.submitVersion canSave).UpToDate := by
  unfold save onValidate submitVersion
  cases hgraph : p.store.graph with
  | none => exact ⟨h, h, h⟩
  | some graph =>
      refine ⟨?_, h.addValidation rfl rfl rfl rfl hgraph, ?_⟩
      · dsimp only
        split
        · exact h
        · exact h.addSave rfl rfl rfl rfl hgraph rfl
      · dsimp only
        split
        · exact h
        · split
          · exact h.addSave rfl rfl rfl rfl hgraph rfl
          · exact h.addValidation rfl rfl rfl rfl hgraph

end BuilderPage

/-- An edit finds no request under way. -/
def BuilderEvent.Undisturbed : BuilderEvent → BuilderPage → Prop
  | edit _, p => (∀ request ∈ p.saves, request.stored ∧ request.answered) ∧
      ∀ request ∈ p.validations, request.answered
  | _, _ => True

theorem BuilderPage.UpToDate.exec {p : BuilderPage} (h : p.UpToDate) {event : BuilderEvent}
    (hquiet : event.Undisturbed p) : (event.exec p).UpToDate := by
  cases event with
  | edit e =>
      constructor
      · intro request hrequest hpending
        exact absurd (hquiet.1 request hrequest) hpending
      · intro request hrequest _ hpending
        exact absurd (hquiet.1 request hrequest).2 hpending
      · intro request hrequest hpending
        exact absurd (hquiet.2 request hrequest) hpending
  | save canSave => exact (h.send canSave).1
  | validate => exact (h.send true).2.1
  | submitVersion canSave => exact (h.send canSave).2.2
  | storeDraft i => exact h.storeDraft i
  | saveSucceeds i updatedAt => exact h.saveSucceeds i updatedAt
  | saveFails i message => exact h.saveFails i message
  | validationSucceeds i result validatedAt => exact h.validationSucceeds i result validatedAt
  | validationFails i => exact h.validationFails i

/-- However many requests overlap, only an edit made while one of them is under way can
make its answer untimely. -/
theorem each_timely_of_undisturbed {events : List BuilderEvent} {p : BuilderPage}
    (h : p.UpToDate) (hquiet : Schedule.Each BuilderEvent.exec BuilderEvent.Undisturbed events p) :
    Schedule.Each BuilderEvent.exec BuilderEvent.Timely events p := by
  induction events generalizing p with
  | nil => trivial
  | cons event events ih => exact ⟨h.timely event, ih (h.exec hquiet.1) hquiet.2⟩

/-! ## The toolbar -/

/-- In every interleaving of edits, requests and answers the toolbar is honest in every
state exactly when each draft is stored, each save confirmed and each validation displayed
for the graph that is then being edited. -/
theorem builder_honest_iff (workflowId workflowName : String) (draft : BuilderGraph)
    (events : List BuilderEvent) :
    Schedule.Throughout BuilderEvent.exec BuilderPage.Honest events
        (BuilderPage.openDraft workflowId workflowName draft) ↔
      Schedule.Each BuilderEvent.exec BuilderEvent.Timely events
        (BuilderPage.openDraft workflowId workflowName draft) := by
  apply Schedule.throughout_iff_each (I := fun _ ↦ True) trivial
  · exact BuilderPage.honest_openDraft workflowId workflowName draft
  · intro event p _
    trivial
  · intro event p _ h
    exact event.honest_exec_iff h

def plannerNode : BuilderNode where
  id := "planner"
  type := .agent
  subtype := "agent"
  name := "Planner"
  config := [("agent_id", .str "agent-1")]
  position := ⟨100, 100⟩

/-- A node is renamed, the draft is saved, and the node is renamed once more before the
server's answer arrives. -/
theorem not_builder_honest_rename_inFlight :
    ¬ ∀ (workflowId workflowName : String) (draft : BuilderGraph) (events : List BuilderEvent),
      Schedule.Throughout BuilderEvent.exec BuilderPage.Honest events
        (BuilderPage.openDraft workflowId workflowName draft) := by
  intro h
  have hlast := (h "workflow-1" "Coding Showcase" { nodes := [plannerNode] }
    [.edit (.updateNode "planner" { name := some "Draft" }), .save true,
      .edit (.updateNode "planner" { name := some "Final" }), .storeDraft 0,
      .saveSucceeds 0 "2026-08-15T00:00:00Z"]).last
  have hsaved := hlast.saved (by decide)
  revert hsaved
  decide

end Relayvia
