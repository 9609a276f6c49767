import Relayvia.Builder.Store
import Relayvia.Library.Schedule

/-!
# The builder page and the draft on the server

One tab edits the draft of a workflow.  A request stays in the lists of the page, with the
graph that it was sent for; the server and the browser handle the requests in any order.
-/

namespace Relayvia

/-- Who waits for a request: the toolbar's own mutation or the creation of a version. -/
inductive RequestOrigin where
  | toolbar | version
  deriving DecidableEq

structure SaveRequest where
  graph : BuilderGraph
  origin : RequestOrigin
  stored : Bool := false
  answered : Bool := false
  deriving DecidableEq

structure ValidateRequest where
  graph : BuilderGraph
  origin : RequestOrigin
  answered : Bool := false
  deriving DecidableEq

structure BuilderPage where
  store : WorkflowBuilderState
  draft : BuilderGraph
  saves : List SaveRequest := []
  validations : List ValidateRequest := []
  /-- The graph that the displayed validation was computed for. -/
  validated : Option BuilderGraph := none
  deriving DecidableEq

namespace BuilderPage

def openDraft (workflowId workflowName : String) (draft : BuilderGraph) : BuilderPage where
  store := WorkflowBuilderState.initializeStore workflowId workflowName draft .draft false
  draft := draft

/-- `save`, called by the toolbar and by the timer of the automatic save; `canSave` says
that the local checks of the page report no error. -/
def save (p : BuilderPage) (canSave : Bool) : BuilderPage :=
  match p.store.graph with
  | none => p
  | some graph =>
      if p.store.readOnly ∨ ¬canSave ∨ p.store.isSaving then p
      else
        { p with
          store := p.store.setSaving true
          saves := p.saves ++ [{ graph, origin := .toolbar }] }

def onValidate (p : BuilderPage) : BuilderPage :=
  match p.store.graph with
  | none => p
  | some graph =>
      { p with
        store := p.store.setValidating true
        validations := p.validations ++ [{ graph, origin := .toolbar }] }

/-- The version's own validation, sent for the graph that the form was submitted with. -/
def validateVersion (p : BuilderPage) (graph : BuilderGraph) : BuilderPage :=
  { p with validations := p.validations ++ [{ graph, origin := .version }] }

/-- The version form is submitted: `versionMutation` up to its first answer. -/
def submitVersion (p : BuilderPage) (canSave : Bool) : BuilderPage :=
  match p.store.graph with
  | none => p
  | some graph =>
      if p.store.readOnly then p
      else if p.store.isDirty ∧ canSave then
        { p with saves := p.saves ++ [{ graph, origin := .version }] }
      else p.validateVersion graph

/-- The server stores the graph of a request. -/
def storeDraft (p : BuilderPage) (i : ℕ) : BuilderPage :=
  match p.saves[i]? with
  | none => p
  | some request =>
      if request.stored then p
      else { p with draft := request.graph, saves := p.saves.set i { request with stored := true } }

/-- The answer to a stored request reaches the browser. -/
def saveSucceeds (p : BuilderPage) (i : ℕ) (updatedAt : String) : BuilderPage :=
  match p.saves[i]? with
  | none => p
  | some request =>
      if request.stored ∧ ¬request.answered then
        let saved : BuilderPage :=
          { p with
            store := p.store.markSaved updatedAt
            saves := p.saves.set i { request with answered := true } }
        match request.origin with
        | .toolbar => saved
        | .version => saved.validateVersion request.graph
      else p

/-- The browser gives a request up, whatever the server has done or will do with it. -/
def saveFails (p : BuilderPage) (i : ℕ) (message : String) : BuilderPage :=
  match p.saves[i]? with
  | none => p
  | some request =>
      if request.answered then p
      else
        { p with
          store :=
            match request.origin with
            | .toolbar => p.store.setSaveError (some message)
            | .version => p.store
          saves := p.saves.set i { request with answered := true } }

/-- A version whose graph is valid is created and changes nothing here. -/
def validationSucceeds (p : BuilderPage) (i : ℕ) (result : ValidationResult)
    (validatedAt : String) : BuilderPage :=
  match p.validations[i]? with
  | none => p
  | some request =>
      if request.answered then p
      else
        let answered : BuilderPage :=
          { p with validations := p.validations.set i { request with answered := true } }
        match request.origin with
        | .toolbar =>
            { answered with
              store := (p.store.setValidation result validatedAt).setValidating false
              validated := some request.graph }
        | .version =>
            if result.valid then answered
            else
              { answered with
                store := p.store.setValidation result validatedAt
                validated := some request.graph }

def validationFails (p : BuilderPage) (i : ℕ) : BuilderPage :=
  match p.validations[i]? with
  | none => p
  | some request =>
      if request.answered then p
      else
        { p with
          store :=
            match request.origin with
            | .toolbar => p.store.setValidating false
            | .version => p.store
          validations := p.validations.set i { request with answered := true } }

end BuilderPage

inductive BuilderEvent where
  | edit (edit : BuilderEdit)
  | save (canSave : Bool)
  | validate
  | submitVersion (canSave : Bool)
  | storeDraft (i : ℕ)
  | saveSucceeds (i : ℕ) (updatedAt : String)
  | saveFails (i : ℕ) (message : String)
  | validationSucceeds (i : ℕ) (result : ValidationResult) (validatedAt : String)
  | validationFails (i : ℕ)

def BuilderEvent.exec : BuilderEvent → BuilderPage → BuilderPage
  | edit e, p => { p with store := e.apply p.store }
  | save canSave, p => p.save canSave
  | validate, p => p.onValidate
  | submitVersion canSave, p => p.submitVersion canSave
  | storeDraft i, p => p.storeDraft i
  | saveSucceeds i updatedAt, p => p.saveSucceeds i updatedAt
  | saveFails i message, p => p.saveFails i message
  | validationSucceeds i result validatedAt, p => p.validationSucceeds i result validatedAt
  | validationFails i, p => p.validationFails i

/-- What the toolbar tells the user is true. -/
structure BuilderPage.Honest (p : BuilderPage) : Prop where
  saved : p.store.isDirty = false → p.store.graph = some p.draft
  validated : p.store.validationStale = false →
    ∃ graph, p.validated = some graph ∧ p.store.graph.map (·.unplaced) = some graph.unplaced

/-- The event finds the graph that its request was sent for: a draft is stored while edits
are unsaved or is the local graph, a save is confirmed while the server has the local graph,
a validation is displayed for the local graph up to the places of its nodes. -/
def BuilderEvent.Timely : BuilderEvent → BuilderPage → Prop
  | storeDraft i, p => ∀ request, p.saves[i]? = some request → request.stored = false →
      p.store.isDirty = false → p.store.graph = some request.graph
  | saveSucceeds i _, p => ∀ request, p.saves[i]? = some request → request.stored = true →
      request.answered = false → p.store.graph = some p.draft
  | validationSucceeds i result _, p => ∀ request, p.validations[i]? = some request →
      request.answered = false → (request.origin = .toolbar ∨ result.valid = false) →
        p.store.graph.map (·.unplaced) = some request.graph.unplaced
  | _, _ => True

end Relayvia
