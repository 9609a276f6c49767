import Relayvia.Artifacts.Registration

/-!
# Registration in a session, with what can go wrong

The Worker registers the candidates of one result inside `with session_factory() as db`.
The storage takes no part in the transaction: `register_artifact_bytes` listens for the
`after_rollback` of the session, which a failed flush fires and `close()` does not.
-/

namespace Relayvia

inductive SaveOutcome where
  | stored
  /-- `save_bytes` raises and leaves these bytes under the key -/
  | raised (left : Option (List UInt8))

/-- The storage and database calls that raise, by the id of the candidate. -/
structure ArtifactFaults where
  save : String → SaveOutcome := fun _ ↦ .stored
  selectRaises : String → Bool := fun _ ↦ false
  flushRaises : String → Bool := fun _ ↦ false
  deleteRaises : String → Bool := fun _ ↦ false
  commitRaises : Bool := false

/-- `storage.delete`. -/
def ArtifactFaults.delete (faults : ArtifactFaults) (store : FileStore String) (id : String) :
    FileStore String :=
  if faults.deleteRaises id then store else store.unlink id

/-- The session with the ids whose listeners are registered. -/
structure ArtifactSession extends Registration where
  listeners : List String := []

inductive CandidateSource where
  | bytes (content : List UInt8)
  | reference (uri : String)
  | external (uri : String)
  | skipped

def ArtifactCandidate.source (item : ArtifactCandidate) : CandidateSource :=
  match item.content, (item.uri.bind Json.str?).filter (· ≠ "") with
  | some content, _ => .bytes content
  | none, some uri =>
      if artifactUriPrefix.toList.isPrefixOf uri.toList then .reference uri else .external uri
  | none, none => .skipped

/-- A candidate that the rules accept, given the rows that the session sees. -/
inductive CheckedCandidate where
  | bytes (content : List UInt8)
  | reference (referenced : Artifact)
  | external (uri : String)
  | skipped

def checkCandidate (env : WorkerEnv) (workflowRunId : String) (selectRaises : Bool)
    (rows : List Artifact) (item : ArtifactCandidate) : Except ArtifactFailure CheckedCandidate :=
  if item.localPath.any Json.truthy then
    throw (registrationError "UNSAFE_ARTIFACT_LOCAL_PATH"
      "Artifact local_path is only supported by a registered Runner upload")
  else
    match item.source with
    | .bytes content =>
        if env.artifactMaxBytes < content.length then
          throw (registrationError "ARTIFACT_TOO_LARGE"
            "Artifact content exceeds the configured size limit"
            [("max_bytes", .int env.artifactMaxBytes)])
        else return .bytes content
    | .reference uri =>
        -- a URI without an id is refused before the SELECT
        if selectRaises ∧ uri ≠ artifactUriPrefix then throw none
        else (referencedArtifact workflowRunId uri rows).map .reference
    | .external uri => (validateExternalUri env uri).map fun _ ↦ .external uri
    | .skipped => return .skipped

namespace ArtifactSession

def refer (artifact : Artifact) (item : ArtifactCandidate) (s : ArtifactSession) :
    ArtifactSession :=
  { s with toRegistration := s.toRegistration.refer artifact item }

/-- The listeners run; the exceptions of `storage.delete` are swallowed. -/
def afterRollback (faults : ArtifactFaults) (s : ArtifactSession) : ArtifactSession :=
  { s with store := s.listeners.foldl faults.delete s.store, listeners := [] }

/-- `register_artifact_bytes`. -/
def registerArtifactBytes (faults : ArtifactFaults) (artifact : Artifact) (content : List UInt8)
    (s : ArtifactSession) : Except (ArtifactFailure × ArtifactSession) ArtifactSession :=
  match faults.save artifact.id with
  | .raised none => throw (none, s)
  | .raised (some left) => throw (none, { s with store := s.store.put artifact.id left })
  | .stored =>
      if faults.flushRaises artifact.id then
        let saved := { s with store := s.store.put artifact.id content }
        let rolledBack := saved.afterRollback faults
        throw (none, { rolledBack with store := faults.delete rolledBack.store artifact.id })
      else
        return {
          toRegistration := s.toRegistration.registerArtifactBytes artifact content
          listeners := s.listeners ++ [artifact.id] }

/-- `register_external_artifact`. -/
def registerExternalArtifact (faults : ArtifactFaults) (artifact : Artifact)
    (s : ArtifactSession) : Except (ArtifactFailure × ArtifactSession) ArtifactSession :=
  if faults.flushRaises artifact.id then throw (none, s.afterRollback faults)
  else
    return { s with toRegistration := s.toRegistration.registerExternalArtifact artifact }

/-- One turn of the loop of `register_artifact_candidates`. -/
def registerCandidate (env : WorkerEnv) (faults : ArtifactFaults) (workflowRunId : String)
    (producer : NodeId) (id : String) (item : ArtifactCandidate) (s : ArtifactSession) :
    Except (ArtifactFailure × ArtifactSession) ArtifactSession :=
  let artifact := candidateArtifact env workflowRunId producer id item
  match checkCandidate env workflowRunId (faults.selectRaises id) s.artifacts item with
  | .error failure => .error (failure, s)
  | .ok (.bytes content) =>
      (s.registerArtifactBytes faults artifact content).map (·.refer artifact item)
  | .ok (.reference referenced) => .ok (s.refer referenced item)
  | .ok (.external uri) =>
      let artifact := { artifact with uri := uri }
      (s.registerExternalArtifact faults artifact).map (·.refer artifact item)
  | .ok .skipped => .ok s

def registerArtifactCandidates (env : WorkerEnv) (faults : ArtifactFaults)
    (workflowRunId : String) (producer : NodeId) :
    List (String × Option ArtifactCandidate) → ArtifactSession →
      Except (ArtifactFailure × ArtifactSession) ArtifactSession
  | [], s => .ok s
  | (_, none) :: items, s =>
      registerArtifactCandidates env faults workflowRunId producer items s
  | (id, some item) :: items, s => do
      let s ← s.registerCandidate env faults workflowRunId producer id item
      registerArtifactCandidates env faults workflowRunId producer items s

end ArtifactSession

/-- The committed rows and the objects after the `with` block of the Worker. -/
structure ArtifactStores where
  artifacts : List Artifact
  store : FileStore String

/-- `_process_task`: registration and commit; an exception leaves the block by `close()`,
which ends the transaction without an event. -/
def registerInSession (env : WorkerEnv) (faults : ArtifactFaults) (workflowRunId : String)
    (producer : NodeId) (items : List (String × Option ArtifactCandidate))
    (before : ArtifactStores) : ArtifactStores :=
  let opened : ArtifactSession := { artifacts := before.artifacts, store := before.store }
  match opened.registerArtifactCandidates env faults workflowRunId producer items with
  | .ok s =>
      if faults.commitRaises then { before with store := s.store }
      else { artifacts := s.artifacts, store := s.store }
  | .error (_, s) => { before with store := s.store }

/-! ## Without faults -/

namespace ArtifactSession

variable (env : WorkerEnv) (workflowRunId : String) (producer : NodeId)

/-- What the caller sees of a session's result. -/
def registered (result : Except (ArtifactFailure × ArtifactSession) ArtifactSession) :
    Except (ArtifactFailure × Registration) Registration :=
  match result with
  | .ok s => .ok s.toRegistration
  | .error (failure, s) => .error (failure, s.toRegistration)

theorem registered_registerCandidate (id : String) (item : ArtifactCandidate)
    (s : ArtifactSession) :
    registered (s.registerCandidate env {} workflowRunId producer id item) =
      match Relayvia.registerCandidate env workflowRunId producer id item s.toRegistration with
      | .ok r => .ok r
      | .error failure => .error (failure, s.toRegistration) := by
  simp only [registerCandidate, Relayvia.registerCandidate, checkCandidate,
    ArtifactCandidate.source]
  by_cases hlocal : item.localPath.any Json.truthy = true
  · simp only [hlocal, if_true]
    rfl
  · simp only [hlocal, Bool.false_eq_true, if_false, false_and]
    rcases item.content with _ | content
    · rcases (item.uri.bind Json.str?).filter (· ≠ "") with _ | uri
      · rfl
      · by_cases hlinked : artifactUriPrefix.toList.isPrefixOf uri.toList = true
        · simp only [hlinked, if_true]
          rcases referencedArtifact workflowRunId uri s.artifacts with failure | referenced <;> rfl
        · simp only [hlinked, Bool.false_eq_true, if_false]
          rcases validateExternalUri env uri with failure | _ <;> rfl
    · by_cases hlarge : env.artifactMaxBytes < content.length
      · simp only [hlarge, if_true]
        rfl
      · simp only [hlarge, if_false]
        rfl

/-- Without faults the session registers as `registerArtifactCandidates` of the Worker. -/
theorem registered_registerArtifactCandidates (items : List (String × Option ArtifactCandidate))
    (s : ArtifactSession) :
    registered (s.registerArtifactCandidates env {} workflowRunId producer items) =
      Relayvia.registerArtifactCandidates env workflowRunId producer items s.toRegistration := by
  induction items generalizing s with
  | nil => rfl
  | cons entry items ih =>
      obtain ⟨id, _ | item⟩ := entry
      · exact ih s
      · have hitem := registered_registerCandidate env workflowRunId producer id item s
        rw [registerArtifactCandidates, Relayvia.registerArtifactCandidates]
        cases hs : s.registerCandidate env {} workflowRunId producer id item with
        | ok s' =>
            rw [hs] at hitem
            cases hr : Relayvia.registerCandidate env workflowRunId producer id item
              s.toRegistration with
            | ok r =>
                rw [hr] at hitem
                cases hitem
                exact ih s'
            | error failure =>
                rw [hr] at hitem
                cases hitem
        | error e =>
            rw [hs] at hitem
            cases hr : Relayvia.registerCandidate env workflowRunId producer id item
              s.toRegistration with
            | ok r =>
                rw [hr] at hitem
                cases hitem
            | error failure =>
                rw [hr] at hitem
                exact hitem

end ArtifactSession

end Relayvia
