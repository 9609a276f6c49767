import Relayvia.Artifacts.Service
import Relayvia.Library.Outcome

/-!
# Registration of artifact candidates

What the Worker makes of the artifacts in the result of an executor.
-/

namespace Relayvia

/-- What the Worker takes from outside the model besides `Env`. -/
structure WorkerEnv extends Env where
  /-- the scheme and the netloc of `urlparse`, `none` for a `ValueError` -/
  urlparse : String → Option (String × String)
  artifactMaxBytes : ℕ

/-- One dict in the artifacts of a result. -/
structure ArtifactCandidate where
  name : Option Json := none
  type : Option Json := none
  contentType : Option Json := none
  metadata : Option Json := none
  localPath : Option Json := none
  /-- `bytes` or a `bytearray` -/
  content : Option (List UInt8) := none
  uri : Option Json := none
  outputKey : Option Json := none

/-- The open session and the storage; `created` are the ids of the rows so far. -/
structure Registration where
  artifacts : List Artifact
  store : FileStore String
  created : List String := []
  references : List Json := []
  outputKeys : Dict := []

/-- An exception: a RelayviaError, or any other one. -/
abbrev ArtifactFailure := Option RelayviaError

/-- `str(value or default)`. -/
def Env.strOr (env : Env) (value : Option Json) (default : String) : String :=
  ((value.filter Json.truthy).map env.str).getD default

def registrationError (code message : String) (details : Dict := []) : ArtifactFailure :=
  some { code := code, message := message, statusCode := 422, details := details }

namespace Registration

/-- The reference to an artifact, also under the output key of the candidate. -/
def refer (artifact : Artifact) (item : ArtifactCandidate) (r : Registration) : Registration :=
  let key := (item.outputKey.bind Json.str?).filter (· ≠ "")
  { r with
    references := r.references ++
      [.obj [("uri", .str artifact.uri), ("type", .str artifact.type), ("name", .str artifact.name)]]
    outputKeys := Dict.merge r.outputKeys (key.map fun k ↦ (k, .str artifact.uri)).toList }

/-- `register_artifact_bytes`. -/
def registerArtifactBytes (artifact : Artifact) (content : List UInt8) (r : Registration) :
    Registration :=
  { r with
    artifacts := r.artifacts ++ [{ artifact with size := some content.length }]
    store := r.store.put artifact.id content
    created := r.created ++ [artifact.id] }

/-- `register_external_artifact`. -/
def registerExternalArtifact (artifact : Artifact) (r : Registration) : Registration :=
  { r with artifacts := r.artifacts ++ [artifact], created := r.created ++ [artifact.id] }

end Registration

/-- The artifact that an `artifact://` URI refers to. -/
def referencedArtifact (workflowRunId uri : String) (artifacts : List Artifact) :
    Except ArtifactFailure Artifact :=
  let id := String.ofList (uri.toList.drop artifactUriPrefix.length)
  if id = "" then
    throw (some
      { code := "INVALID_ARTIFACT_REFERENCE"
        message := "Artifact reference has no id"
        details := [("reference", .str uri)] })
  else
    match Table.find? Artifact.id id artifacts with
    | some referenced =>
        if referenced.workflowRunId ≠ workflowRunId then
          throw (registrationError "ARTIFACT_REFERENCE_FORBIDDEN"
            "Artifact reference belongs to a different Workflow Run")
        else
          match referenced.uploadStatus with
          | none | some .null | some (.str "ready") => return referenced
          -- an unhashable status: `TypeError`
          | some (.obj _) | some (.arr _) => throw none
          | some _ =>
              throw (registrationError "ARTIFACT_UPLOAD_INCOMPLETE"
                "Referenced Artifact upload is not complete")
    | none => throw (registrationError "ARTIFACT_NOT_FOUND" "Referenced Artifact not found")

def validateExternalUri (env : WorkerEnv) (uri : String) : Except ArtifactFailure Unit :=
  match env.urlparse uri with
  | some (scheme, netloc) =>
      if (scheme = "http" ∨ scheme = "https") ∧ netloc ≠ "" then return ()
      else throw (registrationError "INVALID_EXTERNAL_ARTIFACT_URI"
        "External Artifact URI must use http or https")
  | none => throw none

/-- The row for a candidate; `id` is its `uuid4`. -/
def candidateArtifact (env : WorkerEnv) (workflowRunId : String) (producer : NodeId) (id : String)
    (item : ArtifactCandidate) : Artifact :=
  let metadata : Dict :=
    match item.metadata with
    | some (.obj fields) => fields
    | _ => []
  { id := id
    workflowRunId := workflowRunId
    producerNodeRunId := producer
    type := env.strOr item.type "file"
    name := env.strOr item.name "artifact"
    uri := artifactUri id
    contentType := (item.contentType.filter Json.truthy).map env.str
    metadata := env.sanitizeMetadata (.obj metadata) }

/-- One turn of the loop. -/
def registerCandidate (env : WorkerEnv) (workflowRunId : String) (producer : NodeId)
    (id : String) (item : ArtifactCandidate) (r : Registration) :
    Except ArtifactFailure Registration :=
  let artifact := candidateArtifact env workflowRunId producer id item
  if item.localPath.any Json.truthy then
    throw (registrationError "UNSAFE_ARTIFACT_LOCAL_PATH"
      "Artifact local_path is only supported by a registered Runner upload")
  else
    match item.content, (item.uri.bind Json.str?).filter (· ≠ "") with
    | some content, _ =>
        if env.artifactMaxBytes < content.length then
          throw (registrationError "ARTIFACT_TOO_LARGE"
            "Artifact content exceeds the configured size limit"
            [("max_bytes", .int env.artifactMaxBytes)])
        else return (r.registerArtifactBytes artifact content).refer artifact item
    | none, some uri =>
        if artifactUriPrefix.toList.isPrefixOf uri.toList then do
          let referenced ← referencedArtifact workflowRunId uri r.artifacts
          return r.refer referenced item
        else do
          validateExternalUri env uri
          let artifact := { artifact with uri := uri }
          return (r.registerExternalArtifact artifact).refer artifact item
    | none, none => return r

/-- `register_artifact_candidates`: the session after the loop, or the exception and the
session in which it was raised.  An item that is no dict is `none`. -/
def registerArtifactCandidates (env : WorkerEnv) (workflowRunId : String) (producer : NodeId) :
    List (String × Option ArtifactCandidate) → Registration →
      Except (ArtifactFailure × Registration) Registration
  | [], r => .ok r
  | (_, none) :: items, r => registerArtifactCandidates env workflowRunId producer items r
  | (id, some item) :: items, r =>
      match registerCandidate env workflowRunId producer id item r with
      | .ok r => registerArtifactCandidates env workflowRunId producer items r
      | .error failure => .error (failure, r)

/-! ## What a registration adds -/

/-- The rows that a registration has added, and nothing else. -/
structure Registration.Extends (r r' : Registration) : Prop where
  rows : ∃ rows, r'.artifacts = r.artifacts ++ rows ∧ r'.created = r.created ++ rows.map Artifact.id
  store : r'.created = r.created → r'.store = r.store

namespace Registration

variable {r r' r'' : Registration}

theorem Extends.refl (r : Registration) : Extends r r :=
  ⟨⟨[], by simp, by simp⟩, fun _ ↦ rfl⟩

theorem Extends.trans (h : Extends r r') (h' : Extends r' r'') : Extends r r'' := by
  obtain ⟨rows, hrows, hcreated⟩ := h.rows
  obtain ⟨rows', hrows', hcreated'⟩ := h'.rows
  refine ⟨⟨rows ++ rows', by simp [hrows, hrows'], by simp [hcreated, hcreated']⟩, fun hsame ↦ ?_⟩
  rw [hcreated', hcreated, List.append_assoc, List.append_right_eq_self,
    List.append_eq_nil_iff] at hsame
  have hfirst : r'.created = r.created := by rw [hcreated, hsame.1, List.append_nil]
  have hsecond : r''.created = r'.created := by rw [hcreated', hsame.2, List.append_nil]
  rw [h'.store hsecond, h.store hfirst]

theorem Extends.of_row {artifact : Artifact} (hrows : r'.artifacts = r.artifacts ++ [artifact])
    (hcreated : r'.created = r.created ++ [artifact.id]) : Extends r r' :=
  ⟨⟨[artifact], hrows, hcreated⟩, fun hsame ↦ by simp [hcreated] at hsame⟩

end Registration

variable {env : WorkerEnv} {workflowRunId : String} {producer : NodeId} {r r' : Registration}

theorem registerCandidate_extends {id : String} {item : ArtifactCandidate}
    (h : registerCandidate env workflowRunId producer id item r = .ok r') : r.Extends r' := by
  simp only [registerCandidate] at h
  split at h
  · cases h
  · split at h
    · split at h
      · cases h
      · cases h
        exact .of_row rfl rfl
    · split at h
      · obtain ⟨referenced, -, h⟩ := Outcome.bind_eq_ok_iff.mp h
        cases h
        exact ⟨⟨[], by simp [Registration.refer], by simp [Registration.refer]⟩, fun _ ↦ rfl⟩
      · obtain ⟨_, -, h⟩ := Outcome.bind_eq_ok_iff.mp h
        cases h
        exact .of_row rfl rfl
    · cases h
      exact .refl r

theorem registerArtifactCandidates_extends {items : List (String × Option ArtifactCandidate)}
    (h : registerArtifactCandidates env workflowRunId producer items r = .ok r') :
    r.Extends r' := by
  induction items generalizing r with
  | nil =>
      cases h
      exact .refl _
  | cons entry items ih =>
      obtain ⟨id, item⟩ := entry
      cases item with
      | none => exact ih h
      | some item =>
          rw [registerArtifactCandidates] at h
          split at h
          · next hitem => exact (registerCandidate_extends hitem).trans (ih h)
          · cases h

end Relayvia
