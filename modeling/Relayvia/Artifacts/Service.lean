import Relayvia.Library.FileStore
import Relayvia.Runs

/-!
# Artifact service

The rows of the `artifacts` table, the registration of what a Worker produced, and
the staged upload of a Runner.
-/

namespace Relayvia

structure Artifact where
  id : String
  workflowRunId : String
  producerNodeRunId : NodeId
  type : String
  name : String
  uri : String
  size : Option ℕ := none
  contentType : Option String := none
  metadata : Dict := []
  deriving DecidableEq

def artifactUriPrefix : String := "artifact://"

def artifactUri (id : String) : String :=
  artifactUriPrefix ++ id

/-- `(artifact.metadata_json or {}).get("upload_status")`. -/
def Artifact.uploadStatus (artifact : Artifact) : Option Json :=
  Dict.get? artifact.metadata "upload_status"

def Artifact.isReady (artifact : Artifact) : Bool :=
  artifact.uploadStatus = some (.str "ready")

/-! ## Uploads of a Runner -/

/-- RUNNING under this lease. -/
def runsUnder (runnerId leaseToken : String) (task : ExecutionTask) : Bool :=
  task.status = .running ∧ task.lockedBy = some runnerId ∧ task.leaseToken = some leaseToken

/-- What the Runner says of the content that it is going to upload. -/
structure ArtifactDescription where
  name : String
  type : String
  contentType : Option String := none
  metadata : Dict := []
  outputKey : Option String := none

def createRunnerArtifactUpload (env : Env) (runnerId leaseToken : String) (taskId : TaskId)
    (id : String) (description : ArtifactDescription) (db : RunRecord) :
    Except RelayviaError Artifact :=
  match (findTask db.tasks taskId).filter (runsUnder runnerId leaseToken) with
  | some task =>
      let outputKey := (description.outputKey.filter (· ≠ "")).map fun key ↦ ("output_key", .str key)
      return {
        id := id
        workflowRunId := db.run.id
        producerNodeRunId := task.nodeRunId
        type := description.type
        name := description.name
        uri := artifactUri id
        contentType := description.contentType
        metadata := Dict.merge (env.sanitizeMetadata (.obj description.metadata))
          (("upload_status", .str "staging") :: outputKey.toList) }
  | none =>
      throw
        { code := "RUNNER_TASK_STALE"
          message := "Runner task is no longer eligible to upload artifacts"
          statusCode := 409 }

def validateRunnerArtifactUpload (artifactId runnerId : String) (taskId : TaskId)
    (leaseToken : String) (artifacts : List Artifact) (db : RunRecord) :
    Except RelayviaError Artifact :=
  match Table.find? Artifact.id artifactId artifacts with
  | some artifact =>
      match (findTask db.tasks taskId).filter (runsUnder runnerId leaseToken) with
      | some task =>
          if artifact.workflowRunId ≠ db.run.id ∨ artifact.producerNodeRunId ≠ task.nodeRunId then
            throw
              { code := "RUNNER_ARTIFACT_UPLOAD_FORBIDDEN"
                message := "Artifact upload does not belong to this Runner task"
                statusCode := 409 }
          else if artifact.uploadStatus ≠ some (.str "staging") then
            throw
              { code := "ARTIFACT_UPLOAD_NOT_STAGING"
                message := "Artifact upload is not in staging state"
                statusCode := 409 }
          else return artifact
      | none =>
          throw
            { code := "RUNNER_ARTIFACT_UPLOAD_FORBIDDEN"
              message := "Artifact upload does not belong to this Runner task"
              statusCode := 409 }
  | none =>
      throw { code := "ARTIFACT_NOT_FOUND", message := "Artifact not found", statusCode := 404 }

/-- `finalize_runner_artifact_upload` of the row: the metadata are the ones that the
session has loaded. -/
def finalizeUpload (loaded : Artifact) (size : ℕ) (row : Artifact) : Artifact :=
  { row with
    metadata := Dict.merge loaded.metadata [("upload_status", .str "ready")]
    size := some size }

/-- `fail_runner_artifact_upload` of the row. -/
def failUpload (loaded : Artifact) (error : String) (row : Artifact) : Artifact :=
  { row with
    metadata := Dict.merge loaded.metadata
      [("upload_status", .str "failed"),
        ("upload_error", .str (String.ofList (error.toList.take 500)))] }

/-! ## Upload states -/

theorem failUpload_isReady (loaded : Artifact) (error : String) (row : Artifact) :
    (failUpload loaded error row).isReady = false := by
  have hstatus : (failUpload loaded error row).uploadStatus = some (.str "failed") :=
    Dict.get?_merge loaded.metadata _ "upload_status"
  simp [Artifact.isReady, hstatus]

theorem createRunnerArtifactUpload_ok {env : Env} {runnerId leaseToken id : String} {task : TaskId}
    {description : ArtifactDescription} {db : RunRecord} {artifact : Artifact}
    (h : createRunnerArtifactUpload env runnerId leaseToken task id description db = .ok artifact) :
    artifact.id = id ∧ artifact.isReady = false := by
  unfold createRunnerArtifactUpload at h
  split at h
  · cases h
    refine ⟨rfl, ?_⟩
    rw [Artifact.isReady, Artifact.uploadStatus, Dict.get?_merge]
    rfl
  · cases h

theorem validateRunnerArtifactUpload_ok {artifactId runnerId leaseToken : String} {task : TaskId}
    {artifacts : List Artifact} {db : RunRecord} {artifact : Artifact}
    (h : validateRunnerArtifactUpload artifactId runnerId task leaseToken artifacts db =
      .ok artifact) :
    Table.find? Artifact.id artifactId artifacts = some artifact ∧ artifact.isReady = false := by
  unfold validateRunnerArtifactUpload at h
  split at h
  · next hfound =>
    split at h
    · split at h
      · cases h
      · split at h
        · cases h
        · next hstaging =>
          cases h
          rw [not_not] at hstaging
          exact ⟨hfound, by simp [Artifact.isReady, hstaging]⟩
    · cases h
  · cases h

end Relayvia
