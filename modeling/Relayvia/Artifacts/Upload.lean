import Relayvia.Artifacts.Service
import Relayvia.System

/-!
# Content uploads

Requests that upload the content of staged artifacts, step by step: validation,
streaming, the write to the shared object and the commit.
-/

namespace Relayvia

inductive UploadPhase where
  /-- validated; the request body is read into a temporary file -/
  | receiving
  | received (content : List UInt8)
  /-- `save_stream` on the local storage holds a descriptor -/
  | saving (content : List UInt8) (inode written : ℕ)
  | saved (size : ℕ)
  /-- committed as ready, `db.refresh` comes next -/
  | finalized
  /-- an exception was caught and the session rolled back; `none` is not a RelayviaError -/
  | raised (error : Option RelayviaError)
  | removed (error : Option RelayviaError)
  deriving DecidableEq

structure Upload where
  artifactId : String
  /-- the row as the session has loaded it -/
  loaded : Artifact
  phase : UploadPhase := .receiving
  deriving DecidableEq

structure UploadWorld where
  db : RunRecord
  artifacts : List Artifact := []
  store : FileStore String := {}
  uploads : ℕ → Option Upload := fun _ ↦ none

namespace UploadWorld

def setUpload (uid : ℕ) (u : Option Upload) (s : UploadWorld) : UploadWorld :=
  { s with uploads := Function.update s.uploads uid u }

def modifyArtifact (id : String) (f : Artifact → Artifact) (s : UploadWorld) : UploadWorld :=
  { s with artifacts := Table.modify Artifact.id id f s.artifacts }

end UploadWorld

def artifactTooLarge (maximum : ℕ) : RelayviaError where
  code := "ARTIFACT_TOO_LARGE"
  message := "Artifact content exceeds the configured size limit"
  statusCode := 413
  details := [("max_bytes", .int maximum)]

/-- The text that a failed upload records. -/
def uploadError (error : Option RelayviaError) : String :=
  (error.map RelayviaError.message).getD "artifact storage failed"

/-- The steps of the uploads, and the transactions of the run around them. -/
inductive UploadStep where
  | run (op : RunOp)
  | create (runnerId leaseToken : String) (task : TaskId) (id : String)
      (description : ArtifactDescription)
  | validate (uid : ℕ) (artifactId runnerId : String) (task : TaskId) (leaseToken : String)
  /-- the declared content length exceeds the limit -/
  | declaredTooLarge (uid : ℕ)
  | receive (uid : ℕ) (content : List UInt8)
  /-- an exception in the `try` block -/
  | interrupt (uid : ℕ) (error : Option RelayviaError)
  | openFile (uid : ℕ)
  | write (uid n : ℕ)
  /-- `path.stat().st_size` after the last write -/
  | stat (uid : ℕ)
  /-- `save_stream` on the S3 storage -/
  | put (uid : ℕ)
  | finalize (uid : ℕ)
  | respond (uid : ℕ)
  /-- `storage.delete`, whose exceptions are swallowed -/
  | delete (uid : ℕ) (ok : Bool)
  | fail (uid : ℕ)
  | exit (uid : ℕ)

namespace UploadStep

/-- One step; a step that is not possible changes nothing. -/
def exec (env : Env) (maximum : ℕ) (step : UploadStep) (s : UploadWorld) : UploadWorld :=
  match step with
  | .run op =>
      match op.exec env s.db with
      | .ok (_, db) => { s with db := db }
      | .error _ => s
  | .create runnerId leaseToken task id description =>
      match createRunnerArtifactUpload env runnerId leaseToken task id description s.db with
      | .ok artifact =>
          -- `uuid4` repeats no id
          if id ∈ s.artifacts.map Artifact.id then s
          else { s with artifacts := s.artifacts ++ [artifact] }
      | .error _ => s
  | .validate uid artifactId runnerId task leaseToken =>
      match s.uploads uid,
        validateRunnerArtifactUpload artifactId runnerId task leaseToken s.artifacts s.db with
      | none, .ok artifact =>
          s.setUpload uid (some { artifactId := artifactId, loaded := artifact })
      | _, _ => s
  | .declaredTooLarge uid =>
      match s.uploads uid with
      | some ⟨artifactId, loaded, .receiving⟩ =>
          let failed := failUpload loaded "artifact exceeds configured size limit"
          (s.modifyArtifact artifactId failed).setUpload uid none
      | _ => s
  | .receive uid content =>
      match s.uploads uid with
      | some ⟨artifactId, loaded, .receiving⟩ =>
          let phase :=
            if maximum < content.length then .raised (some (artifactTooLarge maximum))
            else .received content
          s.setUpload uid (some ⟨artifactId, loaded, phase⟩)
      | _ => s
  | .interrupt uid error =>
      match s.uploads uid with
      | some ⟨_, _, .raised _⟩ | some ⟨_, _, .removed _⟩ | none => s
      | some ⟨artifactId, loaded, _⟩ => s.setUpload uid (some ⟨artifactId, loaded, .raised error⟩)
  | .openFile uid =>
      match s.uploads uid with
      | some ⟨artifactId, loaded, .received content⟩ =>
          let (inode, store) := s.store.openWrite artifactId
          { s with store := store }.setUpload uid
            (some ⟨artifactId, loaded, .saving content inode 0⟩)
      | _ => s
  | .write uid n =>
      match s.uploads uid with
      | some ⟨artifactId, loaded, .saving content inode written⟩ =>
          let chunk := (content.drop written).take n
          { s with store := s.store.write inode written chunk }.setUpload uid
            (some ⟨artifactId, loaded, .saving content inode (written + chunk.length)⟩)
      | _ => s
  | .stat uid =>
      match s.uploads uid with
      | some ⟨artifactId, loaded, .saving content _ written⟩ =>
          if written < content.length then s
          else
            let phase :=
              match s.store.content artifactId with
              | some bytes => .saved bytes.length
              -- `FileNotFoundError`
              | none => .raised none
            s.setUpload uid (some ⟨artifactId, loaded, phase⟩)
      | _ => s
  | .put uid =>
      match s.uploads uid with
      | some ⟨artifactId, loaded, .received content⟩ =>
          { s with store := s.store.put artifactId content }.setUpload uid
            (some ⟨artifactId, loaded, .saved content.length⟩)
      | _ => s
  | .finalize uid =>
      match s.uploads uid with
      | some ⟨artifactId, loaded, .saved size⟩ =>
          (s.modifyArtifact artifactId (finalizeUpload loaded size)).setUpload uid
            (some ⟨artifactId, loaded, .finalized⟩)
      | _ => s
  | .respond uid =>
      match s.uploads uid with
      | some ⟨_, _, .finalized⟩ => s.setUpload uid none
      | _ => s
  | .delete uid ok =>
      match s.uploads uid with
      | some ⟨artifactId, loaded, .raised error⟩ =>
          let store := if ok then s.store.unlink artifactId else s.store
          { s with store := store }.setUpload uid (some ⟨artifactId, loaded, .removed error⟩)
      | _ => s
  | .fail uid =>
      match s.uploads uid with
      | some ⟨artifactId, _, .removed error⟩ =>
          -- `db.get` after the rollback loads the row again
          let failed (row : Artifact) := failUpload row (uploadError error) row
          (s.modifyArtifact artifactId failed).setUpload uid none
      | _ => s
  | .exit uid => s.setUpload uid none

/-- A step of the run service changes no upload, no artifact and no object. -/
theorem exec_run (env : Env) (maximum : ℕ) (op : RunOp) (s : UploadWorld) :
    ∃ db, exec env maximum (.run op) s = { s with db := db } := by
  simp only [exec]
  split
  · next db _ => exact ⟨db, rfl⟩
  · exact ⟨s.db, rfl⟩

/-- Run steps one after the other. -/
def execAll (env : Env) (maximum : ℕ) : List UploadStep → UploadWorld → UploadWorld
  | [], s => s
  | step :: steps, s => execAll env maximum steps (step.exec env maximum s)

end UploadStep

/-- `s'` comes from `s` by steps that all satisfy `allowed`. -/
inductive UploadWorld.Steps (env : Env) (maximum : ℕ) (allowed : UploadWorld → UploadStep → Prop)
    (s : UploadWorld) : UploadWorld → Prop
  | refl : Steps env maximum allowed s s
  | step {s' : UploadWorld} (step : UploadStep) (h : Steps env maximum allowed s s')
      (hstep : allowed s' step) : Steps env maximum allowed s (step.exec env maximum s')

end Relayvia
