import Relayvia.Library.Outcome
import Relayvia.Runners

/-!
# Workspace service

The release of a workspace by an operator, and the protocol in which the Runner
that the workspace is bound to cleans it up.
-/

namespace Relayvia

def getWorkspace (db : RunRecord) (id : String) : Except RelayviaError Workspace :=
  match Table.find? Workspace.id id db.workspaces with
  | some workspace => return workspace
  | none =>
      throw { code := "WORKSPACE_NOT_FOUND", message := "Workspace not found", statusCode := 404 }

/-- `workspace_type in {"local", "local_repository"}`. -/
def Workspace.isLocal (workspace : Workspace) : Bool :=
  workspace.workspaceType = "local" ∨ workspace.workspaceType = "local_repository"

def workspaceActive : RelayviaError where
  code := "WORKSPACE_ACTIVE"
  message := "An active Workspace cannot be released before its Runner task completes"
  statusCode := 409

/-- CREATING or IN_USE. -/
def WorkspaceStatus.isActive : WorkspaceStatus → Bool
  | creating | inUse => true
  | _ => false

def releaseWorkspace (env : Env) (now : Time) (id : String) (db : RunRecord) :
    Except Raised RunRecord := do
  let workspace ← getWorkspace db id
  if workspace.status.isActive then
    throw (.relayvia workspaceActive)
  else if workspace.status = .released ∨ workspace.status = .releasing ∨
      workspace.status = .cleaning then
    return db
  else if workspace.isLocal ∨ workspace.path.getD "" = "" then
    return db.modifyWorkspace id fun w ↦ { w with status := .released }
  else
    return db.modifyWorkspace id fun w ↦
      { w with
        status := .releasing
        metadata := Dict.merge w.metadata [("cleanup_requested_at", .str (env.isoformat now))] }

/-- The query of `claim_workspace_cleanup`; `updatedAt` is the column `updated_at` of
the row, which no other function reads. -/
def cleanupClaimable (now : Time) (runnerId : String) (staleAfterSeconds : ℕ) (updatedAt : Time)
    (workspace : Workspace) : Bool :=
  workspace.runnerId = some runnerId ∧
    (workspace.status = .releasing ∨
      workspace.status = .cleaning ∧ updatedAt + seconds staleAfterSeconds < now)

/-- `claim_workspace_cleanup` of the candidate `id`: the claimed row and the rows after
the commit. -/
def claimWorkspaceCleanup (env : Env) (now : Time) (runnerId : String) (staleAfterSeconds : ℕ)
    (updatedAt : Time) (id : String) (db : RunRecord) : Option Workspace × RunRecord :=
  match Table.find? Workspace.id id db.workspaces with
  | some workspace =>
      if cleanupClaimable now runnerId staleAfterSeconds updatedAt workspace then
        let claimed (w : Workspace) : Workspace :=
          { w with
            status := .cleaning
            metadata := Dict.merge w.metadata [("cleanup_started_at", .str (env.isoformat now))] }
        (some (claimed workspace), db.modifyWorkspace id claimed)
      else (none, db)
  | none => (none, db)

/-- The metadata after a cleanup report. -/
def cleanupMetadata (env : Env) (now : Time) (error : Option String) (metadata : Dict) : Dict :=
  let metadata := Dict.merge metadata [("cleanup_finished_at", .str (env.isoformat now))]
  match error.filter (· ≠ "") with
  | some error =>
      Dict.merge metadata [("cleanup_error", .str (String.ofList (error.toList.take 1000)))]
  | none => metadata.filter fun (key, _) ↦ key ≠ "cleanup_error"

def completeWorkspaceCleanup (env : Env) (now : Time) (runnerId id : String) (ok : Bool)
    (error : Option String) (db : RunRecord) : Except Raised RunRecord := do
  let workspace ← getWorkspace db id
  if workspace.runnerId ≠ some runnerId then
    throw (.relayvia
      { code := "WORKSPACE_RUNNER_MISMATCH"
        message := "Workspace is bound to another Runner"
        statusCode := 409 })
  else if workspace.status ≠ .cleaning ∧ workspace.status ≠ .releasing ∧
      workspace.status ≠ .inUse then
    if workspace.status = .released ∧ ok then return db
    else
      throw (.relayvia
        { code := "WORKSPACE_CLEANUP_NOT_PENDING"
          message := "Workspace cleanup is not pending"
          statusCode := 409 })
  else
    return db.modifyWorkspace id fun w ↦
      { w with
        metadata := cleanupMetadata env now error w.metadata
        status := if ok then .released else .cleanupFailed }

/-! ## What the functions do to the rows -/

variable {env : Env} {now : Time} {db db' : RunRecord} {id runnerId : String}

/-- An update that leaves a workspace inactive with its keys. -/
def Deactivates (f : Workspace → Workspace) : Prop :=
  ∀ w, (f w).id = w.id ∧ (f w).nodeRunId = w.nodeRunId ∧ (f w).runnerId = w.runnerId ∧
    (f w).status.isActive = false

theorem getWorkspace_ok {w : Workspace}
    (h : (liftM (getWorkspace db id) : Except Raised Workspace) = .ok w) :
    Table.find? Workspace.id id db.workspaces = some w := by
  unfold getWorkspace at h
  split at h
  · next hw =>
    cases h
    exact hw
  · cases h

/-- An active workspace is not released. -/
theorem releaseWorkspace_rows (h : releaseWorkspace env now id db = .ok db') :
    db' = db ∨ ∃ w f, Table.find? Workspace.id id db.workspaces = some w ∧
      w.status.isActive = false ∧ Deactivates f ∧ db' = db.modifyWorkspace id f := by
  obtain ⟨w, hw, h⟩ := Outcome.bind_eq_ok_iff.mp h
  have hfound := getWorkspace_ok hw
  split at h
  · cases h
  · next hactive =>
    have hinactive : w.status.isActive = false := by simpa using hactive
    split at h
    · cases h
      exact .inl rfl
    · split at h
      · cases h
        refine .inr ⟨w, _, hfound, hinactive, ?_, rfl⟩
        exact fun _ ↦ ⟨rfl, rfl, rfl, rfl⟩
      · cases h
        refine .inr ⟨w, _, hfound, hinactive, ?_, rfl⟩
        exact fun _ ↦ ⟨rfl, rfl, rfl, rfl⟩

/-- The refusal names the state of the workspace. -/
theorem releaseWorkspace_active {w : Workspace}
    (hfound : Table.find? Workspace.id id db.workspaces = some w)
    (h : releaseWorkspace env now id db = .error (.relayvia workspaceActive)) :
    w.status.isActive = true := by
  have hget : (liftM (getWorkspace db id) : Except Raised Workspace) = .ok w := by
    unfold getWorkspace
    rw [hfound]
    rfl
  unfold releaseWorkspace at h
  rw [hget, Outcome.ok_bind] at h
  by_contra hinactive
  rw [if_neg hinactive] at h
  split at h
  · cases h
  · split at h <;> cases h

theorem claimWorkspaceCleanup_rows {staleAfterSeconds : ℕ} {updatedAt : Time} {w' : Workspace}
    (h : claimWorkspaceCleanup env now runnerId staleAfterSeconds updatedAt id db = (some w', db')) :
    ∃ w f, Table.find? Workspace.id id db.workspaces = some w ∧ w.runnerId = some runnerId ∧
      w.status.isActive = false ∧ Deactivates f ∧ w' = f w ∧ db' = db.modifyWorkspace id f := by
  unfold claimWorkspaceCleanup at h
  split at h
  · next w hw =>
    split at h
    · next hclaimable =>
      cases h
      simp only [cleanupClaimable, decide_eq_true_eq] at hclaimable
      refine ⟨w,
        fun w ↦ { w with
          status := .cleaning
          metadata := Dict.merge w.metadata [("cleanup_started_at", .str (env.isoformat now))] },
        hw, hclaimable.1, ?_, fun _ ↦ ⟨rfl, rfl, rfl, rfl⟩, rfl, rfl⟩
      rcases hclaimable.2 with hs | ⟨hs, -⟩
      · rw [hs]
        rfl
      · rw [hs]
        rfl
    · cases h
  · cases h

/-- A report is accepted from the Runner of the workspace, also while it is in use. -/
theorem completeWorkspaceCleanup_rows {ok : Bool} {error : Option String}
    (h : completeWorkspaceCleanup env now runnerId id ok error db = .ok db') :
    db' = db ∨ ∃ w f, Table.find? Workspace.id id db.workspaces = some w ∧
      w.runnerId = some runnerId ∧ Deactivates f ∧ db' = db.modifyWorkspace id f := by
  obtain ⟨w, hw, h⟩ := Outcome.bind_eq_ok_iff.mp h
  split at h
  · cases h
  · next hrunner =>
    split at h
    · split at h
      · cases h
        exact .inl rfl
      · cases h
    · cases h
      refine .inr ⟨w, _, getWorkspace_ok hw, by simpa using hrunner, ?_, rfl⟩
      exact fun _ ↦ ⟨rfl, rfl, rfl, by cases ok <;> rfl⟩

end Relayvia
