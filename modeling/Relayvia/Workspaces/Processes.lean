import Mathlib.Logic.Function.Basic
import Relayvia.System
import Relayvia.Workspaces.Rows

/-!
# Runners at work

The rows of a run together with the processes of its Runners and their worktrees.  A
process is the coroutine of one claimed task, or one cleanup of the main loop.
-/

namespace Relayvia

inductive RunnerPhase where
  /-- before `prepare_workspace` -/
  | claimed
  /-- the command runs in the prepared directory -/
  | executing
  /-- the process group is killed, `cleanup_workspace` comes next -/
  | killed
  /-- `cleanup_workspace` has returned, or raised the error; the report comes next -/
  | cleaned (error : Option String)
  | submitting (result : Dict)

structure RunnerProcess where
  runner : Runner
  /-- the claimed task and its token; the cleanup of the main loop has none -/
  lease : Option (TaskId × String)
  workspace : Option String
  isLocal : Bool
  /-- `workspace_path` and `workspace_branch` of the result -/
  workspaceMeta : Dict := []
  /-- the Runner token is still valid -/
  authorized : Bool := true
  /-- `cancel_event` is set -/
  cancelRequested : Bool := false
  phase : RunnerPhase

/-- `directories` holds the worktrees that exist, by Runner and workspace; `issued` the
lease tokens that were handed out, none of which `uuid4` repeats. -/
structure RunnerWorld where
  db : RunRecord
  processes : ℕ → Option RunnerProcess := fun _ ↦ none
  directories : List (String × String) := []
  issued : List String := []

namespace RunnerWorld

def setProcess (pid : ℕ) (p : Option RunnerProcess) (s : RunnerWorld) : RunnerWorld :=
  { s with processes := Function.update s.processes pid p }

theorem setProcess_processes (pid pid' : ℕ) (p : Option RunnerProcess) (s : RunnerWorld) :
    (s.setProcess pid p).processes pid' = if pid' = pid then p else s.processes pid' :=
  Function.update_apply s.processes pid p pid'

end RunnerWorld

/-- The strategy in the payload of a task. -/
def localStrategy (task : ExecutionTask) : Bool :=
  match Dict.get? task.payload "workspace" with
  | some (.obj reference) =>
      Dict.get? reference "strategy" = some (.str "local") ∨
        Dict.get? reference "strategy" = some (.str "local_repository")
  | _ => false

/-- The result of a killed process. -/
def cancelledResult (workspaceMeta : Dict) : Dict :=
  [("ok", .bool false),
    ("error", .obj
      [("code", .str "RUNNER_CANCELLED"),
        ("message", .str "Runner task was cancelled by the control plane"),
        ("retryable", .bool false), ("details", .obj [])]),
    ("metadata", .obj (("cancelled", .bool true) :: workspaceMeta)), ("artifacts", .arr [])]

namespace RunnerProcess

/-- `prepare_workspace` has returned. -/
def prepare (path branch : String) (p : RunnerProcess) : RunnerProcess :=
  { p with
    workspaceMeta :=
      if p.workspace.isSome then [("workspace_path", .str path), ("workspace_branch", .str branch)]
      else []
    phase := .executing }

/-- A killed process with a workspace cleans it up before it submits. -/
def kill (p : RunnerProcess) : RunnerProcess :=
  { p with
    phase := if p.workspace.isSome then .killed else .submitting (cancelledResult p.workspaceMeta) }

/-- After its report, the coroutine of a task submits and the main loop goes on. -/
def reported (p : RunnerProcess) : Option RunnerProcess :=
  p.lease.map fun _ ↦ { p with phase := .submitting (cancelledResult p.workspaceMeta) }

end RunnerProcess

/-- The steps: server transactions, the release by an operator, the revocation of a
Runner token, and what the processes do. -/
inductive RunnerStep where
  | run (op : RunOp)
  | release (now : Time) (workspace : String)
  | revoke (runnerId : String)
  | claim (pid : ℕ) (now : Time) (runner : Runner) (leaseToken : String) (leaseSeconds : ℕ)
      (task : TaskId)
  | prepare (pid : ℕ) (path branch : String)
  | heartbeat (pid : ℕ) (now : Time) (leaseSeconds : ℕ)
  | finish (pid : ℕ) (result : Dict)
  | kill (pid : ℕ)
  | cleanup (pid : ℕ) (error : Option String)
  | report (pid : ℕ) (now : Time)
  | submit (pid : ℕ) (now : Time)
  | exit (pid : ℕ)
  | claimCleanup (pid : ℕ) (now : Time) (runner : Runner) (staleAfterSeconds : ℕ)
      (updatedAt : Time) (workspace : String)

namespace RunnerStep

/-- A rolled back transaction changes nothing. -/
def commit (s : RunnerWorld) (x : Except Raised RunRecord) : RunnerWorld :=
  match x with
  | .ok db => { s with db := db }
  | .error _ => s

/-- One step; a step that is not possible changes nothing. -/
def exec (env : Env) (step : RunnerStep) (s : RunnerWorld) : RunnerWorld :=
  match step with
  | .run op => if op.isServer then commit s ((op.exec env s.db).map (·.2)) else s
  | .release now workspace => commit s (releaseWorkspace env now workspace s.db)
  | .revoke runnerId =>
      { s with
        processes := fun pid ↦ (s.processes pid).map fun p ↦
          if p.runner.id = runnerId then { p with authorized := false } else p }
  | .claim pid now runner leaseToken leaseSeconds task =>
      match s.processes pid, findTask s.db.tasks task,
        runnerClaim now runner leaseToken leaseSeconds task s.db with
      | none, some t, .ok (true, db) =>
          if leaseToken ∈ s.issued then s
          else
            { s with
              db := db
              processes := Function.update s.processes pid (some
                { runner := runner
                  lease := some (task, leaseToken)
                  workspace := workspaceOf t
                  isLocal := localStrategy t
                  phase := .claimed })
              issued := leaseToken :: s.issued }
      | _, _, _ => s
  | .prepare pid path branch =>
      match s.processes pid with
      | some p =>
          match p.phase with
          | .claimed =>
              let directories := match p.workspace with
                | some workspace =>
                    if p.isLocal then s.directories else (p.runner.id, workspace) :: s.directories
                | none => s.directories
              { s with directories := directories }.setProcess pid (some (p.prepare path branch))
          | _ => s
      | none => s
  | .heartbeat pid now leaseSeconds =>
      match s.processes pid with
      | some p =>
          match p.lease with
          | some (task, leaseToken) =>
              -- 401 and 409 count as a request to stop
              let stop := { p with cancelRequested := true }
              if p.authorized then
                match runnerTaskHeartbeat now p.runner task leaseToken leaseSeconds s.db with
                | .ok (true, db) => { s with db := db }.setProcess pid (some stop)
                | .ok (false, db) => { s with db := db }
                | .error _ => s.setProcess pid (some stop)
              else s.setProcess pid (some stop)
          | none => s
      | none => s
  | .finish pid result =>
      match s.processes pid with
      | some p =>
          match p.phase with
          | .claimed | .executing => s.setProcess pid (some { p with phase := .submitting result })
          | _ => s
      | none => s
  | .kill pid =>
      match s.processes pid with
      | some p =>
          match p.phase with
          | .executing => if p.cancelRequested then s.setProcess pid (some p.kill) else s
          | _ => s
      | none => s
  | .cleanup pid error =>
      match s.processes pid with
      | some p =>
          match p.phase, p.workspace with
          | .killed, some workspace =>
              let directories :=
                if p.isLocal ∨ error.isSome then s.directories
                else s.directories.filter (· ≠ (p.runner.id, workspace))
              { s with directories := directories }.setProcess pid
                (some { p with phase := .cleaned error })
          | _, _ => s
      | none => s
  | .report pid now =>
      match s.processes pid with
      | some p =>
          match p.phase, p.workspace with
          | .cleaned error, some workspace =>
              let report :=
                completeWorkspaceCleanup env now p.runner.id workspace error.isNone error s.db
              match p.authorized, report with
              | true, .ok db => { s with db := db }.setProcess pid p.reported
              -- `raise_for_status`
              | _, _ => s.setProcess pid none
          | _, _ => s
      | none => s
  | .submit pid now =>
      match s.processes pid with
      | some p =>
          match p.phase, p.lease with
          | .submitting result, some (task, leaseToken) =>
              if p.authorized then
                commit s ((runnerSubmit env now p.runner.id task leaseToken result s.db).map (·.2))
              else s
          | _, _ => s
      | none => s
  | .exit pid => s.setProcess pid none
  | .claimCleanup pid now runner staleAfterSeconds updatedAt workspace =>
      match s.processes pid,
        claimWorkspaceCleanup env now runner.id staleAfterSeconds updatedAt workspace s.db with
      | none, (some w, db) =>
          let s := { s with db := db }
          -- a workspace without a path is not handed out
          if w.path.getD "" = "" then s
          else
            s.setProcess pid (some
              { runner := runner
                lease := none
                workspace := some w.id
                isLocal := w.isLocal
                phase := .killed })
      | _, _ => s

end RunnerStep

/-- The worktree that `prepare_workspace` provides. -/
def RunnerProcess.prepared (p : RunnerProcess) (directories : List (String × String)) :
    List (String × String) :=
  match p.workspace with
  | some workspace => if p.isLocal then directories else (p.runner.id, workspace) :: directories
  | none => directories

/-- What one step can do. -/
inductive RunnerStep.Effect (env : Env) (s : RunnerWorld) : RunnerStep → RunnerWorld → Prop
  | stay (step : RunnerStep) : Effect env s step s
  | run {op : RunOp} {returned : Bool} {db : RunRecord} (hserver : op.isServer = true)
      (h : op.exec env s.db = .ok (returned, db)) : Effect env s (.run op) { s with db := db }
  | release {now : Time} {workspace : String} {db : RunRecord}
      (h : releaseWorkspace env now workspace s.db = .ok db) :
      Effect env s (.release now workspace) { s with db := db }
  | revoke (runnerId : String) : Effect env s (.revoke runnerId)
      { s with
        processes := fun pid ↦ (s.processes pid).map fun p ↦
          if p.runner.id = runnerId then { p with authorized := false } else p }
  | claim {pid : ℕ} {now : Time} {runner : Runner} {leaseToken : String} {leaseSeconds : ℕ}
      {task : TaskId} {t : ExecutionTask} {db : RunRecord} (hfree : s.processes pid = none)
      (ht : findTask s.db.tasks task = some t) (hfresh : leaseToken ∉ s.issued)
      (h : runnerClaim now runner leaseToken leaseSeconds task s.db = .ok (true, db)) :
      Effect env s (.claim pid now runner leaseToken leaseSeconds task)
        { s with
          db := db
          processes := Function.update s.processes pid (some
            { runner := runner
              lease := some (task, leaseToken)
              workspace := workspaceOf t
              isLocal := localStrategy t
              phase := .claimed })
          issued := leaseToken :: s.issued }
  | prepare {pid : ℕ} {path branch : String} {p : RunnerProcess} (hp : s.processes pid = some p)
      (hphase : p.phase = .claimed) : Effect env s (.prepare pid path branch)
        ({ s with directories := p.prepared s.directories }.setProcess pid
          (some (p.prepare path branch)))
  | renew {pid : ℕ} {now : Time} {leaseSeconds : ℕ} {p : RunnerProcess} {task : TaskId}
      {leaseToken : String} {db : RunRecord} (hp : s.processes pid = some p)
      (hlease : p.lease = some (task, leaseToken))
      (h : runnerTaskHeartbeat now p.runner task leaseToken leaseSeconds s.db = .ok (false, db)) :
      Effect env s (.heartbeat pid now leaseSeconds) { s with db := db }
  | stop {pid : ℕ} {now : Time} {leaseSeconds : ℕ} {p : RunnerProcess} {task : TaskId}
      {leaseToken : String} (hp : s.processes pid = some p)
      (hlease : p.lease = some (task, leaseToken))
      (h : p.authorized = false ∨
        (∃ db, runnerTaskHeartbeat now p.runner task leaseToken leaseSeconds s.db = .ok (true, db)) ∨
          ∃ e, runnerTaskHeartbeat now p.runner task leaseToken leaseSeconds s.db = .error e) :
      Effect env s (.heartbeat pid now leaseSeconds)
        (s.setProcess pid (some { p with cancelRequested := true }))
  | finish {pid : ℕ} {result : Dict} {p : RunnerProcess} (hp : s.processes pid = some p)
      (hphase : p.phase = .claimed ∨ p.phase = .executing) : Effect env s (.finish pid result)
        (s.setProcess pid (some { p with phase := .submitting result }))
  | kill {pid : ℕ} {p : RunnerProcess} (hp : s.processes pid = some p)
      (hphase : p.phase = .executing) (hcancel : p.cancelRequested = true) :
      Effect env s (.kill pid) (s.setProcess pid (some p.kill))
  | cleanup {pid : ℕ} {error : Option String} {p : RunnerProcess} {workspace : String}
      (hp : s.processes pid = some p) (hphase : p.phase = .killed)
      (hworkspace : p.workspace = some workspace) : Effect env s (.cleanup pid error)
        ({ s with
          directories :=
            if p.isLocal ∨ error.isSome then s.directories
            else s.directories.filter (· ≠ (p.runner.id, workspace)) }.setProcess pid
          (some { p with phase := .cleaned error }))
  | report {pid : ℕ} {now : Time} {p : RunnerProcess} {error : Option String} {workspace : String}
      {db : RunRecord} (hp : s.processes pid = some p) (hphase : p.phase = .cleaned error)
      (hworkspace : p.workspace = some workspace) (hauthorized : p.authorized = true)
      (h : completeWorkspaceCleanup env now p.runner.id workspace error.isNone error s.db = .ok db) :
      Effect env s (.report pid now) ({ s with db := db }.setProcess pid p.reported)
  | refused {pid : ℕ} {now : Time} : Effect env s (.report pid now) (s.setProcess pid none)
  | submit {pid : ℕ} {now : Time} {p : RunnerProcess} {result : Dict} {task : TaskId}
      {leaseToken : String} {returned : Bool} {db : RunRecord} (hp : s.processes pid = some p)
      (hlease : p.lease = some (task, leaseToken))
      (h : runnerSubmit env now p.runner.id task leaseToken result s.db = .ok (returned, db)) :
      Effect env s (.submit pid now) { s with db := db }
  | exit (pid : ℕ) : Effect env s (.exit pid) (s.setProcess pid none)
  | claimCleanup {pid : ℕ} {now : Time} {runner : Runner} {staleAfterSeconds : ℕ}
      {updatedAt : Time} {workspace : String} {w : Workspace} {db : RunRecord} {p : Option RunnerProcess}
      (hfree : s.processes pid = none)
      (h : claimWorkspaceCleanup env now runner.id staleAfterSeconds updatedAt workspace s.db =
        (some w, db))
      (hp : p = none ∨ p = some
        { runner := runner
          lease := none
          workspace := some w.id
          isLocal := w.isLocal
          phase := .killed }) :
      Effect env s (.claimCleanup pid now runner staleAfterSeconds updatedAt workspace)
        ({ s with db := db }.setProcess pid p)

theorem RunnerStep.commit_effect {env : Env} {s : RunnerWorld} {step : RunnerStep}
    {x : Except Raised RunRecord} (h : ∀ db, x = .ok db → Effect env s step { s with db := db }) :
    Effect env s step (commit s x) := by
  cases x with
  | ok db => exact h db rfl
  | error e => exact .stay step

theorem RunnerStep.map_snd_ok {x : Except Raised (Bool × RunRecord)} {db : RunRecord}
    (h : x.map (·.2) = .ok db) : ∃ returned, x = .ok (returned, db) := by
  cases x with
  | ok p =>
      cases h
      exact ⟨p.1, rfl⟩
  | error e => cases h

/-- A request to stop changes no row. -/
theorem RunnerStep.heartbeat_stop {now : Time} {runner : Runner} {task : TaskId}
    {leaseToken : String} {leaseSeconds : ℕ} {db db' : RunRecord}
    (h : runnerTaskHeartbeat now runner task leaseToken leaseSeconds db = .ok (true, db')) :
    db' = db := by
  unfold runnerTaskHeartbeat at h
  split at h
  · split at h
    · cases h
    · split at h
      · cases h
        rfl
      · cases h
  · cases h

theorem RunnerStep.effect (env : Env) (step : RunnerStep) (s : RunnerWorld) :
    Effect env s step (step.exec env s) := by
  cases step with
  | run op =>
      simp only [exec]
      split
      · next hserver =>
        refine commit_effect fun db h ↦ ?_
        obtain ⟨returned, h⟩ := map_snd_ok h
        exact .run hserver h
      · exact .stay _
  | release now workspace => exact commit_effect fun db h ↦ .release h
  | revoke runnerId => exact .revoke runnerId
  | claim pid now runner leaseToken leaseSeconds task =>
      simp only [exec]
      split
      · next hfree ht h =>
        split
        · exact .stay _
        · next hfresh => exact .claim hfree ht hfresh h
      · exact .stay _
  | prepare pid path branch =>
      simp only [exec]
      split
      · next p hp =>
        split
        · next hphase => exact .prepare hp hphase
        · exact .stay _
      · exact .stay _
  | heartbeat pid now leaseSeconds =>
      simp only [exec]
      split
      · next p hp =>
        split
        · next task leaseToken hlease =>
          split
          · split
            · next db h =>
              obtain rfl := heartbeat_stop h
              exact .stop hp hlease (.inr (.inl ⟨_, h⟩))
            · next db h => exact .renew hp hlease h
            · next e h => exact .stop hp hlease (.inr (.inr ⟨e, h⟩))
          · next hauthorized => exact .stop hp hlease (.inl (by simpa using hauthorized))
        · exact .stay _
      · exact .stay _
  | finish pid result =>
      simp only [exec]
      split
      · next p hp =>
        split
        · next hphase => exact .finish hp (.inl hphase)
        · next hphase => exact .finish hp (.inr hphase)
        · exact .stay _
      · exact .stay _
  | kill pid =>
      simp only [exec]
      split
      · next p hp =>
        split
        · next hphase =>
          split
          · next hcancel => exact .kill hp hphase hcancel
          · exact .stay _
        · exact .stay _
      · exact .stay _
  | cleanup pid error =>
      simp only [exec]
      split
      · next p hp =>
        split
        · next hphase hworkspace => exact .cleanup hp hphase hworkspace
        · exact .stay _
      · exact .stay _
  | report pid now =>
      simp only [exec]
      split
      · next p hp =>
        split
        · next hphase hworkspace =>
          split
          · next hauthorized h => exact .report hp hphase hworkspace hauthorized h
          · exact .refused
        · exact .stay _
      · exact .stay _
  | submit pid now =>
      simp only [exec]
      split
      · next p hp =>
        split
        · next hphase hlease =>
          split
          · refine commit_effect fun db h ↦ ?_
            obtain ⟨returned, h⟩ := map_snd_ok h
            exact .submit hp hlease h
          · exact .stay _
        · exact .stay _
      · exact .stay _
  | exit pid => exact .exit pid
  | claimCleanup pid now runner staleAfterSeconds updatedAt workspace =>
      simp only [exec]
      split
      · next w db hfree h =>
        split
        · have hnone : ({ s with db := db } : RunnerWorld).setProcess pid none =
              { s with db := db } := by
            simp [RunnerWorld.setProcess, ← hfree]
          have heffect := Effect.claimCleanup (p := none) hfree h (.inl rfl)
          rwa [hnone] at heffect
        · exact .claimCleanup hfree h (.inr rfl)
      · exact .stay _

/-- The states after any finite sequence of steps that all satisfy `allowed`. -/
inductive RunnerWorld.ReachableBy (env : Env) (allowed : RunnerWorld → RunnerStep → Prop) :
    RunnerWorld → Prop
  | created {now : Time} {id : String} {graph : ParsedGraph} {executionSnapshot input : Dict}
      {db : RunRecord} (h : createRun env now id graph executionSnapshot input = .ok db) :
      ReachableBy env allowed { db := db }
  | step {s : RunnerWorld} (step : RunnerStep) (hs : ReachableBy env allowed s)
      (hstep : allowed s step) : ReachableBy env allowed (step.exec env s)

/-- Run steps one after the other. -/
def RunnerStep.execAll (env : Env) : List RunnerStep → RunnerWorld → RunnerWorld
  | [], s => s
  | step :: steps, s => execAll env steps (step.exec env s)

theorem RunnerWorld.ReachableBy.execAll {env : Env} {allowed : RunnerWorld → RunnerStep → Prop}
    {steps : List RunnerStep} {s : RunnerWorld} (hallowed : ∀ step ∈ steps, ∀ s, allowed s step)
    (hs : RunnerWorld.ReachableBy env allowed s) :
    RunnerWorld.ReachableBy env allowed (RunnerStep.execAll env steps s) := by
  induction steps generalizing s with
  | nil => exact hs
  | cons step steps ih =>
      exact ih (fun step hstep ↦ hallowed step (by simp [hstep]))
        (.step step hs (hallowed step (by simp) s))

/-! ## A run with one workspace -/

/-- Data Input, shell tool with a worktree, Data Output. -/
def worktreeGraph : ParsedGraph where
  nodes :=
    [{ id := "in", type := .data, subtype := "input", name := "Input" },
      { id := "build", type := .tool, subtype := "shell", name := "Build"
        config :=
          [("command", .str "make"), ("workspace", .obj [("repository", .str "relayvia.git")])] },
      { id := "out", type := .data, subtype := "output", name := "Output" }]
  edges :=
    [{ id := "e1", source := "in", target := "build" },
      { id := "e2", source := "build", target := "out" }]
  nodeIds_nodup := by decide
  edges_closed := by decide

def worktreeRun : RunRecord where
  run := { id := "run", graph := worktreeGraph }
  nodeRuns := worktreeGraph.nodes.map (createNodeRun [])

theorem createRun_worktreeRun : createRun plainEnv 0 "run" worktreeGraph [] [] = .ok worktreeRun :=
  rfl

def shellRunner : Runner where
  id := "r"
  name := "Runner"
  capabilities := ["shell"]

def buildSucceeded : Dict :=
  [("ok", .bool true),
    ("metadata", .obj [("workspace_path", .str "/worktrees/build")])]

end Relayvia
