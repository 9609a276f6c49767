import Relayvia.Workspaces.Processes
import Relayvia.Workspaces.Scheduling

/-!
# Releasing the workspace of a finished task

Only `runner_submit` and a cleanup report take a workspace out of CREATING and
IN_USE.  A task that ends in another way leaves it active.
-/

namespace Relayvia

variable {env : Env} {now : Time} {db db' : RunRecord} {s s' : RunnerWorld}

/-! ## Coupled rows -/

theorem Coupled.modifyWorkspace (hc : Coupled db) (id : String) (f : Workspace → Workspace) :
    Coupled (db.modifyWorkspace id f) := by
  have hstep : Evolves Rights.all db (db.modifyWorkspace id f) :=
    (Evolves.refl hc.toKeyed).congr rfl rfl rfl
  exact hstep.coupled hc

theorem releaseWorkspace_coupled {id : String} (hc : Coupled db)
    (h : releaseWorkspace env now id db = .ok db') : Coupled db' := by
  rcases releaseWorkspace_rows h with rfl | ⟨w, f, -, -, -, rfl⟩
  · exact hc
  · exact hc.modifyWorkspace id f

theorem completeWorkspaceCleanup_coupled {runnerId id : String} {ok : Bool} {error : Option String}
    (hc : Coupled db) (h : completeWorkspaceCleanup env now runnerId id ok error db = .ok db') :
    Coupled db' := by
  rcases completeWorkspaceCleanup_rows h with rfl | ⟨w, f, -, -, -, rfl⟩
  · exact hc
  · exact hc.modifyWorkspace id f

theorem RunnerStep.Effect.coupled {step : RunnerStep} (h : Effect env s step s')
    (hc : Coupled s.db) : Coupled s'.db := by
  cases h with
  | run _ h => exact RunOp.exec_coupled env _ hc h
  | release h => exact releaseWorkspace_coupled hc h
  | @claim _ now runner leaseToken leaseSeconds task _ _ _ _ _ h =>
      exact RunOp.exec_coupled env (.runnerClaim now runner leaseToken leaseSeconds task) hc h
  | @renew _ now leaseSeconds p task leaseToken _ _ _ h =>
      exact RunOp.exec_coupled env
        (.runnerTaskHeartbeat now p.runner task leaseToken leaseSeconds) hc h
  | report _ _ _ _ h => exact completeWorkspaceCleanup_coupled hc h
  | @submit _ now p result task leaseToken _ _ _ _ h =>
      exact RunOp.exec_coupled env (.runnerSubmit now p.runner.id task leaseToken result) hc h
  | claimCleanup _ h _ =>
      obtain ⟨w, f, -, -, -, -, -, rfl⟩ := claimWorkspaceCleanup_rows h
      exact hc.modifyWorkspace _ f
  | _ => exact hc

theorem RunnerWorld.ReachableBy.coupled {allowed : RunnerWorld → RunnerStep → Prop}
    (h : RunnerWorld.ReachableBy env allowed s) : Coupled s.db := by
  induction h with
  | created h => exact createRun_coupled h
  | step step _ _ ih => exact (step.effect env _).coupled ih

/-! ## The condition -/

/-- None of the open tasks in `ends` is bound to an active workspace. -/
def EndsReleased (db : RunRecord) (ends : ExecutionTask → Prop) : Prop :=
  ∀ t ∈ db.tasks, ends t → t.status.isTerminal = false →
    ∀ w ∈ db.workspaces, w.nodeRunId = t.nodeRunId → w.status.isActive = false

instance {ends : ExecutionTask → Prop} [DecidablePred ends] : Decidable (EndsReleased db ends) :=
  inferInstanceAs (Decidable (∀ t ∈ db.tasks, _ → _ → _))

/-- The ready nodes whose turn in a reconciliation creates a workspace. -/
def workspacesToCreate (env : Env) (now : Time) (db : RunRecord) : ℕ :=
  (readyNodes (promotedAndSkipped env now db)).countP
    (attaches env (promotedAndSkipped env now db).toRunRecord)

/-- The operation ends no task of an active workspace.  A reconciliation that fails the
run creates one workspace at most: the task of an earlier one would be flushed, and
cancelled with the others. -/
def RunOp.ReleasesWorkspaces (env : Env) (db : RunRecord) : RunOp → Prop
  | .cancelRun _ => db.run.status.isTerminal = false → EndsReleased db fun _ ↦ True
  | .reconcile now =>
      (db.run.status = .cancelled → EndsReleased db fun _ ↦ True) ∧
        (db.run.status = .running ∨ db.run.status = .waiting →
          (∃ n ∈ db.nodeRuns, n.status = .failed) → EndsReleased db (fun _ ↦ True) ∧
            (db.run.status = .running → workspacesToCreate env now db ≤ 1))
  | op => EndsReleased db op.mayFinish

def RunnerStep.ReleasesWorkspaces (env : Env) (s : RunnerWorld) : RunnerStep → Prop
  | .run op => op.ReleasesWorkspaces env s.db
  | _ => True

/-! ## One step -/

/-- An active workspace has an open task. -/
def ActiveOpen (w : Workspace) (t : ExecutionTask) : Prop :=
  w.status.isActive = true → t.status.isTerminal = false

theorem ActiveOpen.of_inactive {w : Workspace} {t : ExecutionTask}
    (h : w.status.isActive = false) : ActiveOpen w t := by
  intro hactive
  rw [h] at hactive
  cases hactive

theorem ActiveOpen.created (w : Workspace) (t : ExecutionTask) (_ : w.status = .creating)
    (ht : t.status = .pending) : ActiveOpen w t := by
  intro _
  rw [ht]
  rfl

/-- Cancelling keeps the relation when an open task has no active workspace. -/
theorem ActiveOpen.cancel {w : Workspace} {t : ExecutionTask} (h : ActiveOpen w t)
    (hreleased : t.status.isTerminal = false → w.status.isActive = false) :
    ActiveOpen w (cancelTask now t) := by
  by_cases hterminal : t.status.isTerminal = true
  · rwa [cancelTask, if_pos hterminal]
  · exact .of_inactive (hreleased (by simpa using hterminal))

theorem syncWorkspace_deactivates (env : Env) (now : Time) (result : Dict) (w : Workspace) :
    (syncWorkspace env now result w).id = w.id ∧
      (syncWorkspace env now result w).nodeRunId = w.nodeRunId ∧
        (syncWorkspace env now result w).status.isActive = false := by
  unfold syncWorkspace
  dsimp only
  repeat' split
  all_goals exact ⟨rfl, rfl, rfl⟩

theorem WorkspacesBound.deactivate (h : WorkspacesBound ActiveOpen db) {id : String}
    {f : Workspace → Workspace} (hf : Deactivates f) :
    WorkspacesBound ActiveOpen (db.modifyWorkspace id f) :=
  h.modifyWorkspace (fun w ↦ ⟨(hf w).1, (hf w).2.1⟩)
    fun w _ _ _ _ _ _ ↦ .of_inactive (hf w).2.2.2

/-- A row that an operation ends was released before. -/
theorem WorkspacesBound.rowStep_active (h : WorkspacesBound ActiveOpen db)
    {finishes : ExecutionTask → Prop} (hstep : RowStep finishes db db')
    (hreleased : EndsReleased db finishes) : WorkspacesBound ActiveOpen db' := by
  refine h.rowStep hstep fun w hw t ht hkey _ t' ht' hopen hactive ↦ ?_
  by_contra hterminal
  rcases ht'.terminal (by simpa using hterminal) with hended | hfinishes
  · rw [hopen hactive] at hended
    cases hended
  · have hinactive := hreleased t ht hfinishes (hopen hactive) w hw hkey.symm
    rw [hinactive] at hactive
    cases hactive

/-! ## A reconciliation that fails the run -/

/-- What the loop knows of the flushed tasks: until the one workspace is created, no
open task has an active workspace; after that, the unflushed one alone does. -/
structure FlushedReleased (env : Env) (db₀ : RunRecord) (ids : List NodeId) (s : Session) :
    Prop where
  bound : WorkspacesBound (fun _ _ ↦ True) s.settled
  attaches : ∀ id ∈ ids, attaches env s.toRunRecord id = attaches env db₀ id
  released : ids.countP (Relayvia.attaches env db₀) ≤ 1 ∧ EndsReleased s.settled (fun _ ↦ True) ∨
    ids.countP (Relayvia.attaches env db₀) = 0 ∧ EndsReleased s.toRunRecord fun _ ↦ True

namespace FlushedReleased

variable {db₀ : RunRecord} {id : NodeId} {ids : List NodeId} {s s' : Session}

theorem tail (h : FlushedReleased env db₀ (id :: ids) s) : FlushedReleased env db₀ ids s where
  bound := h.bound
  attaches id' hid' := h.attaches id' (by simp [hid'])
  released := by
    have hle : ids.countP (Relayvia.attaches env db₀) ≤
        (id :: ids).countP (Relayvia.attaches env db₀) :=
      (List.sublist_cons_self id ids).countP_le
    rcases h.released with ⟨hcount, hreleased⟩ | ⟨hcount, hreleased⟩
    · exact .inl ⟨by omega, hreleased⟩
    · exact .inr ⟨by omega, hreleased⟩

theorem turn (h : FlushedReleased env db₀ (id :: ids) s)
    (hfresh : ∀ t ∈ s.settled.tasks, t.nodeRunId ≠ id) (hturn : Turn env id s s')
    (hattaches : ∀ id', Relayvia.attaches env s'.toRunRecord id' =
      Relayvia.attaches env s.toRunRecord id') : FlushedReleased env db₀ ids s' := by
  have htail := h.tail
  refine ⟨h.bound.turn hturn hfresh fun _ _ _ _ ↦ trivial,
    fun id' hid' ↦ (hattaches id').trans (htail.attaches id' hid'), ?_⟩
  have hunbound : ∀ w ∈ s.workspaces, w.nodeRunId ≠ id := by
    intro w hw hkey
    obtain ⟨u, hu, hukey, -⟩ := h.bound.bound w hw
    exact hfresh u hu (hukey.trans hkey)
  cases hturn with
  | plain t ht _ _ htasks hadded hworkspaces =>
      rcases htail.released with ⟨hcount, hreleased⟩ | ⟨hcount, hreleased⟩
      · refine .inl ⟨hcount, fun u hu _ hopen w hw hkey ↦ ?_⟩
        have hw : w ∈ s.workspaces := hworkspaces ▸ hw
        rw [Session.settled_add_tasks rfl htasks hadded] at hu
        rcases List.mem_append.mp hu with hu | hu
        · exact hreleased u hu trivial hopen w hw hkey
        · rw [List.mem_singleton.mp hu] at hkey
          exact absurd (hkey.trans ht.nodeRunId) (hunbound w hw)
      · refine .inr ⟨hcount, ?_⟩
        rwa [EndsReleased, htasks, hworkspaces]
  | attached t w ht hw hattach htasks hadded hworkspaces =>
      have hcons : (id :: ids).countP (Relayvia.attaches env db₀) =
          ids.countP (Relayvia.attaches env db₀) + 1 :=
        List.countP_cons_of_pos (by rw [← h.attaches id (by simp), hattach])
      rcases h.released with ⟨hcount, hreleased⟩ | ⟨hcount, -⟩
      · refine .inr ⟨by omega, fun u hu _ hopen w' hw' hkey ↦ ?_⟩
        have hu : u ∈ s.settled.tasks := htasks ▸ hu
        rcases List.mem_append.mp (hworkspaces ▸ hw') with hw' | hw'
        · exact hreleased u hu trivial hopen w' hw' hkey
        · rw [List.mem_singleton.mp hw', hw.nodeRunId] at hkey
          exact absurd hkey.symm (hfresh u hu)
      · omega

/-- At the end of the loop. -/
theorem flushed (h : FlushedReleased env db₀ [] s) : EndsReleased s.toRunRecord fun _ ↦ True := by
  rcases h.released with ⟨-, hreleased⟩ | ⟨-, hreleased⟩
  · exact fun t ht ↦ hreleased t (List.mem_append_left _ ht)
  · exact hreleased

end FlushedReleased

/-- The rows that a failing reconciliation cancels. -/
theorem ReconcileTrace.flushed_released {s₁ s₂ : Session} {derived : WorkflowRunStatus}
    (h : ReconcileTrace env now db s₁ s₂ derived db') (hc : Coupled db)
    (hbound : WorkspacesBound ActiveOpen db) (hreleased : EndsReleased db fun _ ↦ True)
    (hcount : db.run.status = .running → workspacesToCreate env now db ≤ 1) :
    EndsReleased s₂.toRunRecord fun _ ↦ True := by
  obtain ⟨hrun, -, -, -⟩ := promoteDueWaits_ok h.promote
  obtain ⟨htasks, hadded, hworkspaces⟩ := promoteDueWaits_rows h.promote
  obtain ⟨hskipRun, hskipNodes⟩ := h.promotedAndSkipped_rows
  have hsettled : s₁.settled.tasks = db.tasks := by
    simp [htasks, hadded, Session.numbered, Session.settled]
  have hbound₁ : WorkspacesBound (fun _ _ ↦ True) s₁.settled :=
    (hbound.congr hsettled hworkspaces).mono fun _ _ _ ↦ trivial
  have hreleased₁ : EndsReleased s₁.settled fun _ ↦ True := by
    rw [EndsReleased, hsettled]
    exact fun t ht hends hopen w hw ↦ hreleased t ht hends hopen w (hworkspaces ▸ hw)
  suffices hloop : Returns (scheduleReadyNodes env now s₁)
      (FlushedReleased env (promotedAndSkipped env now db).toRunRecord []) from
    (hloop.of_ok h.schedule).flushed
  refine scheduleReadyNodes_rule (fun h ↦ h.tail)
    (fun hfresh hturn hattaches h ↦ h.turn hfresh hturn hattaches) (h.promoted_coupled hc)
    (fun hrunning ↦ ?_) fun _ ↦ ⟨hbound₁, by simp, .inl ⟨by simp, hreleased₁⟩⟩
  · refine ⟨hbound₁.congr rfl rfl, fun id _ ↦ attaches_congr hskipRun (by rw [hskipNodes]) id,
      .inl ⟨?_, hreleased₁⟩⟩
    have hready : readyNodes (skipInactive now s₁) = readyNodes (promotedAndSkipped env now db) := by
      rw [readyNodes, hskipRun, hskipNodes]
    rw [hready]
    exact hcount (by rw [← hrunning, hrun])

theorem reconcile_active (hc : Coupled db) (hbound : WorkspacesBound ActiveOpen db)
    (hallowed : (RunOp.reconcile now).ReleasesWorkspaces env db)
    (h : reconcile env now db = .ok db') : WorkspacesBound ActiveOpen db' := by
  refine reconcile_bound hc hbound ActiveOpen.created (fun hcancelled w hw t ht hkey hopen ↦ ?_)
    (fun s₁ s₂ hactive htrace w hw t ht hkey hopen ↦ ?_) h
  · exact hopen.cancel fun htopen ↦ hallowed.1 hcancelled t ht trivial htopen w hw hkey.symm
  · obtain ⟨hreleased, hcount⟩ := hallowed.2 hactive (htrace.exists_failed hc)
    have hflushed := htrace.flushed_released hc hbound hreleased hcount
    exact hopen.cancel fun htopen ↦ hflushed t ht trivial htopen w hw hkey.symm

theorem RunOp.exec_active {op : RunOp} {returned : Bool} (hc : Coupled db)
    (hbound : WorkspacesBound ActiveOpen db) (hserver : op.isServer = true)
    (hallowed : op.ReleasesWorkspaces env db) (h : op.exec env db = .ok (returned, db')) :
    WorkspacesBound ActiveOpen db' := by
  by_cases hschedules : op.schedules = true
  · cases op with
    | schedule now => exact scheduleRun_bound hc hbound ActiveOpen.created (returning_eq_ok_iff.mp h).2
    | reconcile now => exact reconcile_active hc hbound hallowed (returning_eq_ok_iff.mp h).2
    | _ => cases hschedules
  · have hstep := (RunOp.exec_rows hc.toKeyed hserver (by simpa using hschedules)).of_ok h
    refine hbound.rowStep_active hstep ?_
    cases op with
    | cancelRun now =>
        refine hallowed ?_
        obtain ⟨db₁, hstatus, -⟩ := Outcome.bind_eq_ok_iff.mp (returning_eq_ok_iff.mp h).2
        unfold cancelRunStatus at hstatus
        split at hstatus
        · cases hstatus
        · next hopen => simpa using hopen
    | schedule | reconcile => exact absurd rfl hschedules
    | _ => exact hallowed

theorem runnerClaim_active {runner : Runner} {leaseToken : String} {leaseSeconds : ℕ}
    {task : TaskId} {returned : Bool} (hc : Coupled db) (hbound : WorkspacesBound ActiveOpen db)
    (h : runnerClaim now runner leaseToken leaseSeconds task db = .ok (returned, db')) :
    WorkspacesBound ActiveOpen db' := by
  rcases runnerClaim_rows.of_ok h with heq | ⟨-, t, hclaimed⟩
  · cases heq
    exact hbound
  · obtain ⟨f, htasks, hf⟩ := hclaimed.tasks
    refine hbound.modifyBoth hc.toKeyed hclaimed.found htasks hclaimed.workspaces
      (fun u ↦ (hf u).1) (fun _ ↦ ⟨rfl, rfl⟩) fun _ _ _ _ _ ↦ ?_
    rw [(hf t).2.1]
    rfl

theorem runnerSubmit_active {runnerId leaseToken : String} {task : TaskId} {result : Dict}
    {returned : Bool} (hc : Coupled db) (hbound : WorkspacesBound ActiveOpen db)
    (h : runnerSubmit env now runnerId task leaseToken result db = .ok (returned, db')) :
    WorkspacesBound ActiveOpen db' := by
  rcases runnerSubmit_rows.of_ok h with heq | ⟨-, t, hsubmitted⟩
  · cases heq
    exact hbound
  · obtain ⟨f, htasks, hsame, ⟨hwait, hworkspaces⟩ | ⟨-, hworkspaces⟩⟩ := hsubmitted.rows
    · refine hbound.of_map htasks hworkspaces (fun u _ ↦ ?_) fun w _ u _ _ _ hopen hactive ↦ ?_
      · split
        · exact hsame u
        · exact ⟨rfl, rfl, rfl⟩
      · split
        · rw [hwait u]
          rfl
        · exact hopen hactive
    · exact hbound.modifyBoth hc.toKeyed hsubmitted.found htasks hworkspaces hsame
        (fun w ↦ ⟨(syncWorkspace_deactivates env now result w).1,
          (syncWorkspace_deactivates env now result w).2.1⟩)
        fun w _ _ _ ↦ .of_inactive (syncWorkspace_deactivates env now result w).2.2

theorem RunnerStep.Effect.active {step : RunnerStep} (h : Effect env s step s')
    (hc : Coupled s.db) (hbound : WorkspacesBound ActiveOpen s.db)
    (hallowed : step.ReleasesWorkspaces env s) : WorkspacesBound ActiveOpen s'.db := by
  cases h with
  | run hserver h => exact RunOp.exec_active hc hbound hserver hallowed h
  | release h =>
      rcases releaseWorkspace_rows h with rfl | ⟨w, f, -, -, hf, rfl⟩
      · exact hbound
      · exact hbound.deactivate hf
  | claim _ _ _ h => exact runnerClaim_active hc hbound h
  | renew _ _ h =>
      exact hbound.rowStep_active ((runnerTaskHeartbeat_rows hc.toKeyed).of_ok h).1
        fun _ _ hends ↦ hends.elim
  | report _ _ _ _ h =>
      rcases completeWorkspaceCleanup_rows h with rfl | ⟨w, f, -, -, hf, rfl⟩
      · exact hbound
      · exact hbound.deactivate hf
  | submit _ _ h => exact runnerSubmit_active hc hbound h
  | claimCleanup _ h _ =>
      obtain ⟨w, f, -, -, -, hf, -, rfl⟩ := claimWorkspaceCleanup_rows h
      exact hbound.deactivate hf
  | _ => exact hbound

theorem RunnerWorld.ReachableBy.active
    (h : RunnerWorld.ReachableBy env (RunnerStep.ReleasesWorkspaces env) s) :
    WorkspacesBound ActiveOpen s.db := by
  induction h with
  | created h => exact createRun_bound h
  | step step hs hstep ih => exact (step.effect env _).active hs.coupled ih hstep

/-- When no step ends the task of an active workspace, the workspace of a terminal task
is inactive, and a release is refused as active only while the task is open. -/
theorem workspace_releasable
    (h : RunnerWorld.ReachableBy env (RunnerStep.ReleasesWorkspaces env) s) :
    ∀ w ∈ s.db.workspaces, ∃ t ∈ s.db.tasks, t.nodeRunId = w.nodeRunId ∧
      workspaceOf t = some w.id ∧
      (t.status.isTerminal = true → w.status.isActive = false) ∧
      ∀ now, releaseWorkspace env now w.id s.db = .error (.relayvia workspaceActive) →
        t.status.isTerminal = false := by
  intro w hw
  have hbound := h.active
  obtain ⟨t, ht, hkey, hnamed, -, hopen⟩ := hbound.bound w hw
  refine ⟨t, ht, hkey, hnamed, fun hterminal ↦ ?_, fun now hrefused ↦ ?_⟩
  · by_contra hactive
    rw [hopen (by simpa using hactive)] at hterminal
    cases hterminal
  · have hfound : Table.find? Workspace.id w.id s.db.workspaces = some w :=
      Table.find?_of_mem hbound.ids_nodup hw
    exact hopen (releaseWorkspace_active hfound hrefused)

/-- The workspace is released by its submission, so the run may be cancelled. -/
theorem workspace_releasable_submitted : ∃ s, RunnerWorld.ReachableBy plainEnv
      (RunnerStep.ReleasesWorkspaces plainEnv) s ∧ s.db.run.status = .cancelled ∧
    s.db.workspaces ≠ [] ∧
    ∀ w ∈ s.db.workspaces, ∃ t ∈ s.db.tasks, t.nodeRunId = w.nodeRunId ∧
      workspaceOf t = some w.id ∧
      (t.status.isTerminal = true → w.status.isActive = false) ∧
      ∀ now, releaseWorkspace plainEnv now w.id s.db = .error (.relayvia workspaceActive) →
        t.status.isTerminal = false := by
  have hsubmitted : RunnerWorld.ReachableBy plainEnv (RunnerStep.ReleasesWorkspaces plainEnv)
      (RunnerStep.execAll plainEnv
        [.run (.startRun 0), .run (.schedule 0), .claim 0 0 shellRunner "t" 60 0,
          .prepare 0 "/worktrees/build" "relayvia", .finish 0 buildSucceeded, .submit 0 0]
        { db := worktreeRun }) := by
    refine .execAll ?_ (.created createRun_worktreeRun)
    simp [RunnerStep.ReleasesWorkspaces, RunOp.ReleasesWorkspaces, EndsReleased, RunOp.mayFinish]
  have hallowed : EndsReleased (RunnerStep.execAll plainEnv
        [.run (.startRun 0), .run (.schedule 0), .claim 0 0 shellRunner "t" 60 0,
          .prepare 0 "/worktrees/build" "relayvia", .finish 0 buildSucceeded, .submit 0 0]
        { db := worktreeRun }).db fun _ ↦ True := by
    decide
  have hcancelled := RunnerWorld.ReachableBy.step (.run (.cancelRun 0)) hsubmitted fun _ ↦ hallowed
  exact ⟨_, hcancelled, by decide, by decide, workspace_releasable hcancelled⟩

/-- Cancelling a run leaves the workspace of a task that was never claimed in CREATING. -/
theorem not_workspace_releasable : ∃ s, RunnerWorld.ReachableBy plainEnv (fun _ _ ↦ True) s ∧
    ∃ w ∈ s.db.workspaces, ∃ t ∈ s.db.tasks, workspaceOf t = some w.id ∧
      t.status = .cancelled ∧ w.status = .creating ∧
      releaseWorkspace plainEnv 0 w.id s.db = .error (.relayvia workspaceActive) := by
  have hreachable : RunnerWorld.ReachableBy plainEnv (fun _ _ ↦ True)
      (RunnerStep.execAll plainEnv [.run (.startRun 0), .run (.schedule 0), .run (.cancelRun 0)]
        { db := worktreeRun }) :=
    .execAll (fun _ _ _ ↦ trivial) (.created createRun_worktreeRun)
  exact ⟨_, hreachable, _, List.mem_singleton_self _, _, List.mem_singleton_self _,
    rfl, rfl, rfl, rfl⟩

end Relayvia
