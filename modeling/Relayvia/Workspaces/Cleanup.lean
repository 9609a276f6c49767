import Relayvia.Workspaces.Leases

/-!
# Cleaning up the worktree of a lost lease

A cleanup report carries the id of the workspace but no lease token.  A process that
was asked to stop must not share its workspace with a later lease of its Runner.
-/

namespace Relayvia

variable {env : Env} {now : Time} {db db' : RunRecord} {s s' : RunnerWorld}

namespace RunnerProcess

/-- The command is to be run, or runs. -/
def working (p : RunnerProcess) : Bool :=
  match p.phase with
  | .claimed | .executing => true
  | _ => false

def cleaning (p : RunnerProcess) : Bool :=
  match p.phase with
  | .killed | .cleaned _ => true
  | _ => false

/-- The process was asked to stop, and its cleanup is not reported. -/
def stopping (p : RunnerProcess) : Bool :=
  p.cleaning || (p.working && p.cancelRequested)

/-- The task has the lease token of the process. -/
def HoldsToken (p : RunnerProcess) (t : ExecutionTask) : Prop :=
  ∃ task leaseToken, p.lease = some (task, leaseToken) ∧ t.leaseToken = some leaseToken

end RunnerProcess

/-- The task runs on a Runner in the workspace `x`. -/
structure RunsIn (runnerId x : String) (t : ExecutionTask) : Prop where
  running : t.status = .running
  lockedBy : t.lockedBy = some runnerId
  named : workspaceOf t = some x

/-- The conditions of the two requests after which a lost lease can meet a later one of
the same Runner: the heartbeat that stops the process of the lost lease, and the claim
of the later lease while such a process is stopping. -/
def RunnerStep.KeepsWorktrees (s : RunnerWorld) : RunnerStep → Prop
  | .heartbeat pid _ _ => ∀ p, s.processes pid = some p → p.working = true →
      p.workspace.isSome → ∀ task leaseToken, p.lease = some (task, leaseToken) →
        ∀ t, findTask s.db.tasks task = some t → t.status = .running →
          t.lockedBy = some p.runner.id → t.leaseToken = some leaseToken
  | .claim _ _ runner _ _ task => ∀ t, findTask s.db.tasks task = some t →
      ∀ x, workspaceOf t = some x → ∀ pid p, s.processes pid = some p →
        p.runner.id = runner.id → p.workspace = some x → p.stopping = false
  | _ => True

/-! ## The invariant -/

/-- A stopping process shares its workspace with no lease of its Runner, but for its own
one when the Runner token was revoked.  A process at work under its lease has its
worktree. -/
structure ProcessSafe (s : RunnerWorld) (p : RunnerProcess) : Prop where
  issued : ∀ task leaseToken, p.lease = some (task, leaseToken) → leaseToken ∈ s.issued
  task : ∀ task leaseToken, p.lease = some (task, leaseToken) →
    ∃ t, findTask s.db.tasks task = some t ∧ workspaceOf t = p.workspace
  stopping : p.stopping = true → ∀ x, p.workspace = some x → ∀ t ∈ s.db.tasks,
    RunsIn p.runner.id x t → p.authorized = false ∧ p.HoldsToken t
  directory : p.phase = .executing → p.isLocal = false → ∀ x, p.workspace = some x →
    ∀ t ∈ s.db.tasks, RunsIn p.runner.id x t → p.HoldsToken t → (p.runner.id, x) ∈ s.directories

structure RunnersSafe (s : RunnerWorld) : Prop where
  bound : WorkspacesBound RunningInUse s.db
  idle : TerminalIdle s.db
  distinct : ∀ pid pid' p p' task task' leaseToken, s.processes pid = some p →
    s.processes pid' = some p' → p.lease = some (task, leaseToken) →
      p'.lease = some (task', leaseToken) → pid = pid'
  processes : ∀ pid p, s.processes pid = some p → ProcessSafe s p

theorem LeasesKept.runsIn {runnerId x : String} {t' : ExecutionTask} (h : LeasesKept db db')
    (ht' : t' ∈ db'.tasks) (hruns : RunsIn runnerId x t') :
    ∃ t ∈ db.tasks, RunsIn runnerId x t ∧ t.leaseToken = t'.leaseToken := by
  obtain ⟨t, ht, hnamed, hrunning, hlocked, htoken⟩ := h.running ht' hruns.named hruns.running
  exact ⟨t, ht, ⟨hrunning, hlocked.trans hruns.lockedBy, hnamed⟩, htoken⟩

theorem RunnerProcess.HoldsToken.congr {p : RunnerProcess} {t t' : ExecutionTask}
    (h : p.HoldsToken t) (htoken : t.leaseToken = t'.leaseToken) : p.HoldsToken t' := by
  obtain ⟨task, leaseToken, hlease, ht⟩ := h
  exact ⟨task, leaseToken, hlease, htoken ▸ ht⟩

/-- Processes do not notice a transaction that gives no new lease. -/
theorem ProcessSafe.of_leasesKept {p : RunnerProcess} (h : ProcessSafe s p)
    (hleases : LeasesKept s.db db) (hk : Keyed s.db) (hk' : Keyed db) :
    ProcessSafe { s with db := db } p where
  issued := h.issued
  task task leaseToken hlease := by
    obtain ⟨t, ht, hworkspace⟩ := h.task task leaseToken hlease
    obtain ⟨t', ht', hsame⟩ := hleases.findTask hk hk' ht
    exact ⟨t', ht', hsame.trans hworkspace⟩
  stopping hstopping x hx t' ht' hruns := by
    obtain ⟨t, ht, hbefore, htoken⟩ := hleases.runsIn ht' hruns
    obtain ⟨hrevoked, hholds⟩ := h.stopping hstopping x hx t ht hbefore
    exact ⟨hrevoked, hholds.congr htoken⟩
  directory hphase hlocal x hx t' ht' hruns hholds := by
    obtain ⟨t, ht, hbefore, htoken⟩ := hleases.runsIn ht' hruns
    exact h.directory hphase hlocal x hx t ht hbefore (hholds.congr htoken.symm)

namespace RunnersSafe

theorem of_leasesKept (h : RunnersSafe s) (hk : Keyed s.db) (hk' : Keyed db)
    (hbound : WorkspacesBound RunningInUse db) (hidle : TerminalIdle db)
    (hleases : LeasesKept s.db db) : RunnersSafe { s with db := db } where
  bound := hbound
  idle := hidle
  distinct := h.distinct
  processes pid p hp := (h.processes pid p hp).of_leasesKept hleases hk hk'

/-- A process that ends. -/
theorem remove (h : RunnersSafe s) (pid : ℕ) : RunnersSafe (s.setProcess pid none) := by
  have hback {pid' : ℕ} {p : RunnerProcess} (hp : (s.setProcess pid none).processes pid' = some p) :
      s.processes pid' = some p := by
    rw [RunnerWorld.setProcess_processes] at hp
    split at hp
    · cases hp
    · exact hp
  exact
    { bound := h.bound
      idle := h.idle
      distinct := fun pid₁ pid₂ p₁ p₂ task task' leaseToken h₁ h₂ ↦
        h.distinct pid₁ pid₂ p₁ p₂ task task' leaseToken (hback h₁) (hback h₂)
      processes := fun pid' p hp ↦
        { issued := (h.processes pid' p (hback hp)).issued
          task := (h.processes pid' p (hback hp)).task
          stopping := (h.processes pid' p (hback hp)).stopping
          directory := (h.processes pid' p (hback hp)).directory } }

/-- A process that starts or goes on, and shares no lease token with another one. -/
theorem set (h : RunnersSafe s) {pid : ℕ} {q : RunnerProcess}
    (hfresh : ∀ pid' p' task task' leaseToken, pid' ≠ pid → s.processes pid' = some p' →
      q.lease = some (task, leaseToken) → p'.lease ≠ some (task', leaseToken))
    (hq : ProcessSafe s q) : RunnersSafe (s.setProcess pid (some q)) := by
  have hcases {pid' : ℕ} {p : RunnerProcess}
      (hp : (s.setProcess pid (some q)).processes pid' = some p) :
      pid' = pid ∧ p = q ∨ pid' ≠ pid ∧ s.processes pid' = some p := by
    rw [RunnerWorld.setProcess_processes] at hp
    split at hp
    · next heq => exact .inl ⟨heq, (Option.some.inj hp).symm⟩
    · next hne => exact .inr ⟨hne, hp⟩
  refine ⟨h.bound, h.idle, fun pid₁ pid₂ p₁ p₂ task task' leaseToken h₁ h₂ hl₁ hl₂ ↦ ?_,
    fun pid' p hp ↦ ?_⟩
  · rcases hcases h₁ with ⟨rfl, rfl⟩ | ⟨hne₁, hp₁⟩
    · rcases hcases h₂ with ⟨rfl, rfl⟩ | ⟨hne₂, hp₂⟩
      · rfl
      · exact absurd hl₂ (hfresh pid₂ p₂ task task' leaseToken hne₂ hp₂ hl₁)
    · rcases hcases h₂ with ⟨rfl, rfl⟩ | ⟨-, hp₂⟩
      · exact absurd hl₁ (hfresh pid₁ p₁ task' task leaseToken hne₁ hp₁ hl₂)
      · exact h.distinct pid₁ pid₂ p₁ p₂ task task' leaseToken hp₁ hp₂ hl₁ hl₂
  · have hsafe : ProcessSafe s p := by
      rcases hcases hp with ⟨-, rfl⟩ | ⟨-, hp⟩
      · exact hq
      · exact h.processes pid' p hp
    exact ⟨hsafe.issued, hsafe.task, hsafe.stopping, hsafe.directory⟩

/-- A process that goes on under its lease. -/
theorem replace (h : RunnersSafe s) {pid : ℕ} {p q : RunnerProcess}
    (hp : s.processes pid = some p) (hlease : q.lease = p.lease) (hq : ProcessSafe s q) :
    RunnersSafe (s.setProcess pid (some q)) := by
  refine h.set (fun pid' p' task task' leaseToken hne hp' hl hl' ↦ ?_) hq
  exact hne (h.distinct pid' pid p' p task' task leaseToken hp' hp hl' (hlease ▸ hl))

/-- The worktrees change, but for those in which a process works under its lease. -/
theorem withDirectories (h : RunnersSafe s) {directories : List (String × String)}
    (hd : ∀ pid p, s.processes pid = some p → p.phase = .executing → p.isLocal = false →
      ∀ x, p.workspace = some x → ∀ t ∈ s.db.tasks, RunsIn p.runner.id x t → p.HoldsToken t →
        (p.runner.id, x) ∈ s.directories → (p.runner.id, x) ∈ directories) :
    RunnersSafe { s with directories := directories } where
  bound := h.bound
  idle := h.idle
  distinct := h.distinct
  processes pid p hp :=
    { issued := (h.processes pid p hp).issued
      task := (h.processes pid p hp).task
      stopping := (h.processes pid p hp).stopping
      directory := fun hphase hlocal x hx t ht hruns hholds ↦
        hd pid p hp hphase hlocal x hx t ht hruns hholds
          ((h.processes pid p hp).directory hphase hlocal x hx t ht hruns hholds) }

/-! ## Transactions of the server -/

theorem rowStep (h : RunnersSafe s) (hk : Keyed s.db) (hk' : Keyed db)
    {finishes : ExecutionTask → Prop} (hstep : RowStep finishes s.db db) :
    RunnersSafe { s with db := db } :=
  h.of_leasesKept hk hk' (h.bound.rowStep_inUse hstep) (h.idle.rowStep hstep)
    (.of_rowStep hk h.bound hstep)

theorem exec {op : RunOp} {returned : Bool} (h : RunnersSafe s) (hc : Coupled s.db)
    (hserver : op.isServer = true) (hexec : op.exec env s.db = .ok (returned, db)) :
    RunnersSafe { s with db := db } := by
  have hk' := (RunOp.exec_coupled env op hc hexec).toKeyed
  by_cases hschedules : op.schedules = true
  · cases op with
    | schedule now =>
        have hschedule := (returning_eq_ok_iff.mp hexec).2
        have htasks := scheduleRun_tasks hc hschedule
        have hsteps := (scheduleRun_sound (R := Rights.all) hc).of_ok hschedule
        exact h.of_leasesKept hc.toKeyed hk'
          (scheduleRun_bound hc h.bound RunningInUse.created hschedule)
          (h.idle.of_running (by rw [CellSteps.run hsteps]) htasks.running) htasks.leasesKept
    | reconcile now =>
        have hreconcile := (returning_eq_ok_iff.mp hexec).2
        refine h.of_leasesKept hc.toKeyed hk' ?_ (reconcile_idle hc h.idle hreconcile)
          (reconcile_tasks hc hreconcile).leasesKept
        exact reconcile_bound hc h.bound RunningInUse.created
          (fun _ _ _ t _ _ _ ↦ .of_terminal (cancelTask_terminal _ t))
          (fun _ _ _ _ _ _ t _ _ _ ↦ .of_terminal (cancelTask_terminal _ t)) hreconcile
    | _ => cases hschedules
  · exact h.rowStep hc.toKeyed hk'
      ((RunOp.exec_rows hc.toKeyed hserver (by simpa using hschedules)).of_ok hexec)

/-- A workspace whose task does not run is released or cleaned up. -/
theorem modifyWorkspace (h : RunnersSafe s) (hc : Coupled s.db) {id : String}
    {f : Workspace → Workspace} (hf : Deactivates f)
    (hidle : ∀ w ∈ s.db.workspaces, w.id = id → ∀ t ∈ s.db.tasks, t.nodeRunId = w.nodeRunId →
      t.status ≠ .running) : RunnersSafe { s with db := s.db.modifyWorkspace id f } := by
  refine h.of_leasesKept hc.toKeyed (hc.modifyWorkspace id f).toKeyed ?_
    (h.idle.of_running rfl fun t ht hrunning ↦ ⟨t, ht, hrunning⟩) (.of_tasks rfl)
  exact h.bound.modifyWorkspace (fun w ↦ ⟨(hf w).1, (hf w).2.1⟩)
    fun w hw hid t ht hkey hQ ↦ .of_idle hQ.unclaimed (hidle w hw hid t ht hkey)

theorem modifyInactive (h : RunnersSafe s) (hc : Coupled s.db) {id : String} {w : Workspace}
    {f : Workspace → Workspace} (hfound : Table.find? Workspace.id id s.db.workspaces = some w)
    (hinactive : w.status.isActive = false) (hf : Deactivates f) :
    RunnersSafe { s with db := s.db.modifyWorkspace id f } := by
  refine h.modifyWorkspace hc hf fun w' hw' hid t ht hkey hrunning ↦ ?_
  obtain ⟨hmem, hid₀⟩ := (Table.find?_eq_some_iff h.bound.ids_nodup).mp hfound
  obtain rfl : w' = w := List.inj_on_of_nodup_map h.bound.ids_nodup hw' hmem (hid.trans hid₀.symm)
  have hinUse := (h.bound.forall_task hc.toKeyed hw' ht hkey).2.2.inUse hrunning
  rw [hinUse] at hinactive
  cases hinactive

theorem release {id : String} (h : RunnersSafe s) (hc : Coupled s.db)
    (hrelease : releaseWorkspace env now id s.db = .ok db) : RunnersSafe { s with db := db } := by
  rcases releaseWorkspace_rows hrelease with rfl | ⟨w, f, hfound, hinactive, hf, rfl⟩
  · exact h
  · exact h.modifyInactive hc hfound hinactive hf

/-! ## Requests of Runners -/

theorem submit {runnerId leaseToken : String} {task : TaskId} {result : Dict} {returned : Bool}
    (h : RunnersSafe s) (hc : Coupled s.db)
    (hsubmit : runnerSubmit env now runnerId task leaseToken result s.db = .ok (returned, db)) :
    RunnersSafe { s with db := db } := by
  have hk' := (RunOp.exec_coupled env (.runnerSubmit now runnerId task leaseToken result) hc
    hsubmit).toKeyed
  rcases runnerSubmit_rows.of_ok hsubmit with heq | ⟨-, t, hsubmitted⟩
  · cases heq
    exact h
  obtain ⟨f, htasks, hsame, hrows⟩ := hsubmitted.rows
  have hstopped : ∀ u, (f u).status ≠ .claimed ∧ (f u).status ≠ .running := by
    rcases hrows with ⟨hwait, -⟩ | ⟨hterminal, -⟩
    · simp [hwait]
    · intro u
      have hend := hterminal u
      refine ⟨fun hs ↦ ?_, fun hs ↦ ?_⟩
      all_goals
        rw [hs] at hend
        cases hend
  have hrunning : ∀ t' ∈ db.tasks, t'.status = .running → t' ∈ s.db.tasks := by
    rw [htasks]
    intro t' ht' hrunning
    rcases Table.mem_modify.mp ht' with ⟨u, -, -, rfl⟩ | ⟨hu, -⟩
    · exact absurd hrunning (hstopped u).2
    · exact hu
  refine h.of_leasesKept hc.toKeyed hk' ?_
    (h.idle.of_running hsubmitted.status fun t' ht' hs ↦ ⟨t', hrunning t' ht' hs, hs⟩) ?_
  · rcases hrows with ⟨-, hworkspaces⟩ | ⟨-, hworkspaces⟩
    · refine h.bound.of_map htasks hworkspaces (fun u _ ↦ ?_) fun w _ u _ _ _ hQ ↦ ?_
      · split
        · exact hsame u
        · exact ⟨rfl, rfl, rfl⟩
      · split
        · exact .of_idle (hstopped u).1 (hstopped u).2
        · exact hQ
    · exact h.bound.modifyBoth hc.toKeyed hsubmitted.found htasks hworkspaces hsame
        (fun w ↦ ⟨(syncWorkspace_deactivates env now result w).1,
          (syncWorkspace_deactivates env now result w).2.1⟩)
        fun w _ _ _ ↦ .of_idle (hstopped t).1 (hstopped t).2
  · refine ⟨_, [], by rw [htasks, List.append_nil, Table.modify], fun u _ ↦ ?_, by simp⟩
    split
    · exact ⟨workspaceOf_congr (hsame u).2.1, fun _ hs ↦ absurd hs (hstopped u).2⟩
    · exact ⟨rfl, fun _ hs ↦ ⟨hs, rfl, rfl⟩⟩

/-- A claim gives a fresh token, and no process of the Runner is stopping in the
workspace. -/
theorem claim (env : Env) {pid : ℕ} {runner : Runner} {leaseToken : String} {leaseSeconds : ℕ}
    {task : TaskId} {t : ExecutionTask} (h : RunnersSafe s) (hc : Coupled s.db)
    (ht : findTask s.db.tasks task = some t) (hfresh : leaseToken ∉ s.issued)
    (hkeeps : (RunnerStep.claim pid now runner leaseToken leaseSeconds task).KeepsWorktrees s)
    (hclaim : runnerClaim now runner leaseToken leaseSeconds task s.db = .ok (true, db)) :
    RunnersSafe
      ({ s with db := db, issued := leaseToken :: s.issued }.setProcess pid (some
        { runner := runner
          lease := some (task, leaseToken)
          workspace := workspaceOf t
          isLocal := localStrategy t
          phase := .claimed })) := by
  have hk' := (RunOp.exec_coupled env (.runnerClaim now runner leaseToken leaseSeconds task) hc
    hclaim).toKeyed
  rcases runnerClaim_rows.of_ok hclaim with heq | ⟨-, t', hclaimed⟩
  · cases heq
  obtain rfl : t' = t := Option.some.inj (hclaimed.found.symm.trans ht)
  obtain ⟨f, htasks, hf⟩ := hclaimed.tasks
  have hmem := (hc.findTask_eq_some_iff.mp ht).1
  have hsame : ∀ u, workspaceOf (f u) = workspaceOf u := fun u ↦ workspaceOf_congr (hf u).1.2.1
  have hcases : ∀ u' ∈ db.tasks, u' = f t' ∨ u' ∈ s.db.tasks := by
    rw [htasks]
    intro u' hu'
    rcases Table.mem_modify.mp hu' with ⟨u, hu, hid, rfl⟩ | ⟨hu, -⟩
    · have heq := hc.findTask_eq_some_iff.mpr ⟨hu, hid⟩
      rw [ht] at heq
      cases heq
      exact .inl rfl
    · exact .inr hu
  have hfind {id : TaskId} {u : ExecutionTask} (hu : findTask s.db.tasks id = some u) :
      ∃ u', findTask db.tasks id = some u' ∧ workspaceOf u' = workspaceOf u := by
    have hmap : db.tasks = s.db.tasks.map (fun u ↦ if u.id = task then f u else u) ++ [] := by
      rw [htasks, List.append_nil, Table.modify]
    refine ⟨_, hc.toKeyed.findTask_map hk' hmap hu, ?_⟩
    split
    · exact hsame u
    · rfl
  have hsafe : RunnersSafe { s with db := db, issued := leaseToken :: s.issued } := by
    refine ⟨?_, fun hterminal ↦ ?_, h.distinct, fun pid' p hp ↦ ?_⟩
    · refine h.bound.modifyBoth hc.toKeyed ht htasks hclaimed.workspaces (fun u ↦ (hf u).1)
        (fun _ ↦ ⟨rfl, rfl⟩) fun w _ _ _ ↦ ⟨?_, fun _ ↦ rfl, fun _ ↦ (hf t').2.2.1.symm⟩
      rw [(hf t').2.1]
      decide
    · rw [hclaimed.status, hclaimed.active] at hterminal
      cases hterminal
    · have hold := h.processes pid' p hp
      refine ⟨fun task' token hlease ↦ List.mem_cons_of_mem _ (hold.issued task' token hlease),
        fun task' token hlease ↦ ?_, fun hstopping x hx u' hu' hruns ↦ ?_,
        fun hphase hlocal x hx u' hu' hruns hholds ↦ ?_⟩
      · obtain ⟨u, hu, hworkspace⟩ := hold.task task' token hlease
        obtain ⟨u', hu', hnamed⟩ := hfind hu
        exact ⟨u', hu', hnamed.trans hworkspace⟩
      · rcases hcases u' hu' with rfl | hu
        · have hrunner : p.runner.id = runner.id :=
            Option.some.inj (hruns.lockedBy.symm.trans (hf t').2.2.1)
          have hnot := hkeeps t' ht x ((hsame t').symm.trans hruns.named) pid' p hp hrunner hx
          rw [hstopping] at hnot
          cases hnot
        · exact hold.stopping hstopping x hx u' hu hruns
      · rcases hcases u' hu' with rfl | hu
        · obtain ⟨task', token, hlease, htoken⟩ := hholds
          rw [(hf t').2.2.2] at htoken
          exact absurd (Option.some.inj htoken ▸ hold.issued task' token hlease) hfresh
        · exact hold.directory hphase hlocal x hx u' hu hruns hholds
  refine hsafe.set (fun pid' p' task₁ task₂ token _ hp' hl hl' ↦ ?_) ⟨?_, ?_, ?_, ?_⟩
  · cases hl
    exact hfresh ((h.processes pid' p' hp').issued _ _ hl')
  · intro task' token hlease
    cases hlease
    exact List.mem_cons_self
  · intro task' token hlease
    cases hlease
    exact hfind ht
  · intro hstopping
    cases hstopping
  · intro hphase
    cases hphase

/-! ## Processes -/

theorem revoke (h : RunnersSafe s) (runnerId : String) : RunnersSafe
    { s with
      processes := fun pid ↦ (s.processes pid).map fun p ↦
        if p.runner.id = runnerId then { p with authorized := false } else p } := by
  have hback {pid : ℕ} {q : RunnerProcess} (hq : ((s.processes pid).map fun p ↦
      if p.runner.id = runnerId then { p with authorized := false } else p) = some q) :
      ∃ p, s.processes pid = some p ∧ (q = p ∨ q = { p with authorized := false }) := by
    obtain ⟨p, hp, rfl⟩ := Option.map_eq_some_iff.mp hq
    refine ⟨p, hp, ?_⟩
    split
    · exact .inr rfl
    · exact .inl rfl
  refine ⟨h.bound, h.idle, fun pid pid' q q' task task' leaseToken hq hq' hl hl' ↦ ?_,
    fun pid q hq ↦ ?_⟩
  · obtain ⟨p, hp, hpq⟩ := hback hq
    obtain ⟨p', hp', hpq'⟩ := hback hq'
    refine h.distinct pid pid' p p' task task' leaseToken hp hp' ?_ ?_
    · rcases hpq with rfl | rfl <;> exact hl
    · rcases hpq' with rfl | rfl <;> exact hl'
  · obtain ⟨p, hp, hpq⟩ := hback hq
    have hold := h.processes pid p hp
    rcases hpq with rfl | rfl
    · exact ⟨hold.issued, hold.task, hold.stopping, hold.directory⟩
    · exact ⟨hold.issued, hold.task, fun hstopping x hx t ht hruns ↦
        ⟨rfl, (hold.stopping hstopping x hx t ht hruns).2⟩, hold.directory⟩

theorem prepare {pid : ℕ} {p : RunnerProcess} {path branch : String} (h : RunnersSafe s)
    (hp : s.processes pid = some p) (hphase : p.phase = .claimed) :
    RunnersSafe ({ s with directories := p.prepared s.directories }.setProcess pid
      (some (p.prepare path branch))) := by
  have hsubset : ∀ d ∈ s.directories, d ∈ p.prepared s.directories := by
    intro d hd
    unfold RunnerProcess.prepared
    split
    · split
      · exact hd
      · exact List.mem_cons_of_mem _ hd
    · exact hd
  have hold := h.processes pid p hp
  have hsafe : RunnersSafe { s with directories := p.prepared s.directories } :=
    h.withDirectories fun _ _ _ _ _ _ _ _ _ _ _ hd ↦ hsubset _ hd
  refine hsafe.replace hp rfl ⟨hold.issued, hold.task, fun hstopping ↦ hold.stopping ?_,
    fun _ hlocal x hx _ _ _ _ ↦ ?_⟩
  · simpa [RunnerProcess.stopping, RunnerProcess.cleaning, RunnerProcess.working,
      RunnerProcess.prepare, hphase] using hstopping
  · have hlocal : p.isLocal = false := hlocal
    have hx : p.workspace = some x := hx
    simp [RunnerProcess.prepared, RunnerProcess.prepare, hx, hlocal]

/-- The heartbeat that stops a process: its lease is lost, and no later one of its
Runner runs. -/
theorem stop {pid : ℕ} {p : RunnerProcess} {task : TaskId} {leaseToken : String}
    {leaseSeconds : ℕ} (h : RunnersSafe s) (hc : Coupled s.db) (hp : s.processes pid = some p)
    (hlease : p.lease = some (task, leaseToken))
    (hkeeps : (RunnerStep.heartbeat pid now leaseSeconds).KeepsWorktrees s)
    (hstop : p.authorized = false ∨
      (∃ db, runnerTaskHeartbeat now p.runner task leaseToken leaseSeconds s.db = .ok (true, db)) ∨
        ∃ e, runnerTaskHeartbeat now p.runner task leaseToken leaseSeconds s.db = .error e) :
    RunnersSafe (s.setProcess pid (some { p with cancelRequested := true })) := by
  have hold := h.processes pid p hp
  refine h.replace hp rfl ⟨hold.issued, hold.task, fun hstopping x hx t ht hruns ↦ ?_,
    hold.directory⟩
  by_cases hcleaning : p.cleaning = true
  · exact hold.stopping (by simp [RunnerProcess.stopping, hcleaning]) x hx t ht hruns
  have hworking : p.working = true := by
    have hcases : (p.cleaning || (p.working && true)) = true := hstopping
    simpa [hcleaning] using hcases
  obtain ⟨u, hu, hworkspace⟩ := hold.task task leaseToken hlease
  obtain rfl : t = u := h.bound.task_unique hc.toKeyed ht (hc.findTask_eq_some_iff.mp hu).1
    hruns.named (hworkspace.trans hx)
  have htoken := hkeeps p hp hworking (by simp [show p.workspace = some x from hx]) task leaseToken
    hlease t hu hruns.running hruns.lockedBy
  refine ⟨?_, task, leaseToken, hlease, htoken⟩
  rcases hstop with hrevoked | ⟨db, hok⟩ | ⟨e, herror⟩
  · exact hrevoked
  · obtain ⟨t', ht', -, -, -, hended⟩ := ((runnerTaskHeartbeat_rows hc.toKeyed).of_ok hok).2 rfl
    obtain rfl : t' = t := Option.some.inj (ht'.symm.trans hu)
    rcases hended with hstatus | hterminal
    · exact absurd hruns.running hstatus
    · exact absurd hruns.running (h.idle hterminal t' ht)
  · exact absurd ⟨hruns.lockedBy, htoken⟩
      ((runnerTaskHeartbeat_rows hc.toKeyed).of_error herror t hu)

/-- The cleanup of a stopping process removes no worktree in which another one works. -/
theorem cleanup {pid : ℕ} {p : RunnerProcess} {x : String} {error : Option String}
    (h : RunnersSafe s) (hp : s.processes pid = some p) (hphase : p.phase = .killed)
    (hworkspace : p.workspace = some x) :
    RunnersSafe ({ s with
      directories :=
        if p.isLocal ∨ error.isSome then s.directories
        else s.directories.filter (· ≠ (p.runner.id, x)) }.setProcess pid
      (some { p with phase := .cleaned error })) := by
  have hold := h.processes pid p hp
  have hstopping : p.stopping = true := by
    simp [RunnerProcess.stopping, RunnerProcess.cleaning, hphase]
  have hsafe : RunnersSafe { s with
      directories :=
        if p.isLocal ∨ error.isSome then s.directories
        else s.directories.filter (· ≠ (p.runner.id, x)) } := by
    refine h.withDirectories fun pid' p' hp' hphase' _ x' hx' t ht hruns hholds hd ↦ ?_
    split
    · exact hd
    · refine List.mem_filter.mpr ⟨hd, ?_⟩
      by_contra hsame
      have heq : (p'.runner.id, x') = (p.runner.id, x) := by simpa using hsame
      obtain ⟨hrunner, rfl⟩ := Prod.mk.inj heq
      obtain ⟨-, task, token, hlease, htoken⟩ :=
        hold.stopping hstopping x' hworkspace t ht (hrunner ▸ hruns)
      obtain ⟨task', token', hlease', htoken'⟩ := hholds
      obtain rfl : token = token' := Option.some.inj (htoken.symm.trans htoken')
      obtain rfl := h.distinct pid pid' p p' task task' token hp hp' hlease hlease'
      rw [hp] at hp'
      cases hp'
      rw [hphase] at hphase'
      cases hphase'
  exact hsafe.replace hp rfl ⟨hold.issued, hold.task, fun _ ↦ hold.stopping hstopping,
    fun hphase' ↦ by cases hphase'⟩

/-- A report is accepted from a valid Runner token only, so no task runs in the
workspace. -/
theorem report {pid : ℕ} {p : RunnerProcess} {x : String} {ok : Bool} {error : Option String}
    (h : RunnersSafe s) (hc : Coupled s.db) (hp : s.processes pid = some p)
    (hstopping : p.stopping = true) (hworkspace : p.workspace = some x)
    (hauthorized : p.authorized = true)
    (hreport : completeWorkspaceCleanup env now p.runner.id x ok error s.db = .ok db) :
    RunnersSafe ({ s with db := db }.setProcess pid p.reported) := by
  have hsafe : RunnersSafe { s with db := db } := by
    rcases completeWorkspaceCleanup_rows hreport with rfl | ⟨w, f, hfound, hrunner, hf, rfl⟩
    · exact h
    · refine h.modifyWorkspace hc hf fun w' hw' hid t ht hkey hrunning ↦ ?_
      obtain ⟨hmem, hid₀⟩ := (Table.find?_eq_some_iff h.bound.ids_nodup).mp hfound
      obtain rfl : w' = w :=
        List.inj_on_of_nodup_map h.bound.ids_nodup hw' hmem (hid.trans hid₀.symm)
      obtain ⟨hnamed, -, hinUse⟩ := h.bound.forall_task hc.toKeyed hw' ht hkey
      have hlocked : t.lockedBy = some p.runner.id := (hinUse.runner hrunning).symm.trans hrunner
      have hrevoked := ((h.processes pid p hp).stopping hstopping x hworkspace t ht
        ⟨hrunning, hlocked, hid ▸ hnamed⟩).1
      rw [hauthorized] at hrevoked
      cases hrevoked
  have hold := hsafe.processes pid p hp
  have hreported : p.reported = none ∨
      p.reported = some { p with phase := .submitting (cancelledResult p.workspaceMeta) } := by
    unfold RunnerProcess.reported
    cases p.lease with
    | none => exact .inl rfl
    | some lease => exact .inr rfl
  rcases hreported with heq | heq
  · rw [heq]
    exact hsafe.remove pid
  · rw [heq]
    exact hsafe.replace hp rfl
      ⟨hold.issued, hold.task, fun h ↦ (by cases h), fun h ↦ (by cases h)⟩

/-- The main loop takes up the cleanup of a workspace that is not active. -/
theorem claimCleanup {pid : ℕ} {runner : Runner} {staleAfterSeconds : ℕ} {updatedAt : Time}
    {id : String} {w : Workspace} {p : Option RunnerProcess} (h : RunnersSafe s) (hc : Coupled s.db)
    (hclaim : claimWorkspaceCleanup env now runner.id staleAfterSeconds updatedAt id s.db =
      (some w, db))
    (hp : p = none ∨ p = some
      { runner := runner
        lease := none
        workspace := some w.id
        isLocal := w.isLocal
        phase := .killed }) : RunnersSafe ({ s with db := db }.setProcess pid p) := by
  obtain ⟨w₀, f, hfound, -, hinactive, hf, rfl, rfl⟩ := claimWorkspaceCleanup_rows hclaim
  have hsafe := h.modifyInactive hc hfound hinactive hf
  rcases hp with rfl | rfl
  · exact hsafe.remove pid
  · refine hsafe.set (fun _ _ _ _ _ _ _ hl ↦ (by cases hl)) ⟨fun _ _ hl ↦ (by cases hl),
      fun _ _ hl ↦ (by cases hl), fun _ x hx t ht hruns ↦ ?_, fun h ↦ (by cases h)⟩
    have hid : w₀.id = x := (hf w₀).1.symm.trans (Option.some.inj hx)
    have hw₀ := ((Table.find?_eq_some_iff h.bound.ids_nodup).mp hfound).1
    have hkey := (h.bound.names_iff hc.toKeyed hw₀ ht).mp (hid ▸ hruns.named)
    have hinUse := (h.bound.forall_task hc.toKeyed hw₀ ht hkey).2.2.inUse hruns.running
    rw [hinUse] at hinactive
    cases hinactive

end RunnersSafe

/-! ## Runs -/

theorem RunnerStep.Effect.safe {step : RunnerStep} (h : Effect env s step s') (hc : Coupled s.db)
    (hsafe : RunnersSafe s) (hkeeps : step.KeepsWorktrees s) : RunnersSafe s' := by
  cases h with
  | stay => exact hsafe
  | run hserver h => exact hsafe.exec hc hserver h
  | release h => exact hsafe.release hc h
  | revoke runnerId => exact hsafe.revoke runnerId
  | claim _ ht hfresh h => exact hsafe.claim env hc ht hfresh hkeeps h
  | prepare hp hphase => exact hsafe.prepare hp hphase
  | @renew _ now leaseSeconds p task leaseToken _ _ _ h =>
      have hk' := (RunOp.exec_coupled env
        (.runnerTaskHeartbeat now p.runner task leaseToken leaseSeconds) hc h).toKeyed
      exact hsafe.rowStep hc.toKeyed hk' ((runnerTaskHeartbeat_rows hc.toKeyed).of_ok h).1
  | stop hp hlease h => exact hsafe.stop hc hp hlease hkeeps h
  | finish hp _ =>
      have hold := hsafe.processes _ _ hp
      exact hsafe.replace hp rfl
        ⟨hold.issued, hold.task, fun h ↦ (by cases h), fun h ↦ (by cases h)⟩
  | @kill _ p hp hphase hcancel =>
      have hold := hsafe.processes _ _ hp
      have hstopping : p.stopping = true := by
        simp [RunnerProcess.stopping, RunnerProcess.working, hphase, hcancel]
      refine hsafe.replace hp rfl ⟨hold.issued, hold.task, fun _ ↦ hold.stopping hstopping, ?_⟩
      intro h
      unfold RunnerProcess.kill at h
      split at h <;> cases h
  | cleanup hp hphase hworkspace => exact hsafe.cleanup hp hphase hworkspace
  | report hp hphase hworkspace hauthorized h =>
      refine hsafe.report hc hp ?_ hworkspace hauthorized h
      simp [RunnerProcess.stopping, RunnerProcess.cleaning, hphase]
  | refused => exact hsafe.remove _
  | submit _ _ h => exact hsafe.submit hc h
  | exit pid => exact hsafe.remove pid
  | claimCleanup _ h hp => exact hsafe.claimCleanup hc h hp

theorem RunnerWorld.ReachableBy.safe
    (h : RunnerWorld.ReachableBy env RunnerStep.KeepsWorktrees s) : RunnersSafe s := by
  induction h with
  | created h =>
      obtain ⟨hcreated, -, htasks, -⟩ := createRun_ok h
      refine ⟨createRun_bound h, fun _ t ht ↦ ?_, fun _ _ _ _ _ _ _ _ hp ↦ (by cases hp),
        fun _ _ hp ↦ (by cases hp)⟩
      simp [htasks] at ht
  | step step hs hstep ih => exact (step.effect env _).safe hs.coupled ih hstep

/-- The workspace of a running task is in use, and every process at work under the lease
of a running task has its worktree. -/
theorem worktree_kept (h : RunnerWorld.ReachableBy env RunnerStep.KeepsWorktrees s) :
    (∀ w ∈ s.db.workspaces, ∀ t ∈ s.db.tasks, t.nodeRunId = w.nodeRunId →
      t.status = .running → w.status = .inUse) ∧
    ∀ pid p x t, s.processes pid = some p → p.phase = .executing → p.isLocal = false →
      p.workspace = some x → t ∈ s.db.tasks → RunsIn p.runner.id x t → p.HoldsToken t →
        (p.runner.id, x) ∈ s.directories := by
  have hsafe := h.safe
  refine ⟨fun w hw t ht hkey hrunning ↦ ?_, fun pid p x t hp hphase hlocal hx ht hruns hholds ↦ ?_⟩
  · exact (hsafe.bound.forall_task h.coupled.toKeyed hw ht hkey).2.2.inUse hrunning
  · exact (hsafe.processes pid p hp).directory hphase hlocal x hx t ht hruns hholds

/-- A Runner claims the task and prepares its worktree. -/
def buildSteps : List RunnerStep :=
  [.run (.startRun 0), .run (.schedule 0), .claim 0 0 shellRunner "t1" 60 0,
    .prepare 0 "/worktrees/build" "relayvia"]

theorem worktree_kept_build : ∃ s p, RunnerWorld.ReachableBy plainEnv RunnerStep.KeepsWorktrees s ∧
    s.processes 0 = some p ∧ p.phase = .executing ∧
    (∀ w ∈ s.db.workspaces, ∀ t ∈ s.db.tasks, t.nodeRunId = w.nodeRunId →
      t.status = .running → w.status = .inUse) ∧
    ∀ pid p x t, s.processes pid = some p → p.phase = .executing → p.isLocal = false →
      p.workspace = some x → t ∈ s.db.tasks → RunsIn p.runner.id x t → p.HoldsToken t →
        (p.runner.id, x) ∈ s.directories := by
  have hscheduled : RunnerWorld.ReachableBy plainEnv RunnerStep.KeepsWorktrees
      (RunnerStep.execAll plainEnv [.run (.startRun 0), .run (.schedule 0)] { db := worktreeRun }) :=
    .execAll (by simp [RunnerStep.KeepsWorktrees]) (.created createRun_worktreeRun)
  have hclaimed := RunnerWorld.ReachableBy.step (.claim 0 0 shellRunner "t1" 60 0) hscheduled
    fun _ _ _ _ _ _ hp ↦ (by cases hp)
  have hprepared :=
    RunnerWorld.ReachableBy.step (.prepare 0 "/worktrees/build" "relayvia") hclaimed trivial
  have hrenewed := RunnerWorld.ReachableBy.step (.heartbeat 0 1 60) hprepared (by
    intro p hp _ _ task leaseToken hlease t ht _ _
    cases hp
    cases hlease
    cases ht
    rfl)
  exact ⟨_, _, hrenewed, rfl, rfl, worktree_kept hrenewed⟩

/-- The first lease expires, the same Runner claims the task again, and the heartbeat of
the first process stops it: its cleanup deletes the worktree of the second one, and its
report releases the workspace. -/
theorem not_worktree_kept : ∃ s, RunnerWorld.ReachableBy plainEnv (fun _ _ ↦ True) s ∧
    ∃ w ∈ s.db.workspaces, ∃ t ∈ s.db.tasks, ∃ p, s.processes 1 = some p ∧
      p.phase = .executing ∧ p.isLocal = false ∧ p.HoldsToken t ∧
      owns (seconds 62) p.runner.id "t2" t = true ∧ RunsIn p.runner.id w.id t ∧
      w.status = .released ∧ (p.runner.id, w.id) ∉ s.directories := by
  have hreachable : RunnerWorld.ReachableBy plainEnv (fun _ _ ↦ True)
      (RunnerStep.execAll plainEnv
        (buildSteps ++
          [.run (.recoverExpired (seconds 61)), .claim 1 (seconds 61) shellRunner "t2" 60 0,
            .prepare 1 "/worktrees/build" "relayvia", .heartbeat 0 (seconds 62) 60, .kill 0,
            .cleanup 0 none, .report 0 (seconds 62)])
        { db := worktreeRun }) :=
    .execAll (fun _ _ _ ↦ trivial) (.created createRun_worktreeRun)
  exact ⟨_, hreachable, _, List.mem_singleton_self _, _, List.mem_singleton_self _, _, rfl, rfl,
    rfl, ⟨_, _, rfl, rfl⟩, by decide, ⟨rfl, rfl, rfl⟩, rfl, by decide⟩

end Relayvia
