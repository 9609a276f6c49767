import Relayvia.Concurrency.Sessions
import Relayvia.Concurrency.Writes
import Relayvia.Coupling

/-!
# The status of the run under its lock

A session that may write the status of the run holds the lock on its row.  When the run
has ended by then, the status that the session has loaded is the one in the database, and
so it stays.
-/

namespace Relayvia

variable {env : Env} {s s' : LockWorld} {step : LockStep} {p q : Sitting} {db db' : RunRecord}

/-! ## Commits -/

theorem Transaction.commit_ok {tx : Transaction} {view : View}
    (h : tx.commit env view db = .ok db') :
    ∃ session, tx.run env view db = .ok session ∧
      writeBack (Transaction.base view db) session db = .ok db' := by
  obtain ⟨session, hrun, hwrite⟩ := Outcome.bind_eq_ok_iff.mp h
  exact ⟨session, hrun, hwrite⟩

theorem writeBack_run {base : RunRecord} {session : Session}
    (h : writeBack base session db = .ok db') : db'.run = base.run.merge session.run db.run := by
  obtain ⟨tasks, -, h⟩ := Outcome.bind_eq_ok_iff.mp h
  cases h
  rfl

/-- A session that does not change the status leaves the one in the database. -/
theorem Transaction.commit_status {tx : Transaction} {view : View}
    (hkept : Returns (tx.run env view db) fun session ↦
      session.run.status = (Transaction.base view db).run.status)
    (h : tx.commit env view db = .ok db') : db'.run.status = db.run.status := by
  obtain ⟨session, hrun, hwrite⟩ := commit_ok h
  rw [writeBack_run hwrite]
  change Merge.column _ session.run.status db.run.status = db.run.status
  rw [hkept.of_ok hrun, Merge.column_same]

/-! ## The lock on the run -/

theorem Transaction.lockRun_mem {tx : Transaction} (h : tx.writesRunStatus = true) :
    Statement.lockRun ∈ tx.script := by
  cases tx with
  | startRun | pauseRun | resumeRun | cancelRun => simp [Transaction.script]
  | reconcile => simp [Transaction.script]
  | _ => cases h

namespace Statement

variable {view : View} {stmt : Statement}

theorem run_mem_locks : RowLock.run ∈ stmt.locks env view db ↔ stmt = lockRun := by
  cases stmt with
  | select | loadRun | lockNode | lockTask | lockLoadedTask => simp [locks, locksTasks]
  | lockSomeTasks => simp [locks]
  | lockRun => simp [locks]
  | lockTasks | lockTasksOfCancelled | lockTasksOfFailed =>
      simp only [locks]
      split <;> simp

/-- A loaded object stays. -/
theorem read_run {r : WorkflowRun} (h : view.run = some r) :
    (stmt.read env view db).run = some r := by
  cases stmt with
  | select | lockRun | lockNode | lockTask | lockLoadedTask | lockSomeTasks => simp [read, View.pin, h]
  | loadRun => simp [read, h]
  | lockTasks | lockTasksOfCancelled | lockTasksOfFailed =>
      simp only [read]
      split <;> exact h

end Statement

/-- The session takes the lock on the run before it ends.  Once it has the lock, it has
loaded the status with which the run has ended. -/
structure Sitting.HoldsRun (db : RunRecord) (p : Sitting) : Prop where
  locked : Statement.lockRun ∈ p.tx.script → Statement.lockRun ∈ p.rest ∨ RowLock.run ∈ p.locks
  loaded : p.tx.writesRunStatus = true → RowLock.run ∈ p.locks →
    ∃ r, p.view.run = some r ∧ (db.run.status.isTerminal = true → r.status = db.run.status)

/-- A session that locks the run after it has loaded the row finds the status that it has
loaded when the run has ended. -/
def RunLoadCurrent (s : LockWorld) : LockStep → Prop
  | .next sid => ∀ p r, s.sittings sid = some p → p.rest.head? = some .lockRun →
      p.tx.writesRunStatus = true → p.view.run = some r →
      s.db.run.status.isTerminal = true → r.status = s.db.run.status
  | _ => True

namespace Sitting

theorem holdsRun_start (db : RunRecord) (tx : Transaction) :
    HoldsRun db { tx := tx, rest := tx.script } := by
  refine ⟨.inl, fun _ h ↦ ?_⟩
  cases h

/-- The lock on the run is taken, or has been. -/
theorem locked_advance {stmt : Statement} {rest : List Statement} (hrest : p.rest = stmt :: rest)
    (h : Statement.lockRun ∈ p.rest ∨ RowLock.run ∈ p.locks) :
    Statement.lockRun ∈ rest ∨ RowLock.run ∈ (p.advance env db stmt rest).locks := by
  change _ ∨ RowLock.run ∈ p.locks ++ stmt.locks env p.view db
  rw [List.mem_append, Statement.run_mem_locks]
  rcases h with hmem | hlock
  · rw [hrest, List.mem_cons] at hmem
    rcases hmem with heq | hmem
    · exact .inr (.inr heq.symm)
    · exact .inl hmem
  · exact .inr (.inl hlock)

theorem HoldsRun.advance {stmt : Statement} {rest : List Statement} (h : p.HoldsRun db)
    (hrest : p.rest = stmt :: rest)
    (hcurrent : stmt = .lockRun → p.tx.writesRunStatus = true → ∀ r, p.view.run = some r →
      db.run.status.isTerminal = true → r.status = db.run.status) :
    (p.advance env db stmt rest).HoldsRun db := by
  refine ⟨fun hmem ↦ locked_advance hrest (h.locked hmem), fun hwrites hlock ↦ ?_⟩
  have hlock : RowLock.run ∈ p.locks ++ stmt.locks env p.view db := hlock
  change ∃ r, (stmt.read env p.view db).run = some r ∧ _
  rw [List.mem_append, Statement.run_mem_locks] at hlock
  rcases hlock with hold | rfl
  · obtain ⟨r, hr, hstatus⟩ := h.loaded hwrites hold
    exact ⟨r, Statement.read_run hr, hstatus⟩
  · cases hload : p.view.run with
    | none => exact ⟨db.run, by simp [Statement.read, hload], fun _ ↦ rfl⟩
    | some r => exact ⟨r, Statement.read_run hload, hcurrent rfl hwrites r hload⟩

theorem HoldsRun.run_mem (h : p.HoldsRun db) (hrest : p.rest = [])
    (hwrites : p.tx.writesRunStatus = true) : RowLock.run ∈ p.locks := by
  rcases h.locked (Transaction.lockRun_mem hwrites) with hmem | hlock
  · rw [hrest] at hmem
    cases hmem
  · exact hlock

/-- The commit of one session, when the run has ended. -/
theorem HoldsRun.commit_status (h : p.HoldsRun db) (hrest : p.rest = [])
    (hcommit : p.tx.commit env p.view db = .ok db') (hterm : db.run.status.isTerminal = true) :
    db'.run.status = db.run.status := by
  by_cases hwrites : p.tx.writesRunStatus = true
  · obtain ⟨r, hr, hstatus⟩ := h.loaded hwrites (h.run_mem hrest hwrites)
    have hbase : (Transaction.base p.view db).run = r := by
      simp [Transaction.base, View.rows, hr]
    refine Transaction.commit_status (Transaction.run_status_terminal ?_) hcommit
    rw [hbase, hstatus hterm]
    exact hterm
  · exact Transaction.commit_status (Transaction.run_status_kept (by simpa using hwrites)) hcommit

/-- The commit of another session. -/
theorem HoldsRun.other (hp : p.HoldsRun db) (hrest : p.rest = [])
    (hcommit : p.tx.commit env p.view db = .ok db') (hdisjoint : ∀ l ∈ p.locks, l ∉ q.locks)
    (hq : q.HoldsRun db) : q.HoldsRun db' := by
  refine ⟨hq.locked, fun hwrites hlock ↦ ?_⟩
  have hkept : p.tx.writesRunStatus = false := by
    rw [← Bool.not_eq_true]
    exact fun h ↦ hdisjoint _ (hp.run_mem hrest h) hlock
  rw [Transaction.commit_status (Transaction.run_status_kept hkept) hcommit]
  exact hq.loaded hwrites hlock

end Sitting

/-! ## Runs -/

theorem LockStep.Effect.holdsRun (hw : s.WellLocked) (h : s.All Sitting.HoldsRun)
    (hcurrent : RunLoadCurrent s step) (heffect : step.Effect env s s') :
    s'.All Sitting.HoldsRun := by
  refine LockWorld.All.effect hw h heffect (fun tx _ ↦ Sitting.holdsRun_start s.db tx) ?_ ?_
  · rintro sid p stmt rest rfl hp hrest hholds
    exact hholds.advance hrest fun hstmt hwrites r hr ↦
      hcurrent p r hp (by rw [hrest, hstmt]; rfl) hwrites hr
  · rintro sid p db rfl - hrest hcommit hholds q hdisjoint hq
    exact hholds.other hrest hcommit hdisjoint hq

theorem LockWorld.Steps.holdsRun {db : RunRecord}
    (h : LockWorld.Steps env RunLoadCurrent { db := db } s) :
    s.WellLocked ∧ s.All Sitting.HoldsRun := by
  induction h with
  | refl => exact ⟨LockWorld.wellLocked_start db, LockWorld.all_start _ db⟩
  | @step s step h hstep ih =>
      have heffect := step.exec_effect env s
      exact ⟨ih.1.effect heffect, heffect.holdsRun ih.1 ih.2 hstep⟩

theorem LockStep.Effect.status_kept (h : s.All Sitting.HoldsRun) (heffect : step.Effect env s s')
    (hterm : s.db.run.status.isTerminal = true) : s'.db.run.status = s.db.run.status := by
  cases heffect with
  | idle => rfl
  | begin => rfl
  | next => rfl
  | commit hp hrest hcommit => exact (h _ _ hp).commit_status hrest hcommit hterm
  | rollback => rfl
  | abort => rfl

/-- Once the run has ended, no commit changes its status. -/
theorem terminal_status_final (db : RunRecord)
    (h : LockWorld.Steps env RunLoadCurrent { db := db } s)
    (hterm : s.db.run.status.isTerminal = true)
    (h' : LockWorld.Steps env RunLoadCurrent s s') : s'.db.run.status = s.db.run.status := by
  induction h' with
  | refl => rfl
  | @step s₁ step h₁ hstep ih =>
      have hholds := (h.append h₁).holdsRun
      have hterm₁ : s₁.db.run.status.isTerminal = true := by rw [ih, hterm]
      rw [(step.exec_effect env s₁).status_kept hholds.2 hterm₁, ih]

def cancelledRun : RunRecord where
  run := { id := "run", graph := approvalGraph, status := .cancelled }
  nodeRuns := approvalGraph.nodes.map fun node ↦ { createNodeRun [] node with status := .cancelled }

theorem terminal_status_final_cancelledRun :
    (LockStep.execAll plainEnv [.begin .resumeRun, .next 0, .commit 0]
      { db := cancelledRun }).db.run.status = .cancelled := by
  have hnext : RunLoadCurrent (LockStep.execAll plainEnv [.begin .resumeRun] { db := cancelledRun })
      (.next 0) := by
    intro p r hp _ _ hr
    cases hp
    cases hr
  exact terminal_status_final cancelledRun .refl rfl
    (.step (.commit 0) (.step (.next 0) (.step (.begin .resumeRun) .refl trivial) hnext) trivial)

/-- The run waits for the approval. -/
def approvalOps : List RunOp :=
  [.startRun 0, .schedule 0, .claim 0 "w" "t" 60 none false 0, .start 0 0 "w" "t",
    .waitNode 0 0 "w" "t" "HUMAN_APPROVAL" [], .reconcile 0]

/-- A rejection commits, its second transaction loads the run, and a cancellation commits. -/
def cancelBetween : List LockStep :=
  [.begin (.human 0 "ask" .reject), .next 0, .next 0, .next 0, .commit 0,
    .begin (.reconcile 0 .action), .next 1,
    .begin (.cancelRun 0), .next 2, .next 2, .next 2, .commit 2]

def finishReconcile : List LockStep :=
  [.next 1, .next 1, .next 1, .next 1, .commit 1]

/-- A CANCELLED run can become FAILED. -/
theorem not_terminal_status_final : ∃ db s s', Reachable plainEnv db ∧
    LockWorld.Steps plainEnv (fun _ _ ↦ True) { db := db } s ∧ s.db.run.status = .cancelled ∧
      LockWorld.Steps plainEnv (fun _ _ ↦ True) s s' ∧ s'.db.run.status = .failed := by
  obtain ⟨db, hdb, hcancelled, hfailed⟩ : ∃ db, execAll plainEnv approvalOps approvalRun = .ok db ∧
      (LockStep.execAll plainEnv cancelBetween { db := db }).db.run.status = .cancelled ∧
      (LockStep.execAll plainEnv finishReconcile
        (LockStep.execAll plainEnv cancelBetween { db := db })).db.run.status = .failed :=
    ⟨_, rfl, rfl, rfl⟩
  exact ⟨db, _, _, .execAll (fun _ _ _ ↦ trivial) (.created createRun_approvalRun) hdb,
    .execAll cancelBetween .refl, hcancelled, .execAll finishReconcile .refl, hfailed⟩

end Relayvia
