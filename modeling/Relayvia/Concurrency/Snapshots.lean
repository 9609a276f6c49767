import Relayvia.Concurrency.RunLock

/-!
# The rows that a scheduling session decides on

`schedule_ready_nodes` and `reconcile_run` read NodeRuns and tasks without locks.  When the
snapshot that a session has fixed before it takes the lock on the run is still current
then, its decisions are those on the committed rows, and its inserts are never duplicates.
-/

namespace Relayvia

variable {env : Env} {now : Time} {s s' : LockWorld} {step : LockStep} {p q : Sitting}
  {db db' : RunRecord}

/-! ## Inserts -/

theorem Transaction.lockRun_mem_of_schedules {tx : Transaction} (h : tx.schedules = true) :
    Statement.lockRun ∈ tx.script := by
  cases tx with
  | scheduleStarted => simp [Transaction.script]
  | reconcile => simp [Transaction.script]
  | _ => cases h

/-- A session that schedules nothing leaves one task for each node that had one. -/
theorem Transaction.commit_taskNodes {tx : Transaction} {view : View} (hs : tx.schedules = false)
    (h : tx.commit env view db = .ok db') :
    db'.tasks.map ExecutionTask.nodeRunId = db.tasks.map ExecutionTask.nodeRunId := by
  obtain ⟨session, hrun, hwrite⟩ := commit_ok h
  obtain ⟨htasks, hadded⟩ := (Transaction.run_taskNodes hs).of_ok hrun
  have hlength : session.tasks.length = (Transaction.base view db).tasks.length := by
    simpa using congrArg List.length htasks
  have hnone : insertedTasks (Transaction.base view db) session = [] := by
    simp [insertedTasks, hadded, ← hlength]
  obtain ⟨tasks, hinsert, hwrite⟩ := Outcome.bind_eq_ok_iff.mp hwrite
  rw [hnone] at hinsert
  cases hinsert
  cases hwrite
  exact Merge.map_rows ExecutionTask.nodeRunId fun _ _ _ ↦ rfl

/-- The tasks that a session has read are those of the nodes that have one. -/
structure ReadsTaskNodes (view : View) (db : RunRecord) : Prop where
  rows : (view.rows db).tasks.map ExecutionTask.nodeRunId = db.tasks.map ExecutionTask.nodeRunId
  locked : ∀ ts, view.tasks = some ts →
    ts.map ExecutionTask.nodeRunId = db.tasks.map ExecutionTask.nodeRunId

namespace ReadsTaskNodes

variable {view : View} {tx : Transaction}

theorem base (h : ReadsTaskNodes view db) :
    (Transaction.base view db).tasks.map ExecutionTask.nodeRunId =
      db.tasks.map ExecutionTask.nodeRunId := by
  change (view.tasks.getD (view.rows db).tasks).map _ = _
  cases hview : view.tasks with
  | none => exact h.rows
  | some ts => exact h.locked ts hview

theorem run (h : ReadsTaskNodes view db) (hs : tx.schedules = true) :
    Outcome.Holds (tx.run env view db)
      (InsertsNew (Transaction.base view db).tasks) NotDuplicate := by
  have hlength : (Transaction.base view db).tasks.length = (view.rows db).tasks.length := by
    simpa using congrArg List.length (h.base.trans h.rows.symm)
  cases tx with
  | scheduleStarted now =>
      have hinserted : Outcome.Holds ((Transaction.scheduleStarted now).run env view db)
          (Inserted (Transaction.base view db).tasks { Transaction.base view db with })
          NotDuplicate :=
        scheduleReadyNodes_inserted (.start _)
      exact hinserted.weaken fun _ h ↦ h.1.insertsNew
  | reconcile now caller =>
      have hinserts : Outcome.Holds (reconcileOn env now view (view.rows db))
          (InsertsNew (view.rows db).tasks) NotDuplicate := by
        refine reconcileOn_insertsNew fun ts hts ↦ ?_
        simpa using congrArg List.length ((h.locked ts hts).trans h.rows.symm)
      refine hinserts.weaken fun session hnew ↦ ?_
      have hnodes : insertedNodes (Transaction.base view db).tasks session =
          insertedNodes (view.rows db).tasks session := by
        rw [insertedNodes, insertedNodes, hlength]
      refine ⟨hnodes ▸ hnew.nodup, fun id hid ↦ ?_⟩
      rw [h.base, ← h.rows]
      exact hnew.new id (hnodes ▸ hid)
  | _ => cases hs

/-- The commit inserts no second task for a node. -/
theorem commit (h : ReadsTaskNodes view db) (hs : tx.schedules = true) :
    Outcome.Holds (tx.commit env view db) (fun _ ↦ True) NotDuplicate := by
  refine Outcome.Holds.bind (h.run hs) fun session hnew ↦ ?_
  have hmerged : (Merge.rows ExecutionTask.id ExecutionTask.merge (Transaction.base view db).tasks
      (session.tasks.take (Transaction.base view db).tasks.length) db.tasks).map
        ExecutionTask.nodeRunId = db.tasks.map ExecutionTask.nodeRunId :=
    Merge.map_rows ExecutionTask.nodeRunId fun _ _ _ ↦ rfl
  have hinsert := Session.insertTasks_new _ hnew.nodup fun id hid ↦ by
    rw [hmerged, ← h.base]
    exact hnew.new id hid
  change Outcome.Holds (Session.insertTasks _ (insertedTasks _ session) >>= _) _ _
  rw [insertedTasks, hinsert]
  exact trivial

end ReadsTaskNodes

/-! ## The lock and the snapshot -/

/-- A session that schedules finds its snapshot current when it takes the lock on the run
with a snapshot that it has fixed before. -/
def SnapshotCurrent (s : LockWorld) : LockStep → Prop
  | .next sid => ∀ p snapshot, s.sittings sid = some p → p.rest.head? = some .lockRun →
      p.tx.schedules = true → p.view.snapshot = some snapshot →
      snapshot.nodeRuns = s.db.nodeRuns ∧ snapshot.tasks = s.db.tasks
  | _ => True

namespace Statement

variable {view : View} {stmt : Statement}

/-- A snapshot that is fixed stays; the first one is of the committed rows. -/
theorem read_snapshot :
    (stmt.read env view db).snapshot = view.snapshot ∨
      view.snapshot = none ∧ (stmt.read env view db).snapshot = some db := by
  have hpin : (view.pin db).snapshot = view.snapshot ∨
      view.snapshot = none ∧ (view.pin db).snapshot = some db := by
    cases hview : view.snapshot with
    | none => exact .inr ⟨rfl, by simp [View.pin, hview]⟩
    | some sn => exact .inl (by simp [View.pin, hview])
  cases stmt with
  | select | loadRun => exact hpin
  | lockRun | lockNode | lockTask | lockLoadedTask | lockSomeTasks => exact .inl rfl
  | lockTasks | lockTasksOfCancelled | lockTasksOfFailed =>
      simp only [read]
      split <;> exact .inl rfl

/-- A reconciliation reads all tasks when it locks them. -/
theorem read_tasks {tx : Transaction} (hs : tx.schedules = true) (hmem : stmt ∈ tx.script) :
    (stmt.read env view db).tasks = view.tasks ∨ (stmt.read env view db).tasks = some db.tasks := by
  cases stmt with
  | select | loadRun | lockRun | lockNode | lockLoadedTask => exact .inl rfl
  | lockTask | lockSomeTasks =>
      cases tx with
      | scheduleStarted => simp [Transaction.script] at hmem
      | reconcile now caller => cases caller <;> simp [Transaction.script] at hmem
      | _ => cases hs
  | lockTasks | lockTasksOfCancelled | lockTasksOfFailed =>
      simp only [read]
      split
      · exact .inr rfl
      · exact .inl rfl

end Statement

/-- Under the lock on the run, the rows that a scheduling session decides on are those of
`locked`, and only the session itself inserts tasks. -/
structure Sitting.DecidesOnLocked (db : RunRecord) (p : Sitting) : Prop where
  script : p.rest <:+ p.tx.script
  takesLock : Statement.lockRun ∈ p.tx.script → Statement.lockRun ∈ p.rest ∨ RowLock.run ∈ p.locks
  selects : p.tx.schedules = true → Statement.select ∈ p.rest ∨ p.view.snapshot.isSome = true
  early : p.tx.schedules = true → RowLock.run ∉ p.locks → p.view.tasks = none ∧ p.locked = none
  tasks : p.tx.schedules = true → RowLock.run ∈ p.locks → ∀ ts, p.view.tasks = some ts →
    ts.map ExecutionTask.nodeRunId = db.tasks.map ExecutionTask.nodeRunId
  rows : p.tx.schedules = true → RowLock.run ∈ p.locks → ∀ sn, p.view.snapshot = some sn →
    ∃ d, p.locked = some d ∧ sn.nodeRuns = d.nodeRuns ∧ sn.tasks = d.tasks ∧
      d.tasks.map ExecutionTask.nodeRunId = db.tasks.map ExecutionTask.nodeRunId
  unread : p.tx.schedules = true → p.view.snapshot = none → p.locked = none

/-- What a scheduling session does before it locks the run. -/
theorem Transaction.before_lockRun {tx : Transaction} {stmt : Statement} {rest : List Statement}
    (hs : tx.schedules = true) (hscript : stmt :: rest <:+ tx.script)
    (hmem : Statement.lockRun ∈ rest) : stmt = .loadRun ∨ stmt = .select := by
  cases tx with
  | scheduleStarted now =>
      simp only [Transaction.script, List.suffix_cons_iff, List.cons.injEq] at hscript
      rcases hscript with ⟨rfl, -⟩ | ⟨-, rfl⟩ | ⟨-, rfl⟩ | h
      · exact .inl rfl
      · simp at hmem
      · simp at hmem
      · simp at h
  | reconcile now caller =>
      cases caller <;>
        simp only [Transaction.script, List.cons_append, List.nil_append, List.suffix_cons_iff,
          List.cons.injEq] at hscript
      · rcases hscript with ⟨-, rfl⟩ | ⟨-, rfl⟩ | ⟨-, rfl⟩ | ⟨-, rfl⟩ | h <;> simp_all
      · rcases hscript with ⟨rfl, -⟩ | ⟨-, rfl⟩ | ⟨-, rfl⟩ | ⟨-, rfl⟩ | ⟨-, rfl⟩ | h <;> simp_all
      · rcases hscript with ⟨rfl, -⟩ | ⟨-, rfl⟩ | ⟨-, rfl⟩ | ⟨-, rfl⟩ | ⟨-, rfl⟩ | h <;> simp_all
  | _ => cases hs

namespace Sitting

theorem decidesOnLocked_start (db : RunRecord) (tx : Transaction) :
    DecidesOnLocked db { tx := tx, rest := tx.script } := by
  refine ⟨List.suffix_rfl, .inl, fun hs ↦ .inl ?_, fun _ _ ↦ ⟨rfl, rfl⟩, ?_, ?_, fun _ _ ↦ rfl⟩
  · cases tx with
    | scheduleStarted => simp [Transaction.script]
    | reconcile => simp [Transaction.script]
    | _ => cases hs
  · intro _ h
    cases h
  · intro _ h
    cases h

theorem DecidesOnLocked.advance {stmt : Statement} {rest : List Statement}
    (h : p.DecidesOnLocked db) (hrest : p.rest = stmt :: rest)
    (hcurrent : stmt = .lockRun → p.tx.schedules = true → ∀ sn, p.view.snapshot = some sn →
      sn.nodeRuns = db.nodeRuns ∧ sn.tasks = db.tasks) :
    (p.advance env db stmt rest).DecidesOnLocked db := by
  have hscript : stmt :: rest <:+ p.tx.script := hrest ▸ h.script
  have hlocks : RowLock.run ∈ (p.advance env db stmt rest).locks ↔
      RowLock.run ∈ p.locks ∨ stmt = .lockRun := by
    change RowLock.run ∈ p.locks ++ stmt.locks env p.view db ↔ _
    rw [List.mem_append, Statement.run_mem_locks]
  have hsnapshot := @Statement.read_snapshot env db p.view stmt
  have hghost : (p.advance env db stmt rest).locked =
      if RowLock.run ∈ (p.advance env db stmt rest).locks ∧
        (stmt.read env p.view db).snapshot.isSome then p.locked.or (some db) else none := rfl
  refine ⟨(List.suffix_cons stmt rest).trans hscript,
    fun hmem ↦ locked_advance hrest (h.takesLock hmem), ?_, ?_, ?_, ?_, ?_⟩
  · intro hs
    change _ ∨ (stmt.read env p.view db).snapshot.isSome = true
    rcases h.selects hs with hmem | hsome
    · rw [hrest, List.mem_cons] at hmem
      rcases hmem with rfl | hmem
      · right
        rcases hsnapshot with hsame | ⟨-, hpinned⟩
        · cases hview : p.view.snapshot <;> simp [Statement.read, View.pin, hview]
        · simp [hpinned]
      · exact .inl hmem
    · rcases hsnapshot with hsame | ⟨hnone, -⟩
      · exact .inr (hsame ▸ hsome)
      · simp [hnone] at hsome
  · intro hs hunlocked
    have hfree := hunlocked
    rw [hlocks, not_or] at hfree
    have hmem : Statement.lockRun ∈ rest := by
      have hp := (h.takesLock (Transaction.lockRun_mem_of_schedules hs)).resolve_right hfree.1
      rw [hrest, List.mem_cons] at hp
      exact hp.resolve_left fun heq ↦ hfree.2 heq.symm
    refine ⟨?_, by rw [hghost, if_neg fun hand ↦ hunlocked hand.1]⟩
    have hearly := (h.early hs hfree.1).1
    rcases Transaction.before_lockRun hs hscript hmem with rfl | rfl <;> exact hearly
  · intro hs hlock ts hts
    have hts : (stmt.read env p.view db).tasks = some ts := hts
    by_cases hold : RowLock.run ∈ p.locks
    · rcases Statement.read_tasks hs (hscript.subset List.mem_cons_self) with hsame | hread
      · exact h.tasks hs hold ts (hsame ▸ hts)
      · rw [hread] at hts
        cases hts
        rfl
    · obtain rfl := (hlocks.mp hlock).resolve_left hold
      have hnone : (Statement.read env p.view db .lockRun).tasks = none := (h.early hs hold).1
      rw [hnone] at hts
      cases hts
  · intro hs hlock sn hsn
    have hsn : (stmt.read env p.view db).snapshot = some sn := hsn
    rw [hghost, if_pos ⟨hlock, by simp [hsn]⟩]
    by_cases hold : RowLock.run ∈ p.locks
    · rcases hsnapshot with hsame | ⟨hnone, hpinned⟩
      · obtain ⟨d, hd, hrows⟩ := h.rows hs hold sn (hsame ▸ hsn)
        exact ⟨d, by rw [hd]; rfl, hrows⟩
      · rw [hpinned] at hsn
        cases hsn
        exact ⟨db, by rw [h.unread hs hnone]; rfl, rfl, rfl, rfl⟩
    · obtain rfl := (hlocks.mp hlock).resolve_left hold
      obtain ⟨hnodes, htasks⟩ := hcurrent rfl hs sn hsn
      exact ⟨db, by rw [(h.early hs hold).2]; rfl, hnodes, htasks, rfl⟩
  · intro hs hnone
    have hnone : (stmt.read env p.view db).snapshot = none := hnone
    rw [hghost, hnone]
    simp

theorem DecidesOnLocked.run_mem (h : p.DecidesOnLocked db) (hrest : p.rest = [])
    (hs : p.tx.schedules = true) : RowLock.run ∈ p.locks := by
  rcases h.takesLock (Transaction.lockRun_mem_of_schedules hs) with hmem | hlock
  · rw [hrest] at hmem
    cases hmem
  · exact hlock

/-- The commit of another session: without the lock on the run it inserts no tasks. -/
theorem DecidesOnLocked.other (hp : p.DecidesOnLocked db) (hrest : p.rest = [])
    (hcommit : p.tx.commit env p.view db = .ok db') (hdisjoint : ∀ l ∈ p.locks, l ∉ q.locks)
    (hq : q.DecidesOnLocked db) : q.DecidesOnLocked db' := by
  have hkept (hlock : RowLock.run ∈ q.locks) :
      db'.tasks.map ExecutionTask.nodeRunId = db.tasks.map ExecutionTask.nodeRunId := by
    refine Transaction.commit_taskNodes ?_ hcommit
    rw [← Bool.not_eq_true]
    exact fun hs ↦ hdisjoint _ (hp.run_mem hrest hs) hlock
  refine ⟨hq.script, hq.takesLock, hq.selects, hq.early, ?_, ?_, hq.unread⟩
  · intro hs hlock ts hts
    rw [hkept hlock]
    exact hq.tasks hs hlock ts hts
  · intro hs hlock sn hsn
    rw [hkept hlock]
    exact hq.rows hs hlock sn hsn

end Sitting

/-! ## Runs -/

theorem LockStep.Effect.decidesOnLocked (hw : s.WellLocked) (h : s.All Sitting.DecidesOnLocked)
    (hcurrent : SnapshotCurrent s step) (heffect : step.Effect env s s') :
    s'.All Sitting.DecidesOnLocked := by
  refine LockWorld.All.effect hw h heffect (fun tx _ ↦ Sitting.decidesOnLocked_start s.db tx) ?_ ?_
  · rintro sid p stmt rest rfl hp hrest hdecides
    apply hdecides.advance hrest
    intro hstmt hs sn hsn
    exact hcurrent p sn hp (by rw [hrest, hstmt]; rfl) hs hsn
  · rintro sid p db rfl - hrest hcommit hdecides q hdisjoint hq
    exact hdecides.other hrest hcommit hdisjoint hq

theorem LockWorld.Steps.decidesOnLocked (h : LockWorld.Steps env SnapshotCurrent { db := db } s) :
    s.WellLocked ∧ s.All Sitting.DecidesOnLocked := by
  induction h with
  | refl => exact ⟨LockWorld.wellLocked_start db, LockWorld.all_start _ db⟩
  | @step s step h hstep ih =>
      have heffect := step.exec_effect env s
      exact ⟨ih.1.effect heffect, heffect.decidesOnLocked ih.1 ih.2 hstep⟩

/-- A session that is about to commit has scheduled on the NodeRuns and tasks that were
committed under its lock, has derived the status from them, and inserts no second task. -/
structure Sitting.DecidesOnCommitted (env : Env) (db : RunRecord) (p : Sitting)
    (committed : RunRecord) : Prop where
  nodeRuns : (p.view.rows db).nodeRuns = committed.nodeRuns
  tasks : (p.view.rows db).tasks = committed.tasks
  status : ∀ now caller session, p.tx = .reconcile now caller →
    (p.view.rows db).run.status.frozen = false → p.tx.run env p.view db = .ok session →
      ∃ promoted scheduled,
        promoteDueWaits env now
            { run := (p.view.rows db).run, nodeRuns := committed.nodeRuns,
              tasks := committed.tasks } = .ok promoted ∧
          scheduleReadyNodes env now promoted = .ok scheduled ∧
          session.run.status =
            deriveWorkflowState scheduled.run.graph.toWorkflowGraph scheduled.nodeRuns
  inserts : ∀ e, p.tx.commit env p.view db = .error e → NotDuplicate e

/-- The rows of a scheduling session that has read all it reads. -/
theorem Sitting.DecidesOnLocked.committed (h : p.DecidesOnLocked db) (hrest : p.rest = [])
    (hs : p.tx.schedules = true) :
    ∃ committed, p.locked = some committed ∧ p.DecidesOnCommitted env db committed := by
  have hlock := h.run_mem hrest hs
  obtain ⟨sn, hsn⟩ : ∃ sn, p.view.snapshot = some sn := by
    apply Option.isSome_iff_exists.mp
    apply (h.selects hs).resolve_left
    simp [hrest]
  obtain ⟨d, hd, hnodes, htasks, hids⟩ := h.rows hs hlock sn hsn
  have hrowNodes : (p.view.rows db).nodeRuns = d.nodeRuns := by simp [View.rows, hsn, hnodes]
  have hrowTasks : (p.view.rows db).tasks = d.tasks := by simp [View.rows, hsn, htasks]
  refine ⟨d, hd, hrowNodes, hrowTasks, ?_, ?_⟩
  · intro now caller session htx hactive hrun
    rw [htx] at hrun
    obtain ⟨promoted, scheduled, hpromote, hschedule, hstatus⟩ := reconcileOn_status hactive hrun
    refine ⟨promoted, scheduled, ?_, hschedule, hstatus⟩
    rw [← hpromote, ← hrowNodes, ← hrowTasks]
    rfl
  · have hreads : ReadsTaskNodes p.view db :=
      ⟨by rw [hrowTasks, hids], h.tasks hs hlock⟩
    exact fun e he ↦ (hreads.commit hs).of_error he

/-- In every state of a run in which each scheduling session finds its snapshot current when
it locks the run, the sessions that are about to commit decide on committed rows. -/
theorem scheduling_decides_on_committed (db : RunRecord)
    (h : LockWorld.Steps env SnapshotCurrent { db := db } s) :
    ∀ sid p, s.sittings sid = some p → p.rest = [] → p.tx.schedules = true →
      ∃ committed, p.locked = some committed ∧ p.DecidesOnCommitted env s.db committed :=
  fun sid p hp hrest hs ↦ (h.decidesOnLocked.2 sid p hp).committed hrest hs

/-- A Worker reconciles the run that has just started. -/
def firstReconcile : List LockStep :=
  [.begin (.reconcile 0 .worker), .next 0, .next 0, .next 0, .next 0]

def startedRun : RunRecord :=
  { approvalRun with run := { approvalRun.run with status := .running, startedAt := some 0 } }

theorem scheduling_decides_on_committed_startedRun : ∃ p committed,
    (LockStep.execAll plainEnv firstReconcile { db := startedRun }).sittings 0 = some p ∧
      p.locked = some committed ∧
      p.DecidesOnCommitted plainEnv (LockStep.execAll plainEnv firstReconcile
        { db := startedRun }).db committed := by
  let world (steps : List LockStep) := LockStep.execAll plainEnv steps { db := startedRun }
  have hlock : SnapshotCurrent (world [.begin (.reconcile 0 .worker)]) (.next 0) := by
    intro p sn hp _ _ hsn
    cases hp
    cases hsn
  have hcancelled : SnapshotCurrent (world [.begin (.reconcile 0 .worker), .next 0])
      (.next 0) := by
    intro p sn hp hhead
    cases hp
    cases hhead
  have hselect : SnapshotCurrent (world [.begin (.reconcile 0 .worker), .next 0, .next 0])
      (.next 0) := by
    intro p sn hp hhead
    cases hp
    cases hhead
  have hfailed : SnapshotCurrent
      (world [.begin (.reconcile 0 .worker), .next 0, .next 0, .next 0]) (.next 0) := by
    intro p sn hp hhead
    cases hp
    cases hhead
  have hsteps : LockWorld.Steps plainEnv SnapshotCurrent { db := startedRun }
      (world firstReconcile) :=
    .step _ (.step _ (.step _ (.step _ (.step (.begin (.reconcile 0 .worker)) .refl trivial)
      hlock) hcancelled) hselect) hfailed
  obtain ⟨p, hp, hrest, hs⟩ : ∃ p, (world firstReconcile).sittings 0 = some p ∧ p.rest = [] ∧
      p.tx.schedules = true := ⟨_, rfl, rfl, rfl⟩
  obtain ⟨committed, hlocked, hdecides⟩ :=
    scheduling_decides_on_committed startedRun hsteps 0 p hp hrest hs
  exact ⟨p, committed, hp, hlocked, hdecides⟩

/-- A recovery has read the list of active runs when another session schedules the first
node of the run and commits. -/
def staleRecovery : List LockStep :=
  [.begin (.reconcile 0 .other), .next 0,
    .begin (.scheduleStarted 0), .next 1, .next 1, .next 1, .commit 1,
    .next 0, .next 0, .next 0, .next 0]

/-- The recovery inserts a second task for the node. -/
theorem not_scheduling_decides_on_committed : ∃ db s p, Reachable plainEnv db ∧
    LockWorld.Steps plainEnv (fun _ _ ↦ True) { db := db } s ∧
    s.sittings 0 = some p ∧ p.rest = [] ∧ p.tx.schedules = true ∧
    ¬∃ committed, p.locked = some committed ∧ p.DecidesOnCommitted plainEnv s.db committed := by
  obtain ⟨db, hdb, p, hp, hrest, hs, id, hcommit⟩ :
      ∃ db, execAll plainEnv [.startRun 0] approvalRun = .ok db ∧
      ∃ p, (LockStep.execAll plainEnv staleRecovery { db := db }).sittings 0 = some p ∧
        p.rest = [] ∧ p.tx.schedules = true ∧
        ∃ id, p.tx.commit plainEnv p.view
          (LockStep.execAll plainEnv staleRecovery { db := db }).db =
            .error (.integrityError id) :=
    ⟨_, rfl, _, rfl, rfl, rfl, _, rfl⟩
  refine ⟨db, _, p, .execAll (fun _ _ _ ↦ trivial) (.created createRun_approvalRun) hdb,
    .execAll staleRecovery .refl, hp, hrest, hs, ?_⟩
  rintro ⟨committed, -, hdecides⟩
  exact hdecides.inserts _ hcommit

end Relayvia
