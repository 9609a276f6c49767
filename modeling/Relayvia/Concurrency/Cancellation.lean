import Relayvia.Concurrency.CellWrites
import Relayvia.Operations.Settling

/-!
# Cancellation and Worker calls

Interleavings of `cancel_run` with the calls by which a Worker finishes a task.  When the
NodeRuns that `cancel_run` has read are current once it has locked the tasks, every commit
is the operation on the committed rows.
-/

namespace Relayvia

variable {env : Env} {now : Time} {taskId : TaskId} {s s' : LockWorld} {step : LockStep}
  {p q : Sitting} {db db' rows : RunRecord} {tx : Transaction}

namespace Transaction

/-- The task that a Worker call finishes. -/
def finishes : Transaction → Option TaskId
  | complete _ task .. | fail _ task .. | waitNode _ task .. | scheduleRetry _ task .. => some task
  | _ => none

/-- The operation of `cancel_run` or of a Worker call. -/
def operation : Transaction → Option RunOp
  | cancelRun now => some (.cancelRun now)
  | complete now task workerId leaseToken output executionMetadata artifacts =>
      some (.complete now task workerId leaseToken output executionMetadata artifacts)
  | fail now task workerId leaseToken error executionMetadata artifacts =>
      some (.fail now task workerId leaseToken error executionMetadata artifacts)
  | waitNode now task workerId leaseToken waitingReason waitingMetadata =>
      some (.waitNode now task workerId leaseToken waitingReason waitingMetadata)
  | scheduleRetry now task workerId leaseToken backoffSeconds =>
      some (.scheduleRetry now task workerId leaseToken backoffSeconds)
  | _ => none

theorem script_of_finishes (h : tx.finishes = some taskId) :
    tx.script = [.lockTask taskId, .select] := by
  cases tx <;> cases h <;> rfl

/-- A call that finishes a task is a local call on the rows that it has read. -/
theorem run_of_finishes (h : tx.finishes = some taskId) :
    ∃ op : RunOp, tx.operation = some op ∧ (∀ env, CellLocal taskId (op.exec env)) ∧
      ∀ env view db, tx.run env view db =
        (op.exec env (base view db)).map fun p ↦ { p.2 with } := by
  cases tx with
  | complete =>
      cases h
      exact ⟨_, rfl, fun _ ↦ complete_local, fun _ _ _ ↦ rfl⟩
  | fail =>
      cases h
      exact ⟨_, rfl, fun _ ↦ fail_local, fun _ _ _ ↦ rfl⟩
  | waitNode =>
      cases h
      exact ⟨_, rfl, fun _ ↦ waitNode_local, fun _ _ _ ↦ rfl⟩
  | scheduleRetry =>
      cases h
      exact ⟨_, rfl, fun _ ↦ scheduleRetry_local, fun _ _ _ ↦ rfl⟩
  | _ => cases h

theorem finishes_or_cancels {op : RunOp} (h : tx.operation = some op) :
    (∃ now, tx = cancelRun now) ∨ ∃ taskId, tx.finishes = some taskId := by
  cases tx <;> cases h
  · exact .inl ⟨_, rfl⟩
  all_goals exact .inr ⟨_, rfl⟩

end Transaction

/-! ## What the sessions have read -/

/-- A Worker call that finishes the task: under the lock on the task it has read the rows
of the task and, at its end, of its NodeRun. -/
inductive Sitting.Finishing (db : RunRecord) (taskId : TaskId) (p : Sitting) : Prop
  | begun (hrest : p.rest = [.lockTask taskId, .select]) (hview : p.view.snapshot = none)
  | locked (hrest : p.rest = [.select]) (hlock : RowLock.task taskId ∈ p.locks)
      (htasks : p.view.tasks = some (db.tasks.filter (·.id = taskId)))
      (hview : p.view.snapshot = none)
  | read (hrest : p.rest = []) (hlock : RowLock.task taskId ∈ p.locks)
      (htasks : p.view.tasks = some (db.tasks.filter (·.id = taskId))) {snapshot : RunRecord}
      (hview : p.view.snapshot = some snapshot)
      (hnode : ∀ t ∈ db.tasks, t.id = taskId →
        findNodeRun snapshot.nodeRuns t.nodeRunId = findNodeRun db.nodeRuns t.nodeRunId)

/-- `cancel_run`: under the lock on the run it has read the run row and, at its end, all
rows. -/
inductive Sitting.Cancelling (db : RunRecord) (p : Sitting) : Prop
  | begun (hrest : p.rest = [.lockRun, .select, .lockTasks]) (hrun : p.view.run = none)
  | locked (hrest : p.rest = [.select, .lockTasks] ∨ p.rest = [.lockTasks])
      (hlock : RowLock.run ∈ p.locks) (hrun : p.view.run = some db.run)
      (hselect : p.rest = [.lockTasks] → p.view.snapshot.isSome = true)
  | read (hrest : p.rest = []) (hlock : RowLock.run ∈ p.locks)
      (hlocks : ∀ t ∈ db.tasks, RowLock.task t.id ∈ p.locks) (hrun : p.view.run = some db.run)
      (htasks : p.view.tasks = some db.tasks) {snapshot : RunRecord}
      (hview : p.view.snapshot = some snapshot) (hnodes : snapshot.nodeRuns = db.nodeRuns)

/-- The session has read committed rows, as far as it has come. -/
structure Sitting.ReadsCurrent (db : RunRecord) (p : Sitting) : Prop where
  operation : p.tx.operation.isSome = true
  finishing : ∀ taskId, p.tx.finishes = some taskId → p.Finishing db taskId
  cancelling : ∀ now, p.tx = .cancelRun now → p.Cancelling db

/-- `cancel_run` finds the NodeRuns that it has read current when it locks the tasks. -/
def CancelReadsCurrent (s : LockWorld) : LockStep → Prop
  | .next sid => ∀ p now snapshot, s.sittings sid = some p → p.tx = .cancelRun now →
      p.rest.head? = some .lockTasks → p.view.snapshot = some snapshot →
      snapshot.nodeRuns = s.db.nodeRuns
  | _ => True

/-- Only `cancel_run` and Worker calls begin. -/
def LockStep.CancelsOrFinishes : LockStep → Prop
  | .begin tx => tx.operation.isSome = true
  | _ => True

namespace Sitting

theorem readsCurrent_start (db : RunRecord) (htx : tx.operation.isSome = true) :
    ReadsCurrent db { tx := tx, rest := tx.script } := by
  refine ⟨htx, fun taskId h ↦ .begun (Transaction.script_of_finishes h) rfl, ?_⟩
  rintro now rfl
  exact .begun rfl rfl

theorem Finishing.advance {stmt : Statement} {rest : List Statement} (h : p.Finishing db taskId)
    (hrest : p.rest = stmt :: rest) : (p.advance env db stmt rest).Finishing db taskId := by
  cases h with
  | begun hscript hview =>
      cases hrest.symm.trans hscript
      exact .locked rfl (List.mem_append_right _ List.mem_cons_self) rfl hview
  | locked hscript hlock htasks hview =>
      cases hrest.symm.trans hscript
      have hpinned : (p.advance env db .select []).view.snapshot = some db := by
        simp [Sitting.advance, Statement.read, View.pin, hview]
      exact .read rfl (List.mem_append_left _ hlock) htasks hpinned fun _ _ _ ↦ rfl
  | read hscript => cases hrest.symm.trans hscript

theorem Cancelling.advance {stmt : Statement} {rest : List Statement} (h : p.Cancelling db)
    (hrest : p.rest = stmt :: rest)
    (hcurrent : stmt = .lockTasks → ∀ sn, p.view.snapshot = some sn → sn.nodeRuns = db.nodeRuns) :
    (p.advance env db stmt rest).Cancelling db := by
  cases h with
  | begun hscript hrun =>
      cases hrest.symm.trans hscript
      refine .locked (.inl rfl) (List.mem_append_right _ List.mem_cons_self) ?_ ?_
      · simp [Sitting.advance, Statement.read, hrun]
      · intro heq
        cases heq
  | locked hscript hlock hrun hselect =>
      rcases hscript with hscript | hscript
      · cases hrest.symm.trans hscript
        refine .locked (.inr rfl) (List.mem_append_left _ hlock) hrun fun _ ↦ ?_
        cases hview : p.view.snapshot <;> simp [Sitting.advance, Statement.read, View.pin, hview]
      · obtain ⟨sn, hsn⟩ := Option.isSome_iff_exists.mp (hselect hscript)
        cases hrest.symm.trans hscript
        refine .read rfl (List.mem_append_left _ hlock) ?_ ?_ ?_ hsn (hcurrent rfl sn hsn)
        · intro t ht
          apply List.mem_append_right
          exact List.mem_map_of_mem ht
        · exact hrun
        · rfl
  | read hscript => cases hrest.symm.trans hscript

end Sitting

/-! ## Commits -/

/-- The rows after the commit of a session that has finished a task. -/
inductive Finished (db : RunRecord) (taskId : TaskId) : RunRecord → Prop
  | same : Finished db taskId db
  | write {w : CellWrite} {t : ExecutionTask} (ht : findTask db.tasks taskId = some t)
      (htask : w.taskId = taskId) (hnode : w.nodeId = t.nodeRunId) :
      Finished db taskId (w.apply db)

theorem Sitting.Finishing.commit (h : p.Finishing db taskId) (hk : Keyed db) (hrest : p.rest = [])
    (htx : p.tx.finishes = some taskId) (hcommit : p.tx.commit env p.view db = .ok db') :
    ∃ op returned, p.tx.operation = some op ∧ op.exec env db = .ok (returned, db') ∧
      Finished db taskId db' := by
  cases h with
  | begun hscript => cases hrest.symm.trans hscript
  | locked hscript => cases hrest.symm.trans hscript
  | @read hscript hlock htasks snapshot hview hnode =>
      obtain ⟨op, hop, hlocal, hrun⟩ := Transaction.run_of_finishes htx
      obtain ⟨session, hsession, hwrite⟩ := Transaction.commit_ok hcommit
      rw [hrun] at hsession
      obtain ⟨⟨returned, rows⟩, hexec, rfl⟩ := Outcome.map_eq_ok_iff.mp hsession
      have hbaseTasks : (Transaction.base p.view db).tasks = db.tasks.filter (·.id = taskId) := by
        simp [Transaction.base, htasks]
      have hbaseNodes : (Transaction.base p.view db).nodeRuns = snapshot.nodeRuns := by
        simp [Transaction.base, View.rows, hview]
      have htask : findTask (Transaction.base p.view db).tasks taskId = findTask db.tasks taskId := by
        rw [hbaseTasks]
        simp [findTask, Table.find?, List.find?_filter]
      have hread (t : ExecutionTask) (ht : findTask db.tasks taskId = some t) :
          findNodeRun (Transaction.base p.view db).nodeRuns t.nodeRunId =
            findNodeRun db.nodeRuns t.nodeRunId := by
        obtain ⟨hmem, hid⟩ := hk.findTask_eq_some_iff.mp ht
        rw [hbaseNodes, hnode t hmem hid]
      rcases hlocal env _ db htask hread returned rows hexec with
        ⟨rfl, hdb⟩ | ⟨w, t, ht, htaskId, hnodeId, rfl, hdb⟩
      · have hsame := writeBack_same (Transaction.base p.view db) db rfl rfl
        cases hsame.symm.trans hwrite
        exact ⟨op, returned, hop, hdb, .same⟩
      · have hwritten := w.writeBack hk (htaskId.symm ▸ htask) (hnodeId.symm ▸ hread t ht) rfl rfl
        cases hwritten.symm.trans hwrite
        exact ⟨op, returned, hop, hdb, .write ht htaskId hnodeId⟩

/-- The part of `cancel_run` before its loop reads and writes the run row only. -/
theorem cancelRunStatus_local (h : cancelRunStatus now db = .ok rows) :
    ∃ run events, WorkflowRun.merge db.run run db.run = run ∧
      rows = { db with run := run, events := db.events ++ events } ∧
        ∀ db₀ : RunRecord, db₀.run = db.run →
          cancelRunStatus now db₀ = .ok { db₀ with run := run, events := db₀.events ++ events } := by
  unfold cancelRunStatus at h
  by_cases hterm : db.run.status.isTerminal = true
  · simp only [hterm, if_true] at h
    cases h
  · simp only [hterm] at h
    obtain ⟨advanced, hadvance, h⟩ := Outcome.bind_eq_ok_iff.mp h
    obtain ⟨u, hlegal, hadvance⟩ := Outcome.bind_eq_ok_iff.mp hadvance
    cases hadvance
    cases h
    refine ⟨_, _, ?_, rfl, fun db₀ hrun ↦ ?_⟩
    · simp [WorkflowRun.merge, RunRecord.modifyRun]
    · unfold cancelRunStatus
      rw [hrun]
      simp only [hterm]
      refine Outcome.bind_eq_ok_iff.mpr ⟨_, Outcome.bind_eq_ok_iff.mpr ⟨u, ?_, rfl⟩, ?_⟩
      · rw [hrun, hlegal]
      · simp only [RunRecord.modifyRun, RunRecord.recordEvent, hrun]
        rfl

theorem Sitting.Cancelling.commit (h : p.Cancelling db) (hk : Keyed db) (hrest : p.rest = [])
    (htx : p.tx = .cancelRun now) (hcommit : p.tx.commit env p.view db = .ok db') :
    cancelRun now db = .ok db' := by
  cases h with
  | begun hscript => cases hrest.symm.trans hscript
  | locked hscript => rcases hscript with hscript | hscript <;> cases hrest.symm.trans hscript
  | @read hscript hlock hlocks hrun htasks snapshot hview hnodes =>
      have hbase : Transaction.base p.view db =
          { run := db.run, nodeRuns := db.nodeRuns, tasks := db.tasks } := by
        simp [Transaction.base, View.rows, hrun, htasks, hview, hnodes]
      obtain ⟨session, hsession, hwrite⟩ := Transaction.commit_ok hcommit
      rw [htx] at hsession
      obtain ⟨rows, hstatus, hsession⟩ := Outcome.bind_eq_ok_iff.mp hsession
      cases hsession
      rw [hbase] at hstatus hwrite
      obtain ⟨run, events, hmerge, rfl, hlocal⟩ := cancelRunStatus_local hstatus
      have hnodes : Merge.rows NodeRun.nodeId NodeRun.merge db.nodeRuns
          (db.nodeRuns.map (cancelOpenNode now)) db.nodeRuns =
            db.nodeRuns.map (cancelOpenNode now) := by
        refine Merge.rows_map (fun n ↦ ?_) (fun n ↦ ?_) hk.nodeIds_nodup
        · unfold cancelOpenNode
          split <;> rfl
        · unfold cancelOpenNode
          split <;> simp [NodeRun.merge]
      have htasks : Merge.rows ExecutionTask.id ExecutionTask.merge db.tasks
          (db.tasks.map (cancelTask now)) db.tasks = db.tasks.map (cancelTask now) := by
        refine Merge.rows_map cancelTask_id (fun t ↦ ?_) hk.taskIds_nodup
        unfold cancelTask
        split <;> simp [ExecutionTask.merge]
      have htake : (db.tasks.map (cancelTask now)).take db.tasks.length =
          db.tasks.map (cancelTask now) := by
        rw [← List.length_map (cancelTask now), List.take_length]
      have hdrop : (db.tasks.map (cancelTask now)).drop db.tasks.length = [] := by simp
      simp only [writeBack, insertedTasks, cancelRunTasks, cancelOpenNodes, cancelRunTasks_nodeRuns,
        htake, hdrop, hnodes, htasks, hmerge, List.nil_append, Session.insertTasks] at hwrite
      refine Outcome.bind_eq_ok_iff.mpr ⟨_, hlocal db rfl, ?_⟩
      rw [← hwrite]
      simp only [Session.commit, Session.flush, cancelRunTasks, cancelOpenNodes,
        cancelRunTasks_nodeRuns, Session.insertTasks, List.append_assoc, List.append_nil]
      rfl

/-- A commit is the operation of its session on the committed rows. -/
theorem Sitting.ReadsCurrent.commit (h : p.ReadsCurrent db) (hk : Keyed db) (hrest : p.rest = [])
    (hcommit : p.tx.commit env p.view db = .ok db') :
    ∃ op returned, p.tx.operation = some op ∧ op.exec env db = .ok (returned, db') := by
  obtain ⟨op, hop⟩ := Option.isSome_iff_exists.mp h.operation
  rcases Transaction.finishes_or_cancels hop with ⟨now, htx⟩ | ⟨taskId, htx⟩
  · have hcancel := (h.cancelling now htx).commit hk hrest htx hcommit
    refine ⟨.cancelRun now, true, by rw [htx]; rfl, ?_⟩
    exact returning_eq_ok_iff.mpr ⟨rfl, hcancel⟩
  · obtain ⟨op, returned, hop, hexec, -⟩ := (h.finishing taskId htx).commit hk hrest htx hcommit
    exact ⟨op, returned, hop, hexec⟩

/-! ## Other sessions -/

theorem Finished.run (h : Finished db taskId db') : db'.run = db.run := by
  cases h <;> rfl

variable (db) in
theorem CellWrite.filter_tasks (w : CellWrite) (h : w.taskId ≠ taskId) :
    (w.apply db).tasks.filter (·.id = taskId) = db.tasks.filter (·.id = taskId) := by
  change (db.tasks.map _).filter _ = _
  rw [List.filter_map]
  have hkey : (fun t : ExecutionTask ↦ decide (t.id = taskId)) ∘
      (fun t ↦ if t.id = w.taskId then w.task t else t) = fun t ↦ decide (t.id = taskId) := by
    funext t
    simp only [Function.comp_apply]
    split
    · rw [w.task_id]
    · rfl
  rw [hkey]
  refine (List.map_congr_left fun t ht ↦ ?_).trans (List.map_id _)
  have hid : t.id = taskId := by simpa using (List.mem_filter.mp ht).2
  rw [if_neg (fun heq ↦ h (heq.symm.trans hid))]
  rfl

/-- A call that finishes another task. -/
theorem Sitting.Finishing.other {task : TaskId} (hk : Keyed db) (h : Finished db task db')
    (hne : task ≠ taskId) (hq : q.Finishing db taskId) : q.Finishing db' taskId := by
  cases h with
  | same => exact hq
  | @write w t ht htask hnode =>
      have hfilter := w.filter_tasks db (htask ▸ hne)
      cases hq with
      | begun hrest hview => exact .begun hrest hview
      | locked hrest hlock htasks hview => exact .locked hrest hlock (hfilter ▸ htasks) hview
      | read hrest hlock htasks hview hread =>
          refine .read hrest hlock (hfilter ▸ htasks) hview fun u hu hid ↦ ?_
          have hu' : u ∈ db.tasks := by
            have hmem : u ∈ (w.apply db).tasks.filter (·.id = taskId) :=
              List.mem_filter.mpr ⟨hu, by simpa using hid⟩
            rw [hfilter] at hmem
            exact (List.mem_filter.mp hmem).1
          obtain ⟨hmem, htid⟩ := hk.findTask_eq_some_iff.mp ht
          have hnodes : u.nodeRunId ≠ t.nodeRunId := by
            intro heq
            have := List.inj_on_of_nodup_map hk.taskNodes hu' hmem heq
            exact hne (htid.symm.trans (this ▸ hid))
          rw [hread u hu' hid]
          change _ = Table.find? NodeRun.nodeId _ (Table.modify NodeRun.nodeId w.nodeId w.node _)
          rw [Table.find?_modify w.node_nodeId, if_neg (hnode ▸ hnodes)]
          rfl

theorem Sitting.Finishing.lock_mem (h : p.Finishing db taskId) (hrest : p.rest = []) :
    RowLock.task taskId ∈ p.locks := by
  cases h with
  | begun hscript => cases hrest.symm.trans hscript
  | locked hscript => cases hrest.symm.trans hscript
  | read hscript hlock => exact hlock

theorem Sitting.Cancelling.locks_mem (h : p.Cancelling db) (hrest : p.rest = []) :
    RowLock.run ∈ p.locks ∧ ∀ t ∈ db.tasks, RowLock.task t.id ∈ p.locks := by
  cases h with
  | begun hscript => cases hrest.symm.trans hscript
  | locked hscript => rcases hscript with hscript | hscript <;> cases hrest.symm.trans hscript
  | read hscript hlock hlocks => exact ⟨hlock, hlocks⟩

/-- After a cancellation no other session has the rows of a task. -/
theorem Sitting.Finishing.cancelled (htasks' : db'.tasks = db.tasks.map (cancelTask now))
    (hfree : ∀ t ∈ db.tasks, RowLock.task t.id ∉ q.locks) (hq : q.Finishing db taskId) :
    q.Finishing db' taskId := by
  have hnone (hlock : RowLock.task taskId ∈ q.locks) : ∀ t ∈ db.tasks, t.id ≠ taskId := by
    rintro t ht rfl
    exact hfree t ht hlock
  have hnone' (hlock : RowLock.task taskId ∈ q.locks) : ∀ t ∈ db'.tasks, t.id ≠ taskId := by
    intro t' ht'
    rw [htasks'] at ht'
    obtain ⟨t, ht, rfl⟩ := List.mem_map.mp ht'
    rw [cancelTask_id]
    exact hnone hlock t ht
  have hfilter (hlock : RowLock.task taskId ∈ q.locks) :
      db.tasks.filter (·.id = taskId) = db'.tasks.filter (·.id = taskId) := by
    rw [List.filter_eq_nil_iff.mpr fun t ht ↦ by simpa using hnone hlock t ht,
      List.filter_eq_nil_iff.mpr fun t ht ↦ by simpa using hnone' hlock t ht]
  cases hq with
  | begun hrest hview => exact .begun hrest hview
  | locked hrest hlock htasks hview => exact .locked hrest hlock (hfilter hlock ▸ htasks) hview
  | read hrest hlock htasks hview hread =>
      exact .read hrest hlock (hfilter hlock ▸ htasks) hview
        fun t ht hid ↦ absurd hid (hnone' hlock t ht)

/-- The commit of another session. -/
theorem Sitting.ReadsCurrent.other (hp : p.ReadsCurrent db) (hc : Coupled db) (hrest : p.rest = [])
    (hcommit : p.tx.commit env p.view db = .ok db') (hdisjoint : ∀ l ∈ p.locks, l ∉ q.locks)
    (hq : q.ReadsCurrent db) : q.ReadsCurrent db' := by
  obtain ⟨op, hop⟩ := Option.isSome_iff_exists.mp hp.operation
  rcases Transaction.finishes_or_cancels hop with ⟨now, htx⟩ | ⟨task, htx⟩
  · have hcancelling := hp.cancelling now htx
    obtain ⟨hrun, htasks⟩ := hcancelling.locks_mem hrest
    have hcancelled := (cancelRun_sound Rights.all hc).of_ok
      (hcancelling.commit hc.toKeyed hrest htx hcommit)
    refine ⟨hq.operation, fun taskId hfinishes ↦ ?_, fun now' hcancel ↦ ?_⟩
    · exact (hq.finishing taskId hfinishes).cancelled hcancelled.tasks
        fun t ht ↦ hdisjoint _ (htasks t ht)
    · cases hq.cancelling now' hcancel with
      | begun hrest hview => exact .begun hrest hview
      | locked _ hlock => exact absurd hlock (hdisjoint _ hrun)
      | read _ hlock => exact absurd hlock (hdisjoint _ hrun)
  · have hfinishing := hp.finishing task htx
    have hlock := hfinishing.lock_mem hrest
    obtain ⟨-, -, -, -, hfinished⟩ := hfinishing.commit hc.toKeyed hrest htx hcommit
    refine ⟨hq.operation, fun taskId hfinishes ↦ ?_, fun now' hcancel ↦ ?_⟩
    · by_cases hne : task = taskId
      · subst hne
        cases hq.finishing task hfinishes with
        | begun hrest hview => exact .begun hrest hview
        | locked _ hlock' => exact absurd hlock' (hdisjoint _ hlock)
        | read _ hlock' => exact absurd hlock' (hdisjoint _ hlock)
      · exact (hq.finishing taskId hfinishes).other hc.toKeyed hfinished hne
    · cases hq.cancelling now' hcancel with
      | begun hrest hview => exact .begun hrest hview
      | locked hrest hlock hrun hselect =>
          exact .locked hrest hlock (hfinished.run ▸ hrun) hselect
      | read hrest hlock' hlocks hrun htasks hview hnodes =>
          cases hfinished with
          | same => exact .read hrest hlock' hlocks hrun htasks hview hnodes
          | write ht =>
              obtain ⟨hmem, rfl⟩ := hc.findTask_eq_some_iff.mp ht
              exact absurd (hlocks _ hmem) (hdisjoint _ hlock)

/-! ## Runs -/

/-- The steps of `cancel_run` and of Worker calls, where every `cancel_run` has read
current NodeRuns. -/
def CurrentCancellation (s : LockWorld) (step : LockStep) : Prop :=
  step.CancelsOrFinishes ∧ CancelReadsCurrent s step

theorem LockStep.Effect.readsCurrent (hw : s.WellLocked) (hc : Coupled s.db)
    (h : s.All Sitting.ReadsCurrent) (hstep : CurrentCancellation s step)
    (heffect : step.Effect env s s') : s'.All Sitting.ReadsCurrent := by
  refine LockWorld.All.effect hw h heffect ?_ ?_ ?_
  · rintro tx rfl
    exact Sitting.readsCurrent_start s.db hstep.1
  · rintro sid p stmt rest rfl hp hrest hreads
    refine ⟨hreads.operation, fun taskId htx ↦ (hreads.finishing taskId htx).advance hrest,
      fun now htx ↦ (hreads.cancelling now htx).advance hrest ?_⟩
    intro hstmt sn hsn
    exact hstep.2 p now sn hp htx (by rw [hrest, hstmt]; rfl) hsn
  · rintro sid p db rfl - hrest hcommit hreads q hdisjoint hq
    exact hreads.other hc hrest hcommit hdisjoint hq

/-- One step commits nothing, or one operation. -/
theorem LockStep.Effect.operation (hc : Coupled s.db) (h : s.All Sitting.ReadsCurrent)
    (heffect : step.Effect env s s') : s'.db = s.db ∨
      ∃ tx op returned, Transaction.operation tx = some op ∧
        op.exec env s.db = .ok (returned, s'.db) := by
  cases heffect with
  | idle | begin | next | rollback | abort => exact .inl rfl
  | commit hp hrest hcommit =>
      obtain ⟨op, returned, hop, hexec⟩ := (h _ _ hp).commit hc.toKeyed hrest hcommit
      exact .inr ⟨_, op, returned, hop, hexec⟩

theorem LockWorld.Steps.readsCurrent (hdb : Reachable env db)
    (h : LockWorld.Steps env CurrentCancellation { db := db } s) :
    s.WellLocked ∧ s.All Sitting.ReadsCurrent ∧ Reachable env s.db := by
  induction h with
  | refl => exact ⟨LockWorld.wellLocked_start db, LockWorld.all_start _ db, hdb⟩
  | @step s step h hstep ih =>
      obtain ⟨hw, hreads, hreachable⟩ := ih
      have heffect := step.exec_effect env s
      have hc := hreachable.coupled
      refine ⟨hw.effect heffect, heffect.readsCurrent hw hc hreads hstep, ?_⟩
      rcases heffect.operation hc hreads with hsame | ⟨-, op, returned, -, hexec⟩
      · rwa [hsame]
      · exact .step hreachable trivial hexec

/-! ## Results -/

/-- What `cancel_run` and the Worker calls do to a NodeRun that is CANCELLED afterwards. -/
inductive Cancels (db db' : RunRecord) (id : NodeId) : Prop
  | waiting (h : statusOf db.nodeRuns id = some .waiting)
  | kept (h : statusOf db.nodeRuns id = some .cancelled)
      (htask : taskOfNode db'.tasks id = taskOfNode db.tasks id)
  | task (h : ∀ t, taskOfNode db'.tasks id = some t → t.status = .cancelled)

theorem cancelRun_cancels (hc : Coupled db) (h : cancelRun now db = .ok db') {id : NodeId}
    (hcancelled : statusOf db'.nodeRuns id = some .cancelled) : Cancels db db' id := by
  have hrows := (cancelRun_sound Rights.all hc).of_ok h
  have htask : taskOfNode db'.tasks id = (taskOfNode db.tasks id).map (cancelTask now) := by
    rw [hrows.tasks]
    exact Table.find?_map cancelTask_nodeRunId _ _
  have hnode : findNodeRun db'.nodeRuns id =
      (findNodeRun db.nodeRuns id).map (cancelOpenNode now) := by
    rw [hrows.nodeRuns]
    refine Table.find?_map (fun n ↦ ?_) _ _
    unfold cancelOpenNode
    split <;> rfl
  rw [statusOf, hnode] at hcancelled
  cases hn : findNodeRun db.nodeRuns id with
  | none =>
      rw [hn] at hcancelled
      cases hcancelled
  | some n =>
      have hcoupling := hc.coupling id n hn
      have hstatus : statusOf db.nodeRuns id = some n.status := by rw [statusOf, hn, Option.map_some]
      cases ht : taskOfNode db.tasks id with
      | none =>
          refine .task fun t ht' ↦ ?_
          rw [htask, ht] at ht'
          cases ht'
      | some t =>
          rw [ht, cellStatus, Option.map_some] at hcoupling
          rw [ht, Option.map_some] at htask
          by_cases hlive : t.status.isTerminal = false
          · refine .task fun t' ht' ↦ ?_
            cases htask.symm.trans ht'
            simp [cancelTask, hlive]
          · have hkept : cancelTask now t = t := by simp [cancelTask, hlive]
            by_cases hterminal : n.status.isTerminal = true
            · have heq : n.status = .cancelled := by
                simpa [hn, cancelOpenNode, hterminal] using hcancelled
              exact .kept (by rw [hstatus, heq]) (by rw [htask, hkept, ht])
            · refine .waiting ?_
              rw [hstatus, hcoupling.waiting_of_open (by simpa using hterminal)
                (by simpa using hlive)]

theorem CellChange.ne_cancelled {op : RunOp} {c c' : Cell} (h : CellChange env db db' op c c')
    (hop : tx.operation = some op) (hfinishes : tx.finishes = some taskId) :
    c'.1.status ≠ .cancelled := by
  cases h with
  | resolve hresolution =>
      cases tx <;> cases hop <;> cases hresolution
  | complete | fail | waitNode | scheduleRetry =>
      intro heq
      cases heq
  | _ => cases tx <;> cases hop <;> cases hfinishes

/-- A call that finishes a task cancels nothing. -/
theorem finish_cancels (hc : Coupled db) {op : RunOp} {returned : Bool}
    (hop : tx.operation = some op) (hfinishes : tx.finishes = some taskId)
    (h : op.exec env db = .ok (returned, db')) {id : NodeId}
    (hcancelled : statusOf db'.nodeRuns id = some .cancelled) : Cancels db db' id := by
  have hcells := RunOp.exec_cellChange hc h
  obtain ⟨n', hn', hstatus⟩ := Option.map_eq_some_iff.mp hcancelled
  obtain ⟨n, hn⟩ : ∃ n, findNodeRun db.nodeRuns id = some n := by
    have hsteps := (RunOp.exec_sound hc (RunOp.promised_all db op)).of_ok h
    have hc' := Steps.coupled hsteps hc
    apply hc.exists_nodeRun
    rw [← Steps.graph hsteps]
    obtain ⟨hmem, rfl⟩ := hc'.findNodeRun_eq_some_iff.mp hn'
    exact hc'.mem_nodeIds hmem
  obtain ⟨n₁, hn₁, hcell⟩ := hcells id n hn
  cases hn'.symm.trans hn₁
  rcases hcell with hsame | hchange
  · obtain ⟨rfl, htask⟩ := Prod.mk.inj hsame
    exact .kept (by rw [statusOf, hn, Option.map_some, hstatus]) htask
  · exact absurd hstatus (hchange.ne_cancelled hop hfinishes)

theorem LockStep.Effect.cancels (hc : Coupled s.db) (h : s.All Sitting.ReadsCurrent)
    (heffect : step.Effect env s s') {id : NodeId}
    (hcancelled : statusOf s'.db.nodeRuns id = some .cancelled) : Cancels s.db s'.db id := by
  rcases heffect.operation hc h with hsame | ⟨tx, op, returned, hop, hexec⟩
  · rw [hsame] at hcancelled ⊢
    exact .kept hcancelled rfl
  · rcases Transaction.finishes_or_cancels hop with ⟨now, rfl⟩ | ⟨taskId, hfinishes⟩
    · cases hop
      exact cancelRun_cancels hc (returning_eq_ok_iff.mp hexec).2 hcancelled
    · exact finish_cancels hc hop hfinishes hexec hcancelled

theorem LockStep.Effect.frozen (hc : Coupled s.db) (h : s.All Sitting.ReadsCurrent)
    (heffect : step.Effect env s s') {n : NodeRun} (hn : n ∈ s.db.nodeRuns)
    (hterminal : n.status.isTerminal = true) :
    ∃ n' ∈ s'.db.nodeRuns, n'.nodeId = n.nodeId ∧ n'.status = n.status ∧ n'.output = n.output := by
  rcases heffect.operation hc h with hsame | ⟨-, op, returned, -, hexec⟩
  · rw [hsame]
    exact ⟨n, hn, rfl, rfl, rfl⟩
  · have hsteps := (RunOp.exec_sound hc (RunOp.promised_all s.db op)).of_ok hexec
    obtain ⟨n', hn', hstatus, houtput⟩ :=
      Steps.frozen hsteps hc (hc.findNodeRun_eq_some_iff.mpr ⟨hn, rfl⟩) hterminal
    obtain ⟨hmem, hid⟩ := (Steps.coupled hsteps hc).findNodeRun_eq_some_iff.mp hn'
    exact ⟨n', hmem, hid, hstatus, houtput⟩

theorem LockWorld.Steps.results (hdb : Reachable env db)
    (h : LockWorld.Steps env CurrentCancellation { db := db } s)
    (h' : LockWorld.Steps env CurrentCancellation s s') {n : NodeRun} (hn : n ∈ s.db.nodeRuns)
    (hterminal : n.status.isTerminal = true) :
    ∃ n' ∈ s'.db.nodeRuns, n'.nodeId = n.nodeId ∧ n'.status = n.status ∧ n'.output = n.output := by
  induction h' with
  | refl => exact ⟨n, hn, rfl, rfl, rfl⟩
  | @step s₁ step h₁ hstep ih =>
      obtain ⟨n₁, hn₁, hid, hstatus, houtput⟩ := ih
      obtain ⟨-, hreads, hreachable⟩ := (h.append h₁).readsCurrent hdb
      obtain ⟨n₂, hn₂, hid₂, hstatus₂, houtput₂⟩ :=
        (step.exec_effect env s₁).frozen hreachable.coupled hreads hn₁ (hstatus ▸ hterminal)
      exact ⟨n₂, hn₂, hid₂.trans hid, hstatus₂.trans hstatus, houtput₂.trans houtput⟩

theorem LockWorld.Steps.cancelled (hdb : Reachable env db)
    (h : LockWorld.Steps env CurrentCancellation { db := db } s) {id : NodeId}
    (hbefore : statusOf db.nodeRuns id ≠ some .cancelled)
    (hcancelled : statusOf s.db.nodeRuns id = some .cancelled) :
    (∀ t ∈ s.db.tasks, t.nodeRunId = id → t.status = .cancelled) ∨
      ∃ s₁, LockWorld.Steps env CurrentCancellation { db := db } s₁ ∧
        LockWorld.Steps env CurrentCancellation s₁ s ∧
          statusOf s₁.db.nodeRuns id = some .waiting := by
  induction h with
  | refl => exact absurd hcancelled hbefore
  | @step s₁ step h₁ hstep ih =>
      obtain ⟨-, hreads, hreachable⟩ := h₁.readsCurrent hdb
      have hc' := (LockWorld.Steps.step step h₁ hstep).readsCurrent hdb |>.2.2.coupled
      have hlast : LockWorld.Steps env CurrentCancellation s₁ (step.exec env s₁) :=
        .step step .refl hstep
      rcases (step.exec_effect env s₁).cancels hreachable.coupled hreads hcancelled with
        hwaiting | ⟨hstatus, htask⟩ | htask
      · exact .inr ⟨s₁, h₁, hlast, hwaiting⟩
      · rcases ih hstatus with htasks | ⟨s₂, h₂, h₂₁, hwaiting⟩
        · refine .inl fun t ht hid ↦ ?_
          have hfind := hc'.taskOfNode_eq_some_iff.mpr ⟨ht, hid⟩
          rw [htask] at hfind
          obtain ⟨hmem, hnode⟩ := hreachable.coupled.taskOfNode_eq_some_iff.mp hfind
          exact htasks t hmem hnode
        · exact .inr ⟨s₂, h₂, h₂₁.append hlast, hwaiting⟩
      · exact .inl fun t ht hid ↦ htask t (hc'.taskOfNode_eq_some_iff.mpr ⟨ht, hid⟩)

end Relayvia
