import Relayvia.FailFast
import Relayvia.Library.Paging

/-!
# Incremental readers of the trace

Transactions insert rows into `run_events` and commit in any order.  A reader polls
the list endpoint or the event stream with the largest id that it has received.
-/

namespace Relayvia

/-- A row of `run_events`. -/
structure StoredEvent where
  id : ℕ
  workflowRunId : String
  event : RunEvent
  deriving DecidableEq

/-- The committed rows that a reader sees, and the writes of the open transactions,
each under the number of its transaction. -/
structure TraceDatabase where
  /-- the counter of `autoincrement` -/
  nextId : ℕ := 1
  runEvents : List StoredEvent := []
  runStatus : String → Option WorkflowRunStatus
  pendingEvents : List (ℕ × StoredEvent) := []
  pendingStatuses : List (ℕ × String × WorkflowRunStatus) := []

namespace TraceDatabase

/-- The flush of `record_event` in an open transaction. -/
def recordEvent (transaction : ℕ) (workflowRunId : String) (event : RunEvent)
    (db : TraceDatabase) : TraceDatabase :=
  { db with
    nextId := db.nextId + 1
    pendingEvents := db.pendingEvents ++ [(transaction, ⟨db.nextId, workflowRunId, event⟩)] }

def setStatus (transaction : ℕ) (workflowRunId : String) (status : WorkflowRunStatus)
    (db : TraceDatabase) : TraceDatabase :=
  { db with pendingStatuses := (transaction, workflowRunId, status) :: db.pendingStatuses }

/-- What the transaction has inserted. -/
def insertedBy (transaction : ℕ) (db : TraceDatabase) : List StoredEvent :=
  (db.pendingEvents.filter (·.1 = transaction)).map (·.2)

def rollback (transaction : ℕ) (db : TraceDatabase) : TraceDatabase :=
  { db with
    pendingEvents := db.pendingEvents.filter (·.1 ≠ transaction)
    pendingStatuses := db.pendingStatuses.filter (·.1 ≠ transaction) }

def commit (transaction : ℕ) (db : TraceDatabase) : TraceDatabase :=
  { db.rollback transaction with
    runEvents := db.runEvents ++ db.insertedBy transaction
    runStatus := fun id ↦
      (((db.pendingStatuses.filter (·.1 = transaction)).map (·.2)).lookup id).or (db.runStatus id) }

/-- The committed events of a run. -/
def eventsOf (runId : String) (db : TraceDatabase) : List StoredEvent :=
  db.runEvents.filter (·.workflowRunId = runId)

/-- `select(RunEvent).where(RunEvent.id > after_id).order_by(RunEvent.id).limit(limit)`. -/
def selectEvents (runId : String) (afterId limit : ℕ) (db : TraceDatabase) : List StoredEvent :=
  (Paging.rest StoredEvent.id afterId (db.eventsOf runId)).take limit

def getRunEvents (runId : String) (afterId limit : ℕ) (db : TraceDatabase) :
    Except RelayviaError (List StoredEvent) :=
  match db.runStatus runId with
  | none => .error
      { code := "WORKFLOW_RUN_NOT_FOUND", message := "Workflow Run not found", statusCode := 404 }
  | some _ => .ok (db.selectEvents runId afterId limit)

/-- One round of the generator of `stream_run_events`: the frames that it yields and
whether it returns after them; `none` is the error frame of a run that is not found. -/
def streamRunEvents (runId : String) (lastId : ℕ) (db : TraceDatabase) :
    Option (List StoredEvent × Bool) :=
  match db.runStatus runId with
  | none => none
  | some status =>
      let events := db.selectEvents runId lastId 50
      let runTerminal := status ∈ [.completed, .failed, .cancelled]
      some (events, events.isEmpty && runTerminal)

end TraceDatabase

/-- A client that resumes after the largest id that it has received. -/
structure TraceReader where
  lastId : ℕ := 0
  delivered : List StoredEvent := []

def TraceReader.receive (page : List StoredEvent) (reader : TraceReader) : TraceReader where
  lastId := Paging.advance StoredEvent.id reader.lastId page
  delivered := reader.delivered ++ page

/-- What the transactions do, and the reads of the client.  A connection that breaks
inside a round of the stream has handed over the first `received` frames only; the
next round starts from the `Last-Event-ID` of the client. -/
inductive TraceStep where
  | record (transaction : ℕ) (workflowRunId : String) (event : RunEvent)
  | setStatus (transaction : ℕ) (workflowRunId : String) (status : WorkflowRunStatus)
  | commit (transaction : ℕ)
  | rollback (transaction : ℕ)
  | list (limit : ℕ)
  | stream (received : ℕ)

structure TraceState where
  db : TraceDatabase
  reader : TraceReader := {}

namespace TraceStep

variable (runId : String)

def exec (step : TraceStep) (s : TraceState) : TraceState :=
  match step with
  | .record transaction workflowRunId event =>
      { s with db := s.db.recordEvent transaction workflowRunId event }
  | .setStatus transaction workflowRunId status =>
      { s with db := s.db.setStatus transaction workflowRunId status }
  | .commit transaction => { s with db := s.db.commit transaction }
  | .rollback transaction => { s with db := s.db.rollback transaction }
  | .list limit =>
      -- `Query(ge=1, le=500)` refuses other limits
      if 1 ≤ limit ∧ limit ≤ 500 then
        match s.db.getRunEvents runId s.reader.lastId limit with
        | .ok page => { s with reader := s.reader.receive page }
        | .error _ => s
      else s
  | .stream received =>
      match s.db.streamRunEvents runId s.reader.lastId with
      | some (events, _) => { s with reader := s.reader.receive (events.take received) }
      | none => s

def runAll (steps : List TraceStep) (s : TraceState) : TraceState :=
  steps.foldl (fun s step ↦ step.exec runId s) s

/-- A read that hands over at least one event when there is one. -/
def isPoll : TraceStep → Bool
  | .list limit => 1 ≤ limit ∧ limit ≤ 500
  | .stream received => 1 ≤ received
  | _ => false

/-- A commit makes no event of the run visible behind the position of the reader. -/
def InOrder (step : TraceStep) (s : TraceState) : Prop :=
  match step with
  | .commit transaction => ∀ e ∈ s.db.insertedBy transaction, e.workflowRunId = runId →
      s.reader.lastId < e.id
  | _ => True

def AllInOrder : List TraceStep → TraceState → Prop
  | [], _ => True
  | step :: steps, s => step.InOrder runId s ∧ AllInOrder steps (step.exec runId s)

instance : ∀ (step : TraceStep) (s : TraceState), Decidable (step.InOrder runId s)
  | .commit transaction, s => inferInstanceAs (Decidable
      (∀ e ∈ s.db.insertedBy transaction, e.workflowRunId = runId → s.reader.lastId < e.id))
  | .record .., _ | .setStatus .., _ | .rollback _, _ | .list _, _ | .stream _, _ => isTrue trivial

instance decidableAllInOrder : ∀ (steps : List TraceStep) (s : TraceState),
    Decidable (AllInOrder runId steps s)
  | [], _ => isTrue trivial
  | step :: steps, s =>
      have := decidableAllInOrder steps (step.exec runId s)
      inferInstanceAs (Decidable (_ ∧ _))

end TraceStep

/-! ## Ids -/

namespace TraceDatabase

/-- The ids are distinct and below the counter, in the committed and in the pending rows. -/
structure WellFormed (db : TraceDatabase) : Prop where
  ids_nodup : ((db.runEvents ++ db.pendingEvents.map (·.2)).map StoredEvent.id).Nodup
  ids_lt : ∀ e ∈ db.runEvents ++ db.pendingEvents.map (·.2), 1 ≤ e.id ∧ e.id < db.nextId
  one_le : 1 ≤ db.nextId

variable {db : TraceDatabase} {transaction : ℕ} {runId : String}

theorem mem_insertedBy {e : StoredEvent} :
    e ∈ db.insertedBy transaction ↔ (transaction, e) ∈ db.pendingEvents := by
  simp [insertedBy]

theorem mem_eventsOf {e : StoredEvent} :
    e ∈ db.eventsOf runId ↔ e ∈ db.runEvents ∧ e.workflowRunId = runId := by
  simp [eventsOf]

/-- A commit moves rows from the pending ones to the visible ones. -/
theorem commit_perm : ((db.commit transaction).runEvents ++
    (db.commit transaction).pendingEvents.map (·.2)).Perm
      (db.runEvents ++ db.pendingEvents.map (·.2)) := by
  have hsplit := (List.filter_append_perm (fun p ↦ decide (p.1 = transaction))
    db.pendingEvents).map (·.2)
  rw [List.map_append] at hsplit
  have hpending : (db.commit transaction).pendingEvents =
      db.pendingEvents.filter fun p ↦ !decide (p.1 = transaction) := by
    simp [commit, rollback]
  rw [hpending]
  show (db.runEvents ++ db.insertedBy transaction ++ _).Perm _
  rw [List.append_assoc]
  exact hsplit.append_left _

theorem rollback_sublist : ((db.rollback transaction).runEvents ++
    (db.rollback transaction).pendingEvents.map (·.2)).Sublist
      (db.runEvents ++ db.pendingEvents.map (·.2)) :=
  (List.Sublist.refl _).append ((List.filter_sublist).map _)

namespace WellFormed

theorem recordEvent (h : db.WellFormed) {workflowRunId : String} {event : RunEvent} :
    (db.recordEvent transaction workflowRunId event).WellFormed := by
  have hrows : (db.recordEvent transaction workflowRunId event).runEvents ++
      (db.recordEvent transaction workflowRunId event).pendingEvents.map (·.2) =
        db.runEvents ++ db.pendingEvents.map (·.2) ++ [⟨db.nextId, workflowRunId, event⟩] := by
    simp [TraceDatabase.recordEvent]
  constructor
  · rw [hrows, List.map_append, List.nodup_append]
    refine ⟨h.ids_nodup, by simp, ?_⟩
    rintro i hi j hj rfl
    obtain ⟨e, he, rfl⟩ := List.mem_map.mp hi
    have hlt := (h.ids_lt e he).2
    simp only [List.map_cons, List.map_nil, List.mem_singleton] at hj
    omega
  · intro e he
    rw [hrows, List.mem_append, List.mem_singleton] at he
    show 1 ≤ e.id ∧ e.id < db.nextId + 1
    rcases he with he | rfl
    · have hlt := h.ids_lt e he
      omega
    · exact ⟨h.one_le, Nat.lt_succ_self _⟩
  · exact Nat.le_succ_of_le h.one_le

theorem rollback (h : db.WellFormed) : (db.rollback transaction).WellFormed where
  ids_nodup := h.ids_nodup.sublist (rollback_sublist.map _)
  ids_lt e he := h.ids_lt e (rollback_sublist.subset he)
  one_le := h.one_le

theorem commit (h : db.WellFormed) : (db.commit transaction).WellFormed where
  ids_nodup := (commit_perm.map _).nodup_iff.mpr h.ids_nodup
  ids_lt e he := h.ids_lt e (commit_perm.subset he)
  one_le := h.one_le

theorem eventsOf_nodup (h : db.WellFormed) : ((db.eventsOf runId).map StoredEvent.id).Nodup := by
  have hrows : (db.eventsOf runId).Sublist (db.runEvents ++ db.pendingEvents.map (·.2)) :=
    List.filter_sublist.trans (List.sublist_append_left _ _)
  exact h.ids_nodup.sublist (hrows.map _)

/-- A row that is not committed has an id of its own. -/
theorem not_mem_runEvents (h : db.WellFormed) {e : StoredEvent}
    (he : e ∈ db.insertedBy transaction) : e ∉ db.runEvents := by
  intro hmem
  have hnodup := h.ids_nodup
  rw [List.map_append, List.nodup_append] at hnodup
  have hpending : e ∈ db.pendingEvents.map (·.2) :=
    List.mem_map.mpr ⟨_, mem_insertedBy.mp he, rfl⟩
  exact hnodup.2.2 e.id (List.mem_map_of_mem hmem) e.id (List.mem_map_of_mem hpending) rfl

end WellFormed

theorem eventsOf_commit : (db.commit transaction).eventsOf runId = db.eventsOf runId ++
    (db.insertedBy transaction).filter (·.workflowRunId = runId) :=
  List.filter_append _ _

end TraceDatabase

/-! ## What a reader has received -/

/-- The client has received the committed events of the run up to its position, in
order, and a stream that returns has sent them all. -/
structure TraceState.Lossless (runId : String) (s : TraceState) : Prop where
  complete : Paging.Complete StoredEvent.id (s.db.eventsOf runId) s.reader.lastId s.reader.delivered
  ended : ∀ events, s.db.streamRunEvents runId s.reader.lastId = some (events, true) →
    ∀ e ∈ s.db.eventsOf runId, e ∈ s.reader.delivered

namespace TraceStep

variable {runId : String} {step : TraceStep} {s : TraceState}

/-- The reader receives the first `n` events behind its position. -/
def read (runId : String) (n : ℕ) (s : TraceState) : TraceState :=
  { s with reader := s.reader.receive (s.db.selectEvents runId s.reader.lastId n) }

theorem read_zero : read runId 0 s = s := by
  simp [read, TraceDatabase.selectEvents, TraceReader.receive]

theorem exec_list {limit : ℕ} : ∃ n, (list limit).exec runId s = read runId n s ∧
    ((list limit).isPoll = true → (s.db.runStatus runId).isSome → 0 < n) := by
  by_cases hlimit : 1 ≤ limit ∧ limit ≤ 500
  · simp only [exec, if_pos hlimit, TraceDatabase.getRunEvents]
    cases s.db.runStatus runId with
    | none => exact ⟨0, read_zero.symm, fun _ hrun ↦ by simp at hrun⟩
    | some status => exact ⟨limit, rfl, fun _ _ ↦ hlimit.1⟩
  · simp only [exec, if_neg hlimit]
    exact ⟨0, read_zero.symm, fun hpoll ↦ absurd (by simpa [isPoll] using hpoll) hlimit⟩

theorem exec_stream {received : ℕ} : ∃ n, (stream received).exec runId s = read runId n s ∧
    ((stream received).isPoll = true → (s.db.runStatus runId).isSome → 0 < n) := by
  simp only [exec, TraceDatabase.streamRunEvents]
  cases s.db.runStatus runId with
  | none => exact ⟨0, read_zero.symm, fun _ hrun ↦ by simp at hrun⟩
  | some status =>
      refine ⟨min received 50, ?_, fun hpoll _ ↦ ?_⟩
      · simp only [read, TraceDatabase.selectEvents, List.take_take]
      · have hreceived : 1 ≤ received := by simpa [isPoll] using hpoll
        omega

theorem wellFormed_exec (h : s.db.WellFormed) : (step.exec runId s).db.WellFormed := by
  cases step with
  | record transaction workflowRunId event => exact h.recordEvent
  | setStatus transaction workflowRunId status => exact ⟨h.ids_nodup, h.ids_lt, h.one_le⟩
  | commit transaction => exact h.commit
  | rollback transaction => exact h.rollback
  | list limit =>
      obtain ⟨n, heq, -⟩ := exec_list (s := s)
      rwa [heq]
  | stream received =>
      obtain ⟨n, heq, -⟩ := exec_stream (s := s)
      rwa [heq]

theorem complete_exec (hdb : s.db.WellFormed) (hstep : step.InOrder runId s)
    (h : Paging.Complete StoredEvent.id (s.db.eventsOf runId) s.reader.lastId s.reader.delivered) :
    Paging.Complete StoredEvent.id ((step.exec runId s).db.eventsOf runId)
      (step.exec runId s).reader.lastId (step.exec runId s).reader.delivered := by
  cases step with
  | record transaction workflowRunId event => exact h
  | setStatus transaction workflowRunId status => exact h
  | rollback transaction => exact h
  | commit transaction =>
      show Paging.Complete _ ((s.db.commit transaction).eventsOf runId) _ _
      rw [TraceDatabase.eventsOf_commit]
      refine h.append fun e he ↦ ?_
      obtain ⟨hmem, hrun⟩ := List.mem_filter.mp he
      exact hstep e hmem (by simpa using hrun)
  | list limit =>
      obtain ⟨n, heq, -⟩ := exec_list (s := s)
      rw [heq]
      exact h.read hdb.eventsOf_nodup n
  | stream received =>
      obtain ⟨n, heq, -⟩ := exec_stream (s := s)
      rw [heq]
      exact h.read hdb.eventsOf_nodup n

/-- A commit out of order leaves a hole behind the position of the reader. -/
theorem not_complete_exec (hdb : s.db.WellFormed) (hstep : ¬step.InOrder runId s)
    (h : Paging.Complete StoredEvent.id (s.db.eventsOf runId) s.reader.lastId s.reader.delivered) :
    ¬Paging.Complete StoredEvent.id ((step.exec runId s).db.eventsOf runId)
      (step.exec runId s).reader.lastId (step.exec runId s).reader.delivered := by
  cases step with
  | commit transaction =>
      simp only [InOrder, not_forall, not_lt] at hstep
      obtain ⟨e, he, hrun, hle⟩ := hstep
      show ¬Paging.Complete _ ((s.db.commit transaction).eventsOf runId) _ _
      rw [TraceDatabase.eventsOf_commit]
      refine h.not_append (e := e) ?_ hle fun hmem ↦ ?_
      · exact List.mem_filter.mpr ⟨he, by simpa using hrun⟩
      · exact hdb.not_mem_runEvents he (TraceDatabase.mem_eventsOf.mp hmem).1
  | _ => exact absurd trivial hstep

end TraceStep

/-- A stream returns on an empty page only. -/
theorem TraceState.lossless_iff {runId : String} {s : TraceState} : s.Lossless runId ↔
    Paging.Complete StoredEvent.id (s.db.eventsOf runId) s.reader.lastId s.reader.delivered := by
  refine ⟨Lossless.complete, fun h ↦ ⟨h, fun events hends ↦ h.all_of_rest_eq_nil ?_⟩⟩
  simp only [TraceDatabase.streamRunEvents] at hends
  split at hends
  · cases hends
  · simp only [Option.some.injEq, Prod.mk.injEq, Bool.and_eq_true, List.isEmpty_iff] at hends
    have hpage := hends.2.1
    rw [TraceDatabase.selectEvents, List.take_eq_nil_iff] at hpage
    exact hpage.resolve_left (by omega)

/-! ## Runs -/

namespace TraceStep

variable {runId : String} {step : TraceStep} {steps : List TraceStep} {s : TraceState}
  {e : StoredEvent}

theorem runAll_cons : runAll runId (step :: steps) s = runAll runId steps (step.exec runId s) :=
  rfl

theorem runAll_append {steps' : List TraceStep} : runAll runId (steps ++ steps') s =
    runAll runId steps' (runAll runId steps s) :=
  List.foldl_append

theorem wellFormed_runAll (h : s.db.WellFormed) : (runAll runId steps s).db.WellFormed := by
  induction steps generalizing s with
  | nil => exact h
  | cons step steps ih => exact ih (wellFormed_exec h)

/-- The commits are in order exactly if the reader misses nothing at any time. -/
theorem allInOrder_iff (hdb : s.db.WellFormed) (h : s.Lossless runId) :
    AllInOrder runId steps s ↔
      ∀ past, past <+: steps → (runAll runId past s).Lossless runId := by
  induction steps generalizing s with
  | nil =>
      refine ⟨fun _ past hpast ↦ ?_, fun _ ↦ trivial⟩
      rw [List.prefix_nil.mp hpast]
      exact h
  | cons step steps ih =>
      constructor
      · rintro ⟨hstep, hsteps⟩ past hpast
        cases past with
        | nil => exact h
        | cons step' past =>
            obtain ⟨rfl, hrest⟩ := List.cons_prefix_cons.mp hpast
            have hnext := TraceState.lossless_iff.mpr (complete_exec hdb hstep h.complete)
            exact (ih (wellFormed_exec hdb) hnext).mp hsteps past hrest
      · intro hall
        have hnext : (step.exec runId s).Lossless runId := hall [step] (by simp)
        have hstep : step.InOrder runId s := by
          by_contra hstep
          exact not_complete_exec hdb hstep h.complete hnext.complete
        refine ⟨hstep, (ih (wellFormed_exec hdb) hnext).mpr fun past hpast ↦ ?_⟩
        exact hall (step :: past) (List.cons_prefix_cons.mpr ⟨rfl, hpast⟩)

theorem lastId_le_read {n : ℕ} : s.reader.lastId ≤ (read runId n s).reader.lastId :=
  Paging.le_advance

theorem lastId_le_exec : s.reader.lastId ≤ (step.exec runId s).reader.lastId := by
  cases step with
  | list limit =>
      obtain ⟨n, heq, -⟩ := exec_list (s := s)
      exact heq ▸ lastId_le_read
  | stream received =>
      obtain ⟨n, heq, -⟩ := exec_stream (s := s)
      exact heq ▸ lastId_le_read
  | _ => exact le_rfl

theorem lastId_le_runAll : s.reader.lastId ≤ (runAll runId steps s).reader.lastId := by
  induction steps generalizing s with
  | nil => exact le_rfl
  | cons step steps ih => exact lastId_le_exec.trans ih

theorem runStatus_isSome_exec {id : String} (h : (s.db.runStatus id).isSome) :
    ((step.exec runId s).db.runStatus id).isSome := by
  cases step with
  | commit transaction =>
      show (Option.or _ (s.db.runStatus id)).isSome
      simp [h]
  | list limit =>
      obtain ⟨n, heq, -⟩ := exec_list (s := s)
      exact heq ▸ h
  | stream received =>
      obtain ⟨n, heq, -⟩ := exec_stream (s := s)
      exact heq ▸ h
  | _ => exact h

theorem runStatus_isSome_runAll {id : String} (h : (s.db.runStatus id).isSome) :
    ((runAll runId steps s).db.runStatus id).isSome := by
  induction steps generalizing s with
  | nil => exact h
  | cons step steps ih => exact ih (runStatus_isSome_exec h)

/-- Committed events stay. -/
theorem mem_eventsOf_exec (h : e ∈ s.db.eventsOf runId) :
    e ∈ (step.exec runId s).db.eventsOf runId := by
  cases step with
  | commit transaction =>
      show e ∈ (s.db.commit transaction).eventsOf runId
      rw [TraceDatabase.eventsOf_commit]
      exact List.mem_append_left _ h
  | list limit =>
      obtain ⟨n, heq, -⟩ := exec_list (s := s)
      exact heq ▸ h
  | stream received =>
      obtain ⟨n, heq, -⟩ := exec_stream (s := s)
      exact heq ▸ h
  | _ => exact h

theorem mem_eventsOf_runAll (h : e ∈ s.db.eventsOf runId) :
    e ∈ (runAll runId steps s).db.eventsOf runId := by
  induction steps generalizing s with
  | nil => exact h
  | cons step steps ih => exact ih (mem_eventsOf_exec h)

/-- A poll passes at least one id while an event is ahead. -/
theorem lastId_lt_exec (hpoll : step.isPoll = true) (hrun : (s.db.runStatus runId).isSome)
    (he : e ∈ s.db.eventsOf runId) (hahead : s.reader.lastId < e.id) :
    s.reader.lastId < (step.exec runId s).reader.lastId := by
  have hrest : Paging.rest StoredEvent.id s.reader.lastId (s.db.eventsOf runId) ≠ [] :=
    List.ne_nil_of_mem (Paging.mem_rest.mpr ⟨he, hahead⟩)
  cases step with
  | list limit =>
      obtain ⟨n, heq, hn⟩ := exec_list (s := s)
      exact heq ▸ Paging.lt_advance (hn hpoll hrun) hrest
  | stream received =>
      obtain ⟨n, heq, hn⟩ := exec_stream (s := s)
      exact heq ▸ Paging.lt_advance (hn hpoll hrun) hrest
  | _ => simp [isPoll] at hpoll

/-- Whatever else happens, polling reaches every committed event. -/
theorem min_le_lastId_runAll (hrun : (s.db.runStatus runId).isSome)
    (he : e ∈ s.db.eventsOf runId) :
    min e.id (s.reader.lastId + steps.countP isPoll) ≤ (runAll runId steps s).reader.lastId := by
  induction steps generalizing s with
  | nil => exact min_le_right _ _
  | cons step steps ih =>
      have hnext : e ∈ (step.exec runId s).db.eventsOf runId := mem_eventsOf_exec he
      have hrest := ih (runStatus_isSome_exec hrun) hnext
      have hmono : s.reader.lastId ≤ (step.exec runId s).reader.lastId := lastId_le_exec
      have hlast : (step.exec runId s).reader.lastId ≤
          (runAll runId steps (step.exec runId s)).reader.lastId := lastId_le_runAll
      rw [runAll_cons, List.countP_cons]
      by_cases hpoll : step.isPoll = true
      · rw [if_pos hpoll]
        by_cases hahead : s.reader.lastId < e.id
        · have hlt := lastId_lt_exec hpoll hrun he hahead
          omega
        · omega
      · rw [if_neg hpoll]
        omega

theorem lossless_start {statuses : String → Option WorkflowRunStatus} :
    TraceState.Lossless runId { db := { runStatus := statuses } } := by
  refine TraceState.lossless_iff.mpr (Paging.Complete.nil fun e he ↦ ?_)
  simp [TraceDatabase.eventsOf] at he

theorem wellFormed_start {statuses : String → Option WorkflowRunStatus} :
    TraceDatabase.WellFormed { runStatus := statuses } :=
  ⟨by simp, by simp, le_rfl⟩

end TraceStep

open TraceStep

/-- In a run of transactions and reads the reader misses no event exactly if no commit
makes an event visible behind its position; every committed event then arrives after
finitely many polls. -/
theorem event_stream_lossless (runId : String) (statuses : String → Option WorkflowRunStatus)
    (hrun : (statuses runId).isSome) (steps : List TraceStep) :
    let start : TraceState := { db := { runStatus := statuses } }
    (AllInOrder runId steps start ↔
      ∀ past, past <+: steps → (runAll runId past start).Lossless runId) ∧
    (AllInOrder runId steps start → ∀ past future, past ++ future = steps →
      ∀ e ∈ (runAll runId past start).db.eventsOf runId,
        e.id ≤ (runAll runId past start).reader.lastId + future.countP isPoll →
          e ∈ (runAll runId steps start).reader.delivered) := by
  intro start
  have hiff : AllInOrder runId steps start ↔
      ∀ past, past <+: steps → (runAll runId past start).Lossless runId :=
    allInOrder_iff wellFormed_start lossless_start
  refine ⟨hiff, ?_⟩
  rintro hall past future rfl e he hpolls
  have hend : (runAll runId (past ++ future) start).Lossless runId :=
    hiff.mp hall _ List.prefix_rfl
  rw [hend.complete.mem_iff, runAll_append]
  refine ⟨mem_eventsOf_runAll he, ?_⟩
  have hreach : min e.id ((runAll runId past start).reader.lastId + future.countP isPoll) ≤
      (runAll runId future (runAll runId past start)).reader.lastId :=
    min_le_lastId_runAll (runStatus_isSome_runAll hrun) he
  omega

/-- Two events of one transaction, read by two rounds of a stream. -/
theorem event_stream_lossless_stream :
    let start : TraceState := { db := { runStatus := fun _ ↦ some .running } }
    let steps := [.record 1 "run" { eventType := .workflowStarted },
      .record 1 "run" { eventType := .workflowCompleted }, .setStatus 1 "run" .completed, .commit 1,
      .stream 1, .stream 50]
    (runAll "run" steps start).Lossless "run" ∧
      (runAll "run" steps start).reader.delivered.map (·.id) = [1, 2] := by
  intro start steps
  have hmain := event_stream_lossless "run" (fun _ ↦ some .running) rfl steps
  exact ⟨hmain.1.mp (by decide) steps List.prefix_rfl, by decide⟩

theorem TraceStep.not_delivered_exec {runId : String} {step : TraceStep} {s : TraceState}
    {e : StoredEvent} (hbehind : e.id ≤ s.reader.lastId) (hmissed : e ∉ s.reader.delivered) :
    e ∉ (step.exec runId s).reader.delivered := by
  have hread : ∀ n, e ∉ (read runId n s).reader.delivered := by
    intro n hmem
    rcases List.mem_append.mp hmem with hold | hpage
    · exact hmissed hold
    · have hafter := (Paging.mem_rest.mp (List.mem_of_mem_take hpage)).2
      omega
  cases step with
  | list limit =>
      obtain ⟨n, heq, -⟩ := exec_list (s := s)
      exact heq ▸ hread n
  | stream received =>
      obtain ⟨n, heq, -⟩ := exec_stream (s := s)
      exact heq ▸ hread n
  | _ => exact hmissed

/-- An event behind the position of the reader never arrives. -/
theorem not_delivered_runAll {runId : String} {s : TraceState} {e : StoredEvent}
    (hbehind : e.id ≤ s.reader.lastId) (hmissed : e ∉ s.reader.delivered) (steps : List TraceStep) :
    e ∉ (runAll runId steps s).reader.delivered := by
  induction steps generalizing s with
  | nil => exact hmissed
  | cons step steps ih =>
      exact ih (hbehind.trans lastId_le_exec) (not_delivered_exec hbehind hmissed)

/-- Two Workers run the services of one run. -/
def forkClaims : List RunOp :=
  [.startRun 0, .schedule 0, .claim 0 "w1" "t1" 60 none true 1,
    .claim 0 "w2" "t2" 60 none true 2]

def serviceCompleted (node : NodeId) : RunEvent where
  nodeRunId := some node
  eventType := .nodeCompleted
  message := some "Node completed"
  payload := [("node_id", .str node)]

def runningRun : TraceState where
  db := { runStatus := fun id ↦ if id = "run" then some .running else none }

/-- The two completions insert their events one after the other and commit the other
way round, with a poll in between. -/
def lateCommit : List TraceStep :=
  [.record 1 "run" (serviceCompleted "act"), .record 2 "run" (serviceCompleted "first"),
    .commit 2, .list 200, .commit 1]

/-- The completion that commits last is never delivered. -/
theorem not_event_stream_lossless :
    (∃ db db₁ db₂, execAll plainEnv forkClaims forkRun = .ok db ∧
      complete 0 1 "w1" "t1" [] [] [] db = .ok (true, db₁) ∧
      db₁.events = db.events ++ [serviceCompleted "act"] ∧
      complete 0 2 "w2" "t2" [] [] [] db = .ok (true, db₂) ∧
      db₂.events = db.events ++ [serviceCompleted "first"]) ∧
    ∃ e, e ∈ (runAll "run" lateCommit runningRun).db.eventsOf "run" ∧
      ∀ steps, e ∉ (runAll "run" (lateCommit ++ steps) runningRun).reader.delivered := by
  refine ⟨⟨_, _, _, rfl, rfl, rfl, rfl, rfl⟩, ⟨1, "run", serviceCompleted "act"⟩, by decide, ?_⟩
  intro steps
  rw [runAll_append]
  exact not_delivered_runAll (by decide) (by decide) steps

end Relayvia
