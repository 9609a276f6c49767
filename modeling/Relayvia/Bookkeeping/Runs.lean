import Relayvia.Bookkeeping.RunRow

/-!
# The bookkeeping of the run row

The times, the waiting reason and the WORKFLOW_STARTED event follow the status as long
as every step is `Regular`.
-/

namespace Relayvia

variable {env : Env} {db db' : RunRecord} {log : List Entry} {op : RunOp} {returned : Bool}

/-- The run is RUNNING now or was so before one of the steps. -/
def EverRunning (log : List Entry) (db : RunRecord) : Prop :=
  db.run.status = .running ∨ ∃ e ∈ log, e.before.run.status = .running

def RunRecord.startedEvents (db : RunRecord) : ℕ :=
  db.events.countP (·.eventType = .workflowStarted)

/-- The fields of the run row follow its status, with `ever` for a run that has ever
been RUNNING and `started` for its number of WORKFLOW_STARTED events. -/
structure RunBookkeeping (ever : Prop) (started : ℕ) (r : WorkflowRun) : Prop where
  startedAt : r.startedAt.isSome = true ↔ ever
  atMostOne : started ≤ 1
  started : ever → started = 1
  finishedAt : r.finishedAt.isSome = true ↔ r.status.isTerminal = true
  pausedAt : r.pausedAt.isSome = true ↔ r.status = .paused
  waitingReason : r.waitingReason ≠ none → r.status = .waiting

/-- `start_run` finds the run CREATED, `resume_run` does not, `cancel_run` does not find
it PAUSED, a run that waits for a reason is not paused, resumed or cancelled directly,
and a run is not reconciled before its start. -/
def RunOp.Regular (r : WorkflowRun) : RunOp → Prop
  | .startRun _ => r.status ≠ .paused ∧ r.status ≠ .waiting
  | .pauseRun _ => r.status = .waiting → r.waitingReason = none
  | .resumeRun => r.status ≠ .created ∧ (r.status = .waiting → r.waitingReason = none)
  | .cancelRun _ => r.status ≠ .paused ∧ (r.status = .waiting → r.waitingReason = none)
  | .reconcile _ => r.status ≠ .created
  | _ => True

/-! ## Where a status comes from -/

namespace WorkflowRunStatus

theorem running_mem_transitions {s : WorkflowRunStatus} :
    running ∈ s.transitions ↔ s = created ∨ s = waiting ∨ s = paused := by
  cases s <;> simp [transitions]

theorem paused_mem_transitions {s : WorkflowRunStatus} :
    paused ∈ s.transitions ↔ s = running ∨ s = waiting := by
  cases s <;> simp [transitions]

end WorkflowRunStatus

theorem everRunning_cons {e : Entry} (he : e.before = db) :
    EverRunning (e :: log) db' ↔ db'.run.status = .running ∨ EverRunning log db := by
  simp [EverRunning, he]

/-- Nothing has started in a CREATED run, and a run was RUNNING before it waits, pauses,
completes or fails. -/
structure Origin (log : List Entry) (db : RunRecord) : Prop where
  created : db.run.status = .created → ¬EverRunning log db ∧ db.startedEvents = 0
  started : db.run.status = .created ∨ db.run.status = .cancelled ∨ EverRunning log db

theorem RunChange.created {r r' : WorkflowRun} (h : RunChange op r r')
    (hcreated : r'.status = .created) : r.status = .created ∧ ∀ now, op ≠ .startRun now := by
  cases h with
  | kept hop =>
      refine ⟨hcreated, ?_⟩
      rintro now rfl
      cases hop
  | frozen hr => exact ⟨hcreated, by simp⟩
  | reconcile hr hderived hne => exact absurd hcreated hne.1
  | _ => cases hcreated

/-- A step into any status but CREATED and CANCELLED starts from a run that has started. -/
theorem RunChange.started {r r' : WorkflowRun} (h : RunChange op r r')
    (hr' : r'.status ≠ .created ∧ r'.status ≠ .cancelled ∧ r'.status ≠ .running) :
    r.status ≠ .created ∧ r.status ≠ .cancelled := by
  cases h with
  | kept => exact ⟨hr'.1, hr'.2.1⟩
  | frozen => exact ⟨hr'.1, hr'.2.1⟩
  | pause hlegal =>
      constructor
      · intro h
        simp [h, WorkflowRunStatus.transitions] at hlegal
      · intro h
        simp [h, WorkflowRunStatus.transitions] at hlegal
  | reconcile hr hderived hne =>
      constructor
      · intro h
        rw [h] at hderived
        rcases hderived with heq | hlegal
        · exact hr'.1 heq
        · simp only [WorkflowRunStatus.transitions, List.mem_cons, List.not_mem_nil,
            or_false] at hlegal
          rcases hlegal with heq | heq
          · exact hr'.2.2 heq
          · exact hr'.2.1 heq
      · intro h
        rcases hr with hr | hr | hr <;> rw [h] at hr <;> cases hr
  | start => exact absurd rfl hr'.2.2
  | resume => exact absurd rfl hr'.2.2
  | cancel => exact absurd rfl hr'.2.1

theorem RunOp.startedEvents_eq (h : op.exec env db = .ok (returned, db'))
    (hop : ∀ now, op ≠ .startRun now) : db'.startedEvents = db.startedEvents :=
  (RunOp.exec_quiet h hop).countP

theorem RunOp.startedEvents_startRun {now : Time}
    (h : RunOp.exec env (.startRun now) db = .ok (returned, db')) :
    db'.startedEvents = db.startedEvents + 1 := by
  obtain ⟨e, hevents, he⟩ := startRun_events (returning_eq_ok_iff.mp h).2
  simp [RunRecord.startedEvents, hevents, he]

theorem History.origin (h : History env log db) : Origin log db := by
  induction h with
  | @created now id graph executionSnapshot input db h =>
      have hstatus := (createRun_ok h).1
      refine ⟨fun _ ↦ ⟨?_, ?_⟩, .inl hstatus⟩
      · simp [EverRunning, hstatus]
      · obtain ⟨_, -, h⟩ := Outcome.bind_eq_ok_iff.mp h
        cases h
        rfl
  | @step log db db' op returned hlog h ih =>
      have hchange := RunOp.exec_runChange hlog.coupled h
      constructor
      · intro hcreated
        obtain ⟨hbefore, hop⟩ := hchange.created hcreated
        obtain ⟨hnever, hcount⟩ := ih.created hbefore
        refine ⟨?_, (RunOp.startedEvents_eq h hop).trans hcount⟩
        rw [everRunning_cons rfl, not_or]
        exact ⟨by simp [hcreated], hnever⟩
      · rw [everRunning_cons rfl]
        by_contra hother
        push Not at hother
        obtain ⟨hcreated, hcancelled, hrunning, hnever⟩ := hother
        obtain ⟨hbefore, hbefore'⟩ := hchange.started ⟨hcreated, hcancelled, hrunning⟩
        rcases ih.started with h | h | h
        · exact hbefore h
        · exact hbefore' h
        · exact hnever h

/-! ## One step -/

namespace RunBookkeeping

variable {ever : Prop} {started started' : ℕ} {r r' : WorkflowRun}

theorem startedAt_none (h : RunBookkeeping ever started r) (hnever : ¬ever) :
    r.startedAt = none := by
  rw [← h.startedAt] at hnever
  simpa using hnever

theorem finishedAt_none (h : RunBookkeeping ever started r) (hopen : r.status.isTerminal = false) :
    r.finishedAt = none := by
  have hnot : ¬r.finishedAt.isSome = true := by
    rw [h.finishedAt, hopen]
    simp
  simpa using hnot

theorem pausedAt_none (h : RunBookkeeping ever started r) (hstatus : r.status ≠ .paused) :
    r.pausedAt = none := by
  have hnot : ¬r.pausedAt.isSome = true := by
    rwa [h.pausedAt]
  simpa using hnot

theorem waitingReason_none (h : RunBookkeeping ever started r)
    (hstatus : r.status = .waiting → r.waitingReason = none) : r.waitingReason = none := by
  by_contra hreason
  exact hreason (hstatus (h.waitingReason hreason))

/-- A regular step keeps the bookkeeping. -/
theorem step (hb : RunBookkeeping ever started r) (h : RunChange op r r')
    (hcreated : r.status = .created → ¬ever ∧ started = 0)
    (horigin : r.status = .created ∨ r.status = .cancelled ∨ ever)
    (hkept : (∀ now, op ≠ .startRun now) → started' = started)
    (hadded : (∃ now, op = .startRun now) → started' = started + 1) (hregular : op.Regular r) :
    RunBookkeeping (r'.status = .running ∨ ever) started' r' := by
  cases h with
  | kept hop =>
      have hcount : started' = started := hkept fun now h ↦ by simp [h, RunOp.movesRun] at hop
      subst hcount
      have hever : (r.status = .running ∨ ever) ↔ ever := by
        refine or_iff_right_of_imp fun hrunning ↦ ?_
        simpa [hrunning] using horigin
      rwa [hever]
  | frozen hr =>
      obtain rfl : started' = started := hkept (by simp)
      have hever : (r.status = .running ∨ ever) ↔ ever := by
        refine or_iff_right_of_imp fun hrunning ↦ ?_
        simpa [hrunning] using horigin
      rwa [hever]
  | @start now _ hlegal =>
      have hstatus : r.status = .created := by
        obtain ⟨hpaused, hwaiting⟩ := hregular
        rcases WorkflowRunStatus.running_mem_transitions.mp hlegal with h | h | h
        · exact h
        · exact absurd h hwaiting
        · exact absurd h hpaused
      obtain ⟨hnever, rfl⟩ := hcreated hstatus
      obtain rfl : started' = 1 := hadded ⟨now, rfl⟩
      exact
        { startedAt := by simp [hb.startedAt_none hnever]
          atMostOne := by omega
          started := fun _ ↦ rfl
          finishedAt := by
            simp [hb.finishedAt_none (by rw [hstatus]; rfl), WorkflowRunStatus.isTerminal]
          pausedAt := by simp [hb.pausedAt_none (by simp [hstatus])]
          waitingReason := fun hreason ↦
            absurd (hb.waitingReason_none fun h ↦ by simp [hstatus] at h) hreason }
  | pause hlegal =>
      obtain rfl : started' = started := hkept (by simp)
      have hstatus := WorkflowRunStatus.paused_mem_transitions.mp hlegal
      have hever : ever := by
        rcases hstatus with hs | hs <;> simpa [hs] using horigin
      have hreason : r.waitingReason = none := hb.waitingReason_none hregular
      exact
        { startedAt := by simp [hb.startedAt, hever]
          atMostOne := hb.atMostOne
          started := fun _ ↦ hb.started hever
          finishedAt := by
            have hopen : r.status.isTerminal = false := by
              rcases hstatus with hs | hs <;> rw [hs] <;> rfl
            simp [hb.finishedAt_none hopen, WorkflowRunStatus.isTerminal]
          pausedAt := by simp
          waitingReason := fun h ↦ absurd hreason h }
  | resume hlegal =>
      obtain rfl : started' = started := hkept (by simp)
      have hstatus : r.status = .waiting ∨ r.status = .paused :=
        (WorkflowRunStatus.running_mem_transitions.mp hlegal).resolve_left hregular.1
      have hever : ever := by
        rcases hstatus with hs | hs <;> simpa [hs] using horigin
      have hreason : r.waitingReason = none := hb.waitingReason_none hregular.2
      exact
        { startedAt := by simp [hb.startedAt, hever]
          atMostOne := hb.atMostOne
          started := fun _ ↦ hb.started hever
          finishedAt := by
            have hopen : r.status.isTerminal = false := by
              rcases hstatus with hs | hs <;> rw [hs] <;> rfl
            simp [hb.finishedAt_none hopen, WorkflowRunStatus.isTerminal]
          pausedAt := by simp
          waitingReason := fun h ↦ absurd hreason h }
  | cancel hlegal =>
      obtain rfl : started' = started := hkept (by simp)
      have hreason : r.waitingReason = none := hb.waitingReason_none hregular.2
      exact
        { startedAt := by simp [hb.startedAt]
          atMostOne := hb.atMostOne
          started := fun h ↦ hb.started (by simpa using h)
          finishedAt := by simp [WorkflowRunStatus.isTerminal]
          pausedAt := by simp [hb.pausedAt_none hregular.1]
          waitingReason := fun h ↦ absurd hreason h }
  | reconcile hr hderived hne hreason =>
      obtain rfl : started' = started := hkept (by simp)
      have hstatus : r.status = .running ∨ r.status = .waiting := hr.resolve_left hregular
      have hever : ever := by
        rcases hstatus with hs | hs <;> simpa [hs] using horigin
      have hopen : r.status.isTerminal = false := by
        rcases hstatus with hs | hs <;> rw [hs] <;> rfl
      exact
        { startedAt := by simp [hb.startedAt, hever]
          atMostOne := hb.atMostOne
          started := fun _ ↦ hb.started hever
          finishedAt := by
            rw [hb.finishedAt_none hopen]
            split <;> simp_all
          pausedAt := by
            have hpaused : r.status ≠ .paused := by
              rcases hstatus with hs | hs <;> simp [hs]
            simp [hb.pausedAt_none hpaused, hne.2.1]
          waitingReason := hreason }

/-- A step that keeps the bookkeeping is regular. -/
theorem regular (hb : RunBookkeeping ever started r)
    (hb' : RunBookkeeping (r'.status = .running ∨ ever) started' r') (h : RunChange op r r')
    (hcreated : r.status = .created → ¬ever)
    (horigin : r.status = .created ∨ r.status = .cancelled ∨ ever)
    (hadded : (∃ now, op = .startRun now) → started' = started + 1) : op.Regular r := by
  have hreason {status : WorkflowRunStatus} (hrow : r'.waitingReason = r.waitingReason)
      (hstatus : r'.status = status) (hne : status ≠ .waiting) : r.waitingReason = none := by
    rw [← hrow]
    exact hb'.waitingReason_none fun h ↦ absurd (hstatus.symm.trans h) hne
  cases h with
  | kept hop => cases op <;> trivial
  | @frozen now _ hr =>
      intro hs
      simp [hs, WorkflowRunStatus.isTerminal] at hr
  | @start now _ hlegal =>
      constructor
      · intro hs
        have hpaused := hb.pausedAt.mpr hs
        have hnone := hb'.pausedAt_none (by simp)
        simp_all
      · intro hs
        have hever : ever := by simpa [hs] using horigin
        have hcount := hb.started hever
        have hcount' := hadded ⟨now, rfl⟩
        have hatMostOne := hb'.atMostOne
        omega
  | pause hlegal => exact fun _ ↦ hreason rfl rfl (by simp)
  | resume hlegal =>
      refine ⟨fun hs ↦ ?_, fun _ ↦ hreason rfl rfl (by simp)⟩
      have hnone := hb.startedAt_none (hcreated hs)
      have hsome := hb'.startedAt.mpr (.inl rfl)
      simp_all
  | cancel hlegal =>
      refine ⟨fun hs ↦ ?_, fun _ ↦ hreason rfl rfl (by simp)⟩
      have hpaused := hb.pausedAt.mpr hs
      have hnone := hb'.pausedAt_none (by simp)
      simp_all
  | @reconcile now _ derived reason hr hderived hne =>
      intro hs
      have hrunning : derived = .running := by
        rw [hs] at hderived
        simpa [WorkflowRunStatus.transitions, hne] using hderived
      have hnone := hb.startedAt_none (hcreated hs)
      have hsome := hb'.startedAt.mpr (.inl hrunning)
      simp_all

end RunBookkeeping

/-! ## Histories -/

/-- `P` holds in the state `db` that the steps of `log` lead to, and held in every state
before it. -/
def Throughout (P : List Entry → RunRecord → Prop) (log : List Entry) (db : RunRecord) : Prop :=
  P log db ∧ ∀ later e earlier, log = later ++ e :: earlier → P earlier e.before

theorem throughout_cons {P : List Entry → RunRecord → Prop} :
    Throughout P (⟨op, returned, db, db'⟩ :: log) db' ↔
      P (⟨op, returned, db, db'⟩ :: log) db' ∧ Throughout P log db := by
  apply and_congr_right
  intro _
  constructor
  · intro hall
    refine ⟨hall [] _ log rfl, ?_⟩
    rintro later e earlier rfl
    exact hall (⟨op, returned, db, db'⟩ :: later) e earlier rfl
  · rintro ⟨hlast, hall⟩ later e earlier heq
    cases later with
    | nil =>
        cases heq
        exact hlast
    | cons e' later =>
        cases heq
        exact hall later e earlier rfl

/-- What holds at creation and is kept by exactly the steps that are `ok` holds
throughout a history if and only if all its steps are. -/
theorem History.throughout_iff {P : List Entry → RunRecord → Prop} {ok : Entry → Prop}
    (hcreated : ∀ {now id graph executionSnapshot input db},
      createRun env now id graph executionSnapshot input = .ok db → P [] db)
    (hstep : ∀ {log db db' op returned}, P log db → History env log db →
      RunOp.exec env op db = .ok (returned, db') →
      (P (⟨op, returned, db, db'⟩ :: log) db' ↔ ok ⟨op, returned, db, db'⟩))
    (h : History env log db) : Throughout P log db ↔ ∀ e ∈ log, ok e := by
  induction h with
  | created h => simpa [Throughout] using hcreated h
  | @step log db db' op returned hlog h ih =>
      rw [throughout_cons, ih, List.forall_mem_cons]
      constructor
      · rintro ⟨hlast, hall⟩
        exact ⟨(hstep (ih.mpr hall).1 hlog h).mp hlast, hall⟩
      · rintro ⟨hok, hall⟩
        exact ⟨(hstep (ih.mpr hall).1 hlog h).mpr hok, hall⟩

/-! ## Runs -/

/-- The bookkeeping of the run in the state `db` that the steps of `log` lead to. -/
def Bookkept (log : List Entry) (db : RunRecord) : Prop :=
  RunBookkeeping (EverRunning log db) db.startedEvents db.run

theorem createRun_bookkept {now : Time} {id : String} {graph : ParsedGraph}
    {executionSnapshot input : Dict}
    (h : createRun env now id graph executionSnapshot input = .ok db) : Bookkept [] db := by
  obtain ⟨_, -, h⟩ := Outcome.bind_eq_ok_iff.mp h
  cases h
  constructor <;> simp [EverRunning, RunRecord.startedEvents, WorkflowRunStatus.isTerminal]

theorem RunOp.startedEvents_added (h : op.exec env db = .ok (returned, db'))
    (hop : ∃ now, op = .startRun now) : db'.startedEvents = db.startedEvents + 1 := by
  obtain ⟨now, rfl⟩ := hop
  exact RunOp.startedEvents_startRun h

/-- A step from a run in order leaves it in order exactly when it is regular. -/
theorem Bookkept.step_iff (hb : Bookkept log db) (hlog : History env log db)
    (h : op.exec env db = .ok (returned, db')) :
    Bookkept (⟨op, returned, db, db'⟩ :: log) db' ↔ op.Regular db.run := by
  have hchange := RunOp.exec_runChange hlog.coupled h
  have ho := hlog.origin
  have hever : EverRunning (⟨op, returned, db, db'⟩ :: log) db' =
      (db'.run.status = .running ∨ EverRunning log db) := propext (everRunning_cons rfl)
  rw [Bookkept, hever]
  constructor
  · intro hb'
    exact hb.regular hb' hchange (fun hs ↦ (ho.created hs).1) ho.started
      (RunOp.startedEvents_added h)
  · intro hregular
    exact hb.step hchange ho.created ho.started (RunOp.startedEvents_eq h)
      (RunOp.startedEvents_added h) hregular

/-- The bookkeeping of a run follows its status in every state that it reaches, if and
only if all its steps are regular. -/
theorem run_bookkeeping_iff (h : History env log db) :
    (Bookkept log db ∧ ∀ later e earlier, log = later ++ e :: earlier →
      Bookkept earlier e.before) ↔ ∀ e ∈ log, e.op.Regular e.before.run :=
  History.throughout_iff createRun_bookkept Bookkept.step_iff h

/-- The run is started, paused, resumed and cancelled. -/
theorem run_bookkeeping_iff_serviceRun : ∃ log db, History plainEnv log db ∧
    db.run.status = .cancelled ∧ Bookkept log db := by
  obtain ⟨db₁, h₁, db₂, h₂, db₃, h₃, db₄, h₄, hstatus, hregular⟩ :
      ∃ db₁, RunOp.exec plainEnv (.startRun 1) serviceRun = .ok (true, db₁) ∧
        ∃ db₂, RunOp.exec plainEnv (.pauseRun 2) db₁ = .ok (true, db₂) ∧
          ∃ db₃, RunOp.exec plainEnv .resumeRun db₂ = .ok (true, db₃) ∧
            ∃ db₄, RunOp.exec plainEnv (.cancelRun 4) db₃ = .ok (true, db₄) ∧
              db₄.run.status = .cancelled ∧ serviceRun.run.status = .created ∧
                db₁.run.status = .running ∧ db₂.run.status = .paused ∧
                  db₃.run.status = .running :=
    ⟨_, rfl, _, rfl, _, rfl, _, rfl, by decide⟩
  obtain ⟨hcreated, hrunning, hpaused, hresumed⟩ := hregular
  have hhistory := ((((History.created createRun_serviceRun).step h₁).step h₂).step h₃).step h₄
  refine ⟨_, db₄, hhistory, hstatus, ((run_bookkeeping_iff hhistory).mpr ?_).1⟩
  simp [RunOp.Regular, hcreated, hrunning, hpaused, hresumed]

/-- A second start of the paused run leaves it RUNNING with the time of its pause and
with two WORKFLOW_STARTED events. -/
theorem not_run_bookkeeping : ∃ log db, History plainEnv log db ∧ db.run.status = .running ∧
    db.run.pausedAt = some 2 ∧ db.startedEvents = 2 ∧ ¬Bookkept log db := by
  obtain ⟨db₁, h₁, db₂, h₂, db₃, h₃, hstatus, hpaused, hstarted⟩ :
      ∃ db₁, RunOp.exec plainEnv (.startRun 1) serviceRun = .ok (true, db₁) ∧
        ∃ db₂, RunOp.exec plainEnv (.pauseRun 2) db₁ = .ok (true, db₂) ∧
          ∃ db₃, RunOp.exec plainEnv (.startRun 3) db₂ = .ok (true, db₃) ∧
            db₃.run.status = .running ∧ db₃.run.pausedAt = some 2 ∧ db₃.startedEvents = 2 :=
    ⟨_, rfl, _, rfl, _, rfl, rfl, rfl, by decide⟩
  refine ⟨_, db₃, ((History.created createRun_serviceRun).step h₁).step h₂ |>.step h₃, hstatus,
    hpaused, hstarted, fun h ↦ ?_⟩
  have hatMostOne := h.atMostOne
  omega

end Relayvia
