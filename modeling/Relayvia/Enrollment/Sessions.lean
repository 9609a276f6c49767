import Relayvia.Coupling
import Relayvia.Enrollment.Service
import Relayvia.Library.Outcome
import Relayvia.Library.Schedule

/-!
# Interleaved requests on one Runner

Registrations and heartbeats load the row without a lock, the administration with
`SELECT ... FOR UPDATE`; each request commits the columns that it has changed.
-/

namespace Relayvia

inductive EnrollmentCall where
  | register (now : Time) (name : String) (report : RunnerReport) (runnerToken : Option String)
  | heartbeat (now : Time) (report : RunnerReport) (runnerToken : Option String)
  | setEnabled (now : Time) (enabled : Bool)
  | rotateToken (now : Time) (token : String)
  | revoke (now : Time) (token : String)

namespace EnrollmentCall

/-- The request locks the row when it loads it. -/
def locks : EnrollmentCall → Bool
  | .register .. | .heartbeat .. => false
  | .setEnabled .. | .rotateToken .. | .revoke .. => true

def apply (env : RunnerEnv) : EnrollmentCall → RunnerRow → Except RelayviaError RunnerRow
  | .register now name report runnerToken => registerRunner env now name report runnerToken
  | .heartbeat now report runnerToken => heartbeatRunner env now report runnerToken
  | .setEnabled now enabled => fun runner ↦ .ok (setRunnerEnabled env now enabled runner)
  | .rotateToken now token => fun runner ↦ .ok (rotateRunnerToken env now token runner)
  | .revoke now token => fun runner ↦ .ok (revokeRunner env now token runner)

/-- What the machine reports. -/
def report? : EnrollmentCall → Option RunnerReport
  | .register _ _ report _ | .heartbeat _ report _ => some report
  | _ => none

/-- The entry that the administration records in the metadata. -/
def auditEntry (env : RunnerEnv) : EnrollmentCall → Option (String × Json)
  | .setEnabled now _ => some ("enabled_changed_at", .str (env.isoformat now))
  | .rotateToken now _ => some ("token_rotated_at", .str (env.isoformat now))
  | .revoke now _ => some ("revoked_at", .str (env.isoformat now))
  | _ => none

end EnrollmentCall

/-- A request that has loaded the row as `base` and made `new` of it. -/
structure EnrollmentSitting where
  call : EnrollmentCall
  base : RunnerRow
  new : RunnerRow

structure EnrollmentWorld where
  row : RunnerRow
  sittings : ℕ → Option EnrollmentSitting := fun _ ↦ none
  next : ℕ := 0
  /-- the request that has locked the row -/
  holder : Option ℕ := none
  /-- the committed requests, the last one first -/
  committed : List EnrollmentCall := []

def EnrollmentWorld.close (sid : ℕ) (w : EnrollmentWorld) : EnrollmentWorld :=
  { w with
    sittings := Function.update w.sittings sid none
    holder := w.holder.filter (· ≠ sid) }

inductive EnrollmentStep where
  /-- the request loads the row -/
  | begin (call : EnrollmentCall)
  | commit (sid : ℕ)
  | abort (sid : ℕ)

/-- One step; a step that waits for the lock changes nothing. -/
def EnrollmentStep.exec (env : RunnerEnv) : EnrollmentStep → EnrollmentWorld → EnrollmentWorld
  | .begin call, w =>
      if call.locks ∧ w.holder.isSome then w
      else
        match call.apply env w.row with
        | .ok new =>
            { w with
              sittings := Function.update w.sittings w.next (some ⟨call, w.row, new⟩)
              next := w.next + 1
              holder := if call.locks then some w.next else w.holder }
        | .error _ => w
  | .commit sid, w =>
      match w.sittings sid with
      | some p =>
          if w.holder.all (· = sid) then
            { w.close sid with
              row := p.base.merge env p.new w.row
              committed := p.call :: w.committed }
          else w
      | none => w
  | .abort sid, w => w.close sid

/-! ## What the administration has decided -/

/-- The last of the committed requests that enables or disables the Runner disables it. -/
def isDisabled : List EnrollmentCall → Bool
  | [] => false
  | .setEnabled _ enabled :: _ => !enabled
  | .revoke .. :: _ => true
  | _ :: committed => isDisabled committed

/-- The entries that the committed requests have recorded. -/
def recorded (env : RunnerEnv) : List EnrollmentCall → Dict
  | [] => []
  | call :: committed =>
      match call.auditEntry env with
      | some entry => Dict.merge (recorded env committed) [entry]
      | none => recorded env committed

/-- The metadata has the entries. -/
def Carries (entries metadata : Dict) : Prop :=
  ∀ key value, Dict.get? entries key = some value → Dict.get? metadata key = some value

/-- The row respects what the administration has decided. -/
structure Sticks (env : RunnerEnv) (w : EnrollmentWorld) : Prop where
  disabled : isDisabled w.committed = true → w.row.status = .disabled
  audit : Carries (recorded env w.committed) w.row.metadata

/-- A commit after which the decisions still stick: a request that reports for the machine
has loaded the status ONLINE or finds the Runner enabled, and its metadata are those that
it has loaded or have the entries. -/
def Respects (env : RunnerEnv) (w : EnrollmentWorld) (p : EnrollmentSitting) : Prop :=
  ∀ report, p.call.report? = some report →
    (isDisabled w.committed = true → p.base.status = .online) ∧
      (Python.equal env.floatEqual (.obj report.metadata) (.obj p.base.metadata) = true ∨
        Carries (recorded env w.committed) report.metadata)

def EnrollmentStep.Respects (env : RunnerEnv) (step : EnrollmentStep) (w : EnrollmentWorld) : Prop :=
  ∀ sid p, step = .commit sid → w.sittings sid = some p → w.holder.all (· = sid) = true →
    Relayvia.Respects env w p

variable {env : RunnerEnv} {w w' : EnrollmentWorld} {sid : ℕ} {p : EnrollmentSitting}
  {call : EnrollmentCall}

/-! ## Equal dicts -/

namespace Python

variable {floatEqual : Json → Json → Bool}

theorem equal_str {s : String} {value : Json} (h : equal floatEqual (.str s) value = true) :
    value = .str s := by
  rw [equal] at h
  exact of_decide_eq_true h

theorem equalFields_lookup {fields fields' : List (String × Json)} {key s : String}
    (h : equalFields floatEqual fields fields' = true) (hkey : fields.lookup key = some (.str s)) :
    fields'.lookup key = some (.str s) := by
  induction fields with
  | nil => cases hkey
  | cons entry fields ih =>
      obtain ⟨k, a⟩ := entry
      simp only [equalFields, Bool.and_eq_true] at h
      rw [List.lookup_cons] at hkey
      split at hkey
      · next heq =>
        cases hkey
        rw [beq_iff_eq.mp heq]
        obtain ⟨b, hb, hequal⟩ := (Option.any_eq_true _ _).mp h.1
        rw [hb, equal_str hequal]
      · exact ih h.2 hkey

/-- Equal dicts have the same texts. -/
theorem get?_of_equal {a b : Dict} {key s : String}
    (h : equal floatEqual (.obj a) (.obj b) = true) (hkey : Dict.get? a key = some (.str s)) :
    Dict.get? b key = some (.str s) := by
  rw [equal] at h
  exact equalFields_lookup (of_decide_eq_true h).2 hkey

end Python

/-! ## Steps -/

/-- What one step does. -/
inductive EnrollmentStep.Effect (env : RunnerEnv) (w : EnrollmentWorld) :
    EnrollmentStep → EnrollmentWorld → Prop
  | idle {step : EnrollmentStep}
      (hidle : ∀ sid p, step = .commit sid → w.sittings sid = some p →
        w.holder.all (· = sid) = false) :
      Effect env w step w
  | begin {call : EnrollmentCall} {new : RunnerRow} (happly : call.apply env w.row = .ok new)
      (hfree : call.locks = true → w.holder = none) :
      Effect env w (.begin call)
        { w with
          sittings := Function.update w.sittings w.next (some ⟨call, w.row, new⟩)
          next := w.next + 1
          holder := if call.locks then some w.next else w.holder }
  | commit {sid : ℕ} {p : EnrollmentSitting} (hp : w.sittings sid = some p)
      (hfree : w.holder.all (· = sid) = true) :
      Effect env w (.commit sid)
        { w.close sid with
          row := p.base.merge env p.new w.row
          committed := p.call :: w.committed }
  | abort {sid : ℕ} : Effect env w (.abort sid) (w.close sid)

theorem EnrollmentStep.exec_effect (env : RunnerEnv) (step : EnrollmentStep)
    (w : EnrollmentWorld) : step.Effect env w (step.exec env w) := by
  cases step with
  | begin call =>
      rw [exec]
      split
      · exact .idle fun _ _ h ↦ by cases h
      · next hlock =>
        split
        · next new hnew =>
          refine .begin hnew fun h ↦ ?_
          by_contra hheld
          exact hlock ⟨h, Option.isSome_iff_ne_none.mpr hheld⟩
        · exact .idle fun _ _ h ↦ by cases h
  | commit sid =>
      rw [exec]
      split
      · next p hp =>
        split
        · next hfree => exact .commit hp hfree
        · next hheld =>
          refine .idle fun sid' p' hstep hp' ↦ ?_
          cases hstep
          simpa using hheld
      · next hp =>
        refine .idle fun sid' p' hstep hp' ↦ ?_
        cases hstep
        rw [hp] at hp'
        cases hp'
  | abort sid => exact .abort

/-- The requests under way. -/
structure EnrollmentWorld.Consistent (env : RunnerEnv) (w : EnrollmentWorld) : Prop where
  fresh : ∀ sid, w.next ≤ sid → w.sittings sid = none
  applied : ∀ sid p, w.sittings sid = some p → p.call.apply env p.base = .ok p.new
  holds : ∀ sid p, w.sittings sid = some p → p.call.locks = true → w.holder = some sid
  current : ∀ sid p, w.sittings sid = some p → p.call.locks = true → p.base = w.row

theorem close_sittings {sid' : ℕ} (h : (w.close sid).sittings sid' = some p) :
    sid' ≠ sid ∧ w.sittings sid' = some p := by
  simp only [EnrollmentWorld.close, Function.update_apply] at h
  split at h
  · cases h
  · next hne => exact ⟨hne, h⟩

theorem EnrollmentWorld.Consistent.close (hc : w.Consistent env) (sid : ℕ) :
    (w.close sid).Consistent env := by
  constructor
  · intro sid' hnext
    simp only [EnrollmentWorld.close, Function.update_apply]
    split
    · rfl
    · exact hc.fresh sid' hnext
  · intro sid' p hp
    exact hc.applied sid' p (close_sittings hp).2
  · intro sid' p hp hlocks
    obtain ⟨hne, hp⟩ := close_sittings hp
    simp [EnrollmentWorld.close, hc.holds sid' p hp hlocks, hne]
  · intro sid' p hp hlocks
    exact hc.current sid' p (close_sittings hp).2 hlocks

/-- After a commit nobody holds the lock. -/
theorem EnrollmentWorld.Consistent.commit (hc : w.Consistent env)
    (hfree : w.holder.all (· = sid) = true) (row : RunnerRow)
    (committed : List EnrollmentCall) :
    ({ w.close sid with row := row, committed := committed } : EnrollmentWorld).Consistent env := by
  have hclose := hc.close sid
  constructor
  · exact hclose.fresh
  · exact hclose.applied
  · exact hclose.holds
  · intro sid' p hp hlocks
    obtain ⟨hne, hp⟩ := close_sittings hp
    rw [hc.holds sid' p hp hlocks] at hfree
    exact absurd (by simpa using hfree) hne

theorem EnrollmentStep.Effect.consistent {step : EnrollmentStep} (h : step.Effect env w w')
    (hc : w.Consistent env) : w'.Consistent env := by
  cases h with
  | idle => exact hc
  | @begin call new happly hfree =>
      have hsitting (sid' : ℕ) (p : EnrollmentSitting)
          (hp : Function.update w.sittings w.next (some ⟨call, w.row, new⟩) sid' = some p) :
          (sid' = w.next ∧ p = ⟨call, w.row, new⟩) ∨ (sid' ≠ w.next ∧ w.sittings sid' = some p) := by
        rw [Function.update_apply] at hp
        split at hp
        · next heq =>
          cases hp
          exact .inl ⟨heq, rfl⟩
        · next hne => exact .inr ⟨hne, hp⟩
      constructor
      · intro sid' hnext
        have hnext : w.next + 1 ≤ sid' := hnext
        simp only [Function.update_apply]
        rw [if_neg (by omega)]
        exact hc.fresh sid' (by omega)
      · intro sid' p hp
        rcases hsitting sid' p hp with ⟨-, rfl⟩ | ⟨-, hp⟩
        · exact happly
        · exact hc.applied sid' p hp
      · intro sid' p hp hlocks
        rcases hsitting sid' p hp with ⟨rfl, rfl⟩ | ⟨-, hp⟩
        · exact if_pos hlocks
        · have hheld := hc.holds sid' p hp hlocks
          dsimp only
          split
          · next hlock =>
            rw [hfree hlock] at hheld
            cases hheld
          · exact hheld
      · intro sid' p hp hlocks
        rcases hsitting sid' p hp with ⟨-, rfl⟩ | ⟨-, hp⟩
        · rfl
        · exact hc.current sid' p hp hlocks
  | commit hp hfree => exact hc.commit hfree _ _
  | abort => exact hc.close _

/-! ## Commits -/

/-- A registration or heartbeat overwrites the metadata and the status. -/
theorem apply_report {base new : RunnerRow} {report : RunnerReport}
    (hreport : call.report? = some report) (h : call.apply env base = .ok new) :
    new.status = .online ∧ new.metadata = report.metadata := by
  cases call with
  | register now name report' runnerToken =>
      cases hreport
      obtain ⟨_, -, h⟩ := Outcome.bind_eq_ok_iff.mp h
      split at h
      · cases h
      · cases h
        exact ⟨rfl, rfl⟩
  | heartbeat now report' runnerToken =>
      cases hreport
      obtain ⟨_, -, h⟩ := Outcome.bind_eq_ok_iff.mp h
      split at h
      · cases h
      · cases h
        exact ⟨rfl, rfl⟩
  | _ => cases hreport

theorem isDisabled_report {report : RunnerReport} (hreport : call.report? = some report)
    (committed : List EnrollmentCall) : isDisabled (call :: committed) = isDisabled committed := by
  cases call with
  | register | heartbeat => rfl
  | _ => cases hreport

theorem recorded_report {report : RunnerReport} (hreport : call.report? = some report)
    (committed : List EnrollmentCall) :
    recorded env (call :: committed) = recorded env committed := by
  cases call with
  | register | heartbeat => rfl
  | _ => cases hreport

/-- A report keeps the decisions exactly when it respects them. -/
theorem sticks_report_iff {report : RunnerReport} (hreport : p.call.report? = some report)
    (happly : p.call.apply env p.base = .ok p.new) (hsticks : Sticks env w) (sid : ℕ) :
    Sticks env
      { w.close sid with
        row := p.base.merge env p.new w.row
        committed := p.call :: w.committed } ↔ Respects env w p := by
  obtain ⟨hstatus, hmetadata⟩ := apply_report hreport happly
  constructor
  · rintro ⟨hdisabled, haudit⟩ report' hreport'
    obtain rfl := Option.some.inj (hreport.symm.trans hreport')
    rw [isDisabled_report hreport] at hdisabled
    rw [recorded_report hreport] at haudit
    constructor
    · intro hlast
      have hkept := hdisabled hlast
      simp only [RunnerRow.merge, Merge.column, hstatus] at hkept
      split at hkept
      · next heq => exact heq.symm
      · cases hkept
    · simp only [RunnerRow.merge, hmetadata] at haudit
      split at haudit
      · next hequal => exact .inl hequal
      · exact .inr haudit
  · intro hrespects
    obtain ⟨honline, hcarries⟩ := hrespects report hreport
    constructor
    · rw [isDisabled_report hreport]
      intro hlast
      simp only [RunnerRow.merge, hstatus, honline hlast, Merge.column_same]
      exact hsticks.disabled hlast
    · rw [recorded_report hreport]
      simp only [RunnerRow.merge, hmetadata]
      split
      · exact hsticks.audit
      · next hdifferent =>
        rcases hcarries with hequal | hcarries
        · exact absurd hequal hdifferent
        · exact hcarries

/-- What the administration makes of the row. -/
theorem apply_admin {base new : RunnerRow} (hlocks : call.locks = true)
    (h : call.apply env base = .ok new) :
    ∃ key text, call.auditEntry env = some (key, .str text) ∧
      new.metadata = Dict.merge base.metadata [(key, .str text)] ∧
      ∀ committed, (isDisabled committed = true → base.status = .disabled) →
        isDisabled (call :: committed) = true → new.status = .disabled := by
  cases call with
  | register | heartbeat => cases hlocks
  | setEnabled now enabled =>
      cases h
      refine ⟨_, _, rfl, rfl, fun committed _ hlast ↦ ?_⟩
      cases enabled with
      | false => rfl
      | true => cases hlast
  | rotateToken now token =>
      cases h
      exact ⟨_, _, rfl, rfl, fun committed hbase hlast ↦ hbase hlast⟩
  | revoke now token =>
      cases h
      exact ⟨_, _, rfl, rfl, fun _ _ _ ↦ rfl⟩

/-- The administration keeps its decisions. -/
theorem sticks_admin (hlocks : p.call.locks = true)
    (happly : p.call.apply env p.base = .ok p.new) (hbase : p.base = w.row)
    (hsticks : Sticks env w) (sid : ℕ) :
    Sticks env
      { w.close sid with
        row := p.base.merge env p.new w.row
        committed := p.call :: w.committed } := by
  obtain ⟨key, text, hentry, hmetadata, hstatus⟩ := apply_admin hlocks happly
  rw [hbase] at hmetadata hstatus ⊢
  constructor
  · intro hlast
    simp only [RunnerRow.merge, Merge.column_fresh]
    exact hstatus w.committed hsticks.disabled hlast
  · have hnew : Carries (recorded env (p.call :: w.committed)) p.new.metadata := by
      intro k value hk
      rw [recorded, hentry, Dict.get?_merge_singleton] at hk
      rw [hmetadata, Dict.get?_merge_singleton]
      split at hk
      · next heq => rwa [if_pos heq]
      · next hne =>
        rw [if_neg hne]
        exact hsticks.audit k value hk
    simp only [RunnerRow.merge]
    split
    · next hequal =>
      intro k value hk
      rw [recorded, hentry, Dict.get?_merge_singleton] at hk
      split at hk
      · next heq =>
        cases hk
        apply Python.get?_of_equal hequal
        rw [hmetadata, Dict.get?_merge_singleton, if_pos heq]
      · exact hsticks.audit k value hk
    · exact hnew

theorem report_or_locks (call : EnrollmentCall) :
    (∃ report, call.report? = some report ∧ call.locks = false) ∨
      (call.report? = none ∧ call.locks = true) := by
  cases call with
  | register | heartbeat => exact .inl ⟨_, rfl, rfl⟩
  | _ => exact .inr ⟨rfl, rfl⟩

/-- A step keeps the decisions exactly when it respects them. -/
theorem EnrollmentStep.sticks_iff {step : EnrollmentStep} (h : step.Effect env w w')
    (hc : w.Consistent env) (hsticks : Sticks env w) :
    Sticks env w' ↔ step.Respects env w := by
  cases h with
  | idle hidle =>
      refine ⟨fun _ sid p hstep hp hfree ↦ ?_, fun _ ↦ hsticks⟩
      rw [hidle sid p hstep hp] at hfree
      cases hfree
  | begin happly hfree =>
      constructor
      · intro _ _ _ hstep
        cases hstep
      · exact fun _ ↦ ⟨hsticks.disabled, hsticks.audit⟩
  | abort =>
      constructor
      · intro _ _ _ hstep
        cases hstep
      · exact fun _ ↦ ⟨hsticks.disabled, hsticks.audit⟩
  | @commit sid p hp hfree =>
      have happly := hc.applied sid p hp
      have hstep : EnrollmentStep.Respects env (.commit sid) w ↔ Relayvia.Respects env w p := by
        constructor
        · intro hall
          exact hall sid p rfl hp hfree
        · intro hrespects sid' p' hstep hp' _
          cases hstep
          obtain rfl := Option.some.inj (hp.symm.trans hp')
          exact hrespects
      rw [hstep]
      rcases report_or_locks p.call with ⟨report, hreport, -⟩ | ⟨hnone, hlocks⟩
      · exact sticks_report_iff hreport happly hsticks sid
      · constructor
        · intro _ report hreport
          rw [hnone] at hreport
          cases hreport
        · intro _
          exact sticks_admin hlocks happly (hc.current sid p hp hlocks) hsticks sid

/-! ## Runs -/

/-- Nothing is under way, nothing was decided. -/
def EnrollmentWorld.start (row : RunnerRow) : EnrollmentWorld where
  row := row

/-- In every interleaving the decisions stick in every state exactly when every commit
respects them. -/
theorem decisions_stick_iff (env : RunnerEnv) (row : RunnerRow) (steps : List EnrollmentStep) :
    Schedule.Throughout (EnrollmentStep.exec env) (Sticks env) steps (.start row) ↔
      Schedule.Each (EnrollmentStep.exec env) (EnrollmentStep.Respects env) steps (.start row) := by
  apply Schedule.throughout_iff_each (I := EnrollmentWorld.Consistent env)
  · constructor
    · intro _ _
      rfl
    all_goals
      intro sid p hp
      cases hp
  · constructor
    · intro h
      cases h
    · intro _ _ h
      cases h
  · intro step w hc
    exact (step.exec_effect env w).consistent hc
  · intro step w hc hsticks
    exact EnrollmentStep.sticks_iff (step.exec_effect env w) hc hsticks

/-! ## A stale heartbeat -/

def plainRunnerEnv : RunnerEnv where
  toEnv := plainEnv
  tokenHash token := token
  floatEqual a b := a = b

def laptopReport : RunnerReport where
  hostname := "laptop"

def laptopRow : RunnerRow :=
  enrollRunner plainRunnerEnv 0 "r" "Laptop" "secret" laptopReport

/-- The Runner is disabled and enabled again, a heartbeat loads the row, the Runner is
disabled once more, and then the heartbeat commits. -/
def staleHeartbeat : List EnrollmentStep :=
  [.begin (.setEnabled 1 false), .commit 0, .begin (.setEnabled 2 true), .commit 1,
    .begin (.heartbeat 3 laptopReport (some "secret")), .begin (.setEnabled 4 false), .commit 3,
    .commit 2]

/-- The disabled Runner is ONLINE, and the entry of its administration is gone. -/
theorem not_decisions_stick :
    let w := Schedule.run (EnrollmentStep.exec plainRunnerEnv) staleHeartbeat (.start laptopRow)
    isDisabled w.committed = true ∧ w.row.status = .online ∧
      (Dict.get? (recorded plainRunnerEnv w.committed) "enabled_changed_at").isSome = true ∧
      Dict.get? w.row.metadata "enabled_changed_at" = none ∧
      ¬Schedule.Throughout (EnrollmentStep.exec plainRunnerEnv) (Sticks plainRunnerEnv)
        staleHeartbeat (.start laptopRow) := by
  intro w
  have hdisabled : isDisabled w.committed = true := by decide
  have honline : w.row.status = .online := by decide
  refine ⟨hdisabled, honline, by decide, by decide, fun hall ↦ ?_⟩
  have hsticks := hall.last.disabled hdisabled
  have honline' := honline.symm.trans hsticks
  cases honline'

end Relayvia
