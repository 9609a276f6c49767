import Relayvia.Concurrency.RunLock
import Relayvia.Concurrency.Requests

/-!
# Deadlocks of the transactions on one run

Any number of transactions request their rows one after the other, in any interleaving.
-/

namespace Relayvia

open WaitFor (Request State)

inductive LockAction where
  /-- a transaction begins that finds the rows `rows n` at its statement `n` -/
  | begin (tx : Transaction) (rows : ℕ → RunRecord) (hcompetes : tx.competes = true)
  /-- the next request of a transaction, which may have to wait -/
  | acquire (i : ℕ)
  | close (i : ℕ)

namespace LockAction

def step (env : Env) : LockAction → WaitFor.Step RowLock
  | begin tx rows _ => .begin (tx.acquisitions env rows)
  | acquire i => .acquire i
  | close i => .close i

def exec (env : Env) (action : LockAction) (s : State RowLock) : State RowLock :=
  (action.step env).exec s

/-- The transaction that begins reports no result, and locks no task after a flush. -/
def KeepsOrder (env : Env) : LockAction → Prop
  | begin tx rows _ => ¬tx.Reports rows ∧ ¬tx.LocksTasksLate env rows
  | _ => True

end LockAction

/-- Every transaction requests the rows in their order, and none waits in a cycle. -/
structure Canonical (s : State RowLock) : Prop where
  ordered : ∀ i h, s.holders i = some h → LockOrdered (h.requests.map Request.row)
  acyclic : ¬WaitFor.Deadlock s

/-! ## One step -/

variable {env : Env} {s : State RowLock}

/-- The transactions under way compete, and request what they do. -/
structure Contention (env : Env) (s : State RowLock) : Prop where
  wellFormed : WaitFor.WellFormed s
  requests : ∀ i h, s.holders i = some h → ∃ (tx : Transaction) (rows : ℕ → RunRecord),
    tx.competes = true ∧ h.requests = tx.acquisitions env rows

theorem contention_start : Contention env {} := by
  constructor
  · exact WaitFor.wellFormed_start
  · intro i h hi
    cases hi

theorem Contention.exec (hs : Contention env s) (action : LockAction) :
    Contention env (action.exec env s) := by
  constructor
  · exact hs.wellFormed.exec _
  · intro i h hi
    rcases WaitFor.requests_exec hi with ⟨h₀, hi₀, hrequests⟩ | ⟨requests, hbegin, hrequests⟩
    · rw [hrequests]
      exact hs.requests i h₀ hi₀
    · cases action with
      | begin tx rows hcompetes =>
          cases hbegin
          exact ⟨tx, rows, hcompetes, hrequests⟩
      | acquire j => cases hbegin
      | close j => cases hbegin

/-- The order excludes deadlocks. -/
theorem Contention.canonical (hs : Contention env s)
    (hordered : ∀ i h, s.holders i = some h → LockOrdered (h.requests.map Request.row)) :
    Canonical s := by
  have hgated : ∀ i h, s.holders i = some h → WaitFor.Gated .run h.requests := by
    intro i h hi
    obtain ⟨tx, rows, hcompetes, hrequests⟩ := hs.requests i h hi
    have horder := hordered i h hi
    rw [hrequests] at horder ⊢
    exact Transaction.gated hcompetes ((Transaction.ordered_iff hcompetes rows).mp horder).1
  constructor
  · exact hordered
  · exact WaitFor.not_deadlock hs.wellFormed hgated

theorem canonical_exec_iff (hs : Contention env s) (hcanonical : Canonical s)
    (action : LockAction) : Canonical (action.exec env s) ↔ action.KeepsOrder env := by
  constructor
  · intro hnext
    cases action with
    | begin tx rows hcompetes =>
        apply (Transaction.ordered_iff hcompetes rows).mp
        apply hnext.ordered s.next { pending := tx.acquisitions env rows }
        exact Function.update_self _ _ _
    | acquire i => trivial
    | close i => trivial
  · intro hkeeps
    apply (hs.exec action).canonical
    intro i h hi
    rcases WaitFor.requests_exec hi with ⟨h₀, hi₀, hrequests⟩ | ⟨requests, hbegin, hrequests⟩
    · rw [hrequests]
      exact hcanonical.ordered i h₀ hi₀
    · cases action with
      | begin tx rows hcompetes =>
          cases hbegin
          rw [hrequests]
          exact (Transaction.ordered_iff hcompetes rows).mpr hkeeps
      | acquire j => cases hbegin
      | close j => cases hbegin

/-! ## Runs -/

/-- In a run the rows are always requested in their order and no transactions deadlock
exactly when no transaction reports a result and no reconciliation locks the tasks after a
flush. -/
theorem canonical_run_iff (env : Env) (actions : List LockAction) :
    Schedule.Throughout (LockAction.exec env) Canonical actions {} ↔
      ∀ action ∈ actions, action.KeepsOrder env := by
  have hstart : Canonical ({} : State RowLock) := by
    apply (@contention_start env).canonical
    intro i h hi
    cases hi
  have hruns : Schedule.Throughout (LockAction.exec env) Canonical actions {} ↔
      Schedule.Each (LockAction.exec env) (fun action _ ↦ action.KeepsOrder env) actions {} := by
    apply Schedule.throughout_iff_each (I := Contention env) contention_start hstart
    · intro action s hs
      exact hs.exec action
    · intro action s hs hcanonical
      exact canonical_exec_iff hs hcanonical action
  rw [hruns, Schedule.each_const_iff]

/-- A Worker completes its task while a client cancels the run. -/
def completeAndCancel (db : RunRecord) : List LockAction :=
  [.begin (.complete 0 0 "w" "t" [] [] []) (fun _ ↦ db) rfl, .acquire 0, .acquire 0,
    .begin (.cancelRun 0) (fun _ ↦ db) rfl, .acquire 1]

theorem not_canonical_run : ∃ db s, Reachable plainEnv db ∧
    s = Schedule.run (LockAction.exec plainEnv) (completeAndCancel db) {} ∧
      WaitFor.Deadlock s ∧
        ∃ h, s.holders 0 = some h ∧ ¬LockOrdered (h.requests.map Request.row) := by
  obtain ⟨db, h, k, rest, rest', hdb, hh, hk, hheld, hpending, hheld', hpending'⟩ :
      ∃ db h k rest rest', execAll plainEnv
          [.startRun 0, .schedule 0, .claim 0 "w" "t" 60 none false 0, .start 0 0 "w" "t"]
          approvalRun = .ok db ∧
        (Schedule.run (LockAction.exec plainEnv) (completeAndCancel db) {}).holders 0 = some h ∧
        (Schedule.run (LockAction.exec plainEnv) (completeAndCancel db) {}).holders 1 = some k ∧
        h.held = [exclusive (.task 0), exclusive (.task 0)] ∧
        h.pending = { row := .run, mode := .shared } :: rest ∧
        k.held = [exclusive .run] ∧ k.pending = exclusive (.task 0) :: rest' :=
    ⟨_, _, _, _, _, rfl, rfl, rfl, rfl, rfl, rfl, rfl⟩
  have hreachable : Reachable plainEnv db :=
    .execAll (fun _ _ _ ↦ trivial) (.created createRun_approvalRun) hdb
  have hcomplete : WaitFor.Waits (Schedule.run (LockAction.exec plainEnv) (completeAndCancel db) {})
      0 1 := by
    refine ⟨Nat.zero_ne_one, h, _, rest, k, exclusive .run, hh, hpending, rfl, hk, ?_, rfl⟩
    rw [hheld']
    exact List.mem_cons_self
  have hcancel : WaitFor.Waits (Schedule.run (LockAction.exec plainEnv) (completeAndCancel db) {})
      1 0 := by
    refine ⟨Nat.one_ne_zero, k, _, rest', h, exclusive (.task 0), hk, hpending', rfl, hh, ?_, rfl⟩
    rw [hheld]
    exact List.mem_cons_self
  have hdeadlock : WaitFor.Deadlock
      (Schedule.run (LockAction.exec plainEnv) (completeAndCancel db) {}) :=
    ⟨0, .tail (.single hcomplete) hcancel⟩
  refine ⟨db, _, hreachable, rfl, hdeadlock, h, hh, ?_⟩
  apply @LockOrdered.not_of_late _ [.task 0, .task 0] (rest.map Request.row) .run (.task 0)
  · rw [WaitFor.Holder.requests, hheld, hpending]
    rfl
  · simp
  · exact List.mem_cons_self
  · exact Nat.zero_lt_one

end Relayvia
