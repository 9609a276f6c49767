import Relayvia.Concurrency.Transactions

/-!
# Invariants of interleaved transactions

What one step does, the exclusive locks, and the rule by which a property of each session
holds in every state.
-/

namespace Relayvia

variable {env : Env} {s s' : LockWorld} {step : LockStep} {sid : ℕ} {p : Sitting}

/-- What one step does to the world. -/
inductive LockStep.Effect (env : Env) (s : LockWorld) : LockStep → LockWorld → Prop
  | idle {step : LockStep} : Effect env s step s
  | begin (tx : Transaction) :
      Effect env s (.begin tx)
        ({ s with next := s.next + 1 }.set s.next (some { tx := tx, rest := tx.script }))
  | next {sid : ℕ} {p : Sitting} {stmt : Statement} {rest : List Statement}
      (hp : s.sittings sid = some p) (hrest : p.rest = stmt :: rest)
      (hfree : s.free sid (stmt.locks env p.view s.db) = true) :
      Effect env s (.next sid) (s.set sid (some (p.advance env s.db stmt rest)))
  | commit {sid : ℕ} {p : Sitting} {db : RunRecord} (hp : s.sittings sid = some p)
      (hrest : p.rest = []) (hcommit : p.tx.commit env p.view s.db = .ok db) :
      Effect env s (.commit sid) ({ s with db := db }.set sid none)
  | rollback {sid : ℕ} {p : Sitting} {e : Raised} (hp : s.sittings sid = some p)
      (hrest : p.rest = []) (hcommit : p.tx.commit env p.view s.db = .error e) :
      Effect env s (.commit sid) (s.set sid none)
  | abort {sid : ℕ} : Effect env s (.abort sid) (s.set sid none)

theorem LockStep.exec_effect (env : Env) (step : LockStep) (s : LockWorld) :
    step.Effect env s (step.exec env s) := by
  cases step with
  | begin tx => exact .begin tx
  | next sid =>
      unfold LockStep.exec
      dsimp only
      split
      · next p hp =>
        split
        · next stmt rest hrest =>
          split
          · next hfree => exact .next hp hrest hfree
          · exact .idle
        · exact .idle
      · exact .idle
  | commit sid =>
      unfold LockStep.exec
      dsimp only
      split
      · next p hp =>
        split
        · next db hrest hcommit => exact .commit hp hrest hcommit
        · next e hrest hcommit => exact .rollback hp hrest hcommit
        · exact .idle
      · exact .idle
  | abort sid => exact .abort

namespace LockWorld.Steps

variable {allowed : LockWorld → LockStep → Prop} {s₀ : LockWorld}

theorem append (h : Steps env allowed s₀ s) (h' : Steps env allowed s s') :
    Steps env allowed s₀ s' := by
  induction h' with
  | refl => exact h
  | step step _ hstep ih => exact .step step ih hstep

theorem execAll_of_forall (steps : List LockStep) (hallowed : ∀ step ∈ steps, ∀ s, allowed s step)
    (h : Steps env allowed s₀ s) : Steps env allowed s₀ (LockStep.execAll env steps s) := by
  induction steps generalizing s with
  | nil => exact h
  | cons step steps ih =>
      apply ih fun step hstep ↦ hallowed step (List.mem_cons_of_mem _ hstep)
      exact .step step h (hallowed step List.mem_cons_self s)

theorem execAll (steps : List LockStep) (h : Steps env (fun _ _ ↦ True) s₀ s) :
    Steps env (fun _ _ ↦ True) s₀ (LockStep.execAll env steps s) :=
  execAll_of_forall steps (fun _ _ _ ↦ trivial) h

end LockWorld.Steps

/-! ## Locks -/

structure LockWorld.WellLocked (s : LockWorld) : Prop where
  fresh : ∀ sid, s.next ≤ sid → s.sittings sid = none
  exclusive : Locking.Exclusive Sitting.locks s.sittings

namespace LockWorld

theorem wellLocked_start (db : RunRecord) : WellLocked { db := db } :=
  ⟨fun _ _ ↦ rfl, Locking.exclusive_none _⟩

theorem WellLocked.free (hw : s.WellLocked) {ls : List RowLock} (h : s.free sid ls = true) :
    Locking.Free Sitting.locks s.sittings sid ls := by
  intro j q hne hq l hl hlq
  have hj : j < s.next := by
    by_contra hge
    rw [hw.fresh j (by omega)] at hq
    cases hq
  have hall := List.all_eq_true.mp h j (List.mem_range.mpr hj)
  simp only [hne, hq, false_or, Option.all_some, decide_eq_true_eq, List.all_eq_true] at hall
  exact hall l hl hlq

theorem WellLocked.close (hw : s.WellLocked) (db : RunRecord) (sid : ℕ) :
    ({ s with db := db }.set sid none).WellLocked := by
  refine ⟨fun j hj ↦ ?_, hw.exclusive.release sid⟩
  rw [set_sittings]
  split
  · rfl
  · exact hw.fresh j hj

theorem WellLocked.effect (hw : s.WellLocked) (h : step.Effect env s s') : s'.WellLocked := by
  cases h with
  | idle => exact hw
  | begin tx =>
      have hfree : Locking.Free Sitting.locks s.sittings s.next [] := by
        intro _ _ _ _ l hl
        cases hl
      refine ⟨fun j hj ↦ ?_, hw.exclusive.grant hfree ?_⟩
      · have hj : s.next + 1 ≤ j := hj
        rw [set_sittings, if_neg (by omega)]
        exact hw.fresh j (by omega)
      · intro l hl
        cases hl
  | @next sid p stmt rest hp hrest hfree =>
      refine ⟨fun j hj ↦ ?_, hw.exclusive.grant (hw.free hfree) fun l hl ↦ ?_⟩
      · rw [set_sittings]
        split
        · next heq =>
          rw [heq] at hj
          rw [hw.fresh sid hj] at hp
          cases hp
        · exact hw.fresh j hj
      · rcases List.mem_append.mp hl with hold | hnew
        · exact .inl ⟨p, hp, hold⟩
        · exact .inr hnew
  | @commit sid p db hp hrest hcommit => exact hw.close db sid
  | @rollback sid p e hp hrest hcommit => exact hw.close s.db sid
  | @abort sid => exact hw.close s.db sid

/-! ## Properties of every session -/

/-- `J` holds of every session under way and the committed rows. -/
def All (J : RunRecord → Sitting → Prop) (s : LockWorld) : Prop :=
  ∀ sid p, s.sittings sid = some p → J s.db p

theorem all_start (J : RunRecord → Sitting → Prop) (db : RunRecord) : All J { db := db } := by
  intro sid p hp
  cases hp

/-- A property that a session has when it begins, that its own statements keep, and that
the commits of the sessions which share no lock with it keep. -/
theorem All.effect {J : RunRecord → Sitting → Prop} (hw : s.WellLocked) (h : s.All J)
    (heffect : step.Effect env s s')
    (hbegin : ∀ tx, step = .begin tx → J s.db { tx := tx, rest := tx.script })
    (hnext : ∀ sid p stmt rest, step = .next sid → s.sittings sid = some p →
      p.rest = stmt :: rest → J s.db p → J s.db (p.advance env s.db stmt rest))
    (hcommit : ∀ sid p db, step = .commit sid → s.sittings sid = some p → p.rest = [] →
      p.tx.commit env p.view s.db = .ok db → J s.db p →
      ∀ q, (∀ l ∈ p.locks, l ∉ q.locks) → J s.db q → J db q) :
    s'.All J := by
  have hclose (sid : ℕ) : (s.set sid none).All J := by
    intro j q hq
    rw [set_sittings] at hq
    split at hq
    · cases hq
    · exact h j q hq
  cases heffect with
  | idle => exact h
  | begin tx =>
      intro j q hq
      rw [set_sittings] at hq
      split at hq
      · cases hq
        exact hbegin tx rfl
      · exact h j q hq
  | @next sid p stmt rest hp hrest hfree =>
      intro j q hq
      rw [set_sittings] at hq
      split at hq
      · cases hq
        exact hnext sid p stmt rest rfl hp hrest (h sid p hp)
      · exact h j q hq
  | @commit sid p db hp hrest hok =>
      intro j q hq
      rw [set_sittings] at hq
      split at hq
      · cases hq
      · next hne =>
        refine hcommit sid p db rfl hp hrest hok (h sid p hp) q (fun l hl hlq ↦ ?_) (h j q hq)
        exact hne (hw.exclusive j sid q p l hq hp hlq hl)
  | @rollback sid p e hp hrest hcommit => exact hclose sid
  | @abort sid => exact hclose sid

end LockWorld

end Relayvia
