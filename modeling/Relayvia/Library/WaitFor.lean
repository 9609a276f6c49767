import Mathlib.Data.List.Basic
import Mathlib.Logic.Function.Basic
import Mathlib.Logic.Relation

/-!
# Waiting for locks

Transactions that request shared and exclusive locks one after the other and keep them to
their end, and a condition on the requests under which no cycle of waiting transactions
arises.
-/

namespace WaitFor

inductive Mode where
  | shared | exclusive
  deriving DecidableEq

structure Request (L : Type*) where
  row : L
  mode : Mode
  /-- the transaction ends instead of waiting -/
  skips : Bool := false
  deriving DecidableEq

/-- The locks that a transaction holds, the last one first, and those that it will request. -/
structure Holder (L : Type*) where
  held : List (Request L) := []
  pending : List (Request L)

structure State (L : Type*) where
  holders : ℕ → Option (Holder L) := fun _ ↦ none
  /-- the number of the next transaction -/
  next : ℕ := 0

inductive Step (L : Type*) where
  | begin (requests : List (Request L))
  | acquire (i : ℕ)
  /-- commit or rollback, at any moment -/
  | close (i : ℕ)

variable {L : Type*}

/-- All requests of the transaction in their order. -/
def Holder.requests (h : Holder L) : List (Request L) :=
  h.held.reverse ++ h.pending

def State.set (i : ℕ) (h : Option (Holder L)) (s : State L) : State L :=
  { s with holders := Function.update s.holders i h }

theorem holders_set (s : State L) (i : ℕ) (h : Option (Holder L)) (j : ℕ) :
    (s.set i h).holders j = if j = i then h else s.holders j :=
  Function.update_apply s.holders i h j

variable [DecidableEq L]

def Request.conflicts (r q : Request L) : Bool :=
  r.row = q.row ∧ (r.mode = .exclusive ∨ q.mode = .exclusive)

/-- No other transaction holds a conflicting lock. -/
def State.grants (s : State L) (i : ℕ) (r : Request L) : Bool :=
  (List.range s.next).all fun j ↦
    j = i ∨ (s.holders j).all fun h ↦ h.held.all fun q ↦ !r.conflicts q

/-- One step; a request that has to wait changes nothing. -/
def Step.exec : Step L → State L → State L
  | .begin requests, s =>
      { s with next := s.next + 1 }.set s.next (some { pending := requests })
  | .acquire i, s =>
      match s.holders i with
      | some h =>
          match h.pending with
          | r :: rest =>
              if s.grants i r then s.set i (some { held := r :: h.held, pending := rest })
              else if r.skips then s.set i none
              else s
          | [] => s
      | none => s
  | .close i, s => s.set i none

/-- The transaction `i` waits for a lock that `j` holds. -/
def Waits (s : State L) (i j : ℕ) : Prop :=
  i ≠ j ∧ ∃ h r rest k q, s.holders i = some h ∧ h.pending = r :: rest ∧ r.skips = false ∧
    s.holders j = some k ∧ q ∈ k.held ∧ r.conflicts q = true

/-- The wait-for graph has a cycle. -/
def Deadlock (s : State L) : Prop :=
  ∃ i, Relation.TransGen (Waits s) i i

/-! ## Compatible locks -/

structure WellFormed (s : State L) : Prop where
  fresh : ∀ i, s.next ≤ i → s.holders i = none
  compatible : ∀ i j h k, i ≠ j → s.holders i = some h → s.holders j = some k →
    ∀ r ∈ h.held, ∀ q ∈ k.held, r.conflicts q = false

variable {s : State L} {i j : ℕ} {h k : Holder L} {r q : Request L} {rest : List (Request L)}

theorem conflicts_comm (r q : Request L) : r.conflicts q = q.conflicts r := by
  simp only [Request.conflicts, eq_comm (a := r.row), or_comm]

theorem wellFormed_start : WellFormed ({} : State L) := by
  constructor
  · intro i _
    rfl
  · intro i j h k _ hi
    cases hi

theorem WellFormed.grants (hs : WellFormed s) (hgrants : s.grants i r = true) (hne : j ≠ i)
    (hj : s.holders j = some k) (hq : q ∈ k.held) : r.conflicts q = false := by
  have hlt : j < s.next := by
    by_contra hge
    rw [hs.fresh j (Nat.le_of_not_lt hge)] at hj
    cases hj
  have hall := List.all_eq_true.mp hgrants j (List.mem_range.mpr hlt)
  simp only [hne, hj, false_or, Option.all_some, decide_eq_true_eq, List.all_eq_true] at hall
  simpa using hall q hq

/-- A transaction takes a lock that is granted, or ends, or takes nothing. -/
theorem WellFormed.set (hs : WellFormed s) (hi : i < s.next) (h' : Option (Holder L))
    (hheld : ∀ h, h' = some h → ∀ r ∈ h.held,
      (∃ h₀, s.holders i = some h₀ ∧ r ∈ h₀.held) ∨ s.grants i r = true) :
    WellFormed (s.set i h') := by
  have hother {j : ℕ} {h k : Holder L} (hh : h' = some h) (hne : j ≠ i)
      (hj : s.holders j = some k) : ∀ r ∈ h.held, ∀ q ∈ k.held, r.conflicts q = false := by
    intro r hr q hq
    rcases hheld h hh r hr with ⟨h₀, hi₀, hold⟩ | hgrants
    · exact hs.compatible i j h₀ k hne.symm hi₀ hj r hold q hq
    · exact hs.grants hgrants hne hj hq
  constructor
  · intro j hj
    have hj : s.next ≤ j := hj
    rw [holders_set, if_neg (Nat.ne_of_gt (Nat.lt_of_lt_of_le hi hj))]
    exact hs.fresh j hj
  · intro j j' h k hne hj hj' r hr q hq
    rw [holders_set] at hj hj'
    split at hj
    · next heq =>
      rw [if_neg (fun heq' ↦ hne (heq.trans heq'.symm))] at hj'
      exact hother hj (fun heq' ↦ hne (heq.trans heq'.symm)) hj' r hr q hq
    · next hne' =>
      split at hj'
      · rw [conflicts_comm]
        exact hother hj' hne' hj q hq r hr
      · exact hs.compatible j j' h k hne hj hj' r hr q hq

theorem lt_next (hs : WellFormed s) (hi : s.holders i = some h) : i < s.next := by
  by_contra hge
  rw [hs.fresh i (Nat.le_of_not_lt hge)] at hi
  cases hi

theorem WellFormed.exec (hs : WellFormed s) (step : Step L) : WellFormed (step.exec s) := by
  cases step with
  | begin requests =>
      have hnext : WellFormed { s with next := s.next + 1 } := by
        constructor
        · intro j hj
          exact hs.fresh j (Nat.le_of_succ_le hj)
        · exact hs.compatible
      apply hnext.set (Nat.lt_succ_self _)
      rintro h ⟨⟩ r hr
      cases hr
  | acquire i =>
      rw [Step.exec]
      split
      · next h hi =>
        split
        · next r rest hpending =>
          split
          · next hgrants =>
            apply hs.set (lt_next hs hi)
            rintro h' ⟨⟩ q hq
            rcases List.mem_cons.mp hq with rfl | hq
            · exact .inr hgrants
            · exact .inl ⟨h, hi, hq⟩
          · split
            · apply hs.set (lt_next hs hi)
              rintro h' ⟨⟩
            · exact hs
        · exact hs
      · exact hs
  | close i =>
      constructor
      · intro j hj
        rw [Step.exec, holders_set]
        split
        · rfl
        · exact hs.fresh j hj
      · intro j j' h k hne hj hj'
        rw [Step.exec, holders_set] at hj hj'
        split at hj
        · cases hj
        · split at hj'
          · cases hj'
          · exact hs.compatible j j' h k hne hj hj'

/-- A transaction under way has the requests with which it began. -/
theorem requests_exec {step : Step L} (hi : (step.exec s).holders i = some h) :
    (∃ h₀, s.holders i = some h₀ ∧ h.requests = h₀.requests) ∨
      ∃ requests, step = .begin requests ∧ h.requests = requests := by
  cases step with
  | begin requests =>
      rw [Step.exec, holders_set] at hi
      split at hi
      · cases hi
        exact .inr ⟨requests, rfl, rfl⟩
      · exact .inl ⟨h, hi, rfl⟩
  | acquire j =>
      left
      rw [Step.exec] at hi
      split at hi
      · next h₀ hj =>
        split at hi
        · next r rest hpending =>
          split at hi
          · rw [holders_set] at hi
            split at hi
            · next heq =>
              cases hi
              subst heq
              exact ⟨h₀, hj, by simp [Holder.requests, hpending]⟩
            · exact ⟨h, hi, rfl⟩
          · split at hi
            · rw [holders_set] at hi
              split at hi
              · cases hi
              · exact ⟨h, hi, rfl⟩
            · exact ⟨h, hi, rfl⟩
        · exact ⟨h, hi, rfl⟩
      · exact ⟨h, hi, rfl⟩
  | close j =>
      left
      rw [Step.exec, holders_set] at hi
      split at hi
      · cases hi
      · exact ⟨h, hi, rfl⟩

/-! ## Gates -/

/-- The transaction begins with the exclusive lock on the gate, or locks a single row,
exclusively. -/
def Gated (gate : L) (requests : List (Request L)) : Prop :=
  (∃ rest, requests = { row := gate, mode := .exclusive } :: rest) ∨
    ∃ row, ∀ r ∈ requests, r.row = row ∧ r.mode = .exclusive

variable {gate : L}

/-- A transaction that waits and holds a lock holds the gate. -/
theorem holds_gate (hs : WellFormed s) (hi : s.holders i = some h) (hwaits : Waits s i j)
    (hgated : Gated gate h.requests) (hheld : h.held ≠ []) :
    { row := gate, mode := .exclusive } ∈ h.held := by
  obtain ⟨hne, h', r, rest, k, q, hi', hpending, -, hj, hq, hconflict⟩ := hwaits
  obtain rfl := Option.some.inj (hi.symm.trans hi')
  obtain ⟨r₀, held, hlast⟩ := List.exists_cons_of_ne_nil (List.reverse_ne_nil_iff.mpr hheld)
  have hr₀ : r₀ ∈ h.held := by
    rw [← List.mem_reverse, hlast]
    exact List.mem_cons_self
  rcases hgated with ⟨rest', hrequests⟩ | ⟨row, hrow⟩
  · rw [Holder.requests, hlast, List.cons_append] at hrequests
    rw [← (List.cons.inj hrequests).1]
    exact hr₀
  · have hown := hrow r₀ (List.mem_append_left _ (List.mem_reverse.mpr hr₀))
    have hwanted := hrow r (by simp [Holder.requests, hpending])
    have hfree := hs.compatible i j h k hne hi hj r₀ hr₀ q hq
    simp only [Request.conflicts, Bool.decide_and, Bool.and_eq_true, decide_eq_true_eq] at hconflict
    simp [Request.conflicts, hown.1, hown.2, ← hconflict.1, hwanted.1] at hfree

/-- Gated transactions never wait in a cycle. -/
theorem not_deadlock (hs : WellFormed s)
    (hgated : ∀ i h, s.holders i = some h → Gated gate h.requests) : ¬Deadlock s := by
  rintro ⟨i, hcycle⟩
  obtain ⟨j, hij, hji⟩ := Relation.TransGen.head'_iff.mp hcycle
  obtain ⟨l, -, hli⟩ := Relation.TransGen.tail'_iff.mp hcycle
  have hholds {a b : ℕ} (hab : Waits s a b) (hc : ∃ c, Waits s c a) :
      ∃ h, s.holders a = some h ∧ { row := gate, mode := .exclusive } ∈ h.held := by
    obtain ⟨c, -, -, -, -, k, q, -, -, -, ha, hq, -⟩ := hc
    exact ⟨k, ha, holds_gate hs ha hab (hgated a k ha) (List.ne_nil_of_mem hq)⟩
  obtain ⟨h, hi, hgate⟩ := hholds hij ⟨l, hli⟩
  rcases Relation.ReflTransGen.cases_head hji with heq | ⟨m, hjm, -⟩
  · exact hij.1 heq.symm
  · obtain ⟨k, hj, hgate'⟩ := hholds hjm ⟨i, hij⟩
    have hfree := hs.compatible i j h k hij.1 hi hj _ hgate _ hgate'
    simp [Request.conflicts] at hfree

end WaitFor
