import Mathlib.Data.List.Basic

/-!
# Schedules of a deterministic system

A system that executes the actions of a list one after the other: what holds in every
state on the way, what holds of every action in the state that it finds, and the rule that
relates the two.
-/

namespace Schedule

variable {S A : Type*} (exec : A → S → S)

def run : List A → S → S
  | [], s => s
  | a :: as, s => run as (exec a s)

/-- `P` holds in every state of the run. -/
def Throughout (P : S → Prop) : List A → S → Prop
  | [], s => P s
  | a :: as, s => P s ∧ Throughout P as (exec a s)

/-- Every action meets `M` in the state that it finds. -/
def Each (M : A → S → Prop) : List A → S → Prop
  | [], _ => True
  | a :: as, s => M a s ∧ Each M as (exec a s)

variable {exec} {I P : S → Prop} {M : A → S → Prop} {as : List A} {s : S}

theorem Throughout.head (h : Throughout exec P as s) : P s := by
  cases as with
  | nil => exact h
  | cons a as => exact h.1

theorem Throughout.last (h : Throughout exec P as s) : P (run exec as s) := by
  induction as generalizing s with
  | nil => exact h
  | cons a as ih => exact ih h.2

theorem each_const_iff {M : A → Prop} : Each exec (fun a _ ↦ M a) as s ↔ ∀ a ∈ as, M a := by
  induction as generalizing s with
  | nil => simp [Each]
  | cons a as ih => simp [Each, ih]

/-- An action keeps `P` exactly when it meets `M`: a run keeps `P` exactly when each of its
actions does. -/
theorem throughout_iff_each (hI : I s) (hP : P s) (hinv : ∀ a s, I s → I (exec a s))
    (hstep : ∀ a s, I s → P s → (P (exec a s) ↔ M a s)) :
    Throughout exec P as s ↔ Each exec M as s := by
  induction as generalizing s with
  | nil => exact ⟨fun _ ↦ trivial, fun _ ↦ hP⟩
  | cons a as ih =>
      constructor
      · rintro ⟨-, hrest⟩
        have hnext := hrest.head
        exact ⟨(hstep a s hI hP).mp hnext, (ih (hinv a s hI) hnext).mp hrest⟩
      · rintro ⟨hmeets, hrest⟩
        have hnext := (hstep a s hI hP).mpr hmeets
        exact ⟨hP, (ih (hinv a s hI) hnext).mpr hrest⟩

end Schedule
