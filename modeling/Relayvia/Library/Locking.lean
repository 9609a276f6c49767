import Mathlib.Data.List.Basic
import Mathlib.Logic.Function.Basic

/-!
# Exclusive locks

Holders that take exclusive locks and keep them to their end.  A lock is granted when no
other holder has it.
-/

namespace Locking

variable {P L : Type*} {locks : P → List L} {holders : ℕ → Option P} {i : ℕ} {p : P} {ls : List L}

/-- No lock has two holders. -/
def Exclusive (locks : P → List L) (holders : ℕ → Option P) : Prop :=
  ∀ i j p q l, holders i = some p → holders j = some q → l ∈ locks p → l ∈ locks q → i = j

/-- No other holder than `i` has one of `ls`. -/
def Free (locks : P → List L) (holders : ℕ → Option P) (i : ℕ) (ls : List L) : Prop :=
  ∀ j q, j ≠ i → holders j = some q → ∀ l ∈ ls, l ∉ locks q

theorem exclusive_none (locks : P → List L) : Exclusive locks (fun _ ↦ none) :=
  fun _ _ _ _ _ h ↦ by cases h

theorem Exclusive.grant (h : Exclusive locks holders) (hfree : Free locks holders i ls)
    (hp : ∀ l ∈ locks p, (∃ p₀, holders i = some p₀ ∧ l ∈ locks p₀) ∨ l ∈ ls) :
    Exclusive locks (Function.update holders i (some p)) := by
  have hother {j : ℕ} {q : P} {l : L} (hne : j ≠ i) (hq : holders j = some q) (hl : l ∈ locks p)
      (hlq : l ∈ locks q) : False := by
    rcases hp l hl with ⟨p₀, hp₀, hold⟩ | hnew
    · exact hne (h j i q p₀ l hq hp₀ hlq hold)
    · exact hfree j q hne hq l hnew hlq
  intro j k q r l hj hk hlq hlr
  rw [Function.update_apply] at hj hk
  split at hj
  · next heq =>
    cases hj
    split at hk
    · next heq' => exact heq.trans heq'.symm
    · next hne => exact (hother hne hk hlq hlr).elim
  · next hne =>
    split at hk
    · cases hk
      exact (hother hne hj hlr hlq).elim
    · exact h j k q r l hj hk hlq hlr

theorem Exclusive.release (h : Exclusive locks holders) (i : ℕ) :
    Exclusive locks (Function.update holders i none) := by
  have hold {j : ℕ} {q : P} (hj : Function.update holders i none j = some q) :
      holders j = some q := by
    rw [Function.update_apply] at hj
    split at hj
    · cases hj
    · exact hj
  exact fun j k q r l hj hk ↦ h j k q r l (hold hj) (hold hk)

end Locking
