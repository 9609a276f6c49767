import Mathlib.Data.List.Basic

/-!
# Replaying a log

Events carry the key of the object that they are about, if any.  Replaying a log
for one key folds the effects of the events with that key over a state.
-/

namespace EventLog

variable {E K S R : Type*} [DecidableEq K]

/-- Apply the events about `k` in their order. -/
def replay (about : E → Option K) (effect : E → S → S) (k : K) (events : List E) (s : S) : S :=
  events.foldl (fun s e ↦ if about e = some k then effect e s else s) s

variable {about : E → Option K} {effect : E → S → S} {k : K} {events : List E} {s : S}

@[simp] theorem replay_nil : replay about effect k [] s = s := rfl

theorem replay_cons {e : E} : replay about effect k (e :: events) s =
    replay about effect k events (if about e = some k then effect e s else s) := rfl

theorem replay_append (events events' : List E) : replay about effect k (events ++ events') s =
    replay about effect k events' (replay about effect k events s) :=
  List.foldl_append

/-- Events about other objects leave the state alone. -/
theorem replay_other (h : ∀ e ∈ events, about e ≠ some k) : replay about effect k events s = s := by
  induction events with
  | nil => rfl
  | cons e events ih =>
      rw [replay_cons, if_neg (h e (by simp))]
      exact ih fun e he ↦ h e (by simp [he])

/-- A log with one block for each row: when the block of a row sets the state of the
key of that row to `t`, provided that `p` holds of the row, the log sets it for all
these rows. -/
theorem replay_flatMap {key : R → K} {block : R → List E} {p : R → Bool} {t : S} (rows : List R)
    (hblock : ∀ r s, replay about effect k (block r) s = if key r = k ∧ p r = true then t else s) :
    replay about effect k (rows.flatMap block) s =
      if ∃ r ∈ rows, key r = k ∧ p r = true then t else s := by
  induction rows generalizing s with
  | nil => simp
  | cons r rows ih =>
      rw [List.flatMap_cons, replay_append, hblock, ih]
      by_cases hrest : ∃ r ∈ rows, key r = k ∧ p r = true
      · have hall : ∃ r' ∈ r :: rows, key r' = k ∧ p r' = true := by
          obtain ⟨r', hr', h⟩ := hrest
          exact ⟨r', by simp [hr'], h⟩
        rw [if_pos hrest, if_pos hall]
      · rw [if_neg hrest]
        simp only [List.mem_cons, exists_eq_or_imp, hrest, or_false]

/-- The same for the rows that satisfy `p`, with one event each. -/
theorem replay_map_filter {key : R → K} {event : R → E} {p : R → Bool} {t : S} (rows : List R)
    (habout : ∀ r, about (event r) = some (key r)) (heffect : ∀ r s, effect (event r) s = t) :
    replay about effect k ((rows.filter p).map event) s =
      if ∃ r ∈ rows, key r = k ∧ p r = true then t else s := by
  have hblocks : (rows.filter p).map event = rows.flatMap fun r ↦ if p r then [event r] else [] := by
    induction rows with
    | nil => rfl
    | cons r rows ih => by_cases h : p r = true <;> simp [h, ih]
  rw [hblocks]
  refine replay_flatMap rows fun r s ↦ ?_
  by_cases h : p r = true <;> simp [h, replay_cons, habout, heffect]

end EventLog
