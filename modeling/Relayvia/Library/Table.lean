import Mathlib.Data.List.Basic
import Mathlib.Data.List.Nodup

/-!
# Tables

Lists of rows that are found and updated through a key.  The key of a row never
changes, so lookups commute with updates.
-/

namespace Table

variable {K R : Type*} [DecidableEq K]

/-- The first row with key `k`. -/
def find? (key : R → K) (k : K) (rows : List R) : Option R :=
  rows.find? fun r ↦ key r = k

/-- Update every row with key `k`. -/
def modify (key : R → K) (k : K) (f : R → R) (rows : List R) : List R :=
  rows.map fun r ↦ if key r = k then f r else r

variable {key : R → K} {k l : K} {f : R → R} {r : R} {rows : List R}

theorem mem_of_find? (h : find? key k rows = some r) : r ∈ rows :=
  List.mem_of_find?_eq_some h

theorem key_of_find? (h : find? key k rows = some r) : key r = k := by
  simpa using List.find?_some h

theorem find?_eq_none_iff : find? key k rows = none ↔ ∀ r ∈ rows, key r ≠ k := by
  simp [find?]

theorem find?_isSome_iff : (find? key k rows).isSome ↔ k ∈ rows.map key := by
  simp [find?]

theorem find?_eq_some_iff (hnodup : (rows.map key).Nodup) :
    find? key k rows = some r ↔ r ∈ rows ∧ key r = k := by
  refine ⟨fun h ↦ ⟨mem_of_find? h, key_of_find? h⟩, ?_⟩
  rintro ⟨hr, rfl⟩
  cases h : find? key (key r) rows with
  | none => exact absurd rfl (find?_eq_none_iff.mp h r hr)
  | some r' =>
      rw [List.inj_on_of_nodup_map hnodup (mem_of_find? h) hr (key_of_find? h)]

theorem find?_of_mem (hnodup : (rows.map key).Nodup) (hr : r ∈ rows) :
    find? key (key r) rows = some r :=
  (find?_eq_some_iff hnodup).mpr ⟨hr, rfl⟩

theorem find?_append (rows rows' : List R) :
    find? key k (rows ++ rows') = (find? key k rows).or (find? key k rows') := by
  simp [find?]

/-! ## Updates that keep the key -/

omit [DecidableEq K] in
theorem map_key_map (hf : ∀ r, key (f r) = key r) (rows : List R) :
    (rows.map f).map key = rows.map key := by
  simp [hf]

theorem find?_map (hf : ∀ r, key (f r) = key r) (k : K) (rows : List R) :
    find? key k (rows.map f) = (find? key k rows).map f := by
  simp only [find?, List.find?_map]
  congr 2
  funext r
  simp [hf]

theorem map_key_modify (hf : ∀ r, key (f r) = key r) (k : K) (rows : List R) :
    (modify key k f rows).map key = rows.map key := by
  refine map_key_map (fun r ↦ ?_) rows
  split <;> simp [hf]

theorem find?_modify (hf : ∀ r, key (f r) = key r) (k l : K) (rows : List R) :
    find? key l (modify key k f rows) =
      if l = k then (find? key k rows).map f else find? key l rows := by
  rw [modify, find?_map (fun r ↦ by split <;> simp [hf])]
  cases h : find? key l rows with
  | none =>
      split
      · next hl => simp [← hl, h]
      · rfl
  | some r =>
      have hkey := key_of_find? h
      by_cases hl : l = k
      · subst hl
        simp [hkey, h]
      · simp [hl, hkey]

theorem mem_modify : r ∈ modify key k f rows ↔
    (∃ r' ∈ rows, key r' = k ∧ r = f r') ∨ (r ∈ rows ∧ key r ≠ k) := by
  simp only [modify, List.mem_map]
  constructor
  · rintro ⟨r', hr', rfl⟩
    by_cases h : key r' = k
    · exact .inl ⟨r', hr', h, by simp [h]⟩
    · exact .inr (by simpa [h] using hr')
  · rintro (⟨r', hr', h, rfl⟩ | ⟨hr, h⟩)
    · exact ⟨r', hr', by simp [h]⟩
    · exact ⟨r, hr, by simp [h]⟩

theorem mem_modify_self (h : r ∈ modify key k f rows) (hkey : key r = k) :
    ∃ r' ∈ rows, key r' = k ∧ r = f r' := by
  rcases mem_modify.mp h with hself | ⟨-, hne⟩
  · exact hself
  · exact absurd hkey hne

theorem modify_id (k : K) (rows : List R) : modify key k (fun r ↦ r) rows = rows := by
  simp [modify]

theorem modify_modify {g : R → R} (hf : ∀ r, key (f r) = key r) (k : K) (rows : List R) :
    modify key k g (modify key k f rows) = modify key k (fun r ↦ g (f r)) rows := by
  simp only [modify, List.map_map]
  refine List.map_congr_left fun r _ ↦ ?_
  by_cases h : key r = k <;> simp [h, hf]

/-- Only what the update does to the row of that key matters. -/
theorem modify_congr {g : R → R} (hnodup : (rows.map key).Nodup) (hr : find? key k rows = some r)
    (hfg : f r = g r) : modify key k f rows = modify key k g rows := by
  refine List.map_congr_left fun s hs ↦ ?_
  split
  · next h =>
    have heq : s = r := Option.some.inj (((find?_eq_some_iff hnodup).mpr ⟨hs, h⟩).symm.trans hr)
    rw [heq, hfg]
  · rfl

/-- In a table whose rows have two unique keys, the two ways to update one row agree. -/
theorem modify_eq_modify {K' : Type*} [DecidableEq K'] {key' : R → K'}
    (hnodup : (rows.map key).Nodup) (hnodup' : (rows.map key').Nodup) (hr : r ∈ rows) :
    modify key (key r) f rows = modify key' (key' r) f rows := by
  refine List.map_congr_left fun s hs ↦ ?_
  have hiff : key s = key r ↔ key' s = key' r :=
    ⟨fun h ↦ by rw [List.inj_on_of_nodup_map hnodup hs hr h],
      fun h ↦ by rw [List.inj_on_of_nodup_map hnodup' hs hr h]⟩
  by_cases h : key s = key r
  · simp [h, hiff.mp h]
  · simp [h, mt hiff.mpr h]

end Table
