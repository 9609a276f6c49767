import Relayvia.Library.Table

/-!
# Merging dirty columns

A writer that read a row, changed some of its columns and writes these back: the other
columns keep the value that they have by then.
-/

namespace Merge

variable {α K R : Type*} [DecidableEq α] [DecidableEq K]

/-- The column after the write-back. -/
def column (base new current : α) : α :=
  if new = base then current else new

@[simp] theorem column_same (base current : α) : column base base current = current :=
  if_pos rfl

/-- The column did not change in between. -/
@[simp] theorem column_fresh (base new : α) : column base new base = new := by
  unfold column
  split
  · next h => exact h.symm
  · rfl

/-- Write the rows of `new` back, which were read as `base`. -/
def rows (key : R → K) (merge : R → R → R → R) (base new current : List R) : List R :=
  current.map fun row ↦
    match Table.find? key (key row) base, Table.find? key (key row) new with
    | some b, some n => merge b n row
    | _, _ => row

variable {key : R → K} {merge : R → R → R → R} {base new current : List R} {k : K}

theorem find?_rows (hkey : ∀ b n row, key (merge b n row) = key row) :
    Table.find? key k (rows key merge base new current) =
      (Table.find? key k current).map fun row ↦
        match Table.find? key k base, Table.find? key k new with
        | some b, some n => merge b n row
        | _, _ => row := by
  rw [rows, Table.find?_map (fun row ↦ by split <;> simp [hkey])]
  cases h : Table.find? key k current with
  | none => rfl
  | some row => rw [Option.map_some, Option.map_some, Table.key_of_find? h]

/-- A column that no write-back changes. -/
theorem map_rows {β : Type*} (f : R → β) (hf : ∀ b n row, f (merge b n row) = f row) :
    (rows key merge base new current).map f = current.map f := by
  rw [rows, List.map_map]
  refine List.map_congr_left fun row _ ↦ ?_
  rw [Function.comp_apply]
  split
  · exact hf _ _ row
  · rfl

/-- Rows that the writer did not change stay as they are. -/
theorem find?_rows_same (hkey : ∀ b n row, key (merge b n row) = key row)
    (hsame : ∀ b row, merge b b row = row)
    (h : Table.find? key k new = Table.find? key k base) :
    Table.find? key k (rows key merge base new current) = Table.find? key k current := by
  rw [find?_rows hkey, h]
  cases Table.find? key k current with
  | none => rfl
  | some row =>
      cases Table.find? key k base with
      | none => rfl
      | some b => exact congrArg some (hsame b row)

/-- The update of all rows when none has changed since they were read. -/
theorem rows_map {f : R → R} (hkey : ∀ r, key (f r) = key r)
    (hfresh : ∀ r, merge r (f r) r = f r) (hnodup : (current.map key).Nodup) :
    rows key merge current (current.map f) current = current.map f := by
  apply List.map_congr_left
  intro row hrow
  rw [Table.find?_map hkey, Table.find?_of_mem hnodup hrow]
  exact hfresh row

/-- The update of a row that has not changed since it was read. -/
theorem rows_modify {f : R → R} (hkey : ∀ r, key (f r) = key r)
    (hsame : ∀ b row, merge b b row = row) (hfresh : ∀ r, merge r (f r) r = f r)
    (hnodup : (current.map key).Nodup)
    (hread : Table.find? key k base = Table.find? key k current) :
    rows key merge base (Table.modify key k f base) current = Table.modify key k f current := by
  apply List.map_congr_left
  intro row hrow
  rw [Table.find?_modify hkey]
  by_cases h : key row = k
  · have hfind : Table.find? key k base = some row := by
      rw [hread, ← h, Table.find?_of_mem hnodup hrow]
    simp [h, hfind, hfresh]
  · simp only [h, if_false]
    cases Table.find? key (key row) base with
    | none => rfl
    | some b => exact hsame b row

theorem rows_same (hsame : ∀ b row, merge b b row = row) :
    rows key merge base base current = current := by
  rw [rows]
  refine (List.map_congr_left fun row _ ↦ ?_).trans (List.map_id current)
  cases Table.find? key (key row) base with
  | none => rfl
  | some b => exact hsame b row

end Merge
