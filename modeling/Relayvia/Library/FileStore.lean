import Mathlib.Data.List.Basic
import Mathlib.Logic.Function.Basic

/-!
# Files under a root

A path leads to an inode, and a descriptor keeps its inode while the path goes on to
another one.
-/

structure FileStore (κ : Type*) where
  files : ℕ → List UInt8 := fun _ ↦ []
  paths : κ → Option ℕ := fun _ ↦ none
  next : ℕ := 0

namespace FileStore

variable {κ : Type*} [DecidableEq κ]

/-- The bytes under a path. -/
def content (s : FileStore κ) (k : κ) : Option (List UInt8) :=
  (s.paths k).map s.files

/-- A new inode replaces the one under the path, if there is one. -/
def put (k : κ) (bytes : List UInt8) (s : FileStore κ) : FileStore κ where
  files := Function.update s.files s.next bytes
  paths := Function.update s.paths k (some s.next)
  next := s.next + 1

/-- Open for writing: an existing file is truncated. -/
def openWrite (k : κ) (s : FileStore κ) : ℕ × FileStore κ :=
  match s.paths k with
  | some i => (i, { s with files := Function.update s.files i [] })
  | none => (s.next, s.put k [])

/-- A write over what is there; a gap before the offset is filled with zeros. -/
def overwrite (offset : ℕ) (chunk bytes : List UInt8) : List UInt8 :=
  bytes.take offset ++ List.replicate (offset - bytes.length) 0 ++ chunk ++
    bytes.drop (offset + chunk.length)

def write (i offset : ℕ) (chunk : List UInt8) (s : FileStore κ) : FileStore κ :=
  { s with files := Function.update s.files i (overwrite offset chunk (s.files i)) }

def unlink (k : κ) (s : FileStore κ) : FileStore κ :=
  { s with paths := Function.update s.paths k none }

/-- No inode is under two paths, and new ones are fresh. -/
structure Wf (s : FileStore κ) : Prop where
  inj : ∀ k k' i, s.paths k = some i → s.paths k' = some i → k = k'
  lt_next : ∀ k i, s.paths k = some i → i < s.next

variable {s : FileStore κ} {k k' : κ} {i : ℕ} {bytes chunk : List UInt8}

theorem paths_unlink : (s.unlink k).paths k' = if k' = k then none else s.paths k' :=
  Function.update_apply s.paths k none k'

theorem paths_put : (s.put k bytes).paths k' = if k' = k then some s.next else s.paths k' :=
  Function.update_apply s.paths k (some s.next) k'

omit [DecidableEq κ] in
theorem wf_empty : Wf ({} : FileStore κ) :=
  ⟨fun _ _ _ h ↦ (by cases h), fun _ _ h ↦ (by cases h)⟩

theorem Wf.unlink (h : Wf s) (k : κ) : Wf (s.unlink k) := by
  have hback {k' : κ} {i : ℕ} (hk : (s.unlink k).paths k' = some i) : s.paths k' = some i := by
    rw [paths_unlink] at hk
    split at hk
    · cases hk
    · exact hk
  exact ⟨fun k₁ k₂ i h₁ h₂ ↦ h.inj k₁ k₂ i (hback h₁) (hback h₂),
    fun k' i hk ↦ h.lt_next k' i (hback hk)⟩

theorem Wf.put (h : Wf s) (k : κ) (bytes : List UInt8) : Wf (s.put k bytes) := by
  have hback {k' : κ} {i : ℕ} (hk : (s.put k bytes).paths k' = some i) :
      k' = k ∧ i = s.next ∨ s.paths k' = some i := by
    rw [paths_put] at hk
    split at hk
    · next heq => exact .inl ⟨heq, (Option.some.inj hk).symm⟩
    · exact .inr hk
  refine ⟨fun k₁ k₂ i h₁ h₂ ↦ ?_, fun k' i hk ↦ ?_⟩
  · rcases hback h₁ with ⟨rfl, rfl⟩ | h₁'
    · rcases hback h₂ with ⟨rfl, -⟩ | h₂'
      · rfl
      · exact absurd (h.lt_next k₂ _ h₂') (Nat.lt_irrefl _)
    · rcases hback h₂ with ⟨rfl, rfl⟩ | h₂'
      · exact absurd (h.lt_next k₁ _ h₁') (Nat.lt_irrefl _)
      · exact h.inj k₁ k₂ i h₁' h₂'
  · rcases hback hk with ⟨-, rfl⟩ | hk'
    · exact Nat.lt_succ_self _
    · exact Nat.lt_trans (h.lt_next k' i hk') (Nat.lt_succ_self _)

omit [DecidableEq κ] in
theorem Wf.write (h : Wf s) (i offset : ℕ) (chunk : List UInt8) : Wf (s.write i offset chunk) :=
  ⟨h.inj, h.lt_next⟩

theorem Wf.openWrite (h : Wf s) (k : κ) : Wf (s.openWrite k).2 := by
  unfold FileStore.openWrite
  split
  · exact ⟨h.inj, h.lt_next⟩
  · exact h.put k []

theorem content_unlink_ne (hne : k' ≠ k) : (s.unlink k).content k' = s.content k' := by
  simp [content, unlink, hne]

@[simp] theorem content_put_self : (s.put k bytes).content k = some bytes := by
  simp [content, put]

theorem content_put_ne (h : Wf s) (hne : k' ≠ k) : (s.put k bytes).content k' = s.content k' := by
  cases hk : s.paths k' with
  | none => simp [content, put, hne, hk]
  | some i => simp [content, put, hne, hk, Nat.ne_of_lt (h.lt_next k' i hk)]

/-- The same file is under the path, with the same bytes. -/
structure SameAt (s s' : FileStore κ) (k : κ) : Prop where
  paths : s'.paths k = s.paths k
  content : s'.content k = s.content k

omit [DecidableEq κ] in
theorem SameAt.refl (s : FileStore κ) (k : κ) : SameAt s s k := ⟨rfl, rfl⟩

theorem sameAt_unlink (hne : k' ≠ k) : SameAt s (s.unlink k) k' :=
  ⟨by simp [paths_unlink, hne], content_unlink_ne hne⟩

theorem sameAt_put (h : Wf s) (hne : k' ≠ k) : SameAt s (s.put k bytes) k' :=
  ⟨by simp [paths_put, hne], content_put_ne h hne⟩

theorem paths_openWrite (k : κ) : (s.openWrite k).2.paths k = some (s.openWrite k).1 := by
  unfold openWrite
  split
  · next hk => exact hk
  · simp [put]

theorem files_openWrite (k : κ) : (s.openWrite k).2.files (s.openWrite k).1 = [] := by
  unfold openWrite
  split
  · simp
  · simp [put]

theorem content_openWrite_self (k : κ) : (s.openWrite k).2.content k = some [] := by
  rw [content, paths_openWrite, Option.map_some, files_openWrite]

theorem sameAt_openWrite (h : Wf s) (hne : k' ≠ k) : SameAt s (s.openWrite k).2 k' := by
  unfold openWrite
  split
  · next i hk =>
    refine ⟨rfl, ?_⟩
    cases hk' : s.paths k' with
    | none => simp [content, hk']
    | some j =>
        have hij : j ≠ i := fun heq ↦ hne (h.inj k' k j hk' (heq ▸ hk))
        simp [content, hk', hij]
  · exact sameAt_put h hne

omit [DecidableEq κ] in
theorem content_write_self {offset : ℕ} (hk : s.paths k = some i) (hbytes : s.content k = some bytes) :
    (s.write i offset chunk).content k = some (overwrite offset chunk bytes) := by
  rw [content, hk, Option.map_some, Option.some.injEq] at hbytes
  simp [content, write, hk, hbytes]

omit [DecidableEq κ] in
theorem sameAt_write (h : Wf s) {offset : ℕ} (hk : s.paths k = some i) (hne : k' ≠ k) :
    SameAt s (s.write i offset chunk) k' := by
  refine ⟨rfl, ?_⟩
  cases hk' : s.paths k' with
  | none => simp [content, write, hk']
  | some j =>
      have hij : j ≠ i := fun heq ↦ hne (h.inj k' k j hk' (heq ▸ hk))
      simp [content, write, hk', hij]

/-- A writer that goes on where it stopped appends. -/
theorem overwrite_append (bytes chunk : List UInt8) :
    overwrite bytes.length chunk bytes = bytes ++ chunk := by
  simp [overwrite]

theorem overwrite_take {written n : ℕ} (h : written ≤ bytes.length) :
    overwrite written ((bytes.drop written).take n) (bytes.take written) =
      bytes.take (written + n) := by
  have hlength : (bytes.take written).length = written := by simp [h]
  have happend := overwrite_append (bytes.take written) ((bytes.drop written).take n)
  rw [hlength] at happend
  rw [happend, List.take_add]

/-! ## Many objects -/

def putAll (objects : List (κ × List UInt8)) (s : FileStore κ) : FileStore κ :=
  objects.foldl (fun s object ↦ s.put object.1 object.2) s

theorem Wf.putAll (h : Wf s) (objects : List (κ × List UInt8)) : Wf (s.putAll objects) := by
  induction objects generalizing s with
  | nil => exact h
  | cons object objects ih => exact ih (h.put object.1 object.2)

theorem paths_putAll_ne {objects : List (κ × List UInt8)}
    (hne : k ∉ objects.map Prod.fst) : (s.putAll objects).paths k = s.paths k := by
  induction objects generalizing s with
  | nil => rfl
  | cons object objects ih =>
      rw [List.map_cons, List.mem_cons, not_or] at hne
      have hrest := ih (s := s.put object.1 object.2) hne.2
      rw [paths_put, if_neg hne.1] at hrest
      exact hrest

theorem content_putAll_ne (h : Wf s) {objects : List (κ × List UInt8)}
    (hne : k ∉ objects.map Prod.fst) : (s.putAll objects).content k = s.content k := by
  induction objects generalizing s with
  | nil => rfl
  | cons object objects ih =>
      rw [List.map_cons, List.mem_cons, not_or] at hne
      have hrest := ih (h.put object.1 object.2) hne.2
      rw [content_put_ne h hne.1] at hrest
      exact hrest

theorem content_putAll (h : Wf s) {objects : List (κ × List UInt8)}
    (hnodup : (objects.map Prod.fst).Nodup) (hmem : (k, bytes) ∈ objects) :
    (s.putAll objects).content k = some bytes := by
  induction objects generalizing s with
  | nil => cases hmem
  | cons object objects ih =>
      rw [List.map_cons, List.nodup_cons] at hnodup
      rcases List.mem_cons.mp hmem with rfl | hmem
      · have hrest := content_putAll_ne (h.put k bytes) hnodup.1
        rw [content_put_self] at hrest
        exact hrest
      · exact ih (h.put object.1 object.2) hnodup.2 hmem

omit [DecidableEq κ] in
theorem content_eq_none_iff : s.content k = none ↔ s.paths k = none :=
  Option.map_eq_none_iff

end FileStore
