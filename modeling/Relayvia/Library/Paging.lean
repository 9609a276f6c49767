import Mathlib.Data.List.Sort

/-!
# Keyset pages

A reader keeps the largest key that it has seen and asks for the rows with a larger
one.  What it collects is complete as long as no row appears behind its cursor.
-/

namespace Paging

variable {E I : Type*} [LinearOrder I] (key : E → I)

/-- The rows after the cursor, in the order of their keys. -/
def rest (cursor : I) (rows : List E) : List E :=
  (rows.filter fun e ↦ cursor < key e).insertionSort fun a b ↦ key a ≤ key b

/-- The cursor after a page. -/
def advance (cursor : I) (page : List E) : I :=
  (page.getLast?.map key).getD cursor

/-- The reader has collected exactly the rows up to its cursor, in order. -/
structure Complete (rows : List E) (cursor : I) (collected : List E) : Prop where
  sorted : collected.Pairwise fun a b ↦ key a < key b
  mem_iff : ∀ e, e ∈ collected ↔ e ∈ rows ∧ key e ≤ cursor

variable {key} {cursor : I} {rows rows' collected : List E}

theorem mem_rest {e : E} : e ∈ rest key cursor rows ↔ e ∈ rows ∧ cursor < key e := by
  simp [rest]

theorem rest_sorted (hrows : (rows.map key).Nodup) :
    (rest key cursor rows).Pairwise fun a b ↦ key a < key b := by
  have htotal : Std.Total fun a b : E ↦ key a ≤ key b := ⟨fun a b ↦ le_total (key a) (key b)⟩
  have htrans : IsTrans E fun a b ↦ key a ≤ key b := ⟨fun _ _ _ ↦ le_trans⟩
  have hle : (rest key cursor rows).Pairwise fun a b ↦ key a ≤ key b :=
    List.pairwise_insertionSort _ _
  have hne : (rest key cursor rows).Pairwise fun a b ↦ key a ≠ key b := by
    have hperm : ((rest key cursor rows).map key).Nodup := by
      refine ((List.perm_insertionSort _ _).map key).nodup_iff.mpr ?_
      exact hrows.sublist ((List.filter_sublist).map key)
    exact List.pairwise_map.mp hperm
  exact (hle.and hne).imp fun h ↦ lt_of_le_of_ne h.1 h.2

omit [LinearOrder I] in
@[simp] theorem advance_nil : advance key cursor [] = cursor := rfl

omit [LinearOrder I] in
@[simp] theorem advance_concat {page : List E} {e : E} :
    advance key cursor (page ++ [e]) = key e := by
  simp [advance]

/-- A row of the rest is on the page exactly if the new cursor has passed it. -/
theorem mem_take_iff (hrows : (rows.map key).Nodup) {n : ℕ} {e : E}
    (he : e ∈ rest key cursor rows) : e ∈ (rest key cursor rows).take n ↔
      key e ≤ advance key cursor ((rest key cursor rows).take n) := by
  set page := (rest key cursor rows).take n with hpage
  have hsplit : page ++ (rest key cursor rows).drop n = rest key cursor rows :=
    List.take_append_drop n _
  have hsorted : (rest key cursor rows).Pairwise fun a b ↦ key a < key b := rest_sorted hrows
  rw [← hsplit] at hsorted he
  obtain ⟨hinside, -, hacross⟩ := List.pairwise_append.mp hsorted
  rcases List.eq_nil_or_concat page with hnil | ⟨front, last, hlast⟩
  · have hafter : cursor < key e := (mem_rest.mp (hsplit ▸ he)).2
    simp [hnil, hafter]
  · rw [List.concat_eq_append] at hlast
    rw [hlast, advance_concat]
    constructor
    · intro hmem
      rcases List.mem_append.mp hmem with hfront | hend
      · rw [hlast] at hinside
        exact ((List.pairwise_append.mp hinside).2.2 e hfront last (by simp)).le
      · rw [List.mem_singleton.mp hend]
    · intro hle
      rcases List.mem_append.mp he with hmem | hmem
      · rwa [← hlast]
      · have hlt : key last < key e := hacross last (by simp [hlast]) e hmem
        exact absurd hle hlt.not_ge

theorem le_advance {n : ℕ} : cursor ≤ advance key cursor ((rest key cursor rows).take n) := by
  rcases List.eq_nil_or_concat ((rest key cursor rows).take n) with hnil | ⟨front, last, hlast⟩
  · rw [hnil, advance_nil]
  · rw [List.concat_eq_append] at hlast
    rw [hlast, advance_concat]
    have hmem : last ∈ (rest key cursor rows).take n := by simp [hlast]
    exact (mem_rest.mp (List.mem_of_mem_take hmem)).2.le

/-- A nonempty page moves the cursor. -/
theorem lt_advance {n : ℕ} (hn : 0 < n) (hrest : rest key cursor rows ≠ []) :
    cursor < advance key cursor ((rest key cursor rows).take n) := by
  rcases List.eq_nil_or_concat ((rest key cursor rows).take n) with hnil | ⟨front, last, hlast⟩
  · rw [List.take_eq_nil_iff] at hnil
    rcases hnil with h | h
    · omega
    · exact absurd h hrest
  · rw [List.concat_eq_append] at hlast
    rw [hlast, advance_concat]
    have hmem : last ∈ (rest key cursor rows).take n := by simp [hlast]
    exact (mem_rest.mp (List.mem_of_mem_take hmem)).2

namespace Complete

theorem nil (hrows : ∀ e ∈ rows, cursor < key e) : Complete key rows cursor [] where
  sorted := List.Pairwise.nil
  mem_iff e := by
    simp only [List.not_mem_nil, false_iff, not_and, not_le]
    exact hrows e

/-- Reading a page keeps the collection complete. -/
theorem read (h : Complete key rows cursor collected) (hrows : (rows.map key).Nodup) (n : ℕ) :
    Complete key rows (advance key cursor ((rest key cursor rows).take n))
      (collected ++ (rest key cursor rows).take n) where
  sorted := by
    have hpage : ((rest key cursor rows).take n).Pairwise fun a b ↦ key a < key b :=
      (rest_sorted hrows).sublist (List.take_sublist _ _)
    refine List.pairwise_append.mpr ⟨h.sorted, hpage, ?_⟩
    intro a ha b hb
    exact ((h.mem_iff a).mp ha).2.trans_lt (mem_rest.mp (List.mem_of_mem_take hb)).2
  mem_iff e := by
    rw [List.mem_append, h.mem_iff]
    constructor
    · rintro (⟨hmem, hle⟩ | hpage)
      · exact ⟨hmem, hle.trans le_advance⟩
      · have hrest := List.mem_of_mem_take hpage
        exact ⟨(mem_rest.mp hrest).1, (mem_take_iff hrows hrest).mp hpage⟩
    · rintro ⟨hmem, hle⟩
      rcases le_or_gt (key e) cursor with hseen | hnew
      · exact Or.inl ⟨hmem, hseen⟩
      · exact Or.inr ((mem_take_iff hrows (mem_rest.mpr ⟨hmem, hnew⟩)).mpr hle)

/-- New rows after the cursor keep the collection complete. -/
theorem append (h : Complete key rows cursor collected) (hnew : ∀ e ∈ rows', cursor < key e) :
    Complete key (rows ++ rows') cursor collected where
  sorted := h.sorted
  mem_iff e := by
    rw [h.mem_iff, List.mem_append, or_and_right]
    constructor
    · exact Or.inl
    · rintro (hold | ⟨hmem, hle⟩)
      · exact hold
      · exact absurd hle (hnew e hmem).not_ge

/-- A row behind the cursor that was not collected spoils the collection. -/
theorem not_append (h : Complete key rows cursor collected) {e : E} (he : e ∈ rows')
    (hle : key e ≤ cursor) (hmem : e ∉ rows) : ¬Complete key (rows ++ rows') cursor collected := by
  intro h'
  have hcollected := (h'.mem_iff e).mpr ⟨List.mem_append_right _ he, hle⟩
  exact hmem ((h.mem_iff e).mp hcollected).1

/-- A reader that finds nothing more has collected every row. -/
theorem all_of_rest_eq_nil (h : Complete key rows cursor collected)
    (hrest : rest key cursor rows = []) : ∀ e ∈ rows, e ∈ collected := by
  intro e he
  rw [h.mem_iff]
  refine ⟨he, ?_⟩
  by_contra hlt
  have hmem : e ∈ rest key cursor rows := mem_rest.mpr ⟨he, not_le.mp hlt⟩
  rw [hrest] at hmem
  exact List.not_mem_nil hmem

end Complete

end Paging
