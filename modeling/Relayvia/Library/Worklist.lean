import Mathlib.Data.Fintype.Card
import Mathlib.Data.List.Basic
import Mathlib.Data.List.Nodup
import Mathlib.Data.List.Perm.Subperm
import Mathlib.Data.Nat.Notation
import Mathlib.Data.Int.Notation
import Mathlib.Data.Set.Finite.Basic
import Mathlib.Logic.Function.Basic
import Mathlib.Logic.Relation

/-!
# Worklist searches over a finite edge list

Depth-first search with an explicit stack and Kahn's topological removal, both
driven by a list of edges over an arbitrary vertex type.  The loops carry a
fuel bound that is shown to be enough, so the results are about the loop run
to its end.
-/

namespace Worklist

variable {V : Type*} [DecidableEq V]

/-- `a` and `b` are joined by an edge of the list. -/
def Edge (E : List (V × V)) (a b : V) : Prop := (a, b) ∈ E

def targets (E : List (V × V)) (v : V) : List V :=
  (E.filter fun e ↦ e.1 = v).map Prod.snd

@[simp] theorem mem_targets {E : List (V × V)} {v w : V} :
    w ∈ targets E v ↔ Edge E v w := by
  simp [targets, Edge]

/-! ## Depth-first search -/

/-- The stack loop: pop a vertex, ignore it when it is excluded or already
seen, otherwise record it and push its unseen successors. -/
def search (E : List (V × V)) (skip : V → Bool) : ℕ → List V → List V → List V
  | 0, seen, _ => seen
  | _ + 1, seen, [] => seen
  | n + 1, seen, v :: stack =>
      if skip v = true ∨ v ∈ seen then search E skip n seen stack
      else
        search E skip n (v :: seen)
          (((targets E v).filter fun w ↦ ¬skip w ∧ w ∉ v :: seen).reverse ++ stack)

/-- One edge whose end is not excluded. -/
def Open (E : List (V × V)) (skip : V → Bool) (a b : V) : Prop :=
  Edge E a b ∧ skip b = false

/-- Reachable from the starting vertices without entering an excluded one. -/
def Found (E : List (V × V)) (skip : V → Bool) (starts : List V) (w : V) : Prop :=
  ∃ s ∈ starts, skip s = false ∧ Relation.ReflTransGen (Open E skip) s w

/-- The edges that a search with this `seen` list may still follow. -/
def pendingEdges (E : List (V × V)) (seen : List V) : List (V × V) :=
  E.filter fun e ↦ e.1 ∉ seen

theorem pendingEdges_length_cons {E : List (V × V)} {seen : List V} {v : V} (hv : v ∉ seen) :
    (pendingEdges E (v :: seen)).length + (targets E v).length = (pendingEdges E seen).length := by
  induction E with
  | nil => rfl
  | cons e E ih =>
      simp only [pendingEdges, targets, List.length_map, List.filter_cons] at ih ⊢
      by_cases h : e.1 = v
      · simp [h, hv] at ih ⊢
        omega
      · by_cases hs : e.1 ∈ seen <;> simp [h, hs] at ih ⊢ <;> omega

theorem search_sound {E : List (V × V)} {skip : V → Bool} {starts : List V} :
    ∀ (n : ℕ) (seen stack : List V), (∀ v ∈ seen, Found E skip starts v) →
      (∀ v ∈ stack, skip v = false → Found E skip starts v) →
      ∀ w ∈ search E skip n seen stack, Found E skip starts w := by
  intro n
  induction n with
  | zero => intro seen stack hseen _ w hw; exact hseen w hw
  | succ n ih =>
      intro seen stack hseen hstack w hw
      cases stack with
      | nil => exact hseen w hw
      | cons v stack =>
          rw [search] at hw
          split at hw
          · exact ih seen stack hseen (fun u hu ↦ hstack u (List.mem_cons_of_mem v hu)) w hw
          · next hnew =>
            push Not at hnew
            have hv : Found E skip starts v := hstack v (by simp) (by simpa using hnew.1)
            refine ih (v :: seen) _ ?_ ?_ w hw
            · intro u hu
              rcases List.mem_cons.mp hu with rfl | hu
              · exact hv
              · exact hseen u hu
            · intro u hu hskip
              rcases List.mem_append.mp hu with hu | hu
              · obtain ⟨s, hs, hss, hpath⟩ := hv
                simp only [List.mem_reverse, List.mem_filter, mem_targets] at hu
                exact ⟨s, hs, hss, hpath.tail ⟨hu.1, hskip⟩⟩
              · exact hstack u (List.mem_cons_of_mem v hu) hskip

/-- With fuel for every stack entry and every edge that can still be followed,
the loop ends with a set that contains the stack and is closed under edges. -/
theorem search_closed (E : List (V × V)) (skip : V → Bool) :
    ∀ (n : ℕ) (seen stack : List V),
      stack.length + (pendingEdges E seen).length ≤ n →
      (∀ v ∈ seen, ∀ w, Open E skip v w → w ∈ seen ∨ w ∈ stack) →
      seen ⊆ search E skip n seen stack ∧
        (∀ v ∈ stack, skip v = false → v ∈ search E skip n seen stack) ∧
        ∀ v ∈ search E skip n seen stack, ∀ w, Open E skip v w →
          w ∈ search E skip n seen stack := by
  intro n
  induction n with
  | zero =>
      intro seen stack hfuel hedge
      have hnil : stack = [] := List.length_eq_zero_iff.mp (by omega)
      subst hnil
      exact ⟨fun _ h ↦ h, by simp, fun v hv w hw ↦ by simpa [search] using hedge v hv w hw⟩
  | succ n ih =>
      intro seen stack hfuel hedge
      cases stack with
      | nil =>
          exact ⟨fun _ h ↦ h, by simp, fun v hv w hw ↦ by simpa [search] using hedge v hv w hw⟩
      | cons v stack =>
          rw [search]
          split
          · next hold =>
            have hrest : ∀ u ∈ seen, ∀ w, Open E skip u w → w ∈ seen ∨ w ∈ stack := by
              intro u hu w hw
              rcases hedge u hu w hw with h | h
              · exact .inl h
              · rcases List.mem_cons.mp h with rfl | h
                · rcases hold with hskip | hmem
                  · exact absurd hskip (by simp [hw.2])
                  · exact .inl hmem
                · exact .inr h
            obtain ⟨h₁, h₂, h₃⟩ := ih seen stack (by simp at hfuel; omega) hrest
            refine ⟨h₁, ?_, h₃⟩
            intro u hu hskip
            rcases List.mem_cons.mp hu with rfl | hu
            · rcases hold with h | h
              · simp [h] at hskip
              · exact h₁ h
            · exact h₂ u hu hskip
          · next hnew =>
            push Not at hnew
            have hpot := pendingEdges_length_cons (E := E) hnew.2
            have hlen := List.length_filter_le
              (fun w ↦ decide (¬skip w = true ∧ w ∉ v :: seen)) (targets E v)
            obtain ⟨h₁, h₂, h₃⟩ := ih (v :: seen)
              (((targets E v).filter fun w ↦ ¬skip w ∧ w ∉ v :: seen).reverse ++ stack)
              (by
                simp only [List.length_append, List.length_reverse, List.length_cons] at hfuel ⊢
                omega)
              (by
                intro u hu w hw
                by_cases hmem : w ∈ v :: seen
                · exact .inl hmem
                · rcases List.mem_cons.mp hu with rfl | hu
                  · refine .inr (List.mem_append_left _ ?_)
                    simp only [List.mem_reverse, List.mem_filter, mem_targets]
                    exact ⟨hw.1, by simpa [hw.2] using hmem⟩
                  · rcases hedge u hu w hw with h | h
                    · exact .inl (List.mem_cons_of_mem v h)
                    · rcases List.mem_cons.mp h with rfl | h
                      · exact absurd List.mem_cons_self hmem
                      · exact .inr (List.mem_append_right _ h))
            refine ⟨fun u hu ↦ h₁ (List.mem_cons_of_mem v hu), ?_, h₃⟩
            intro u hu hskip
            rcases List.mem_cons.mp hu with rfl | hu
            · exact h₁ List.mem_cons_self
            · exact h₂ u (List.mem_append_right _ hu) hskip

/-- The search from `starts` finds exactly the vertices reachable from them
through vertices that are not excluded. -/
theorem mem_search_iff {E : List (V × V)} {skip : V → Bool} {starts : List V} {w : V} :
    w ∈ search E skip (starts.length + E.length) [] starts ↔ Found E skip starts w := by
  constructor
  · exact fun hw ↦ search_sound _ [] starts (by simp)
      (fun v hv hskip ↦ ⟨v, hv, hskip, .refl⟩) w hw
  · rintro ⟨s, hs, hskip, hpath⟩
    obtain ⟨-, h₂, h₃⟩ := search_closed E skip (starts.length + E.length) [] starts
      (by simp [pendingEdges]) (by simp)
    induction hpath with
    | refl => exact h₂ s hs hskip
    | tail _ hstep ih => exact h₃ _ ih _ hstep

/-- The stack loop, run until the stack is empty. -/
inductive Searches (E : List (V × V)) (skip : V → Bool) : List V → List V → List V → Prop
  | done {seen : List V} : Searches E skip seen [] seen
  | pass {seen stack result : List V} {v : V} (hold : skip v = true ∨ v ∈ seen)
      (h : Searches E skip seen stack result) : Searches E skip seen (v :: stack) result
  | visit {seen stack result : List V} {v : V} (hnew : ¬(skip v = true ∨ v ∈ seen))
      (h : Searches E skip (v :: seen)
        (((targets E v).filter fun w ↦ ¬skip w ∧ w ∉ v :: seen).reverse ++ stack) result) :
      Searches E skip seen (v :: stack) result

/-- The loop ends, with the set that the search returns. -/
theorem searches_search (E : List (V × V)) (skip : V → Bool) :
    ∀ (n : ℕ) (seen stack : List V), stack.length + (pendingEdges E seen).length ≤ n →
      Searches E skip seen stack (search E skip n seen stack) := by
  intro n
  induction n with
  | zero =>
      intro seen stack hfuel
      obtain rfl : stack = [] := List.length_eq_zero_iff.mp (by omega)
      exact .done
  | succ n ih =>
      intro seen stack hfuel
      cases stack with
      | nil => exact .done
      | cons v stack =>
          simp only [List.length_cons] at hfuel
          rw [search]
          by_cases hold : skip v = true ∨ v ∈ seen
          · rw [if_pos hold]
            apply Searches.pass hold
            apply ih
            omega
          · rw [if_neg hold]
            apply Searches.visit hold
            apply ih
            have hpot := pendingEdges_length_cons (E := E) fun h ↦ hold (.inr h)
            have hlen := List.length_filter_le
              (fun w ↦ decide (¬skip w = true ∧ w ∉ v :: seen)) (targets E v)
            rw [List.length_append, List.length_reverse]
            omega

/-- All vertices reachable from `starts`. -/
def reachable (E : List (V × V)) (starts : List V) : List V :=
  search E (fun _ ↦ false) (starts.length + E.length) [] starts.reverse

theorem mem_reachable_iff {E : List (V × V)} {starts : List V} {w : V} :
    w ∈ reachable E starts ↔ ∃ s ∈ starts, Relation.ReflTransGen (Edge E) s w := by
  have hopen : Open E (fun _ ↦ false) = Edge E := by
    funext a b
    simp [Open]
  rw [reachable, ← List.length_reverse, mem_search_iff]
  simp [Found, hopen]

/-- The vertices other than `v` that a non-empty path from `v` reaches: the
search starts at the successors of `v` and never expands `v` itself. -/
def strictlyBelow (E : List (V × V)) (v : V) : List V :=
  search E (· = v) ((targets E v).length + E.length) [] (targets E v).reverse

theorem mem_strictlyBelow_iff {E : List (V × V)} {v w : V} :
    w ∈ strictlyBelow E v ↔ w ≠ v ∧ Relation.TransGen (Edge E) v w := by
  have hsearch : w ∈ strictlyBelow E v ↔ Found E (· = v) (targets E v).reverse w := by
    rw [strictlyBelow, ← List.length_reverse, mem_search_iff]
  rw [hsearch]
  clear hsearch
  constructor
  · rintro ⟨s, hs, hsv, hpath⟩
    have hvs : Edge E v s := by simpa using hs
    induction hpath with
    | refl => exact ⟨by simpa using hsv, .single hvs⟩
    | tail _ hstep ih => exact ⟨by simpa using hstep.2, ih.2.tail hstep.1⟩
  · rintro ⟨hne, hpath⟩
    induction hpath with
    | single hedge => exact ⟨_, by simpa using hedge, by simpa using hne, .refl⟩
    | @tail b c _ hedge ih =>
        by_cases hb : b = v
        · subst hb
          exact ⟨c, by simpa using hedge, by simpa using hne, .refl⟩
        · obtain ⟨s, hs, hsv, hsb⟩ := ih hb
          exact ⟨s, hs, hsv, hsb.tail ⟨hedge, by simpa using hne⟩⟩

theorem searches_strictlyBelow (E : List (V × V)) (v : V) :
    Searches E (· = v) [] (targets E v).reverse (strictlyBelow E v) := by
  apply searches_search
  simp [pendingEdges]

/-! ## Kahn's removal -/

/-- The number of edges into `v` whose source has not been removed. -/
def remaining (E : List (V × V)) (removed : List V) (v : V) : ℤ :=
  (E.filter fun e ↦ e.2 = v ∧ e.1 ∉ removed).length

/-- Decrement the degree of each successor that is a vertex, and append it to
the queue when its degree reaches zero. -/
def relax (nodes : List V) : List V → (V → ℤ) × List V → (V → ℤ) × List V
  | [], st => st
  | w :: ws, (degree, queue) =>
      if w ∈ nodes then
        let d := degree w - 1
        relax nodes ws
          (Function.update degree w d, if d = 0 then queue ++ [w] else queue)
      else relax nodes ws (degree, queue)

def removalLoop (E : List (V × V)) (nodes : List V) :
    ℕ → (V → ℤ) × List V → (V → ℤ) × List V
  | 0, st => st
  | _ + 1, (degree, []) => (degree, [])
  | n + 1, (degree, v :: queue) =>
      removalLoop E nodes n (relax nodes (targets E v) (degree, queue))

/-- The vertices whose degree stays positive when vertices of degree zero are
removed for as long as there are any. -/
def leftover (E : List (V × V)) (nodes : List V) : List V :=
  let degree := remaining E []
  let queue := nodes.filter fun v ↦ degree v = 0
  nodes.filter fun v ↦ 0 < (removalLoop E nodes nodes.length (degree, queue)).1 v

/-- The removal loop, run until the queue is empty. -/
inductive Removes (E : List (V × V)) (nodes : List V) : (V → ℤ) × List V → (V → ℤ) → Prop
  | done {degree : V → ℤ} : Removes E nodes (degree, []) degree
  | pop {degree result : V → ℤ} {queue : List V} {v : V}
      (h : Removes E nodes (relax nodes (targets E v) (degree, queue)) result) :
      Removes E nodes (degree, v :: queue) result

theorem removes_of_nil {E : List (V × V)} {nodes : List V} :
    ∀ (n : ℕ) (st : (V → ℤ) × List V), (removalLoop E nodes n st).2 = [] →
      Removes E nodes st (removalLoop E nodes n st).1 := by
  intro n
  induction n with
  | zero =>
      rintro ⟨degree, queue⟩ h
      obtain rfl : queue = [] := h
      exact .done
  | succ n ih =>
      rintro ⟨degree, queue⟩ h
      cases queue with
      | nil => exact .done
      | cons v queue => exact .pop (ih _ h)

/-- What the removal loop keeps: degrees count the edges from vertices that
are still there, the queue and the removed vertices are those of degree zero,
and every removed vertex is accessible. -/
structure Removal (E : List (V × V)) (nodes removed : List V) (st : (V → ℤ) × List V) : Prop where
  degree : ∀ v ∈ nodes, st.1 v = remaining E removed v
  zero : ∀ v ∈ nodes, st.1 v = 0 ↔ v ∈ removed ∨ v ∈ st.2
  nodup : (removed ++ st.2).Nodup
  subset : ∀ v ∈ removed ++ st.2, v ∈ nodes
  acc : ∀ v ∈ removed, Acc (Edge E) v

theorem remaining_nonneg (E : List (V × V)) (removed : List V) (v : V) :
    0 ≤ remaining E removed v := by
  simp [remaining]

theorem source_removed_of_remaining_eq_zero {E : List (V × V)} {removed : List V} {u v : V}
    (h : remaining E removed v = 0) (huv : Edge E u v) : u ∈ removed := by
  by_contra hu
  have hmem : (u, v) ∈ E.filter fun e ↦ e.2 = v ∧ e.1 ∉ removed := by
    simpa using ⟨huv, hu⟩
  have hlen : (E.filter fun e ↦ e.2 = v ∧ e.1 ∉ removed).length = 0 := by
    simpa [remaining] using h
  rw [List.length_eq_zero_iff.mp hlen] at hmem
  exact List.not_mem_nil hmem

theorem remaining_cons {E : List (V × V)} {removed : List V} {u : V} (hu : u ∉ removed) (v : V) :
    remaining E (u :: removed) v = remaining E removed v - (targets E u).count v := by
  have key : (E.filter fun e ↦ e.2 = v ∧ e.1 ∉ removed).length =
      (E.filter fun e ↦ e.2 = v ∧ e.1 ∉ u :: removed).length + (targets E u).count v := by
    induction E with
    | nil => rfl
    | cons e E ih =>
        by_cases h₁ : e.1 = u <;> by_cases h₂ : e.2 = v <;> by_cases h₃ : e.1 ∈ removed <;>
          simp_all [targets] <;> omega
  simp only [remaining, key]
  push_cast
  omega

/-- One call of `relax` subtracts from each vertex the number of its
occurrences, and queues exactly the vertices that reach zero by it. -/
theorem relax_spec (nodes : List V) : ∀ (ws : List V) (degree : V → ℤ) (queue : List V),
    (∀ v ∈ nodes, (ws.count v : ℤ) ≤ degree v) →
    (∀ v ∈ nodes, (relax nodes ws (degree, queue)).1 v = degree v - ws.count v) ∧
      ∃ fresh : List V, (relax nodes ws (degree, queue)).2 = queue ++ fresh ∧ fresh.Nodup ∧
        ∀ v, v ∈ fresh ↔ v ∈ nodes ∧ v ∈ ws ∧ degree v = ws.count v := by
  intro ws
  induction ws with
  | nil => intro degree queue _; exact ⟨by simp [relax], [], by simp [relax]⟩
  | cons w ws ih =>
      intro degree queue hle
      by_cases hw : w ∈ nodes
      · have hle' : ∀ v ∈ nodes,
            (ws.count v : ℤ) ≤ Function.update degree w (degree w - 1) v := by
          intro v hv
          have hv' := hle v hv
          by_cases h : v = w
          · subst h
            simp only [Function.update_self, List.count_cons_self] at hv' ⊢
            push_cast at hv'
            omega
          · simpa [h, List.count_cons_of_ne (Ne.symm h)] using hv'
        obtain ⟨hdeg, fresh, hq, hnd, hfresh⟩ := ih (Function.update degree w (degree w - 1))
          (if degree w - 1 = 0 then queue ++ [w] else queue) hle'
        have hstep : relax nodes (w :: ws) (degree, queue) =
            relax nodes ws (Function.update degree w (degree w - 1),
              if degree w - 1 = 0 then queue ++ [w] else queue) := by
          simp [relax, hw]
        rw [hstep]
        constructor
        · intro v hv
          rw [hdeg v hv]
          by_cases h : v = w
          · subst h
            simp only [Function.update_self, List.count_cons_self]
            push_cast
            omega
          · simp [h, List.count_cons_of_ne (Ne.symm h)]
        · have hold : w ∈ fresh ↔ w ∈ ws ∧ degree w = (w :: ws).count w := by
            rw [hfresh w]
            simp only [hw, true_and, Function.update_self, List.count_cons_self]
            push_cast
            constructor
            · rintro ⟨h₁, h₂⟩; exact ⟨h₁, by omega⟩
            · rintro ⟨h₁, h₂⟩; exact ⟨h₁, by omega⟩
          have hother : ∀ v, v ≠ w →
              (v ∈ fresh ↔ v ∈ nodes ∧ v ∈ w :: ws ∧ degree v = (w :: ws).count v) := by
            intro v h
            rw [hfresh v]
            simp [h, List.count_cons_of_ne (Ne.symm h)]
          by_cases hd : degree w - 1 = 0
          · -- `w` is queued now; it cannot be queued again, since it does not occur in `ws`
            have hcount : ws.count w = 0 := by
              have := hle w hw
              simp only [List.count_cons_self] at this
              push_cast at this
              omega
            have hnot : w ∉ fresh := by
              rw [hold]
              exact fun h ↦ List.count_eq_zero.mp hcount h.1
            refine ⟨w :: fresh, by simpa [hd] using hq, List.nodup_cons.mpr ⟨hnot, hnd⟩, ?_⟩
            intro v
            by_cases h : v = w
            · subst h
              simp only [List.mem_cons_self, true_iff, hw, true_and, List.count_cons_self]
              push_cast
              omega
            · rw [← hother v h]
              simp [h]
          · refine ⟨fresh, by simpa [hd] using hq, hnd, ?_⟩
            intro v
            by_cases h : v = w
            · subst h
              rw [hold]
              simp only [hw, true_and, List.mem_cons_self]
              refine ⟨fun h ↦ h.2, fun h ↦ ⟨?_, h⟩⟩
              rw [List.count_cons_self] at h
              push_cast at h
              exact List.count_pos_iff.mp (by omega)
            · exact hother v h
      · obtain ⟨hdeg, fresh, hq, hnd, hfresh⟩ := ih degree queue (fun v hv ↦ by
          have h : v ≠ w := fun h ↦ hw (h ▸ hv)
          simpa [List.count_cons_of_ne (Ne.symm h)] using hle v hv)
        have hstep : relax nodes (w :: ws) (degree, queue) = relax nodes ws (degree, queue) := by
          simp [relax, hw]
        rw [hstep]
        refine ⟨?_, fresh, hq, hnd, ?_⟩
        · intro v hv
          have h : v ≠ w := fun h ↦ hw (h ▸ hv)
          rw [hdeg v hv, List.count_cons_of_ne (Ne.symm h)]
        · intro v
          rw [hfresh v]
          by_cases h : v = w
          · simp [h, hw]
          · simp [h, List.count_cons_of_ne (Ne.symm h)]

theorem removal_init (E : List (V × V)) {nodes : List V} (hnodes : nodes.Nodup) :
    Removal E nodes [] (remaining E [], nodes.filter fun v ↦ remaining E [] v = 0) where
  degree := fun _ _ ↦ rfl
  zero := by intro v hv; simp [hv]
  nodup := by simpa using hnodes.filter _
  subset := by intro v hv; simp at hv; exact hv.1
  acc := by simp

/-- Removing the head of the queue keeps the invariant. -/
theorem Removal.step {E : List (V × V)} {nodes removed queue : List V} {degree : V → ℤ} {v : V}
    (h : Removal E nodes removed (degree, v :: queue)) :
    Removal E nodes (v :: removed) (relax nodes (targets E v) (degree, queue)) := by
  have hnd := List.nodup_append.mp h.nodup
  have hv : v ∈ nodes := h.subset v (by simp)
  have hvr : v ∉ removed := fun hmem ↦ hnd.2.2 v hmem v (by simp) rfl
  have hle : ∀ u ∈ nodes, ((targets E v).count u : ℤ) ≤ degree u := by
    intro u hu
    have h₁ := remaining_cons (E := E) hvr u
    have h₂ := remaining_nonneg E (v :: removed) u
    have h₃ : degree u = remaining E removed u := h.degree u hu
    omega
  obtain ⟨hdeg, fresh, hq, hfnd, hfresh⟩ := relax_spec nodes (targets E v) degree queue hle
  have hdegree : ∀ u ∈ nodes, (relax nodes (targets E v) (degree, queue)).1 u =
      remaining E (v :: removed) u := by
    intro u hu
    rw [hdeg u hu, remaining_cons hvr, ← h.degree u hu]
  have hzero : ∀ u ∈ nodes, degree u = 0 ↔ u ∈ removed ∨ u = v ∨ u ∈ queue := by
    intro u hu
    simpa using h.zero u hu
  have hfreshZero : ∀ u ∈ fresh, degree u ≠ 0 := by
    intro u hu hd
    obtain ⟨_, hmem, hcount⟩ := (hfresh u).mp hu
    have := List.count_pos_iff.mpr hmem
    omega
  refine ⟨hdegree, ?_, ?_, ?_, ?_⟩
  · intro u hu
    rw [hdeg u hu, hq, List.mem_append, hfresh u]
    constructor
    · intro hd
      by_cases hcount : (targets E v).count u = 0
      · rcases (hzero u hu).mp (by omega) with h | rfl | h
        · exact .inl (List.mem_cons_of_mem v h)
        · exact .inl List.mem_cons_self
        · exact .inr (.inl h)
      · exact .inr (.inr ⟨hu, List.count_pos_iff.mp (by omega), by omega⟩)
    · rintro (hmem | hmem | ⟨_, _, hd⟩)
      · have hd : degree u = 0 := (hzero u hu).mpr (by
          rcases List.mem_cons.mp hmem with rfl | hmem
          · exact .inr (.inl rfl)
          · exact .inl hmem)
        have := hle u hu
        omega
      · have hd : degree u = 0 := (hzero u hu).mpr (.inr (.inr hmem))
        have := hle u hu
        omega
      · omega
  · rw [hq]
    have hbase : (v :: removed ++ queue).Nodup := by
      have hperm : (removed ++ v :: queue).Perm (v :: removed ++ queue) :=
        List.perm_middle
      exact hperm.nodup_iff.mp h.nodup
    rw [← List.append_assoc]
    refine List.nodup_append.mpr ⟨hbase, hfnd, ?_⟩
    rintro a ha b hb rfl
    refine hfreshZero a hb ((hzero a ((hfresh a).mp hb).1).mpr ?_)
    simp only [List.cons_append, List.mem_cons, List.mem_append] at ha
    tauto
  · intro u hu
    rw [hq] at hu
    simp only [List.cons_append, List.mem_cons, List.mem_append] at hu
    rcases hu with rfl | hu | hu | hu
    · exact hv
    · exact h.subset u (by simp [hu])
    · exact h.subset u (by simp [hu])
    · exact ((hfresh u).mp hu).1
  · intro u hu
    rcases List.mem_cons.mp hu with rfl | hu
    · refine Acc.intro u fun y hy ↦ h.acc y ?_
      refine source_removed_of_remaining_eq_zero ?_ hy
      rw [← h.degree u hv]
      exact (h.zero u hv).mpr (.inr List.mem_cons_self)
    · exact h.acc u hu

theorem removalLoop_spec (E : List (V × V)) (nodes : List V) :
    ∀ (n : ℕ) (removed : List V) (st : (V → ℤ) × List V), Removal E nodes removed st →
      nodes.length ≤ n + removed.length →
      ∃ removed', Removal E nodes removed' (removalLoop E nodes n st) ∧
        (removalLoop E nodes n st).2 = [] := by
  intro n
  induction n with
  | zero =>
      rintro removed ⟨degree, queue⟩ h hlen
      refine ⟨removed, h, ?_⟩
      -- all vertices are removed already, so nothing can be queued
      have hsub : removed ++ queue ⊆ nodes := fun u hu ↦ h.subset u hu
      have hle := (List.subperm_of_subset h.nodup hsub).length_le
      simp only [List.length_append] at hle
      change queue = []
      exact List.length_eq_zero_iff.mp (by omega)
  | succ n ih =>
      rintro removed ⟨degree, queue⟩ h hlen
      cases queue with
      | nil => exact ⟨removed, h, rfl⟩
      | cons v queue =>
          exact ih (v :: removed) _ h.step (by simp; omega)

/-- The leftover vertices are those from which the edges can be followed
backwards for ever: the vertices that are not accessible. -/
theorem mem_leftover_iff {E : List (V × V)} {nodes : List V} (hnodes : nodes.Nodup)
    (hclosed : ∀ e ∈ E, e.1 ∈ nodes) {v : V} :
    v ∈ leftover E nodes ↔ v ∈ nodes ∧ ¬Acc (Edge E) v := by
  obtain ⟨removed, hrem, hqueue⟩ := removalLoop_spec E nodes nodes.length [] _
    (removal_init E hnodes) (by simp)
  have hzero : ∀ u ∈ nodes, (removalLoop E nodes nodes.length
      (remaining E [], nodes.filter fun v ↦ remaining E [] v = 0)).1 u = 0 ↔ u ∈ removed := by
    intro u hu
    rw [hrem.zero u hu, hqueue]
    simp
  have hiff : ∀ u ∈ nodes, u ∈ removed ↔ Acc (Edge E) u := by
    refine fun u hu ↦ ⟨hrem.acc u, fun hacc ↦ ?_⟩
    induction hacc with
    | intro u _ ih =>
        rw [← hzero u hu, hrem.degree u hu]
        have hnil : (E.filter fun e ↦ e.2 = u ∧ e.1 ∉ removed) = [] := by
          refine List.filter_eq_nil_iff.mpr fun e he hcond ↦ ?_
          simp only [decide_eq_true_eq] at hcond
          have hedge : Edge E e.1 u := by rw [Edge, ← hcond.1]; exact he
          exact hcond.2 (ih e.1 hedge (hclosed e he))
        rw [remaining, hnil]
        rfl
  simp only [leftover, List.mem_filter, decide_eq_true_eq]
  refine and_congr_right fun hv ↦ ?_
  rw [← hiff v hv, ← hzero v hv]
  have hnonneg : 0 ≤ (removalLoop E nodes nodes.length
      (remaining E [], nodes.filter fun v ↦ remaining E [] v = 0)).1 v := by
    rw [hrem.degree v hv]
    exact remaining_nonneg E removed v
  omega

/-- Nothing is left over exactly when every vertex is accessible. -/
theorem leftover_eq_nil_iff {E : List (V × V)} {nodes : List V} (hnodes : nodes.Nodup)
    (hclosed : ∀ e ∈ E, e.1 ∈ nodes) :
    leftover E nodes = [] ↔ ∀ v ∈ nodes, Acc (Edge E) v := by
  rw [List.eq_nil_iff_forall_not_mem]
  simp only [mem_leftover_iff hnodes hclosed, not_and, not_not]

/-- The removal loop ends, and `leftover` reads its degrees. -/
theorem removes_leftover (E : List (V × V)) {nodes : List V} (hnodes : nodes.Nodup) :
    ∃ degree, Removes E nodes
        (remaining E [], nodes.filter fun v ↦ remaining E [] v = 0) degree ∧
      leftover E nodes = nodes.filter fun v ↦ 0 < degree v := by
  obtain ⟨-, -, hqueue⟩ := removalLoop_spec E nodes nodes.length [] _
    (removal_init E hnodes) (by simp)
  exact ⟨_, removes_of_nil _ _ hqueue, rfl⟩

/-! ## Cycles -/

omit [DecidableEq V] in
/-- A vertex behind a cycle is not accessible. -/
theorem not_acc_of_cycle {E : List (V × V)} {c v : V} (hcycle : Relation.TransGen (Edge E) c c)
    (hpath : Relation.ReflTransGen (Edge E) c v) : ¬Acc (Edge E) v := by
  intro hacc
  have hc : Acc (Relation.TransGen (Edge E)) c := by
    rcases Relation.reflTransGen_iff_eq_or_transGen.mp hpath with rfl | hpath
    · exact hacc.transGen
    · exact hacc.transGen.inv hpath
  clear hpath
  induction hc with
  | intro c _ ih => exact ih c hcycle hcycle

omit [DecidableEq V] in
/-- Where no cycle leads to `v`, it is accessible: only finitely many vertices lead to it. -/
theorem acc_of_no_cycle {E : List (V × V)} {v : V}
    (h : ∀ c, Relation.ReflTransGen (Edge E) c v → ¬Relation.TransGen (Edge E) c c) :
    Acc (Edge E) v := by
  have hfinite : Finite { c // Relation.ReflTransGen (Edge E) c v } := by
    refine Set.Finite.subset (List.finite_toSet (v :: E.map Prod.fst)) fun c hc ↦ ?_
    rcases Relation.ReflTransGen.cases_head hc with rfl | ⟨d, hstep, -⟩
    · exact List.mem_cons_self
    · exact List.mem_cons_of_mem _ (List.mem_map_of_mem (f := Prod.fst) hstep)
  let Before (a b : { c // Relation.ReflTransGen (Edge E) c v }) : Prop :=
    Relation.TransGen (Edge E) a.1 b.1
  have htrans : IsTrans _ Before := ⟨fun _ _ _ hab hbc ↦ hab.trans hbc⟩
  have hirrefl : Std.Irrefl Before := ⟨fun a ↦ h a.1 a.2⟩
  have hacc (c : { c // Relation.ReflTransGen (Edge E) c v }) : Acc (Edge E) c.1 := by
    induction c using (Finite.wellFounded_of_trans_of_irrefl Before).induction with
    | _ c ih =>
        refine Acc.intro c.1 fun b hb ↦ ?_
        exact ih ⟨b, c.2.head hb⟩ (.single hb)
  exact hacc ⟨v, .refl⟩

omit [DecidableEq V] in
/-- The inaccessible vertices are those on a cycle or behind one. -/
theorem not_acc_iff {E : List (V × V)} {v : V} : ¬Acc (Edge E) v ↔
    ∃ c, Relation.TransGen (Edge E) c c ∧ Relation.ReflTransGen (Edge E) c v := by
  constructor
  · intro h
    by_contra hnone
    refine h (acc_of_no_cycle fun c hpath hcycle ↦ hnone ⟨c, hcycle, hpath⟩)
  · rintro ⟨c, hcycle, hpath⟩
    exact not_acc_of_cycle hcycle hpath

end Worklist
