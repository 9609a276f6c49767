import Mathlib.Data.List.Basic
import Mathlib.Data.List.Infix

/-!
# Replacing the occurrences of a word

A left-to-right replacement of a word in which no occurrence overlaps another one, on a text
that is given as what stands between some of the occurrences.
-/

namespace Text

variable {α : Type*} [DecidableEq α]

/-- The fuel is the length of the text. -/
def replaceAux (old new : List α) : ℕ → List α → List α
  | 0, s => s
  | _ + 1, [] => []
  | n + 1, c :: cs =>
      if old.isPrefixOf (c :: cs) then new ++ replaceAux old new n ((c :: cs).drop old.length)
      else c :: replaceAux old new n cs

def replace (old new s : List α) : List α :=
  replaceAux old new s.length s

omit [DecidableEq α] in
/-- No proper end of the word is a beginning of it. -/
def Unbordered (word : List α) : Prop :=
  ∀ k, 0 < k → k < word.length → ¬word.drop k <+: word

variable {old new : List α}

theorem replaceAux_of_le (hold : old ≠ []) (n m : ℕ) (s : List α) (hn : s.length ≤ n)
    (hm : s.length ≤ m) : replaceAux old new n s = replaceAux old new m s := by
  induction n generalizing m s with
  | zero =>
      cases List.length_eq_zero_iff.mp (Nat.le_zero.mp hn)
      cases m <;> rfl
  | succ n ih =>
      cases s with
      | nil => cases m <;> rfl
      | cons c cs =>
          obtain ⟨m, rfl⟩ : ∃ k, m = k + 1 := ⟨m - 1, by simp at hm; omega⟩
          simp only [List.length_cons] at hn hm
          have hpos : 0 < old.length := List.length_pos_iff.mpr hold
          simp only [replaceAux]
          rw [ih m cs (by omega) (by omega),
            ih m ((c :: cs).drop old.length) (by simp; omega) (by simp; omega)]

@[simp] theorem replace_nil : replace old new [] = [] := rfl

theorem replace_word (hold : old ≠ []) (s : List α) :
    replace old new (old ++ s) = new ++ replace old new s := by
  obtain ⟨c, cs, rfl⟩ := List.exists_cons_of_ne_nil hold
  rw [replace, List.cons_append, List.length_cons, replaceAux, if_pos (by simp)]
  congr 1
  rw [← List.cons_append, List.drop_left]
  exact replaceAux_of_le hold _ _ s (by simp) le_rfl

theorem replace_cons {c : α} {cs : List α} (h : ¬old <+: c :: cs) :
    replace old new (c :: cs) = c :: replace old new cs := by
  rw [replace, List.length_cons, replaceAux,
    if_neg (by rwa [List.isPrefixOf_iff_prefix])]
  rfl

omit [DecidableEq α] in
/-- An occurrence in front of the word does not reach into it. -/
theorem Unbordered.prefix_of_append {w s : List α} (hold : Unbordered old) (hw : w ≠ [])
    (h : old <+: w ++ (old ++ s)) : old <+: w := by
  by_cases hlength : old.length ≤ w.length
  · exact List.prefix_of_prefix_length_le h (List.prefix_append _ _) hlength
  · exfalso
    have hpos : 0 < w.length := List.length_pos_iff.mpr hw
    apply hold w.length hpos (by omega)
    obtain ⟨rest, hrest⟩ := h
    have hdrop : old.drop w.length ++ rest = old ++ s := by
      have := congrArg (List.drop w.length) hrest
      rwa [List.drop_append_of_le_length (by omega), List.drop_left] at this
    exact List.prefix_of_prefix_length_le ⟨rest, hdrop⟩ (List.prefix_append _ _) (by simp)

omit [DecidableEq α] in
/-- An occurrence that begins before the word ends before it does. -/
theorem prefix_dropLast_of_append {w s : List α} (hold : old ≠ []) (hw : w ≠ [])
    (h : old <+: w ++ (old ++ s)) : old <+: w ++ old.dropLast := by
  have hlast : old.dropLast ++ [old.getLast hold] = old := List.dropLast_append_getLast hold
  have hold' : 0 < old.length := List.length_pos_iff.mpr hold
  have hw' : 0 < w.length := List.length_pos_iff.mpr hw
  have hsplit : w ++ (old ++ s) = w ++ old.dropLast ++ ([old.getLast hold] ++ s) := by
    nth_rewrite 1 [← hlast]
    simp
  rw [hsplit] at h
  apply List.prefix_of_prefix_length_le h (List.prefix_append _ _)
  simp only [List.length_append, List.length_dropLast]
  omega

theorem replace_append (hold : old ≠ []) (hborder : Unbordered old) (w s : List α) :
    replace old new (w ++ (old ++ s)) = replace old new w ++ (new ++ replace old new s) := by
  induction hn : w.length using Nat.strong_induction_on generalizing w with
  | _ n ih =>
      cases w with
      | nil => simp [replace_word hold]
      | cons c cs =>
          by_cases hprefix : old <+: c :: cs
          · obtain ⟨rest, hrest⟩ := hprefix
            have hlength := congrArg List.length hrest
            have hpos : 0 < old.length := List.length_pos_iff.mpr hold
            rw [List.length_append] at hlength
            rw [← hrest, List.append_assoc, replace_word hold, replace_word hold,
              ih rest.length (by omega) rest rfl, List.append_assoc]
          · have hnot : ¬old <+: c :: cs ++ (old ++ s) :=
              fun h ↦ hprefix (hborder.prefix_of_append (List.cons_ne_nil c cs) h)
            have hcs := ih cs.length (by rw [← hn, List.length_cons]; omega) cs rfl
            rw [List.cons_append] at hnot ⊢
            rw [replace_cons hnot, replace_cons hprefix, hcs, List.cons_append]

/-- A text without the word stays as it is. -/
theorem replace_of_not_infix {w : List α} (h : ¬old <:+: w) :
    replace old new w = w := by
  induction w with
  | nil => rfl
  | cons c cs ih =>
      rw [replace_cons (fun hprefix ↦ h hprefix.isInfix),
        ih (fun hword ↦ h (hword.trans (List.suffix_cons c cs).isInfix))]

variable (new) in
theorem length_replace (hold : old ≠ []) (w : List α) :
    (old.length ≤ new.length → w.length ≤ (replace old new w).length) ∧
      (new.length ≤ old.length → (replace old new w).length ≤ w.length) := by
  induction hn : w.length using Nat.strong_induction_on generalizing w with
  | _ n ih =>
      cases w with
      | nil => simp [← hn]
      | cons c cs =>
          rw [List.length_cons] at hn
          by_cases hprefix : old <+: c :: cs
          · obtain ⟨rest, hrest⟩ := hprefix
            have hlength := congrArg List.length hrest
            have hpos : 0 < old.length := List.length_pos_iff.mpr hold
            rw [List.length_append, List.length_cons] at hlength
            obtain ⟨hle, hge⟩ := ih rest.length (by omega) rest rfl
            rw [← hrest, replace_word hold, List.length_append]
            constructor
            · intro hnew
              have := hle hnew
              omega
            · intro hnew
              have := hge hnew
              omega
          · obtain ⟨hle, hge⟩ := ih cs.length (by omega) cs rfl
            rw [replace_cons hprefix, List.length_cons]
            constructor
            · intro hnew
              have := hle hnew
              omega
            · intro hnew
              have := hge hnew
              omega

theorem replace_self (hold : old ≠ []) (w : List α) : replace old old w = w := by
  induction hn : w.length using Nat.strong_induction_on generalizing w with
  | _ n ih =>
      cases w with
      | nil => rfl
      | cons c cs =>
          rw [List.length_cons] at hn
          by_cases hprefix : old <+: c :: cs
          · obtain ⟨rest, hrest⟩ := hprefix
            have hlength := congrArg List.length hrest
            have hpos : 0 < old.length := List.length_pos_iff.mpr hold
            rw [List.length_append, List.length_cons] at hlength
            rw [← hrest, replace_word hold, ih rest.length (by omega) rest rfl]
          · rw [replace_cons hprefix, ih cs.length (by omega) cs rfl]

/-- A text is left as it is exactly when nothing is replaced in it. -/
theorem replace_eq_self_iff (hold : old ≠ []) (hborder : Unbordered old) (w : List α) :
    replace old new w = w ↔ new = old ∨ ¬old <:+: w := by
  constructor
  · intro heq
    by_contra hnot
    rw [not_or, not_not] at hnot
    obtain ⟨hne, a, b, hw⟩ := hnot
    rw [← hw, List.append_assoc, replace_append hold hborder] at heq
    have hlength := congrArg List.length heq
    simp only [List.length_append] at hlength
    obtain ⟨hlea, hgea⟩ := length_replace new hold a
    obtain ⟨hleb, hgeb⟩ := length_replace new hold b
    have hsame : (replace old new a).length = a.length ∧ new.length = old.length := by
      rcases Nat.le_total old.length new.length with hle | hge
      · have := hlea hle
        have := hleb hle
        omega
      · have := hgea hge
        have := hgeb hge
        omega
    obtain ⟨-, htail⟩ := List.append_inj heq hsame.1
    exact hne (List.append_inj htail hsame.2).1
  · rintro (rfl | hnot)
    · exact replace_self hold w
    · exact replace_of_not_infix hnot

/-! ## A text given by what stands between some occurrences -/

omit [DecidableEq α] in
theorem intercalate_modifyHead (x w : List α) {ws : List (List α)} (h : ws ≠ []) :
    x.intercalate (ws.modifyHead (w ++ ·)) = w ++ x.intercalate ws := by
  obtain ⟨v, ws, rfl⟩ := List.exists_cons_of_ne_nil h
  cases ws <;> simp [List.intercalate_cons_cons]

theorem replace_intercalate (hold : old ≠ []) (hborder : Unbordered old) (ws : List (List α)) :
    replace old new (old.intercalate ws) = new.intercalate (ws.map (replace old new)) := by
  induction ws with
  | nil => rfl
  | cons w ws ih =>
      cases ws with
      | nil => simp
      | cons w' ws =>
          rw [List.intercalate_cons_cons, List.append_assoc, replace_append hold hborder, ih]
          simp [List.intercalate_cons_cons]

omit [DecidableEq α] in
theorem map_eq_of_intercalate_eq {f g : List α → List α} {ws : List (List α)}
    (hle : ∀ w ∈ ws, (f w).length ≤ (g w).length)
    (heq : new.intercalate (ws.map f) = new.intercalate (ws.map g)) : ∀ w ∈ ws, f w = g w := by
  have hlength (ws : List (List α)) (hle : ∀ w ∈ ws, (f w).length ≤ (g w).length) :
      (new.intercalate (ws.map f)).length ≤ (new.intercalate (ws.map g)).length := by
    induction ws with
    | nil => exact le_rfl
    | cons w ws ih =>
        have hw := hle w List.mem_cons_self
        have hws := ih fun w hw ↦ hle w (List.mem_cons_of_mem _ hw)
        cases ws with
        | nil => simpa using hw
        | cons w' ws =>
            simp only [List.map_cons, List.intercalate_cons_cons, List.length_append] at hws ⊢
            omega
  induction ws with
  | nil => simp
  | cons w ws ih =>
      have hw := hle w List.mem_cons_self
      have hws : ∀ w ∈ ws, (f w).length ≤ (g w).length :=
        fun w hw ↦ hle w (List.mem_cons_of_mem _ hw)
      cases ws with
      | nil => simpa using heq
      | cons w' ws =>
          have hrest := hlength (w' :: ws) hws
          have htotal := congrArg List.length heq
          simp only [List.map_cons, List.intercalate_cons_cons, List.length_append,
            List.append_assoc] at heq htotal hrest ih
          obtain ⟨hhead, htail⟩ := List.append_inj heq (by omega)
          intro v hv
          rcases List.mem_cons.mp hv with rfl | hv
          · exact hhead
          · exact ih hws (List.append_cancel_left htail) v hv

/-- The replacement touches only the given occurrences exactly when the word stands nowhere
between them. -/
theorem replace_intercalate_eq_iff (hold : old ≠ []) (hborder : Unbordered old)
    (ws : List (List α)) :
    replace old new (old.intercalate ws) = new.intercalate ws ↔
      new = old ∨ ∀ w ∈ ws, ¬old <:+: w := by
  have hall : (∀ w ∈ ws, replace old new w = w) ↔ new = old ∨ ∀ w ∈ ws, ¬old <:+: w := by
    simp only [replace_eq_self_iff hold hborder]
    by_cases hnew : new = old <;> simp [hnew]
  rw [replace_intercalate hold hborder, ← hall]
  constructor
  · intro heq
    have hid : ws = ws.map id := by simp
    rcases Nat.le_total old.length new.length with hle | hge
    · intro w hw
      rw [hid] at heq
      rw [List.map_map] at heq
      exact (map_eq_of_intercalate_eq (f := id) (g := replace old new)
        (fun w _ ↦ (length_replace new hold w).1 hle) (by simpa using heq.symm) w hw).symm
    · intro w hw
      exact map_eq_of_intercalate_eq (f := replace old new) (g := id)
        (fun w _ ↦ (length_replace new hold w).2 hge) (by simpa using heq) w hw
  · intro heq
    rw [List.map_congr_left heq]
    simp

end Text
