import Relayvia.Library.Replace

/-!
# Splitting at a separator

A left-to-right split at the occurrences of a separator.  The text after the last occurrence
may be kept and split again together with what follows it.
-/

namespace Text

variable {α : Type*} [DecidableEq α]

/-- The text before the first occurrence of the separator, and the text after it. -/
def breakAt (sep : List α) : List α → Option (List α × List α)
  | [] => none
  | c :: cs =>
      if sep.isPrefixOf (c :: cs) then some ([], (c :: cs).drop sep.length)
      else (breakAt sep cs).map fun (before, after) ↦ (c :: before, after)

/-- The fuel is the length of the text. -/
def splitAux (sep : List α) : ℕ → List α → List (List α) × List α
  | 0, s => ([], s)
  | n + 1, s =>
      match breakAt sep s with
      | none => ([], s)
      | some (before, after) => (before :: (splitAux sep n after).1, (splitAux sep n after).2)

/-- The parts that a separator ends, and the last part. -/
def split (sep s : List α) : List (List α) × List α :=
  splitAux sep s.length s

variable {sep : List α}

theorem breakAt_eq_none (hsep : sep ≠ []) {s : List α} : breakAt sep s = none ↔ ¬sep <:+: s := by
  induction s with
  | nil =>
      simp only [breakAt, List.infix_nil, true_iff]
      exact hsep
  | cons c cs ih =>
      rw [breakAt]
      by_cases hstart : sep <+: c :: cs
      · rw [if_pos (List.isPrefixOf_iff_prefix.mpr hstart)]
        simp [hstart.isInfix]
      · rw [if_neg fun h ↦ hstart (List.isPrefixOf_iff_prefix.mp h), Option.map_eq_none_iff, ih,
          List.infix_cons_iff, not_or]
        exact ⟨fun h ↦ ⟨hstart, h⟩, fun h ↦ h.2⟩

/-- An occurrence at the front of the rest, and none that begins before it. -/
theorem breakAt_append (hsep : sep ≠ []) {w : List α} (h : ¬sep <:+: w ++ sep.dropLast)
    (s : List α) : breakAt sep (w ++ (sep ++ s)) = some (w, s) := by
  induction w with
  | nil =>
      obtain ⟨c, cs, rfl⟩ := List.exists_cons_of_ne_nil hsep
      simp [breakAt]
  | cons c cs ih =>
      have hnot : ¬sep <+: c :: (cs ++ (sep ++ s)) := by
        intro hstart
        apply h
        exact (prefix_dropLast_of_append hsep (List.cons_ne_nil c cs) hstart).isInfix
      have htail : ¬sep <:+: cs ++ sep.dropLast :=
        fun hword ↦ h (hword.trans (List.suffix_cons c _).isInfix)
      rw [List.cons_append, breakAt, if_neg fun h ↦ hnot (List.isPrefixOf_iff_prefix.mp h), ih htail]
      rfl

theorem of_breakAt (hsep : sep ≠ []) {s before after : List α}
    (h : breakAt sep s = some (before, after)) :
    s = before ++ (sep ++ after) ∧ ¬sep <:+: before ++ sep.dropLast := by
  induction s generalizing before with
  | nil => cases h
  | cons c cs ih =>
      rw [breakAt] at h
      by_cases hstart : sep <+: c :: cs
      · rw [if_pos (List.isPrefixOf_iff_prefix.mpr hstart)] at h
        cases h
        refine ⟨(List.prefix_iff_eq_append.mp hstart).symm, fun hword ↦ ?_⟩
        have hle := hword.length_le
        have hpos : 0 < sep.length := List.length_pos_iff.mpr hsep
        rw [List.nil_append, List.length_dropLast] at hle
        omega
      · rw [if_neg fun h ↦ hstart (List.isPrefixOf_iff_prefix.mp h)] at h
        obtain ⟨⟨before', after'⟩, hcs, heq⟩ := Option.map_eq_some_iff.mp h
        cases heq
        obtain ⟨rfl, hclear⟩ := ih hcs
        refine ⟨rfl, fun hword ↦ ?_⟩
        rcases List.infix_cons_iff.mp hword with hhere | hlater
        · have hfull : before' ++ sep.dropLast ++ ([sep.getLast hsep] ++ after) =
              before' ++ (sep ++ after) := by
            rw [List.append_assoc, ← List.append_assoc sep.dropLast,
              List.dropLast_append_getLast hsep]
          exact hstart (hhere.trans ⟨_, congrArg (c :: ·) hfull⟩)
        · exact hclear hlater

theorem length_of_breakAt (hsep : sep ≠ []) {s before after : List α}
    (h : breakAt sep s = some (before, after)) : after.length < s.length := by
  have hpos : 0 < sep.length := List.length_pos_iff.mpr hsep
  rw [(of_breakAt hsep h).1, List.length_append, List.length_append]
  omega

theorem splitAux_of_le (hsep : sep ≠ []) (n m : ℕ) (s : List α) (hn : s.length ≤ n)
    (hm : s.length ≤ m) : splitAux sep n s = splitAux sep m s := by
  induction n generalizing m s with
  | zero =>
      cases List.length_eq_zero_iff.mp (Nat.le_zero.mp hn)
      cases m <;> rfl
  | succ n ih =>
      cases m with
      | zero =>
          cases List.length_eq_zero_iff.mp (Nat.le_zero.mp hm)
          rfl
      | succ m =>
          rw [splitAux, splitAux]
          cases hbreak : breakAt sep s with
          | none => rfl
          | some parts =>
              have hlt := length_of_breakAt hsep hbreak
              dsimp only
              rw [ih m parts.2 (by omega) (by omega)]

theorem split_whole (hsep : sep ≠ []) {s : List α} (h : ¬sep <:+: s) :
    split sep s = ([], s) := by
  have hbreak := (breakAt_eq_none hsep).mpr h
  cases s with
  | nil => rfl
  | cons c cs => rw [split, List.length_cons, splitAux, hbreak]

theorem split_of_breakAt (hsep : sep ≠ []) {s before after : List α}
    (h : breakAt sep s = some (before, after)) :
    split sep s = (before :: (split sep after).1, (split sep after).2) := by
  have hlt := length_of_breakAt hsep h
  obtain ⟨n, hn⟩ : ∃ n, s.length = n + 1 := ⟨s.length - 1, by omega⟩
  rw [split, hn, splitAux, h]
  dsimp only
  rw [splitAux_of_le hsep n after.length after (by omega) le_rfl]
  rfl

/-- A part and the separator that ends it. -/
theorem split_part (hsep : sep ≠ []) {w : List α} (h : ¬sep <:+: w ++ sep.dropLast)
    (s : List α) : split sep (w ++ (sep ++ s)) = (w :: (split sep s).1, (split sep s).2) :=
  split_of_breakAt hsep (breakAt_append hsep h s)

/-- The last part has no separator. -/
theorem split_rest (hsep : sep ≠ []) (s : List α) : ¬sep <:+: (split sep s).2 := by
  induction hn : s.length using Nat.strong_induction_on generalizing s with
  | _ n ih =>
      cases hbreak : breakAt sep s with
      | none =>
          have hclear := (breakAt_eq_none hsep).mp hbreak
          rwa [split_whole hsep hclear]
      | some parts =>
          have hlt := length_of_breakAt hsep hbreak
          rw [split_of_breakAt hsep hbreak]
          exact ih _ (by omega) parts.2 rfl

/-- The last part may be kept and split with what comes next. -/
theorem split_append (hsep : sep ≠ []) (a b : List α) :
    split sep (a ++ b) =
      ((split sep a).1 ++ (split sep ((split sep a).2 ++ b)).1,
        (split sep ((split sep a).2 ++ b)).2) := by
  induction hn : a.length using Nat.strong_induction_on generalizing a with
  | _ n ih =>
      cases hbreak : breakAt sep a with
      | none =>
          rw [split_whole hsep ((breakAt_eq_none hsep).mp hbreak)]
          simp
      | some parts =>
          obtain ⟨w, rest⟩ := parts
          have hlt := length_of_breakAt hsep hbreak
          obtain ⟨ha, hclear⟩ := of_breakAt hsep hbreak
          rw [split_of_breakAt hsep hbreak]
          dsimp only
          rw [ha, List.append_assoc, List.append_assoc, split_part hsep hclear,
            ih rest.length (by omega) rest rfl, List.cons_append]

end Text
