import Relayvia.Library.Replace

/-!
# Replacing several words one after the other

A text is given as parts that stay and places of words.  The words give way to the same new
text in turn, and none of them may appear outside its places when its turn comes.
-/

namespace Text

variable {α : Type*} [DecidableEq α]

/-! ## One word between its places -/

omit [DecidableEq α] in
/-- The word stands in none of the parts, nor does an occurrence begin in a part and reach
into the place after it. -/
def Clear (old : List α) : List (List α) → Prop
  | [] => True
  | [w] => ¬old <:+: w
  | w :: w' :: ws => ¬old <:+: w ++ old.dropLast ∧ Clear old (w' :: ws)

instance decidableClear (old : List α) : DecidablePred (Clear old)
  | [] => isTrue trivial
  | [w] => inferInstanceAs (Decidable ¬old <:+: w)
  | w :: w' :: ws =>
      haveI := decidableClear old (w' :: ws)
      inferInstanceAs (Decidable (¬old <:+: w ++ old.dropLast ∧ Clear old (w' :: ws)))

variable {old new : List α}

theorem replace_append_of_clear (hold : old ≠ []) {w : List α}
    (h : ¬old <:+: w ++ old.dropLast) (s : List α) :
    replace old new (w ++ (old ++ s)) = w ++ (new ++ replace old new s) := by
  induction w with
  | nil => exact replace_word hold s
  | cons c cs ih =>
      have hnot : ¬old <+: c :: (cs ++ (old ++ s)) := by
        intro hprefix
        apply h
        exact (prefix_dropLast_of_append hold (List.cons_ne_nil c cs) hprefix).isInfix
      have htail : ¬old <:+: cs ++ old.dropLast :=
        fun hword ↦ h (hword.trans (List.suffix_cons c _).isInfix)
      rw [List.cons_append, replace_cons hnot, ih htail, List.cons_append]

theorem replace_intercalate_of_clear (hold : old ≠ []) {ws : List (List α)}
    (h : Clear old ws) : replace old new (old.intercalate ws) = new.intercalate ws := by
  induction ws with
  | nil => rfl
  | cons w ws ih =>
      cases ws with
      | nil => simpa using replace_of_not_infix h
      | cons w' ws =>
          rw [List.intercalate_cons_cons, List.append_assoc,
            replace_append_of_clear hold h.1, ih h.2, List.intercalate_cons_cons,
            List.append_assoc]

/-! ## Texts with places -/

/-- A part that stays, or the place of a word. -/
inductive Token (α : Type*)
  | kept (s : List α)
  | word (w : List α)

/-- The text after the words of `done` have given way. -/
def fill (new : List α) (done : List (List α)) : List (Token α) → List α
  | [] => []
  | .kept s :: ts => s ++ fill new done ts
  | .word w :: ts => (if w ∈ done then new else w) ++ fill new done ts

omit [DecidableEq α] in
/-- The text after all its words have given way. -/
def hidden (new : List α) (ts : List (Token α)) : List α :=
  ts.flatMap fun
    | .kept s => s
    | .word _ => new

def betweenPlaces (new : List α) (done : List (List α)) (w : List α) :
    List (Token α) → List (List α)
  | [] => [[]]
  | .kept s :: ts => (betweenPlaces new done w ts).modifyHead (s ++ ·)
  | .word v :: ts =>
      let rest := betweenPlaces new done w ts
      if v = w then [] :: rest else rest.modifyHead ((if v ∈ done then new else v) ++ ·)

/-- The parts of `fill` outside the places of `w`; a word that has given way has no places
any more. -/
def between (new : List α) (done : List (List α)) (w : List α) (ts : List (Token α)) :
    List (List α) :=
  if w ∈ done then [fill new done ts] else betweenPlaces new done w ts

variable {done words : List (List α)} {ts : List (Token α)}

theorem betweenPlaces_ne_nil (new : List α) (done : List (List α)) (w : List α)
    (ts : List (Token α)) : betweenPlaces new done w ts ≠ [] := by
  induction ts with
  | nil => simp [betweenPlaces]
  | cons t ts ih =>
      cases t with
      | kept s => simpa [betweenPlaces] using ih
      | word v =>
          simp only [betweenPlaces]
          split
          · simp
          · simpa using ih

variable (new ts) in
theorem intercalate_betweenPlaces {w : List α} (hdone : w ∉ done) :
    w.intercalate (betweenPlaces new done w ts) = fill new done ts ∧
      new.intercalate (betweenPlaces new done w ts) = fill new (done ++ [w]) ts := by
  induction ts with
  | nil => simp [betweenPlaces, fill]
  | cons t ts ih =>
      obtain ⟨hbefore, hafter⟩ := ih
      have hrest := betweenPlaces_ne_nil new done w ts
      cases t with
      | kept s =>
          simp only [betweenPlaces, fill]
          rw [intercalate_modifyHead _ _ hrest, intercalate_modifyHead _ _ hrest, hbefore, hafter]
          exact ⟨rfl, rfl⟩
      | word v =>
          simp only [betweenPlaces, fill]
          by_cases hv : v = w
          · rw [if_pos hv, List.intercalate_cons_of_ne_nil hrest,
              List.intercalate_cons_of_ne_nil hrest, hbefore, hafter]
            simp [hv, hdone]
          · rw [if_neg hv, intercalate_modifyHead _ _ hrest, intercalate_modifyHead _ _ hrest,
              hbefore, hafter]
            simp [hv]

/-- A word that changes nothing: it has given way before, or is the new text itself. -/
theorem fill_append_of_same {w : List α} (h : w ∈ done ∨ w = new) (ts : List (Token α)) :
    fill new (done ++ [w]) ts = fill new done ts := by
  induction ts with
  | nil => rfl
  | cons t ts ih =>
      cases t with
      | kept s => rw [fill, fill, ih]
      | word v =>
          rw [fill, fill, ih]
          congr 1
          by_cases hv : v = w
          · rcases h with hdone | hnew
            · simp [hv, hdone]
            · simp [hv, hnew]
          · simp [hv]

/-- One step of the replacement. -/
theorem replace_fill {w : List α} (hw : w ≠ [])
    (h : w = new ∨ Clear w (between new done w ts)) :
    replace w new (fill new done ts) = fill new (done ++ [w]) ts := by
  by_cases hnew : w = new
  · rw [fill_append_of_same (.inr hnew), ← hnew, replace_self hw]
  · have hclear := h.resolve_left hnew
    by_cases hdone : w ∈ done
    · rw [between, if_pos hdone] at hclear
      rw [fill_append_of_same (.inl hdone), replace_of_not_infix hclear]
    · rw [between, if_neg hdone] at hclear
      obtain ⟨hbefore, hafter⟩ := intercalate_betweenPlaces new ts hdone
      rw [← hbefore, ← hafter]
      exact replace_intercalate_of_clear hw hclear

/-! ## The words in turn -/

/-- When its turn comes, each word stands at its own places only. -/
def Undisturbed (new : List α) (ts : List (Token α)) (done : List (List α)) :
    List (List α) → Prop
  | [] => True
  | w :: words =>
      (w = new ∨ Clear w (between new done w ts)) ∧ Undisturbed new ts (done ++ [w]) words

instance decidableUndisturbed (new : List α) (ts : List (Token α)) :
    ∀ done, DecidablePred (Undisturbed new ts done)
  | _, [] => isTrue trivial
  | done, w :: words =>
      haveI := decidableUndisturbed new ts (done ++ [w]) words
      inferInstanceAs (Decidable
        ((w = new ∨ Clear w (between new done w ts)) ∧ Undisturbed new ts (done ++ [w]) words))

/-- All steps, by induction on the words to come. -/
theorem foldl_replace (hwords : ∀ w ∈ words, w ≠ []) (h : Undisturbed new ts done words) :
    words.foldl (fun s w ↦ replace w new s) (fill new done ts) =
      fill new (done ++ words) ts := by
  induction words generalizing done with
  | nil => simp
  | cons w words ih =>
      rw [List.foldl_cons, replace_fill (hwords w List.mem_cons_self) h.1,
        ih (fun v hv ↦ hwords v (List.mem_cons_of_mem w hv)) h.2]
      simp

theorem fill_of_covered (h : ∀ w, Token.word w ∈ ts → w ∈ done) :
    fill new done ts = hidden new ts := by
  induction ts with
  | nil => rfl
  | cons t ts ih =>
      have hts := ih fun w hw ↦ h w (List.mem_cons_of_mem t hw)
      cases t with
      | kept s => simp [fill, hidden, hts]
      | word w => simp [fill, hidden, hts, h w List.mem_cons_self]

/-- After the replacement of all its words a text is its kept parts and the new text. -/
theorem foldl_replace_eq_hidden (hwords : ∀ w ∈ words, w ≠ [])
    (h : Undisturbed new ts [] words) (hcovered : ∀ w, Token.word w ∈ ts → w ∈ words) :
    words.foldl (fun s w ↦ replace w new s) (fill new [] ts) = hidden new ts := by
  rw [foldl_replace hwords h]
  exact fill_of_covered hcovered

end Text
