import Relayvia.References

/-!
# Scanning a text for templates

`_TEMPLATE.finditer` as a relation between a text, its matches and the gaps between them.
-/

namespace Relayvia

open ContextReference

/-- The text before each match of `_TEMPLATE`, and the text after the last one; the fuel is
the length of the text. -/
def gapsAux : ℕ → List Char → List (List Char)
  | 0, cs => [cs]
  | n + 1, '{' :: '{' :: cs =>
      match closing? cs with
      | some (_, rest) => [] :: gapsAux n rest
      | none => (gapsAux n ('{' :: cs)).modifyHead ('{' :: ·)
  | n + 1, c :: cs => (gapsAux n cs).modifyHead (c :: ·)
  | _ + 1, [] => [[]]

def gaps (value : String) : List (List Char) :=
  gapsAux value.length value.toList

/-- The match that starts here, and the text after it. -/
def opening? : List Char → Option (List Char × List Char)
  | '{' :: '{' :: cs => (closing? cs).map fun (inner, rest) ↦ ('{' :: '{' :: inner, rest)
  | _ => none

inductive Scan : List Char → List (List Char) → List (List Char) → Prop
  | nil : Scan [] [] [[]]
  | template {text m rest : List Char} {ms gs : List (List Char)}
      (h : opening? text = some (m, rest)) (hrest : Scan rest ms gs) :
      Scan text (m :: ms) ([] :: gs)
  | skip {c : Char} {cs : List Char} {ms gs : List (List Char)}
      (h : opening? (c :: cs) = none) (hrest : Scan cs ms gs) :
      Scan (c :: cs) ms (gs.modifyHead (c :: ·))

theorem closing?_spec {cs inner rest : List Char} (h : closing? cs = some (inner, rest)) :
    cs = inner ++ rest ∧ '\n' ∉ inner := by
  induction cs using closing?.induct generalizing inner with
  | case1 rest' =>
      rw [closing?] at h
      cases h
      exact ⟨rfl, by decide⟩
  | case2 cs => simp [closing?] at h
  | case3 c cs hpair hline ih =>
      rw [closing?.eq_def] at h
      split at h
      · rename_i heq
        exact absurd (List.cons.inj heq) (fun heq ↦ hpair _ heq.1 heq.2)
      · cases h
      · rename_i heq
        obtain ⟨rfl, rfl⟩ := List.cons.inj heq
        obtain ⟨⟨inner', rest'⟩, hclose, heq⟩ := Option.map_eq_some_iff.mp h
        cases heq
        obtain ⟨htext, hfree⟩ := ih hclose
        refine ⟨by simp [htext], ?_⟩
        rw [List.mem_cons, not_or]
        exact ⟨fun heq ↦ hline heq.symm, hfree⟩
      · cases h
  | case4 => simp [closing?] at h

theorem opening?_spec {text m rest : List Char} (h : opening? text = some (m, rest)) :
    text = m ++ rest ∧ '\n' ∉ m ∧ m ≠ [] := by
  unfold opening? at h
  split at h
  · obtain ⟨⟨inner, rest'⟩, hclose, heq⟩ := Option.map_eq_some_iff.mp h
    cases heq
    obtain ⟨rfl, hfree⟩ := closing?_spec hclose
    exact ⟨rfl, by simp [hfree], by simp⟩
  · cases h

theorem opening?_of_not_pair {c : Char} {cs : List Char}
    (h : ∀ cs', c = '{' → cs = '{' :: cs' → False) : opening? (c :: cs) = none := by
  unfold opening?
  split
  · rename_i heq
    cases heq
    exact absurd rfl (h _ rfl)
  · rfl

theorem opening?_eq_none {c : Char} {cs : List Char} (h : c ≠ '{' ∨ cs.head? ≠ some '{') :
    opening? (c :: cs) = none := by
  apply opening?_of_not_pair
  rintro cs' rfl rfl
  simp at h

namespace Scan

variable {text : List Char} {ms ms' gs gs' : List (List Char)}

theorem gaps_ne_nil (h : Scan text ms gs) : gs ≠ [] := by
  induction h with
  | nil => simp
  | template => simp
  | skip _ _ ih => simpa using ih

theorem unique (h : Scan text ms gs) (h' : Scan text ms' gs') : ms = ms' ∧ gs = gs' := by
  induction h generalizing ms' gs' with
  | nil =>
      cases h' with
      | nil => exact ⟨rfl, rfl⟩
      | template h => cases h
  | template h _ ih =>
      cases h' with
      | nil => cases h
      | template h' hrest' =>
          rw [h] at h'
          cases h'
          obtain ⟨rfl, rfl⟩ := ih hrest'
          exact ⟨rfl, rfl⟩
      | skip h' => simp [h] at h'
  | skip h _ ih =>
      cases h' with
      | template h' => simp [h] at h'
      | skip h' hrest' =>
          obtain ⟨rfl, rfl⟩ := ih hrest'
          exact ⟨rfl, rfl⟩

theorem newline_free (h : Scan text ms gs) : ∀ m ∈ ms, '\n' ∉ m := by
  induction h with
  | nil => simp
  | template h _ ih =>
      intro m hm
      rcases List.mem_cons.mp hm with rfl | hm
      · exact (opening?_spec h).2.1
      · exact ih m hm
  | skip _ _ ih => exact ih

/-- The scan of the rest of a text whose beginning opens no match. -/
theorem tail {c : Char} {cs : List Char} (hskip : opening? (c :: cs) = none)
    (h : Scan (c :: cs) ms gs) : ∃ gs', Scan cs ms gs' := by
  cases h with
  | template h => simp [hskip] at h
  | skip _ hrest => exact ⟨_, hrest⟩

theorem rest {m rest : List Char} (hopen : opening? text = some (m, rest))
    (h : Scan text ms gs) : ∃ ms' gs', ms = m :: ms' ∧ Scan rest ms' gs' := by
  cases h with
  | nil => cases hopen
  | template h hrest =>
      rw [hopen] at h
      cases h
      exact ⟨_, _, rfl, hrest⟩
  | skip h => simp [hopen] at h

end Scan

theorem templatesAux_cons (n : ℕ) (c : Char) (cs : List Char) :
    templatesAux (n + 1) (c :: cs) =
      match opening? (c :: cs) with
      | some (m, rest) => String.ofList m :: templatesAux n rest
      | none => templatesAux n cs := by
  rw [templatesAux.eq_def]
  split
  · rename_i heq
    cases heq
  · rename_i hn heq
    cases hn
    cases heq
    simp only [opening?]
    cases closing? _ <;> rfl
  · rename_i hpair hn heq
    cases hn
    cases heq
    rw [opening?_of_not_pair hpair]
  · rename_i heq
    cases heq

theorem gapsAux_cons (n : ℕ) (c : Char) (cs : List Char) :
    gapsAux (n + 1) (c :: cs) =
      match opening? (c :: cs) with
      | some (_, rest) => [] :: gapsAux n rest
      | none => (gapsAux n cs).modifyHead (c :: ·) := by
  rw [gapsAux.eq_def]
  split
  · rename_i heq
    cases heq
  · rename_i hn heq
    cases hn
    cases heq
    simp only [opening?]
    cases closing? _ <;> rfl
  · rename_i hpair hn heq
    cases hn
    cases heq
    rw [opening?_of_not_pair hpair]
  · rename_i heq
    cases heq

theorem scan_templatesAux (n : ℕ) (text : List Char) (hn : text.length ≤ n) :
    ∃ ms, Scan text ms (gapsAux n text) ∧ templatesAux n text = ms.map String.ofList := by
  induction n generalizing text with
  | zero =>
      cases List.length_eq_zero_iff.mp (Nat.le_zero.mp hn)
      exact ⟨[], .nil, rfl⟩
  | succ n ih =>
      cases text with
      | nil => exact ⟨[], .nil, rfl⟩
      | cons c cs =>
          rw [List.length_cons] at hn
          rw [gapsAux_cons, templatesAux_cons]
          cases hopen : opening? (c :: cs) with
          | some found =>
              obtain ⟨m, rest⟩ := found
              obtain ⟨htext, -, hm⟩ := opening?_spec hopen
              have hlength := congrArg List.length htext
              have hpos : 0 < m.length := List.length_pos_iff.mpr hm
              rw [List.length_append, List.length_cons] at hlength
              obtain ⟨ms, hscan, hms⟩ := ih rest (by omega)
              exact ⟨m :: ms, .template hopen hscan, by simp [hms]⟩
          | none =>
              obtain ⟨ms, hscan, hms⟩ := ih cs (by omega)
              exact ⟨ms, .skip hopen hscan, hms⟩

theorem scan_templates (value : String) :
    ∃ ms, Scan value.toList ms (gaps value) ∧ templates value = ms.map String.ofList :=
  scan_templatesAux value.length value.toList String.length_toList.le

end Relayvia
