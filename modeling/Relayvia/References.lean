import Mathlib.Data.List.TakeWhile
import Relayvia.ContextReference
import Relayvia.Library.Outcome

/-!
# The references of a value

Which references `ContextResolver.resolve` looks up in a value, and that the
extraction of the validator finds all of them.
-/

namespace Relayvia

/-- The references that `_resolve_string` looks up. -/
def stringReferences (text : String) : List ContextReference :=
  if ¬Python.contains ['{', '{'] text.toList then []
  else
    match matchReference text with
    | some reference => [reference]
    | none => (parseContextReferences text).toOption.getD []

mutual

/-- The references that `resolve` looks up. -/
def resolvedReferences : Json → List ContextReference
  | .obj fields => fieldReferences fields
  | .arr items => itemReferences items
  | .str text => stringReferences text
  | _ => []

def fieldReferences : List (String × Json) → List ContextReference
  | [] => []
  | (_, child) :: fields => resolvedReferences child ++ fieldReferences fields

def itemReferences : List Json → List ContextReference
  | [] => []
  | child :: items => resolvedReferences child ++ itemReferences items

end

/-! ## Their shape -/

theorem parsed_of_parse {text : String} {references : List ContextReference}
    (hparse : parseContextReferences text = .ok references) {r : ContextReference}
    (hr : r ∈ references) : ∃ value, matchReference value = some r := by
  unfold parseContextReferences at hparse
  dsimp only at hparse
  split at hparse
  · cases hparse
    cases hr
  · split at hparse
    · cases hparse
    · obtain ⟨found, hfound, hparse⟩ := Outcome.bind_eq_ok_iff.mp hparse
      have heq : references = found := by
        split at hparse
        · cases hparse
        · cases hparse
          rfl
      obtain ⟨value, -, hvalue⟩ := Outcome.exists_of_mem_mapM hfound (heq ▸ hr)
      refine ⟨value, ?_⟩
      unfold parseContextReference at hvalue
      split at hvalue
      · next hmatch =>
        cases hvalue
        exact hmatch
      · cases hvalue

theorem stringReferences_parsed {text : String} {r : ContextReference}
    (hr : r ∈ stringReferences text) : ∃ value, matchReference value = some r := by
  unfold stringReferences at hr
  split at hr
  · cases hr
  · split at hr
    · next hmatch =>
      obtain rfl := List.mem_singleton.mp hr
      exact ⟨text, hmatch⟩
    · cases hparse : parseContextReferences text with
      | error e => simp [hparse, Except.toOption] at hr
      | ok references =>
          have hr : r ∈ references := by simpa [hparse, Except.toOption] using hr
          exact parsed_of_parse hparse hr

mutual

/-- Every extracted reference was parsed from a text of the value. -/
theorem extractContextReferences_parsed : ∀ (v : Json) {references : List ContextReference},
    extractContextReferences v = .ok references →
      ∀ r ∈ references, ∃ value, matchReference value = some r
  | .obj fields, _, h => extractFromFields_parsed fields h
  | .arr items, _, h => extractFromItems_parsed items h
  | .str _, _, h => fun _ hr ↦ parsed_of_parse h hr
  | .null, _, h | .bool _, _, h | .int _, _, h | .float _, _, h => by
      cases h
      simp

theorem extractFromFields_parsed : ∀ (fields : List (String × Json))
    {references : List ContextReference}, extractFromFields fields = .ok references →
      ∀ r ∈ references, ∃ value, matchReference value = some r
  | [], _, h => by
      cases h
      simp
  | (_, child) :: fields, _, h => by
      obtain ⟨first, hfirst, h⟩ := Outcome.bind_eq_ok_iff.mp h
      obtain ⟨rest, hrest, h⟩ := Outcome.bind_eq_ok_iff.mp h
      cases h
      intro r hr
      exact (List.mem_append.mp hr).elim (extractContextReferences_parsed child hfirst r)
        (extractFromFields_parsed fields hrest r)

theorem extractFromItems_parsed : ∀ (items : List Json) {references : List ContextReference},
    extractFromItems items = .ok references →
      ∀ r ∈ references, ∃ value, matchReference value = some r
  | [], _, h => by
      cases h
      simp
  | child :: items, _, h => by
      obtain ⟨first, hfirst, h⟩ := Outcome.bind_eq_ok_iff.mp h
      obtain ⟨rest, hrest, h⟩ := Outcome.bind_eq_ok_iff.mp h
      cases h
      intro r hr
      exact (List.mem_append.mp hr).elim (extractContextReferences_parsed child hfirst r)
        (extractFromItems_parsed items hrest r)

end

theorem matchReference_path {value : String} {r : ContextReference}
    (h : matchReference value = some r) : ∃ name rest, r.path = name :: rest := by
  obtain ⟨body, -, h⟩ := Option.bind_eq_some_iff.mp h
  dsimp only at h
  split at h
  · unfold ContextReference.ofSegments at h
    split at h <;> cases h <;> exact ⟨_, _, rfl⟩
  · cases h

mutual

/-- Every reference was parsed from a text of the value. -/
theorem resolvedReferences_parsed : ∀ (v : Json) {r : ContextReference},
    r ∈ resolvedReferences v → ∃ value, matchReference value = some r
  | .obj fields, _, h => fieldReferences_parsed fields h
  | .arr items, _, h => itemReferences_parsed items h
  | .str _, _, h => stringReferences_parsed h
  | .null, _, h | .bool _, _, h | .int _, _, h | .float _, _, h => by simp [resolvedReferences] at h

theorem fieldReferences_parsed : ∀ (fields : List (String × Json)) {r : ContextReference},
    r ∈ fieldReferences fields → ∃ value, matchReference value = some r
  | [], _, h => by simp [fieldReferences] at h
  | (_, child) :: fields, _, h =>
      (List.mem_append.mp h).elim (resolvedReferences_parsed child) (fieldReferences_parsed fields)

theorem itemReferences_parsed : ∀ (items : List Json) {r : ContextReference},
    r ∈ itemReferences items → ∃ value, matchReference value = some r
  | [], _, h => by simp [itemReferences] at h
  | child :: items, _, h =>
      (List.mem_append.mp h).elim (resolvedReferences_parsed child) (itemReferences_parsed items)

end

/-! ## Resolution reads nothing else -/

namespace ContextResolver

variable {a b : ContextResolver}

/-- The two resolvers give the same values to the references. -/
def Agree (a b : ContextResolver) (references : List ContextReference) : Prop :=
  ∀ r ∈ references, a.resolveReference r = b.resolveReference r

theorem Agree.append {rs rs' : List ContextReference} (h : Agree a b (rs ++ rs')) :
    Agree a b rs ∧ Agree a b rs' :=
  List.forall_mem_append.mp h

theorem interpolate_congr (hstr : a.pyStr = b.pyStr) {references : List ContextReference}
    (h : Agree a b references) (text : List Char) :
    a.interpolate text references = b.interpolate text references := by
  induction references generalizing text with
  | nil => rfl
  | cons r references ih =>
      have hstringify : a.stringify = b.stringify := by
        funext value
        cases value <;> simp [stringify, hstr]
      rw [interpolate, interpolate, h r (by simp), hstringify]
      exact congrArg _ (funext fun value ↦ ih (fun r hr ↦ h r (by simp [hr])) _)

theorem resolveString_congr (hstr : a.pyStr = b.pyStr) {text : String}
    (h : Agree a b (stringReferences text)) : a.resolveString text = b.resolveString text := by
  unfold stringReferences at h
  unfold resolveString
  split
  · rfl
  · next hopen =>
    rw [if_neg hopen] at h
    cases hmatch : matchReference text with
    | some r =>
        rw [hmatch] at h
        exact h r (by simp)
    | none =>
        rw [hmatch] at h
        cases hparse : parseContextReferences text with
        | error e => rfl
        | ok references =>
            rw [hparse] at h
            exact interpolate_congr hstr h _

mutual

theorem resolve_congr (hstr : a.pyStr = b.pyStr) :
    ∀ v, Agree a b (resolvedReferences v) → a.resolve v = b.resolve v
  | .obj fields, h => by rw [resolve, resolve, resolveFields_congr hstr fields h]
  | .arr items, h => by rw [resolve, resolve, resolveItems_congr hstr items h]
  | .str text, h => by
      rw [resolve, resolve]
      exact resolveString_congr hstr h
  | .null, _ | .bool _, _ | .int _, _ | .float _, _ => by simp [resolve]

theorem resolveFields_congr (hstr : a.pyStr = b.pyStr) :
    ∀ fields, Agree a b (fieldReferences fields) → a.resolveFields fields = b.resolveFields fields
  | [], _ => rfl
  | (key, child) :: fields, h => by
      obtain ⟨hchild, hfields⟩ := h.append
      rw [resolveFields, resolveFields, resolve_congr hstr child hchild,
        resolveFields_congr hstr fields hfields]

theorem resolveItems_congr (hstr : a.pyStr = b.pyStr) :
    ∀ items, Agree a b (itemReferences items) → a.resolveItems items = b.resolveItems items
  | [], _ => rfl
  | child :: items, h => by
      obtain ⟨hchild, hitems⟩ := h.append
      rw [resolveItems, resolveItems, resolve_congr hstr child hchild,
        resolveItems_congr hstr items hitems]

end

/-! ## A value resolves only if its references do -/

theorem resolveReference_of_interpolate {references : List ContextReference} {text : List Char}
    {value : Json} (h : a.interpolate text references = .ok value) :
    ∀ r ∈ references, ∃ v, a.resolveReference r = .ok v := by
  induction references generalizing text with
  | nil => simp
  | cons first references ih =>
      obtain ⟨v, hfirst, hrest⟩ := Outcome.bind_eq_ok_iff.mp h
      intro r hr
      rcases List.mem_cons.mp hr with rfl | hr
      · exact ⟨v, hfirst⟩
      · exact ih hrest r hr

theorem resolveReference_of_resolveString {text : String} {value : Json}
    (h : a.resolveString text = .ok value) :
    ∀ r ∈ stringReferences text, ∃ v, a.resolveReference r = .ok v := by
  unfold stringReferences
  unfold resolveString at h
  split
  · simp
  · next hopen =>
    rw [if_neg hopen] at h
    cases hmatch : matchReference text with
    | some r =>
        rw [hmatch] at h
        simpa using ⟨value, h⟩
    | none =>
        rw [hmatch] at h
        cases hparse : parseContextReferences text with
        | error e => simp [Except.toOption]
        | ok references =>
            rw [hparse] at h
            exact resolveReference_of_interpolate h

mutual

theorem resolveReference_of_resolve : ∀ (v : Json) {value : Json}, a.resolve v = .ok value →
    ∀ r ∈ resolvedReferences v, ∃ v, a.resolveReference r = .ok v
  | .obj fields, _, h => by
      obtain ⟨values, hfields, -⟩ := Outcome.bind_eq_ok_iff.mp h
      exact resolveReference_of_resolveFields fields hfields
  | .arr items, _, h => by
      obtain ⟨values, hitems, -⟩ := Outcome.bind_eq_ok_iff.mp h
      exact resolveReference_of_resolveItems items hitems
  | .str text, _, h => resolveReference_of_resolveString h
  | .null, _, _ | .bool _, _, _ | .int _, _, _ | .float _, _, _ => by simp [resolvedReferences]

theorem resolveReference_of_resolveFields : ∀ (fields : List (String × Json))
    {values : List (String × Json)}, a.resolveFields fields = .ok values →
      ∀ r ∈ fieldReferences fields, ∃ v, a.resolveReference r = .ok v
  | [], _, _ => by simp [fieldReferences]
  | (_, child) :: fields, _, h => by
      obtain ⟨value, hchild, h⟩ := Outcome.bind_eq_ok_iff.mp h
      obtain ⟨values, hfields, -⟩ := Outcome.bind_eq_ok_iff.mp h
      intro r hr
      exact (List.mem_append.mp hr).elim (resolveReference_of_resolve child hchild r)
        (resolveReference_of_resolveFields fields hfields r)

theorem resolveReference_of_resolveItems : ∀ (items : List Json) {values : List Json},
    a.resolveItems items = .ok values →
      ∀ r ∈ itemReferences items, ∃ v, a.resolveReference r = .ok v
  | [], _, _ => by simp [itemReferences]
  | child :: items, _, h => by
      obtain ⟨value, hchild, h⟩ := Outcome.bind_eq_ok_iff.mp h
      obtain ⟨values, hitems, -⟩ := Outcome.bind_eq_ok_iff.mp h
      intro r hr
      exact (List.mem_append.mp hr).elim (resolveReference_of_resolve child hchild r)
        (resolveReference_of_resolveItems items hitems r)

end

end ContextResolver

/-! ## A pure reference is the only template of its text -/

namespace ContextReference

theorem mem_splitDots {c : Char} {text : List Char} (hc : c ∈ text) (hdot : c ≠ '.') :
    ∃ segment ∈ splitDots text, c ∈ segment := by
  induction text with
  | nil => cases hc
  | cons d text ih =>
      unfold splitDots
      cases hsplit : splitDots text with
      | nil =>
          rcases List.mem_cons.mp hc with rfl | hc
          · exact ⟨[c], by simp, by simp⟩
          · obtain ⟨segment, hsegment, -⟩ := ih hc
            simp [hsplit] at hsegment
      | cons first rest =>
          rw [hsplit] at ih
          dsimp only
          by_cases hd : d = '.'
          · rw [if_pos hd]
            obtain ⟨segment, hsegment, hmem⟩ :=
              ih ((List.mem_cons.mp hc).resolve_left fun h ↦ hdot (h.trans hd))
            exact ⟨segment, List.mem_cons_of_mem _ hsegment, hmem⟩
          · rw [if_neg hd]
            rcases List.mem_cons.mp hc with rfl | hc
            · exact ⟨c :: first, by simp, by simp⟩
            · obtain ⟨segment, hsegment, hmem⟩ := ih hc
              rcases List.mem_cons.mp hsegment with rfl | hsegment
              · exact ⟨d :: segment, by simp, by simp [hmem]⟩
              · exact ⟨segment, by simp [hsegment], hmem⟩

/-- Stripping a text loses only white space. -/
theorem mem_strip {c : Char} {inner : List Char} (hc : c ∈ inner) (hspace : Python.isSpace c = false) :
    c ∈ ((inner.dropWhile Python.isSpace).reverse.dropWhile Python.isSpace).reverse := by
  have hdrop {cs : List Char} (h : c ∈ cs) : c ∈ cs.dropWhile Python.isSpace := by
    rw [← List.takeWhile_append_dropWhile (p := Python.isSpace) (l := cs)] at h
    refine (List.mem_append.mp h).resolve_left fun htake ↦ ?_
    simp [List.mem_takeWhile_imp htake] at hspace
  rw [List.mem_reverse]
  exact hdrop (List.mem_reverse.mpr (hdrop hc))

/-- A text that is one reference: between its braces there is no other one. -/
theorem text_of_matchReference {text : String} {r : ContextReference}
    (h : matchReference text = some r) :
    ∃ inner, text.toList = '{' :: '{' :: (inner ++ ['}', '}']) ∧ '{' ∉ inner ∧ '}' ∉ inner := by
  obtain ⟨body, hbody, h⟩ := Option.bind_eq_some_iff.mp h
  unfold body? at hbody
  split at hbody
  · next hshape =>
    simp only [Bool.and_eq_true, List.isPrefixOf_iff_prefix, List.isSuffixOf_iff_suffix,
      decide_eq_true_eq] at hshape
    obtain ⟨⟨⟨rest, hprefix⟩, hsuffix⟩, hlength⟩ := hshape
    rw [← hprefix] at hbody hsuffix hlength
    obtain ⟨k, hk⟩ : ∃ k, rest.length = k + 2 := ⟨rest.length - 2, by simp at hlength; omega⟩
    have hend : rest.drop k = ['}', '}'] := by
      simpa [hk] using (List.suffix_iff_eq_drop.mp hsuffix).symm
    have hrest : rest = rest.take k ++ ['}', '}'] := by rw [← hend, List.take_append_drop]
    have hinner : ((['{', '{'] ++ rest).drop 2).take ((['{', '{'] ++ rest).length - 4) =
        rest.take k := by
      simp [hk]
    rw [hinner] at hbody
    cases hbody
    refine ⟨rest.take k, by rw [← hprefix, ← hrest]; rfl, ?_⟩
    dsimp only at h
    split at h
    · next hsegments =>
      -- a character of the text is white space, a dot or part of an identifier
      have hother {c : Char} (hspace : Python.isSpace c = false) (hdot : c ≠ '.')
          (hidentifier : isIdentifierChar c = false) : c ∉ rest.take k := by
        intro hc
        obtain ⟨segment, hsegment, hmem⟩ := mem_splitDots (mem_strip hc hspace) hdot
        have hall := List.all_eq_true.mp hsegments segment hsegment
        simp only [isIdentifier, Bool.and_eq_true] at hall
        rw [List.all_eq_true.mp hall.2 c hmem] at hidentifier
        cases hidentifier
      exact ⟨hother (by decide) (by decide) (by decide), hother (by decide) (by decide) (by decide)⟩
    · cases h
  · cases hbody

theorem closing?_eq {inner : List Char} (hclose : '}' ∉ inner) :
    closing? (inner ++ ['}', '}']) =
      if '\n' ∈ inner then none else some (inner ++ ['}', '}'], []) := by
  induction inner with
  | nil => rfl
  | cons c inner ih =>
      have hc : c ≠ '}' := fun h ↦ hclose (by simp [h])
      have hrest : '}' ∉ inner := fun h ↦ hclose (by simp [h])
      rw [List.cons_append, closing?.eq_def]
      split
      · next heq => exact absurd (List.cons.inj heq).1 hc
      · next heq => simp [(List.cons.inj heq).1]
      · next hline heq =>
        obtain ⟨rfl, rfl⟩ := List.cons.inj heq
        rw [ih hrest]
        by_cases hmem : '\n' ∈ inner
        · simp [hmem]
        · have hc' : '\n' ≠ c := fun h ↦ by simp [← h] at hline
          simp [hmem, hc']
      · next heq => cases heq

/-- A template starts at two braces. -/
theorem templatesAux_skip {c : Char} {text : List Char} (h : c ≠ '{' ∨ '{' ∉ text) (n : ℕ) :
    templatesAux (n + 1) (c :: text) = templatesAux n text := by
  rw [templatesAux.eq_def]
  split
  · next heq => cases heq
  · next heq =>
    cases heq
    simp at h
  · next _ hn heq =>
    cases hn
    cases heq
    rfl
  · next heq => cases heq

theorem templatesAux_nil {text : List Char} (h : '{' ∉ text) (n : ℕ) :
    templatesAux n text = [] := by
  induction n generalizing text with
  | zero => rfl
  | succ n ih =>
      cases text with
      | nil => rfl
      | cons c text =>
          have hrest : '{' ∉ text := fun hmem ↦ h (by simp [hmem])
          rw [templatesAux_skip (.inr hrest), ih hrest]

theorem templates_of_matchReference {text : String} {r : ContextReference}
    (h : matchReference text = some r) : templates text = [text] ∨ templates text = [] := by
  obtain ⟨inner, htext, hopen, hclose⟩ := text_of_matchReference h
  have hlength : text.length = inner.length + 3 + 1 := by
    rw [← String.length_toList, htext]
    simp
  unfold templates
  rw [hlength, htext, templatesAux, closing?_eq hclose]
  by_cases hline : '\n' ∈ inner
  · have hnone : '{' ∉ inner ++ ['}', '}'] := by simp [hopen]
    rw [if_pos hline]
    right
    dsimp only
    rw [templatesAux_skip (.inr hnone), templatesAux_nil hnone]
  · rw [if_neg hline]
    left
    have hback : String.ofList ('{' :: '{' :: (inner ++ ['}', '}'])) = text := by
      rw [← htext, String.ofList_toList]
    dsimp only
    rw [hback, templatesAux_nil (by simp)]

/-- When the extraction of a pure reference succeeds, it finds this reference. -/
theorem parse_of_matchReference {text : String} {r : ContextReference}
    {references : List ContextReference} (h : matchReference text = some r)
    (hparse : parseContextReferences text = .ok references) : references = [r] := by
  obtain ⟨inner, htext, -, -⟩ := text_of_matchReference h
  have hopen : Python.contains ['{', '{'] text.toList = true := by
    simp [htext, Python.contains]
  unfold parseContextReferences at hparse
  rw [if_neg (by simp [hopen])] at hparse
  rcases templates_of_matchReference h with hone | hnone
  · simp only [hone, List.cons_ne_nil, and_false, if_false] at hparse
    obtain ⟨found, hfound, hparse⟩ := Outcome.bind_eq_ok_iff.mp hparse
    have hmapM : [text].mapM parseContextReference = .ok [r] := by
      simp [parseContextReference, h]
    cases hfound.symm.trans hmapM
    split at hparse
    · cases hparse
    · cases hparse
      rfl
  · dsimp only at hparse
    rw [if_pos ⟨hopen, hnone⟩] at hparse
    cases hparse

end ContextReference

/-- The extraction of a text finds what the resolver looks up in it. -/
theorem stringReferences_subset {text : String} {references : List ContextReference}
    (hparse : parseContextReferences text = .ok references) :
    ∀ r ∈ stringReferences text, r ∈ references := by
  unfold stringReferences
  split
  · simp
  · split
    · next r hmatch =>
      rw [ContextReference.parse_of_matchReference hmatch hparse]
      exact fun _ h ↦ h
    · rw [hparse]
      exact fun _ h ↦ h

mutual

/-- The extraction of a value finds what the resolver looks up in it. -/
theorem resolvedReferences_subset : ∀ (v : Json) {references : List ContextReference},
    extractContextReferences v = .ok references → ∀ r ∈ resolvedReferences v, r ∈ references
  | .obj fields, _, h => fieldReferences_subset fields h
  | .arr items, _, h => itemReferences_subset items h
  | .str text, _, h => stringReferences_subset h
  | .null, _, _ | .bool _, _, _ | .int _, _, _ | .float _, _, _ => by simp [resolvedReferences]

theorem fieldReferences_subset : ∀ (fields : List (String × Json))
    {references : List ContextReference}, extractFromFields fields = .ok references →
      ∀ r ∈ fieldReferences fields, r ∈ references
  | [], _, _ => by simp [fieldReferences]
  | (_, child) :: fields, _, h => by
      obtain ⟨first, hfirst, h⟩ := Outcome.bind_eq_ok_iff.mp h
      obtain ⟨rest, hrest, h⟩ := Outcome.bind_eq_ok_iff.mp h
      cases h
      intro r hr
      rcases List.mem_append.mp hr with hr | hr
      · exact List.mem_append_left _ (resolvedReferences_subset child hfirst r hr)
      · exact List.mem_append_right _ (fieldReferences_subset fields hrest r hr)

theorem itemReferences_subset : ∀ (items : List Json) {references : List ContextReference},
    extractFromItems items = .ok references → ∀ r ∈ itemReferences items, r ∈ references
  | [], _, _ => by simp [itemReferences]
  | child :: items, _, h => by
      obtain ⟨first, hfirst, h⟩ := Outcome.bind_eq_ok_iff.mp h
      obtain ⟨rest, hrest, h⟩ := Outcome.bind_eq_ok_iff.mp h
      cases h
      intro r hr
      rcases List.mem_append.mp hr with hr | hr
      · exact List.mem_append_left _ (resolvedReferences_subset child hfirst r hr)
      · exact List.mem_append_right _ (itemReferences_subset items hrest r hr)

end

end Relayvia
