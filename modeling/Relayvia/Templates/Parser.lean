import Relayvia.Templates.Grammar

/-!
# The parser against the grammar
-/

namespace Relayvia

open ContextReference

theorem matchReference_raw {value : String} {r : ContextReference}
    (h : matchReference value = some r) : r.raw = value := by
  obtain ⟨body, -, h⟩ := Option.bind_eq_some_iff.mp h
  dsimp only at h
  split at h
  · unfold ofSegments at h
    split at h
    all_goals first
      | (cases h; rfl)
      | cases h
  · cases h

theorem parseContextReference_eq_ok_iff {value : String} {r : ContextReference} :
    parseContextReference value = .ok r ↔ matchReference value = some r := by
  unfold parseContextReference
  split
  · rename_i found hfound
    rw [hfound, Except.ok.injEq, Option.some.injEq]
  · rename_i hnone
    simp [hnone]

theorem mapM_parse_eq_ok_iff {ms : List (List Char)} {refs : List ContextReference} :
    (ms.map String.ofList).mapM parseContextReference = .ok refs ↔
      ms = refs.map (fun r ↦ r.raw.toList) ∧ ∀ r ∈ refs, matchReference r.raw = some r := by
  induction ms generalizing refs with
  | nil =>
      constructor
      · intro h
        cases h
        simp
      · rintro ⟨h, -⟩
        cases List.map_eq_nil_iff.mp h.symm
        rfl
  | cons m ms ih =>
      rw [List.map_cons, List.mapM_cons]
      constructor
      · intro h
        obtain ⟨r, hr, h⟩ := Outcome.bind_eq_ok_iff.mp h
        obtain ⟨rest, hrest, h⟩ := Outcome.bind_eq_ok_iff.mp h
        cases h
        rw [parseContextReference_eq_ok_iff] at hr
        obtain ⟨rfl, hrefs⟩ := ih.mp hrest
        have hraw := matchReference_raw hr
        refine ⟨by simp [hraw], ?_⟩
        intro r' hr'
        rcases List.mem_cons.mp hr' with rfl | hr'
        · rw [hraw, hr]
        · exact hrefs r' hr'
      · rintro ⟨hms, hrefs⟩
        cases refs with
        | nil => cases hms
        | cons r refs =>
            obtain ⟨rfl, htail⟩ := List.cons.inj hms
            have hr := parseContextReference_eq_ok_iff.mpr (hrefs r List.mem_cons_self)
            have hrest := ih.mpr ⟨htail, fun r hr ↦ hrefs r (List.mem_cons_of_mem _ hr)⟩
            rw [String.ofList_toList, hr, hrest]
            rfl

theorem parse_error_code {value : String} {e : RelayviaError}
    (h : parseContextReferences value = .error e) : e.code = "INVALID_CONTEXT_REFERENCE" := by
  unfold parseContextReferences at h
  dsimp only at h
  split at h
  · cases h
  · split at h
    · cases h
      rfl
    · cases hmapM : (templates value).mapM parseContextReference with
      | error e' =>
          rw [hmapM] at h
          cases h
          obtain ⟨m, -, hm⟩ := Outcome.exists_of_mapM_error hmapM
          unfold parseContextReference at hm
          split at hm
          · cases hm
          · cases hm
            rfl
      | ok refs =>
          rw [hmapM] at h
          simp only [bind, Except.bind] at h
          split at h
          · cases h
            rfl
          · cases h

/-- A text with a double brace is accepted exactly when it has matches, all of them are
references and the delimiters are as many. -/
theorem parse_eq_ok_iff {value : String} {ms : List (List Char)} {refs : List ContextReference}
    (hms : templates value = ms.map String.ofList) (hpair : ¬PairFree value.toList) :
    parseContextReferences value = .ok refs ↔
      refs ≠ [] ∧ ms = refs.map (fun r ↦ r.raw.toList) ∧
        (∀ r ∈ refs, matchReference r.raw = some r) ∧
        Python.countPair '{' '{' value.toList = Python.countPair '}' '}' value.toList := by
  have hbraces : ¬(¬Python.contains ['{', '{'] value.toList = true ∧
      ¬Python.contains ['}', '}'] value.toList = true) := by
    simpa only [PairFree, contains_iff_isInfix] using hpair
  unfold parseContextReferences
  rw [if_neg hbraces]
  dsimp only
  rw [hms]
  by_cases hnone : ms = []
  · subst hnone
    refine iff_of_false ?_ ?_
    · intro h
      split at h
      · cases h
      · rename_i hopen
        simp only [contains_iff_isInfix, List.map_nil, and_true] at hopen
        have hzero := countPair_eq_zero_iff.mpr hopen
        have hclose : ['}', '}'] <:+: value.toList := by
          by_contra hclose
          exact hpair ⟨hopen, hclose⟩
        have hpos := mt countPair_eq_zero_iff.mp (not_not.mpr hclose)
        obtain ⟨found, -, h⟩ := Outcome.bind_eq_ok_iff.mp h
        rw [if_pos (by rw [hzero]; exact Ne.symm hpos)] at h
        cases h
    · rintro ⟨hrefs, hempty, -⟩
      exact hrefs (List.map_eq_nil_iff.mp hempty.symm)
  · rw [if_neg (by simp [hnone])]
    constructor
    · intro h
      obtain ⟨found, hfound, h⟩ := Outcome.bind_eq_ok_iff.mp h
      split at h
      · cases h
      · rename_i hcount
        cases h
        obtain ⟨hmap, hrefs⟩ := mapM_parse_eq_ok_iff.mp hfound
        refine ⟨?_, hmap, hrefs, not_not.mp hcount⟩
        rintro rfl
        exact hnone hmap
    · rintro ⟨-, hmap, hrefs, hcount⟩
      rw [mapM_parse_eq_ok_iff.mpr ⟨hmap, hrefs⟩]
      simp only [bind, Except.bind]
      rw [if_neg (not_not.mpr hcount)]
      rfl

/-! ## Agreement -/

/-- The parser accepts the templates and finds their references; the resolver takes a text
for a pure reference when it is one. -/
structure ParsesGrammar (value : String) : Prop where
  accepted : ∀ refs, parseContextReferences value = .ok refs ↔
    ∃ t : TemplateText, t.text = value.toList ∧ t.references = refs
  rejected : (∀ t : TemplateText, t.text ≠ value.toList) →
    ∃ e, parseContextReferences value = .error e ∧ e.code = "INVALID_CONTEXT_REFERENCE"
  extracted : extractContextReferences (.str value) = parseContextReferences value
  pure : ∀ r, matchReference value = some r ↔
    parseContextReferences value = .ok [r] ∧ r.raw = value

/-- A template with a reference that contains a line end or stands directly after a brace. -/
def BrokenReference (value : String) : Prop :=
  ∃ t : TemplateText, t.text = value.toList ∧ ¬t.Plain

/-- All matches are references and the delimiters are as many, but some of these stand
outside the matches. -/
def StrayDelimiters (value : String) : Prop :=
  templates value ≠ [] ∧ (∀ m ∈ templates value, matchReference m ≠ none) ∧
    (∃ gap ∈ gaps value, ¬PairFree gap) ∧
    Python.countPair '{' '{' value.toList = Python.countPair '}' '}' value.toList

theorem pairFree_of_references_nil {t : TemplateText} (h : t.references = []) :
    t.text = t.last := by
  rw [TemplateText.text, List.map_eq_nil_iff.mp h]
  rfl

theorem opens_of_references {t : TemplateText} (h : t.references ≠ []) :
    ['{', '{'] <:+: t.text := by
  obtain ⟨p, pieces, hpieces⟩ := List.exists_cons_of_ne_nil (mt List.map_eq_nil_iff.mpr h)
  have hp : p ∈ t.pieces := by simp [hpieces]
  obtain ⟨inner, hraw, -, -⟩ := text_of_matchReference (t.reference p hp)
  rw [TemplateText.text, hpieces]
  exact ⟨p.1, inner ++ ['}', '}'] ++ (pieces.flatMap (fun p ↦ p.1 ++ p.2.raw.toList) ++ t.last),
    by simp [hraw]⟩

theorem not_pairFree_of_references {t : TemplateText} (h : t.references ≠ []) :
    ¬PairFree t.text :=
  fun hfree ↦ hfree.1 (opens_of_references h)

theorem TemplateText.Plain.parse {value : String} {t : TemplateText} (h : t.Plain)
    (htext : t.text = value.toList) : parseContextReferences value = .ok t.references := by
  by_cases hnone : t.references = []
  · have hfree : PairFree value.toList := by
      rw [← htext, pairFree_of_references_nil hnone]
      exact t.literal_last
    unfold parseContextReferences
    rw [if_pos (by simpa only [PairFree, contains_iff_isInfix] using hfree), hnone]
    rfl
  · obtain ⟨ms, hscan, hms⟩ := scan_templates value
    rw [parse_eq_ok_iff hms (by rw [← htext]; exact not_pairFree_of_references hnone)]
    rw [← htext] at hscan
    refine ⟨hnone, (hscan.unique h.scan).1, ?_, by rw [← htext]; exact h.countPair⟩
    intro r hr
    obtain ⟨p, hp, rfl⟩ := List.mem_map.mp hr
    exact t.reference p hp

/-- An accepted template is plain. -/
theorem plain_of_parse {value : String} {t : TemplateText} (htext : t.text = value.toList)
    (h : parseContextReferences value = .ok t.references) : t.Plain := by
  by_cases hnone : t.references = []
  · intro p hp
    rw [List.map_eq_nil_iff.mp hnone] at hp
    cases hp
  · obtain ⟨ms, hscan, hms⟩ := scan_templates value
    rw [parse_eq_ok_iff hms (by rw [← htext]; exact not_pairFree_of_references hnone)] at h
    rw [h.2.1, ← htext] at hscan
    exact .of_scan hscan

theorem exists_references_of_matched (ms : List (List Char))
    (h : ∀ m ∈ ms, matchReference (String.ofList m) ≠ none) :
    ∃ refs : List ContextReference, ms = refs.map (fun r ↦ r.raw.toList) ∧
      ∀ r ∈ refs, matchReference r.raw = some r := by
  induction ms with
  | nil => exact ⟨[], rfl, by simp⟩
  | cons m ms ih =>
      obtain ⟨refs, hmap, hrefs⟩ := ih fun m' hm' ↦ h m' (List.mem_cons_of_mem _ hm')
      obtain ⟨r, hr⟩ := Option.ne_none_iff_exists'.mp (h m List.mem_cons_self)
      have hraw := matchReference_raw hr
      refine ⟨r :: refs, by simp [hraw, ← hmap], ?_⟩
      intro r' hr'
      rcases List.mem_cons.mp hr' with rfl | hr'
      · rw [hraw, hr]
      · exact hrefs r' hr'

/-- The parser reads a text by the grammar exactly when no reference of it is broken and no
delimiters stand outside its matches. -/
theorem parses_grammar_iff (value : String) :
    ParsesGrammar value ↔ ¬BrokenReference value ∧ ¬StrayDelimiters value := by
  obtain ⟨ms, hscan, hms⟩ := scan_templates value
  constructor
  · intro h
    constructor
    · rintro ⟨t, htext, hbroken⟩
      exact hbroken (plain_of_parse htext ((h.accepted t.references).mpr ⟨t, htext, rfl⟩))
    · rintro ⟨hsome, hmatched, ⟨gap, hgap, hstray⟩, hcount⟩
      -- the references that the parser finds are those of a plain template without strays
      have hpair : ¬PairFree value.toList := by
        intro hfree
        have hplain : TemplateText.Plain ⟨[], value.toList, by simp, by simp, hfree⟩ := by
          intro p hp
          cases hp
        have hnone := (hscan.unique hplain.scan).1
        rw [hms, hnone] at hsome
        exact hsome rfl
      obtain ⟨refs, hrefs⟩ := exists_references_of_matched ms (by
        intro m hm
        exact hmatched _ (by rw [hms]; exact List.mem_map_of_mem hm))
      have hparse : parseContextReferences value = .ok refs := by
        rw [parse_eq_ok_iff hms hpair]
        refine ⟨?_, hrefs.1, hrefs.2, hcount⟩
        rintro rfl
        rw [hms, hrefs.1] at hsome
        exact hsome rfl
      obtain ⟨t, htext, rfl⟩ := (h.accepted refs).mp hparse
      have hplain := plain_of_parse htext hparse
      rw [← htext] at hscan
      obtain ⟨-, hgaps⟩ := hscan.unique hplain.scan
      rw [hgaps, TemplateText.literals, List.mem_append, List.mem_singleton] at hgap
      rcases hgap with hgap | rfl
      · obtain ⟨p, hp, rfl⟩ := List.mem_map.mp hgap
        exact hstray (t.literal p hp)
      · exact hstray t.literal_last
  · rintro ⟨hbroken, hstray⟩
    have hplain : ∀ t : TemplateText, t.text = value.toList → t.Plain := by
      intro t htext
      by_contra hnot
      exact hbroken ⟨t, htext, hnot⟩
    have haccepted : ∀ refs, parseContextReferences value = .ok refs ↔
        ∃ t : TemplateText, t.text = value.toList ∧ t.references = refs := by
      intro refs
      constructor
      · intro hparse
        by_cases hfree : PairFree value.toList
        · refine ⟨⟨[], value.toList, by simp, by simp, hfree⟩, rfl, ?_⟩
          have hempty := TemplateText.Plain.parse
            (t := ⟨[], value.toList, by simp, by simp, hfree⟩) (fun p hp ↦ by cases hp) rfl
          exact Except.ok.inj (hempty.symm.trans hparse)
        · obtain ⟨hrefs, hmap, hmatched, hcount⟩ := (parse_eq_ok_iff hms hfree).mp hparse
          have hgaps : ∀ gap ∈ gaps value, PairFree gap := by
            by_contra hnot
            simp only [not_forall] at hnot
            obtain ⟨gap, hgap, hpair⟩ := hnot
            refine hstray ⟨?_, ?_, ⟨gap, hgap, hpair⟩, hcount⟩
            · rw [hms, hmap]
              simpa using hrefs
            · rw [hms, hmap]
              intro m hm
              obtain ⟨raw, hraw, rfl⟩ := List.mem_map.mp hm
              obtain ⟨r, hr, rfl⟩ := List.mem_map.mp hraw
              rw [String.ofList_toList, hmatched r hr]
              simp
          obtain ⟨t, htext, hreferences, -⟩ :=
            TemplateText.exists_of_scan hscan hmap hmatched hgaps
          exact ⟨t, htext, hreferences⟩
      · rintro ⟨t, htext, rfl⟩
        exact (hplain t htext).parse htext
    refine ⟨haccepted, ?_, rfl, ?_⟩
    · intro hnone
      cases hparse : parseContextReferences value with
      | error e => exact ⟨e, rfl, parse_error_code hparse⟩
      | ok refs =>
          obtain ⟨t, htext, -⟩ := (haccepted refs).mp hparse
          exact absurd htext (hnone t)
    · intro r
      constructor
      · intro hr
        have hraw := matchReference_raw hr
        have hvalue : matchReference r.raw = some r := by rw [hraw, hr]
        refine ⟨(haccepted [r]).mpr ⟨⟨[([], r)], [], ?_, ?_, pairFree_nil⟩, ?_, rfl⟩, hraw⟩
        · intro p hp
          cases List.mem_singleton.mp hp
          exact pairFree_nil
        · intro p hp
          cases List.mem_singleton.mp hp
          exact hvalue
        · simp [TemplateText.text, hraw]
      · rintro ⟨hparse, hraw⟩
        obtain ⟨t, -, hreferences⟩ := (haccepted [r]).mp hparse
        obtain ⟨p, hp, rfl⟩ := List.mem_map.mp
          (show r ∈ t.pieces.map Prod.snd by
            have : r ∈ t.references := by simp [hreferences]
            exact this)
        rw [← hraw]
        exact t.reference p hp

/-- White space around the path may be a line end, which no match of `_TEMPLATE` contains:
a pure reference for the resolver, an error for the parser. -/
theorem not_parses_grammar_lineEnd : ¬ ∀ value : String, ParsesGrammar value := by
  intro h
  have hpure := (h "\x7b\x7b\nworkflow.input.x\x7d\x7d").pure
    { raw := "\x7b\x7b\nworkflow.input.x\x7d\x7d", scope := "workflow.input", path := ["x"] }
  have hparse := (hpure.mp (by decide)).1
  revert hparse
  decide

end Relayvia
