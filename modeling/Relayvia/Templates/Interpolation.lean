import Relayvia.Templates.Parser

/-!
# Interpolation as substitution

The resolver replaces the references of a template one after the other on the growing text.
-/

namespace Relayvia

open ContextReference

namespace ContextResolver

variable (resolver : ContextResolver)

/-- The text for a reference; empty where it does not resolve. -/
def valueText (r : ContextReference) : List Char :=
  match resolver.resolveReference r with
  | .ok value => (resolver.stringify value).toList
  | .error _ => []

/-- The text after the replacements for these references. -/
def substitute (text : List Char) (references : List ContextReference) : List Char :=
  references.foldl (fun text r ↦ Python.replace r.raw.toList (resolver.valueText r) text) text

theorem interpolate_eq {references : List ContextReference}
    (h : ∀ r ∈ references, ∃ value, resolver.resolveReference r = .ok value) (text : List Char) :
    resolver.interpolate text references =
      .ok (.str (String.ofList (resolver.substitute text references))) := by
  induction references generalizing text with
  | nil => rfl
  | cons r references ih =>
      obtain ⟨value, hvalue⟩ := h r List.mem_cons_self
      have hrest := ih (fun r hr ↦ h r (List.mem_cons_of_mem _ hr))
        (Python.replace r.raw.toList (resolver.stringify value).toList text)
      simp only [interpolate, hvalue, substitute, List.foldl_cons, valueText]
      exact hrest

end ContextResolver

namespace TemplateText

/-- The template with the references whose texts are in `done` replaced, all at once. -/
def fillPieces (value : ContextReference → List Char) (done : List String)
    (pieces : List (List Char × ContextReference)) (last : List Char) : List Char :=
  pieces.flatMap (fun p ↦ p.1 ++ if p.2.raw ∈ done then value p.2 else p.2.raw.toList) ++ last

def fill (t : TemplateText) (value : ContextReference → List Char) (done : List String) :
    List Char :=
  fillPieces value done t.pieces t.last

/-- The literal texts with the value of each reference in its place. -/
def substituted (t : TemplateText) (value : ContextReference → List Char) : List Char :=
  t.pieces.flatMap (fun p ↦ p.1 ++ value p.2) ++ t.last

theorem fill_nil (t : TemplateText) (value : ContextReference → List Char) :
    t.fill value [] = t.text := by
  simp [fill, fillPieces, text]

theorem fill_references (t : TemplateText) (value : ContextReference → List Char) :
    t.fill value (t.references.map ContextReference.raw) = t.substituted value := by
  unfold fill fillPieces substituted
  congr 1
  apply List.flatMap_congr
  intro p hp
  have hmem : p.2.raw ∈ t.references.map ContextReference.raw :=
    List.mem_map_of_mem (List.mem_map_of_mem hp)
  rw [if_pos hmem]

/-- What stands between the places of one reference. -/
def betweenPieces (value : ContextReference → List Char) (done : List String) (raw : String)
    (last : List Char) : List (List Char × ContextReference) → List (List Char)
  | [] => [last]
  | p :: pieces =>
      let rest := betweenPieces value done raw last pieces
      if p.2.raw = raw then p.1 :: rest
      else
        rest.modifyHead
          ((p.1 ++ if p.2.raw ∈ done then value p.2 else p.2.raw.toList) ++ ·)

/-- The parts of `fill` outside the places of the reference; a reference that has been
replaced has no places any more. -/
def between (t : TemplateText) (value : ContextReference → List Char) (done : List String)
    (raw : String) : List (List Char) :=
  if raw ∈ done then [t.fill value done] else betweenPieces value done raw t.last t.pieces

variable {value : ContextReference → List Char} {done : List String} {r : ContextReference}
  {pieces : List (List Char × ContextReference)} {last : List Char}

theorem betweenPieces_ne_nil (value : ContextReference → List Char) (done : List String)
    (raw : String) (last : List Char) (pieces : List (List Char × ContextReference)) :
    betweenPieces value done raw last pieces ≠ [] := by
  induction pieces with
  | nil => simp [betweenPieces]
  | cons p pieces ih =>
      simp only [betweenPieces]
      split
      · simp
      · simpa using ih

/-- The template before and after the replacement of a reference. -/
theorem intercalate_betweenPieces (hdone : r.raw ∉ done)
    (hunique : ∀ p ∈ pieces, p.2.raw = r.raw → p.2 = r) :
    r.raw.toList.intercalate (betweenPieces value done r.raw last pieces) =
        fillPieces value done pieces last ∧
      (value r).intercalate (betweenPieces value done r.raw last pieces) =
        fillPieces value (done ++ [r.raw]) pieces last := by
  induction pieces with
  | nil => simp [betweenPieces, fillPieces]
  | cons p pieces ih =>
      obtain ⟨hbefore, hafter⟩ := ih fun p hp ↦ hunique p (List.mem_cons_of_mem _ hp)
      have hrest := betweenPieces_ne_nil value done r.raw last pieces
      simp only [betweenPieces]
      by_cases hp : p.2.raw = r.raw
      · have hpr := hunique p List.mem_cons_self hp
        rw [if_pos hp, List.intercalate_cons_of_ne_nil hrest, List.intercalate_cons_of_ne_nil hrest,
          List.append_assoc, List.append_assoc, hbefore, hafter]
        simp [fillPieces, hpr, hdone]
      · rw [if_neg hp, Text.intercalate_modifyHead _ _ hrest,
          Text.intercalate_modifyHead _ _ hrest, hbefore, hafter]
        simp [fillPieces, hp]

theorem intercalate_between (t : TemplateText) (value : ContextReference → List Char)
    (done : List String) (hr : matchReference r.raw = some r) :
    r.raw.toList.intercalate (t.between value done r.raw) = t.fill value done ∧
      (value r).intercalate (t.between value done r.raw) = t.fill value (done ++ [r.raw]) := by
  unfold between
  split
  · rename_i hdone
    have hsame : t.fill value (done ++ [r.raw]) = t.fill value done := by
      unfold fill fillPieces
      congr 2
      funext p
      by_cases hp : p.2.raw ∈ done
      · simp [hp]
      · have hne : p.2.raw ≠ r.raw := fun h ↦ hp (h ▸ hdone)
        simp [hp, hne]
    rw [hsame]
    simp
  · rename_i hdone
    apply intercalate_betweenPieces hdone
    intro p hp hraw
    have hpr := t.reference p hp
    rw [hraw, hr] at hpr
    exact (Option.some.inj hpr).symm

end TemplateText

theorem unbordered_of_matchReference {text : String} {r : ContextReference}
    (h : matchReference text = some r) : Text.Unbordered text.toList := by
  obtain ⟨inner, htext, hopen, -⟩ := text_of_matchReference h
  have hnot : '{' ∉ inner ++ ['}', '}'] := by simp [hopen]
  rw [htext]
  rintro k hpos hlt ⟨rest, hrest⟩
  -- an end of the text is a nonempty end of this one, perhaps with one brace in front
  have hhead {end' tail : List Char} (hne : end' ≠ [])
      (hsub : ∀ c ∈ end', c ∈ inner ++ ['}', '}']) (heq : end' ++ rest = '{' :: tail) : False := by
    obtain ⟨c, cs, rfl⟩ := List.exists_cons_of_ne_nil hne
    cases heq
    exact hnot (hsub '{' List.mem_cons_self)
  match k with
  | 0 => omega
  | 1 => exact hhead (by simp) (fun c hc ↦ hc) (List.cons.inj hrest).2
  | k + 2 =>
      refine hhead ?_ (fun c hc ↦ List.mem_of_mem_drop hc) hrest
      intro hempty
      have := congrArg List.length hempty
      simp at this hlt
      omega

/-! ## Steps and result -/

/-- After each replacement the text is the template with the references so far replaced all
at once, so that no text of a value is read as a reference; the result is the last text. -/
structure SubstitutesAtOnce (resolver : ContextResolver) (t : TemplateText) : Prop where
  parsed : parseContextReferences (String.ofList t.text) = .ok t.references
  steps : ∀ earlier later, t.references = earlier ++ later →
    resolver.substitute t.text earlier =
      t.fill resolver.valueText (earlier.map ContextReference.raw)
  result : resolver.resolveString (String.ofList t.text) =
    .ok (.str (String.ofList (t.substituted resolver.valueText)))

/-- When its turn comes, the text of a reference stands at its own places only, or its value
is this text. -/
def TemplateText.Undisturbed (t : TemplateText) (value : ContextReference → List Char) : Prop :=
  ∀ earlier r later, t.references = earlier ++ r :: later →
    value r = r.raw.toList ∨
      ∀ w ∈ t.between value (earlier.map ContextReference.raw) r.raw, ¬r.raw.toList <:+: w

variable {resolver : ContextResolver} {t : TemplateText}

theorem substitute_append (text : List Char) (earlier : List ContextReference)
    (r : ContextReference) :
    resolver.substitute text (earlier ++ [r]) =
      Python.replace r.raw.toList (resolver.valueText r) (resolver.substitute text earlier) := by
  simp [ContextResolver.substitute]

theorem TemplateText.matchReference_of_mem {r : ContextReference} (h : r ∈ t.references) :
    matchReference r.raw = some r := by
  obtain ⟨p, hp, rfl⟩ := List.mem_map.mp h
  exact t.reference p hp

theorem replace_fill_iff {value : ContextReference → List Char} {done : List String}
    {r : ContextReference} (hr : matchReference r.raw = some r) :
    Python.replace r.raw.toList (value r) (t.fill value done) =
        t.fill value (done ++ [r.raw]) ↔
      value r = r.raw.toList ∨ ∀ w ∈ t.between value done r.raw, ¬r.raw.toList <:+: w := by
  obtain ⟨hbefore, hafter⟩ := t.intercalate_between value done hr
  obtain ⟨inner, hraw, -, -⟩ := text_of_matchReference hr
  rw [← hbefore, ← hafter, Python.replace_eq]
  exact Text.replace_intercalate_eq_iff (by simp [hraw]) (unbordered_of_matchReference hr) _

/-- The steps of the replacement, by induction on the references replaced so far. -/
theorem steps_iff :
    (∀ earlier later, t.references = earlier ++ later →
      resolver.substitute t.text earlier =
        t.fill resolver.valueText (earlier.map ContextReference.raw)) ↔
      t.Undisturbed resolver.valueText := by
  constructor
  · intro hsteps earlier r later hreferences
    have hr : matchReference r.raw = some r := t.matchReference_of_mem (by simp [hreferences])
    have hbefore := hsteps earlier (r :: later) hreferences
    have hafter := hsteps (earlier ++ [r]) later (by simp [hreferences])
    rw [substitute_append, hbefore, List.map_append, List.map_singleton] at hafter
    exact (replace_fill_iff hr).mp hafter
  · intro hundisturbed earlier
    induction earlier using List.reverseRecOn with
    | nil =>
        intro later _
        exact t.fill_nil resolver.valueText |>.symm
    | append_singleton earlier r ih =>
        intro later hreferences
        rw [List.append_assoc, List.singleton_append] at hreferences
        have hr : matchReference r.raw = some r := t.matchReference_of_mem (by simp [hreferences])
        rw [substitute_append, ih (r :: later) hreferences, List.map_append, List.map_singleton]
        exact (replace_fill_iff hr).mpr (hundisturbed earlier r later hreferences)

theorem resolveString_of_parsed
    (hresolves : ∀ r ∈ t.references, ∃ value, resolver.resolveReference r = .ok value)
    (hmixed : matchReference (String.ofList t.text) = none)
    (hparsed : parseContextReferences (String.ofList t.text) = .ok t.references) :
    resolver.resolveString (String.ofList t.text) =
      .ok (.str (String.ofList (resolver.substitute t.text t.references))) := by
  unfold ContextResolver.resolveString
  rw [String.toList_ofList]
  by_cases hnone : t.references = []
  · have hfree : ¬['{', '{'] <:+: t.text := by
      rw [pairFree_of_references_nil hnone]
      exact t.literal_last.1
    rw [if_pos (by rwa [contains_iff_isInfix]), hnone]
    rfl
  · rw [if_neg (by rw [contains_iff_isInfix]; exact not_not.mpr (opens_of_references hnone)),
      hmixed, hparsed]
    exact resolver.interpolate_eq hresolves t.text

/-- A template with literal text is interpolated as by one substitution exactly when no
reference of it is broken and each reference, when its turn comes, stands at its own places
only. -/
theorem interpolation_at_once_iff (resolver : ContextResolver) (t : TemplateText)
    (hresolves : ∀ r ∈ t.references, ∃ value, resolver.resolveReference r = .ok value)
    (hmixed : matchReference (String.ofList t.text) = none) :
    SubstitutesAtOnce resolver t ↔ t.Plain ∧ t.Undisturbed resolver.valueText := by
  have htext : t.text = (String.ofList t.text).toList := String.toList_ofList.symm
  constructor
  · intro h
    exact ⟨plain_of_parse htext h.parsed, steps_iff.mp h.steps⟩
  · rintro ⟨hplain, hundisturbed⟩
    have hparsed := hplain.parse htext
    have hsteps := steps_iff.mpr hundisturbed
    refine ⟨hparsed, hsteps, ?_⟩
    rw [resolveString_of_parsed hresolves hmixed hparsed, hsteps t.references [] (by simp),
      t.fill_references]

/-! ## A value that looks like a reference -/

def inputReference : ContextReference where
  raw := "\x7b\x7bworkflow.input.a\x7d\x7d"
  scope := "workflow.input"
  path := ["a"]

def runReference : ContextReference where
  raw := "\x7b\x7brun.b\x7d\x7d"
  scope := "run"
  path := ["b"]

def twoReferences : TemplateText where
  pieces := [([], inputReference), ([' '], runReference)]
  last := []
  literal := by
    intro p hp
    rcases List.mem_pair.mp hp with rfl | rfl
    · exact pairFree_nil
    · constructor <;> decide
  reference := by
    intro p hp
    rcases List.mem_pair.mp hp with rfl | rfl <;> decide
  literal_last := pairFree_nil

/-- The input of the workflow is `a`, the run says `b`. -/
def resolverFor (a b : String) : ContextResolver where
  workflowInput := [("a", .str a)]
  run := [("b", .str b)]
  pyStr _ := ""

theorem resolves_twoReferences (a b : String) :
    ∀ r ∈ twoReferences.references, ∃ value, (resolverFor a b).resolveReference r = .ok value := by
  intro r hr
  rcases List.mem_pair.mp hr with rfl | rfl
  · exact ⟨.str a, rfl⟩
  · exact ⟨.str b, rfl⟩

theorem interpolation_at_once_iff_twoReferences :
    ¬SubstitutesAtOnce (resolverFor "\x7b\x7brun.b\x7d\x7d" "key") twoReferences := by
  intro h
  have hundisturbed := ((interpolation_at_once_iff (resolverFor "\x7b\x7brun.b\x7d\x7d" "key")
    twoReferences (resolves_twoReferences _ _) (by decide)).mp h).2
  rcases hundisturbed [inputReference] runReference [] rfl with heq | hnone
  · revert heq
    decide
  · have hbetween : twoReferences.between
        (resolverFor "\x7b\x7brun.b\x7d\x7d" "key").valueText [inputReference.raw]
        runReference.raw = ["\x7b\x7brun.b\x7d\x7d ".toList, []] := by decide
    rw [List.map_singleton, hbetween] at hnone
    exact hnone _ List.mem_cons_self ⟨[], [' '], rfl⟩

/-- A caller of the workflow writes the second reference into the first one's value. -/
theorem not_interpolation_at_once :
    ¬ ∀ (resolver : ContextResolver) (t : TemplateText),
      (∀ r ∈ t.references, ∃ value, resolver.resolveReference r = .ok value) →
        matchReference (String.ofList t.text) = none → SubstitutesAtOnce resolver t := by
  intro h
  have hresult := (h (resolverFor "\x7b\x7brun.b\x7d\x7d" "key") twoReferences
    (resolves_twoReferences _ _) (by decide)).result
  have hkey : (resolverFor "\x7b\x7brun.b\x7d\x7d" "key").resolveString
      (String.ofList twoReferences.text) = .ok (.str "key key") := rfl
  rw [hkey, Except.ok.injEq, Json.str.injEq] at hresult
  revert hresult
  decide

end Relayvia
