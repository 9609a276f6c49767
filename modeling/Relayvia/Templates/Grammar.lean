import Relayvia.Templates.Scan

/-!
# The grammar of templates

Literal text without a double brace, and references.  The parser counts braces and scans for
templates instead; this is where the two part.
-/

namespace Relayvia

open ContextReference

/-- Neither `{{` nor `}}` stands in the text. -/
def PairFree (text : List Char) : Prop :=
  ¬['{', '{'] <:+: text ∧ ¬['}', '}'] <:+: text

/-- Literal texts, each before a reference, and the literal text at the end. -/
structure TemplateText where
  pieces : List (List Char × ContextReference)
  last : List Char
  literal : ∀ p ∈ pieces, PairFree p.1
  reference : ∀ p ∈ pieces, matchReference p.2.raw = some p.2
  literal_last : PairFree last

namespace TemplateText

def text (t : TemplateText) : List Char :=
  t.pieces.flatMap (fun p ↦ p.1 ++ p.2.raw.toList) ++ t.last

def references (t : TemplateText) : List ContextReference :=
  t.pieces.map Prod.snd

def literals (t : TemplateText) : List (List Char) :=
  t.pieces.map Prod.fst ++ [t.last]

/-- A literal text and a reference in front. -/
def cons (l : List Char) (r : ContextReference) (hl : PairFree l)
    (hr : matchReference r.raw = some r) (t : TemplateText) : TemplateText where
  pieces := (l, r) :: t.pieces
  last := t.last
  literal p hp := by
    rcases List.mem_cons.mp hp with rfl | hp
    · exact hl
    · exact t.literal p hp
  reference p hp := by
    rcases List.mem_cons.mp hp with rfl | hp
    · exact hr
    · exact t.reference p hp
  literal_last := t.literal_last

/-- No reference of the template is broken by a line end or directly after a brace. -/
def Plain (t : TemplateText) : Prop :=
  ∀ p ∈ t.pieces, '\n' ∉ p.2.raw.toList ∧ p.1.getLast? ≠ some '{'

end TemplateText

/-! ## Pairs of braces -/

theorem contains_iff_isInfix {needle s : List Char} :
    Python.contains needle s = true ↔ needle <:+: s := by
  induction s with
  | nil => simp [Python.contains]
  | cons c cs ih => simp [Python.contains, ih, List.infix_cons_iff]

theorem pairFree_nil : PairFree [] := by
  constructor <;> simp

theorem PairFree.tail {c : Char} {cs : List Char} (h : PairFree (c :: cs)) : PairFree cs :=
  ⟨fun hopen ↦ h.1 (hopen.trans (List.suffix_cons c cs).isInfix),
    fun hclose ↦ h.2 (hclose.trans (List.suffix_cons c cs).isInfix)⟩

variable {a : Char} {l s text : List Char}

/-- A text without a pair that does not end in its first half opens none. -/
theorem head?_ne_of_pairFree {c : Char} (hl : ¬[a, a] <:+: c :: l) (hc : c = a)
    (hlast : (c :: l).getLast? = some a → s.head? ≠ some a) : (l ++ s).head? ≠ some a := by
  subst hc
  cases l with
  | nil => exact hlast rfl
  | cons d l =>
      intro hd
      cases hd
      exact hl ⟨[], l, rfl⟩

theorem getLast?_cons_of {c : Char} (h : l.getLast? = some a) : (c :: l).getLast? = some a := by
  cases l with
  | nil => cases h
  | cons d l => rwa [List.getLast?_cons_cons]

theorem countPair_cons {c : Char} (h : c = a → s.head? ≠ some a) :
    Python.countPair a a (c :: s) = Python.countPair a a s := by
  cases s with
  | nil => rfl
  | cons d cs =>
      rw [Python.countPair, if_neg]
      rintro ⟨hc, hd⟩
      exact h hc (by simp [hd])

theorem countPair_append (hl : ¬[a, a] <:+: l)
    (hlast : l.getLast? = some a → s.head? ≠ some a) :
    Python.countPair a a (l ++ s) = Python.countPair a a s := by
  induction l with
  | nil => rfl
  | cons c l ih =>
      have hrest : ¬[a, a] <:+: l := fun h ↦ hl (h.trans (List.suffix_cons c l).isInfix)
      have hlast' : l.getLast? = some a → s.head? ≠ some a :=
        fun h ↦ hlast (getLast?_cons_of h)
      rw [List.cons_append, countPair_cons, ih hrest hlast']
      intro hc
      exact head?_ne_of_pairFree hl hc hlast

theorem countPair_eq_zero_iff : Python.countPair a a s = 0 ↔ ¬[a, a] <:+: s := by
  constructor
  · intro hzero hpair
    induction s with
    | nil => simp at hpair
    | cons c cs ih =>
        by_cases hfront : c = a ∧ cs.head? = some a
        · obtain ⟨rfl, hhead⟩ := hfront
          obtain ⟨cs', rfl⟩ := List.head?_eq_some_iff.mp hhead
          simp [Python.countPair] at hzero
        · rw [countPair_cons fun hc hhead ↦ hfront ⟨hc, hhead⟩] at hzero
          apply ih hzero
          apply (List.infix_cons_iff.mp hpair).resolve_left
          rintro ⟨rest, hrest⟩
          cases hrest
          exact hfront ⟨rfl, rfl⟩
  · intro hfree
    have := countPair_append (s := []) hfree (by simp)
    simpa [Python.countPair] using this

/-! ## The scan of a template -/

theorem Scan.literal {ms gs : List (List Char)} (hl : ¬['{', '{'] <:+: l)
    (hlast : l.getLast? = some '{' → s.head? ≠ some '{') (h : Scan s ms gs) :
    Scan (l ++ s) ms (gs.modifyHead (l ++ ·)) := by
  induction l with
  | nil =>
      have hsame : gs.modifyHead ([] ++ ·) = gs := by cases gs <;> rfl
      rwa [hsame]
  | cons c l ih =>
      have hrest : ¬['{', '{'] <:+: l := fun h ↦ hl (h.trans (List.suffix_cons c l).isInfix)
      have hlast' : l.getLast? = some '{' → s.head? ≠ some '{' :=
        fun h ↦ hlast (getLast?_cons_of h)
      have hnone : opening? (c :: (l ++ s)) = none := by
        apply opening?_eq_none
        by_cases hc : c = '{'
        · exact .inr (head?_ne_of_pairFree hl hc hlast)
        · exact .inl hc
      have := Scan.skip hnone (ih hrest hlast')
      rwa [List.modifyHead_modifyHead] at this

/-- A scan skips a literal text. -/
theorem Scan.drop_literal {ms gs : List (List Char)} (h : Scan (l ++ s) ms gs)
    (hl : ¬['{', '{'] <:+: l) (hlast : l.getLast? = some '{' → s.head? ≠ some '{') :
    ∃ gs', Scan s ms gs' := by
  induction l generalizing gs with
  | nil => exact ⟨gs, h⟩
  | cons c l ih =>
      have hnone : opening? (c :: (l ++ s)) = none := by
        apply opening?_eq_none
        by_cases hc : c = '{'
        · exact .inr (head?_ne_of_pairFree hl hc hlast)
        · exact .inl hc
      obtain ⟨gs', hrest⟩ := h.tail hnone
      exact ih hrest (fun h ↦ hl (h.trans (List.suffix_cons c l).isInfix))
        (fun h ↦ hlast (getLast?_cons_of h))

theorem closing?_append {inner : List Char} (hclose : '}' ∉ inner) (hline : '\n' ∉ inner) :
    closing? (inner ++ '}' :: '}' :: s) = some (inner ++ ['}', '}'], s) := by
  induction inner with
  | nil => rfl
  | cons c inner ih =>
      rw [List.mem_cons, not_or] at hclose hline
      rw [List.cons_append, closing?.eq_def]
      split
      · rename_i heq
        exact absurd (List.cons.inj heq).1.symm hclose.1
      · rename_i heq
        exact absurd (List.cons.inj heq).1.symm hline.1
      · rename_i heq
        obtain ⟨rfl, rfl⟩ := List.cons.inj heq
        rw [ih hclose.2 hline.2]
        rfl
      · rename_i heq
        cases heq

theorem opening?_reference {r : ContextReference} (hr : matchReference r.raw = some r)
    (hline : '\n' ∉ r.raw.toList) :
    opening? (r.raw.toList ++ s) = some (r.raw.toList, s) := by
  obtain ⟨inner, hraw, -, hclose⟩ := text_of_matchReference hr
  have hinner : '\n' ∉ inner := fun h ↦ hline (by simp [hraw, h])
  rw [hraw]
  simp only [List.cons_append, opening?, List.append_assoc, List.nil_append,
    closing?_append hclose hinner, Option.map_some]

/-- A reference directly after a brace is no match of its own. -/
theorem opening?_brace {r : ContextReference} (hr : matchReference r.raw = some r)
    (hline : '\n' ∉ r.raw.toList) :
    opening? ('{' :: (r.raw.toList ++ s)) = some ('{' :: r.raw.toList, s) := by
  obtain ⟨inner, hraw, -, hclose⟩ := text_of_matchReference hr
  have hinner : '\n' ∉ '{' :: inner := by
    rw [List.mem_cons, not_or]
    exact ⟨by decide, fun h ↦ hline (by simp [hraw, h])⟩
  have hbrace : '}' ∉ '{' :: inner := by
    rw [List.mem_cons, not_or]
    exact ⟨by decide, hclose⟩
  have hopen := closing?_append (s := s) hbrace hinner
  rw [hraw]
  simp only [List.cons_append] at hopen
  simp only [List.cons_append, opening?, List.append_assoc, List.nil_append, hopen,
    Option.map_some]

theorem matchReference_brace {r : ContextReference} (hr : matchReference r.raw = some r) :
    matchReference (String.ofList ('{' :: r.raw.toList)) = none := by
  obtain ⟨inner, hraw, -, -⟩ := text_of_matchReference hr
  by_contra hsome
  obtain ⟨r', hr'⟩ := Option.ne_none_iff_exists'.mp hsome
  obtain ⟨inner', hraw', hopen, -⟩ := text_of_matchReference hr'
  rw [String.toList_ofList, hraw] at hraw'
  have hhead : '{' ∈ inner' := by
    cases inner' with
    | nil => simp at hraw'
    | cons c inner' =>
        have := (List.cons.inj (List.cons.inj (List.cons.inj hraw').2).2).1
        simp [← this]
  exact hopen hhead

namespace TemplateText

theorem scan_pieces {pieces : List (List Char × ContextReference)} {last : List Char}
    (hliteral : ∀ p ∈ pieces, PairFree p.1)
    (hreference : ∀ p ∈ pieces, matchReference p.2.raw = some p.2) (hlast : PairFree last)
    (hplain : ∀ p ∈ pieces, '\n' ∉ p.2.raw.toList ∧ p.1.getLast? ≠ some '{') :
    Scan (pieces.flatMap (fun p ↦ p.1 ++ p.2.raw.toList) ++ last)
      (pieces.map fun p ↦ p.2.raw.toList) (pieces.map Prod.fst ++ [last]) := by
  induction pieces with
  | nil =>
      have := Scan.nil.literal hlast.1 (by simp)
      simpa using this
  | cons p pieces ih =>
      obtain ⟨hline, hbrace⟩ := hplain p List.mem_cons_self
      have hrest := ih (fun p hp ↦ hliteral p (List.mem_cons_of_mem _ hp))
        (fun p hp ↦ hreference p (List.mem_cons_of_mem _ hp))
        (fun p hp ↦ hplain p (List.mem_cons_of_mem _ hp))
      have hopen := Scan.template
        (opening?_reference (hreference p List.mem_cons_self) hline) hrest
      have := hopen.literal (hliteral p List.mem_cons_self).1 (fun h ↦ absurd h hbrace)
      simpa using this

/-- The scan of a plain template finds its references, with its literal texts between. -/
theorem Plain.scan {t : TemplateText} (h : t.Plain) :
    Scan t.text (t.references.map fun r ↦ r.raw.toList) t.literals := by
  have := scan_pieces t.literal t.reference t.literal_last h
  simpa [text, references, literals, Function.comp_def] using this

theorem plain_of_scan_pieces {pieces : List (List Char × ContextReference)} {last : List Char}
    {ms gs : List (List Char)} (hliteral : ∀ p ∈ pieces, PairFree p.1)
    (hreference : ∀ p ∈ pieces, matchReference p.2.raw = some p.2)
    (hline : ∀ p ∈ pieces, '\n' ∉ p.2.raw.toList)
    (hscan : Scan (pieces.flatMap (fun p ↦ p.1 ++ p.2.raw.toList) ++ last) ms gs)
    (hms : ∀ m ∈ ms, matchReference (String.ofList m) ≠ none) :
    ∀ p ∈ pieces, p.1.getLast? ≠ some '{' := by
  induction pieces generalizing ms gs with
  | nil => simp
  | cons p pieces ih =>
      obtain ⟨l, r⟩ := p
      have hr := hreference _ List.mem_cons_self
      have hfree := (hliteral _ List.mem_cons_self).1
      have hraw := hline _ List.mem_cons_self
      simp only [List.flatMap_cons, List.append_assoc] at hscan hr hfree hraw
      have hl : l.getLast? ≠ some '{' := by
        intro hlast
        obtain ⟨l', rfl⟩ : ∃ l', l = l' ++ ['{'] := List.getLast?_eq_some_iff.mp hlast
        rw [List.append_assoc] at hscan
        have hfree' : ¬['{', '{'] <:+: l' :=
          fun h ↦ hfree (h.trans (List.prefix_append _ _).isInfix)
        obtain ⟨gs', hscan'⟩ := hscan.drop_literal hfree' (by
          intro hl'
          obtain ⟨l'', rfl⟩ := List.getLast?_eq_some_iff.mp hl'
          exact absurd ⟨l'', [], by simp⟩ hfree)
        obtain ⟨ms', gs'', rfl, -⟩ := hscan'.rest (opening?_brace hr hraw)
        exact hms _ List.mem_cons_self (matchReference_brace hr)
      obtain ⟨gs', hscan'⟩ := hscan.drop_literal hfree (fun h ↦ absurd h hl)
      obtain ⟨ms', gs'', rfl, hrest⟩ := hscan'.rest (opening?_reference hr hraw)
      intro q hq
      rcases List.mem_cons.mp hq with rfl | hq
      · exact hl
      · exact ih (fun p hp ↦ hliteral p (List.mem_cons_of_mem _ hp))
          (fun p hp ↦ hreference p (List.mem_cons_of_mem _ hp))
          (fun p hp ↦ hline p (List.mem_cons_of_mem _ hp)) hrest
          (fun m hm ↦ hms m (List.mem_cons_of_mem _ hm)) q hq

theorem Plain.of_scan {t : TemplateText} {gs : List (List Char)}
    (hscan : Scan t.text (t.references.map fun r ↦ r.raw.toList) gs) : t.Plain := by
  have hline : ∀ p ∈ t.pieces, '\n' ∉ p.2.raw.toList :=
    fun p hp ↦ hscan.newline_free _
      (List.mem_map.mpr ⟨p.2, List.mem_map.mpr ⟨p, hp, rfl⟩, rfl⟩)
  have hbrace := plain_of_scan_pieces t.literal t.reference hline hscan (by
    intro m hm
    obtain ⟨r, hr, rfl⟩ := List.mem_map.mp hm
    obtain ⟨p, hp, rfl⟩ := List.mem_map.mp hr
    rw [String.ofList_toList, t.reference p hp]
    simp)
  exact fun p hp ↦ ⟨hline p hp, hbrace p hp⟩

/-- A scan with references for matches and without a pair in the gaps gives a template. -/
theorem exists_of_scan {text : List Char} {ms gs : List (List Char)} (h : Scan text ms gs)
    {refs : List ContextReference} (hms : ms = refs.map fun r ↦ r.raw.toList)
    (hrefs : ∀ r ∈ refs, matchReference r.raw = some r) (hgs : ∀ g ∈ gs, PairFree g) :
    ∃ t : TemplateText, t.text = text ∧ t.references = refs ∧ t.literals = gs := by
  induction h generalizing refs with
  | nil =>
      cases List.map_eq_nil_iff.mp hms.symm
      exact ⟨⟨[], [], by simp, by simp, pairFree_nil⟩, rfl, rfl, rfl⟩
  | template h _ ih =>
      cases refs with
      | nil => cases hms
      | cons r refs =>
          obtain ⟨rfl, hrest⟩ := List.cons.inj hms
          obtain ⟨t, htext, hreferences, hliterals⟩ := ih hrest
            (fun r hr ↦ hrefs r (List.mem_cons_of_mem _ hr))
            (fun g hg ↦ hgs g (List.mem_cons_of_mem _ hg))
          refine ⟨t.cons [] r pairFree_nil (hrefs r List.mem_cons_self), ?_, ?_, ?_⟩
          · rw [(opening?_spec h).1, ← htext]
            simp [TemplateText.text, cons]
          · exact congrArg (r :: ·) hreferences
          · exact congrArg ([] :: ·) hliterals
  | @skip c cs ms gs h hscan ih =>
      obtain ⟨g, gs', rfl⟩ := List.exists_cons_of_ne_nil hscan.gaps_ne_nil
      have hfirst : PairFree (c :: g) := hgs _ List.mem_cons_self
      obtain ⟨t, htext, hreferences, hliterals⟩ := ih hms hrefs (by
        intro g' hg'
        rcases List.mem_cons.mp hg' with rfl | hg'
        · exact hfirst.tail
        · exact hgs g' (List.mem_cons_of_mem _ hg'))
      obtain ⟨pieces, last, hliteral, hreference, hlast⟩ := t
      cases pieces with
      | nil =>
          cases hliterals
          exact ⟨⟨[], c :: last, hliteral, hreference, hfirst⟩,
            congrArg (c :: ·) htext, hreferences, rfl⟩
      | cons p pieces =>
          obtain ⟨l, r⟩ := p
          simp only [literals, List.map_cons, List.cons_append, List.cons.injEq] at hliterals
          obtain ⟨rfl, hliterals⟩ := hliterals
          refine ⟨⟨(c :: l, r) :: pieces, last, ?_, ?_, hlast⟩, ?_, hreferences, ?_⟩
          · intro p hp
            rcases List.mem_cons.mp hp with rfl | hp
            · exact hfirst
            · exact hliteral p (List.mem_cons_of_mem _ hp)
          · intro p hp
            rcases List.mem_cons.mp hp with rfl | hp
            · exact hreference (l, r) List.mem_cons_self
            · exact hreference p (List.mem_cons_of_mem _ hp)
          · rw [← htext]
            simp [TemplateText.text]
          · simp [literals, ← hliterals]

/-! ## The delimiters of a template -/

theorem countPair_reference {r : ContextReference} (hr : matchReference r.raw = some r)
    (hline : l.getLast? ≠ some '{') (hl : PairFree l) :
    Python.countPair '{' '{' (l ++ (r.raw.toList ++ s)) = Python.countPair '{' '{' s + 1 ∧
      Python.countPair '}' '}' (l ++ (r.raw.toList ++ s)) = Python.countPair '}' '}' s + 1 := by
  obtain ⟨inner, hraw, hopen, hclose⟩ := text_of_matchReference hr
  have hnot {c : Char} {cs : List Char} (h : c ∉ cs) : ¬[c, c] <:+: cs :=
    fun hpair ↦ h (hpair.subset (by simp))
  constructor
  · rw [countPair_append hl.1 (fun h ↦ absurd h hline), hraw]
    have hfront : '{' :: '{' :: (inner ++ ['}', '}']) ++ s =
        '{' :: '{' :: ((inner ++ ['}', '}']) ++ s) := rfl
    have hinner : ¬['{', '{'] <:+: inner ++ ['}', '}'] := hnot (by simp [hopen])
    have hrest := countPair_append (s := s) hinner (by simp)
    rw [hfront, Python.countPair, if_pos ⟨rfl, rfl⟩, hrest]
  · rw [countPair_append hl.2 (by simp [hraw]), hraw]
    have hfront : '{' :: '{' :: (inner ++ ['}', '}']) ++ s =
        ('{' :: '{' :: inner) ++ '}' :: '}' :: s := by simp
    have hlast : ('{' :: '{' :: inner).getLast? ≠ some '}' := by
      intro h
      have := List.mem_of_getLast? h
      simp [hclose] at this
    rw [hfront, countPair_append (hnot (by simp [hclose])) (fun h ↦ absurd h hlast)]
    simp [Python.countPair]

theorem countPair_pieces {pieces : List (List Char × ContextReference)} {last : List Char}
    (hliteral : ∀ p ∈ pieces, PairFree p.1)
    (hreference : ∀ p ∈ pieces, matchReference p.2.raw = some p.2) (hlast : PairFree last)
    (hbrace : ∀ p ∈ pieces, p.1.getLast? ≠ some '{') :
    Python.countPair '{' '{' (pieces.flatMap (fun p ↦ p.1 ++ p.2.raw.toList) ++ last) =
        pieces.length ∧
      Python.countPair '}' '}' (pieces.flatMap (fun p ↦ p.1 ++ p.2.raw.toList) ++ last) =
        pieces.length := by
  induction pieces with
  | nil => exact ⟨countPair_eq_zero_iff.mpr hlast.1, countPair_eq_zero_iff.mpr hlast.2⟩
  | cons p pieces ih =>
      obtain ⟨hopens, hcloses⟩ := ih (fun p hp ↦ hliteral p (List.mem_cons_of_mem _ hp))
        (fun p hp ↦ hreference p (List.mem_cons_of_mem _ hp))
        (fun p hp ↦ hbrace p (List.mem_cons_of_mem _ hp))
      simp only [List.flatMap_cons, List.append_assoc, List.length_cons]
      rw [← hopens]
      have hcount := countPair_reference
        (s := pieces.flatMap (fun p ↦ p.1 ++ p.2.raw.toList) ++ last)
        (hreference p List.mem_cons_self) (hbrace p List.mem_cons_self)
        (hliteral p List.mem_cons_self)
      exact ⟨hcount.1, by rw [hcount.2, hopens, hcloses]⟩

theorem Plain.countPair {t : TemplateText} (h : t.Plain) :
    Python.countPair '{' '{' t.text = Python.countPair '}' '}' t.text := by
  obtain ⟨hopens, hcloses⟩ := countPair_pieces t.literal t.reference t.literal_last
    (fun p hp ↦ (h p hp).2)
  rw [text, hopens, hcloses]

end TemplateText

end Relayvia
