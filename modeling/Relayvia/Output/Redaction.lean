import Relayvia.Library.Places
import Relayvia.Output.Command

/-!
# Texts that differ in their secrets

What the redaction leaves of a text depends on the parts outside the secrets and outside the
credentials of its inline forms.
-/

namespace Relayvia

/-! ## Texts with secrets -/

variable {ι : Type*}

inductive Part (ι : Type*)
  | text (s : List Char)
  | secret (i : ι)

/-- A part of a text, or an inline form: a word of the pattern, a sign and a credential. -/
inductive Piece (ι : Type*)
  | part (p : Part ι)
  | form (word gap : List Char) (sign : Char) (gap' : List Char) (credential : List (Part ι))

def Part.render (σ : ι → List Char) : Part ι → List Char
  | .text s => s
  | .secret i => σ i

namespace Piece

def render (σ : ι → List Char) : Piece ι → List Char
  | .part p => p.render σ
  | .form word gap sign gap' credential =>
      word ++ gap ++ [sign] ++ gap' ++ credential.flatMap (Part.render σ)

/-- What may be left of a piece. -/
def hide : Piece ι → List Char
  | .part (.text s) => s
  | .part (.secret _) => redacted
  | .form word _ sign _ _ => word ++ [sign] ++ redacted

/-- The piece after the substitution of the inline forms. -/
def token (σ : ι → List Char) : Piece ι → Text.Token Char
  | .part (.text s) => .kept s
  | .part (.secret i) => .word (σ i)
  | .form word _ sign _ _ => .kept (word ++ [sign] ++ redacted)

/-- A form is one of the pattern: its word, then a sign between optional spaces. -/
def Recognised : Piece ι → Prop
  | .part _ => True
  | .form word gap sign gap' _ =>
      (∃ words ∈ secretWords, takeSecretWord words word = some (word, [])) ∧
        (∀ c ∈ gap ++ gap', Python.isSpace c) ∧ (sign = ':' ∨ sign = '=')

end Piece

def render (σ : ι → List Char) (doc : List (Piece ι)) : List Char :=
  doc.flatMap (Piece.render σ)

def hide (doc : List (Piece ι)) : List Char :=
  doc.flatMap Piece.hide

/-- Every secret outside the forms is one that the caller passes, and long enough. -/
def Covered (doc : List (Piece ι)) (σ : ι → List Char) (sensitiveValues : List String) : Prop :=
  ∀ i, Piece.part (.secret i) ∈ doc →
    ∃ secret ∈ sensitiveValues, secret.toList = σ i ∧ 4 ≤ secret.length

def SameOutput (T : TextTables) (doc : List (Piece ι)) (σ σ' : ι → List Char)
    (sensitiveValues sensitiveValues' : List String) : Prop :=
  redactText T sensitiveValues (String.ofList (render σ doc)) =
    redactText T sensitiveValues' (String.ofList (render σ' doc))

def IsControl (c : Char) : Prop :=
  c.toNat < 0x20 ∨ (0x7F ≤ c.toNat ∧ c.toNat < 0xA0)

/-- The output does not depend on the secrets: two families of secrets of the same lengths
leave the same text. -/
def RedactionNoninterfering (T : TextTables) : Prop :=
  ∀ (doc : List (Piece ℕ)) (σ σ' : ℕ → List Char) (sensitiveValues sensitiveValues' : List String),
    (∀ piece ∈ doc, piece.Recognised) →
    Covered doc σ sensitiveValues → Covered doc σ' sensitiveValues' →
    (∀ i, 4 ≤ (σ i).length ∧ (σ i).length = (σ' i).length) →
    (∀ i, ∀ c ∈ σ i ++ σ' i, ¬IsControl c) →
    SameOutput T doc σ σ' sensitiveValues sensitiveValues'

/-! ## The inline forms -/

variable {T : TextTables} {σ σ' : ι → List Char} {doc : List (Piece ι)}
  {sensitiveValues sensitiveValues' : List String}

/-- No match of the pattern begins in this part of the text. -/
def Kept (T : TextTables) : Option Char → List Char → List Char → Prop
  | _, [], _ => True
  | before, c :: cs, rest =>
      matchSecret T before (c :: (cs ++ rest)) = none ∧ Kept T (some c) cs rest

instance decidableKept (T : TextTables) :
    ∀ before s rest, Decidable (Kept T before s rest)
  | _, [], _ => isTrue trivial
  | before, c :: cs, rest =>
      haveI := decidableKept T (some c) cs rest
      inferInstanceAs (Decidable
        (matchSecret T before (c :: (cs ++ rest)) = none ∧ Kept T (some c) cs rest))

/-- The matches of the pattern are the forms, each with its whole credential. -/
def InlineExact (T : TextTables) (σ : ι → List Char) : Option Char → List (Piece ι) → Prop
  | _, [] => True
  | before, .part p :: doc =>
      Kept T before (p.render σ) (render σ doc) ∧
        InlineExact T σ ((p.render σ).getLast?.or before) doc
  | before, .form word gap sign gap' credential :: doc =>
      let value := credential.flatMap (Part.render σ)
      matchSecret T before (word ++ gap ++ [sign] ++ gap' ++ value ++ render σ doc) =
          some { word, sign, value, rest := render σ doc } ∧
        InlineExact T σ value.getLast? doc

theorem redactFrom_kept {before : Option Char} {s rest : List Char} (h : Kept T before s rest)
    {n : ℕ} (hn : (s ++ rest).length ≤ n) : ∃ m, rest.length ≤ m ∧
      redactFrom T n before (s ++ rest) =
        s ++ redactFrom T m (s.getLast?.or before) rest := by
  induction s generalizing before n with
  | nil => exact ⟨n, hn, rfl⟩
  | cons c cs ih =>
      rw [List.cons_append, List.length_cons] at hn
      obtain ⟨n, rfl⟩ : ∃ k, n = k + 1 := ⟨n - 1, by omega⟩
      obtain ⟨m, hm, hrest⟩ := ih h.2 (Nat.le_of_succ_le_succ hn)
      refine ⟨m, hm, ?_⟩
      rw [List.cons_append, redactFrom, h.1]
      simp only [hrest, List.cons_append]
      congr 3
      cases hlast : cs.getLast? <;> simp [List.getLast?_cons, hlast]

/-- The substitution of the inline forms, by induction on the pieces. -/
theorem redactFrom_render {before : Option Char} (h : InlineExact T σ before doc) {n : ℕ}
    (hn : (render σ doc).length ≤ n) :
    redactFrom T n before (render σ doc) = Text.fill redacted [] (doc.map (Piece.token σ)) := by
  induction doc generalizing before n with
  | nil => cases n <;> rfl
  | cons piece doc ih =>
      have hcons : render σ (piece :: doc) = piece.render σ ++ render σ doc := rfl
      rw [hcons] at hn ⊢
      cases piece with
      | part p =>
          obtain ⟨m, hm, hrest⟩ := redactFrom_kept h.1 hn
          rw [Piece.render, hrest, ih h.2 hm]
          cases p <;> simp [Piece.token, Part.render, Text.fill]
      | form word gap sign gap' credential =>
          obtain ⟨hmatch, hdoc⟩ := h
          simp only [Piece.render] at hn ⊢
          obtain ⟨c, cs, hcs⟩ : ∃ c cs, word ++ gap ++ [sign] ++ gap' ++
              credential.flatMap (Part.render σ) ++ render σ doc = c :: cs := by
            apply List.exists_cons_of_ne_nil
            simp
          have hlength := congrArg List.length hcs
          simp only [List.length_append, List.length_cons, List.length_nil] at hlength hn
          obtain ⟨n, rfl⟩ : ∃ k, n = k + 1 := ⟨n - 1, by omega⟩
          rw [hcs] at hmatch ⊢
          rw [redactFrom, hmatch]
          simp only
          rw [ih hdoc (by omega)]
          simp [Piece.token, Text.fill]

/-! ## The sensitive values -/

/-- The values in the order of their replacement. -/
def orderedSecrets (sensitiveValues : List String) : List (List Char) :=
  ((sensitiveValues.filter fun secret ↦ 4 ≤ secret.length).insertionSort
    fun a b ↦ b.length ≤ a.length).map String.toList

theorem mem_orderedSecrets {w : List Char} : w ∈ orderedSecrets sensitiveValues ↔
    ∃ secret ∈ sensitiveValues, secret.toList = w ∧ 4 ≤ secret.length := by
  constructor
  · intro hw
    obtain ⟨secret, hsecret, rfl⟩ := List.mem_map.mp hw
    have hmem := (List.perm_insertionSort _ _).mem_iff.mp hsecret
    obtain ⟨hvalue, hlong⟩ := List.mem_filter.mp hmem
    exact ⟨secret, hvalue, rfl, by simpa using hlong⟩
  · rintro ⟨secret, hvalue, rfl, hlong⟩
    apply List.mem_map_of_mem
    apply (List.perm_insertionSort _ _).mem_iff.mpr
    exact List.mem_filter.mpr ⟨hvalue, by simpa using hlong⟩

theorem redactText_eq (s : String) : redactText T sensitiveValues s =
    String.ofList ((orderedSecrets sensitiveValues).foldl
      (fun s w ↦ Text.replace w redacted s) (redactInline T s.toList)) := by
  simp only [redactText, orderedSecrets, List.foldl_map, Python.replace_eq]

/-- The pattern finds the forms with their whole credentials and cuts no secret; then each
value, the longest first, stands at its own places only. -/
structure Discreet (T : TextTables) (doc : List (Piece ι)) (σ : ι → List Char)
    (sensitiveValues : List String) : Prop where
  forms : InlineExact T σ none doc
  values : Text.Undisturbed redacted (doc.map (Piece.token σ)) []
    (orderedSecrets sensitiveValues)

theorem hidden_token (doc : List (Piece ι)) :
    Text.hidden redacted (doc.map (Piece.token σ)) = hide doc := by
  unfold Text.hidden hide
  rw [List.flatMap_map]
  congr 1
  funext piece
  rcases piece with (_ | _) | _ <;> rfl

/-- Of the secrets and credentials nothing is left. -/
theorem redactText_render (hcovered : Covered doc σ sensitiveValues)
    (h : Discreet T doc σ sensitiveValues) :
    redactText T sensitiveValues (String.ofList (render σ doc)) = String.ofList (hide doc) := by
  have hinline : redactInline T (render σ doc) =
      Text.fill redacted [] (doc.map (Piece.token σ)) := redactFrom_render h.forms le_rfl
  have hwords : ∀ w ∈ orderedSecrets sensitiveValues, w ≠ [] := by
    rintro w hw rfl
    obtain ⟨secret, -, hnil, hlong⟩ := mem_orderedSecrets.mp hw
    rw [← String.length_toList, hnil] at hlong
    simp at hlong
  have hplaces : ∀ w, Text.Token.word w ∈ doc.map (Piece.token σ) →
      w ∈ orderedSecrets sensitiveValues := by
    intro w hw
    obtain ⟨piece, hpiece, htoken⟩ := List.mem_map.mp hw
    rcases piece with (s | i) | _
    · cases htoken
    · cases htoken
      exact mem_orderedSecrets.mpr (hcovered i hpiece)
    · cases htoken
  rw [redactText_eq, String.toList_ofList, hinline,
    Text.foldl_replace_eq_hidden hwords h.values hplaces, hidden_token]

/-- Two families of secrets leave the same text, with nothing of either. -/
theorem redaction_noninterfering (hcovered : Covered doc σ sensitiveValues)
    (hcovered' : Covered doc σ' sensitiveValues') (h : Discreet T doc σ sensitiveValues)
    (h' : Discreet T doc σ' sensitiveValues') :
    SameOutput T doc σ σ' sensitiveValues sensitiveValues' ∧
      redactText T sensitiveValues (String.ofList (render σ doc)) =
        String.ofList (hide doc) := by
  have hleft := redactText_render hcovered h
  constructor
  · unfold SameOutput
    rw [hleft, redactText_render hcovered' h']
  · exact hleft

/-- `login hunter22, token = s3cr3t; bye` with a password that the caller passes. -/
def loginLine : List (Piece Bool) :=
  [.part (.text "login ".toList), .part (.secret false), .part (.text ", ".toList),
    .form "token".toList [' '] '=' [' '] [.secret true], .part (.text "; bye".toList)]

def loginSecrets : Bool → List Char
  | false => "hunter22".toList
  | true => "s3cr3t".toList

def otherLoginSecrets : Bool → List Char
  | false => "a,b;c=dd".toList
  | true => "pa:ss=".toList

theorem redaction_noninterfering_loginLine :
    SameOutput asciiTables loginLine loginSecrets otherLoginSecrets
        ["hunter22"] ["a,b;c=dd"] ∧
      redactText asciiTables ["hunter22"] (String.ofList (render loginSecrets loginLine)) =
        String.ofList (hide loginLine) := by
  have hcovered : Covered loginLine loginSecrets ["hunter22"] := by
    intro i hi
    cases i <;> simp [loginLine] at hi
    exact ⟨_, List.mem_cons_self, rfl, by decide⟩
  have hcovered' : Covered loginLine otherLoginSecrets ["a,b;c=dd"] := by
    intro i hi
    cases i <;> simp [loginLine] at hi
    exact ⟨_, List.mem_cons_self, rfl, by decide⟩
  apply redaction_noninterfering hcovered hcovered'
  · refine ⟨⟨by decide, ⟨by decide, ⟨by decide, rfl, by decide, trivial⟩⟩⟩, by decide⟩
  · refine ⟨⟨by decide, ⟨by decide, ⟨by decide, rfl, by decide, trivial⟩⟩⟩, by decide⟩

/-- The pattern cuts a secret at its comma, and the exact replacement finds it no more. -/
theorem not_redaction_noninterfering : ¬RedactionNoninterfering asciiTables := by
  intro h
  have hsame := h [.part (.text "token=".toList), .part (.secret 0)]
    (fun _ ↦ "ab,cd".toList) (fun _ ↦ "ef,gh".toList) ["ab,cd"] ["ef,gh"]
    (by simp [Piece.Recognised])
    (fun i _ ↦ ⟨_, List.mem_cons_self, rfl, by decide⟩)
    (fun i _ ↦ ⟨_, List.mem_cons_self, rfl, by decide⟩)
    (fun i ↦ by decide) (fun i ↦ by simp [IsControl])
  revert hsame
  unfold SameOutput
  decide

end Relayvia
