import Mathlib.Data.List.Sort
import Relayvia.Models
import Relayvia.Output.Text

/-!
# Sanitizing what a node leaves

The redaction of secrets in texts and the size bound on a stored value.
-/

namespace Relayvia

/-- The Unicode tables and the `repr` of a float. -/
structure TextTables where
  /-- `c.isalnum()` beyond ASCII -/
  isAlnum : Char → Bool
  /-- `s.lower()` of a text beyond ASCII -/
  lower : String → String
  floatText : BitVec 64 → String

namespace TextTables

def isWord (T : TextTables) (c : Char) : Bool :=
  if c.toNat < 0x80 then c.isAlphanum || c == '_' else T.isAlnum c

def toLower (T : TextTables) (s : String) : String :=
  if s.toList.all (·.toNat < 0x80) then String.ofList (s.toList.map Char.toLower) else T.lower s

end TextTables

/-! ## Secrets in a text -/

/-- A letter of the pattern, ignoring case. -/
def sameLetter (letter c : Char) : Bool :=
  c.toLower = letter ∨ (letter = 's' ∧ c = '\u017F') ∨ (letter = 'k' ∧ c = '\u212A') ∨
    (letter = 'i' ∧ (c = '\u0130' ∨ c = '\u0131'))

/-- The word of the pattern at the start of `s`, and what follows. -/
def takeWord : List Char → List Char → Option (List Char × List Char)
  | [], s => some ([], s)
  | _ :: _, [] => none
  | letter :: letters, c :: cs =>
      if sameLetter letter c then
        (takeWord letters cs).map fun (word, rest) ↦ (c :: word, rest)
      else none

/-- `authorization|api[_-]?key|token|password|secret`; the second word of an alternative
may follow `_` or `-`. -/
def secretWords : List (String × Option String) :=
  [("authorization", none), ("api", some "key"), ("token", none), ("password", none),
    ("secret", none)]

def takeSeparator : List Char → List Char × List Char
  | c :: cs => if c = '_' ∨ c = '-' then ([c], cs) else ([], c :: cs)
  | [] => ([], [])

def takeSecretWord (words : String × Option String) (s : List Char) :
    Option (List Char × List Char) := do
  let (word, s) ← takeWord words.1.toList s
  match words.2 with
  | none => return (word, s)
  | some second =>
      let (separator, s) := takeSeparator s
      let (word', s) ← takeWord second.toList s
      return (word ++ separator ++ word', s)

/-- A match of the pattern: its first two groups, the third and the rest of the text. -/
structure SecretMatch where
  word : List Char
  sign : Char
  value : List Char
  rest : List Char

def isValueChar (c : Char) : Bool :=
  ¬Python.isSpace c ∧ c ≠ ',' ∧ c ≠ ';'

/-- `\b` between two positions. -/
def isBoundary (T : TextTables) (before after : Option Char) : Bool :=
  before.any T.isWord != after.any T.isWord

/-- `\s*([:=])\s*([^\s,;]+)`. -/
def takeValue (word s : List Char) : Option SecretMatch :=
  match s.dropWhile Python.isSpace with
  | sign :: s =>
      let s := s.dropWhile Python.isSpace
      let value := s.takeWhile isValueChar
      if (sign = ':' ∨ sign = '=') ∧ value ≠ [] then
        some { word, sign, value, rest := s.dropWhile isValueChar }
      else none
  | [] => none

/-- The match of the pattern at the start of `s`, which follows the character `before`. -/
def matchSecret (T : TextTables) (before : Option Char) (s : List Char) : Option SecretMatch :=
  secretWords.findSome? fun words ↦ do
    let (word, rest) ← takeSecretWord words s
    if isBoundary T before s.head? ∧ isBoundary T word.getLast? rest.head? then
      takeValue word rest
    else none

def redacted : List Char := "***REDACTED***".toList

/-- The scan from the left; the fuel is the length of the text. -/
def redactFrom (T : TextTables) : ℕ → Option Char → List Char → List Char
  | 0, _, s => s
  | _ + 1, _, [] => []
  | n + 1, before, c :: cs =>
      match matchSecret T before (c :: cs) with
      | some m => m.word ++ [m.sign] ++ redacted ++ redactFrom T n m.value.getLast? m.rest
      | none => c :: redactFrom T n (some c) cs

/-- The substitution with the pattern of inline secrets. -/
def redactInline (T : TextTables) (s : List Char) : List Char :=
  redactFrom T s.length none s

/-- `_redact_text`; `sensitiveValues` is in the iteration order of the set. -/
def redactText (T : TextTables) (sensitiveValues : List String) (s : String) : String :=
  let secrets := (sensitiveValues.filter fun secret ↦ 4 ≤ secret.length).insertionSort
    fun a b ↦ b.length ≤ a.length
  String.ofList (secrets.foldl (fun s secret ↦ Python.replace secret.toList redacted s)
    (redactInline T s.toList))

/-! ## Values -/

def sensitiveKeywords : List String :=
  ["authorization", "cookie", "credential", "password", "secret", "token", "api_key", "apikey"]

def isSensitiveKey (T : TextTables) (key : String) : Bool :=
  let normalized := Python.replace ['-'] ['_'] (T.toLower key).toList
  sensitiveKeywords.any fun keyword ↦ Python.contains keyword.toList normalized

mutual

def sanitizeValue (T : TextTables) (sensitiveValues : List String) : Json → Json
  | .obj fields => .obj (sanitizeFields T sensitiveValues fields)
  | .arr items => .arr (sanitizeItems T sensitiveValues items)
  | .str s => .str (redactText T sensitiveValues s)
  | .null => .null
  | .bool b => .bool b
  | .int i => .int i
  | .float bits => .float bits

def sanitizeItems (T : TextTables) (sensitiveValues : List String) : List Json → List Json
  | [] => []
  | item :: items => sanitizeValue T sensitiveValues item :: sanitizeItems T sensitiveValues items

def sanitizeFields (T : TextTables) (sensitiveValues : List String) :
    List (String × Json) → List (String × Json)
  | [] => []
  | (key, value) :: fields =>
      (key, if isSensitiveKey T key then .str (String.ofList redacted)
        else sanitizeValue T sensitiveValues value) ::
          sanitizeFields T sensitiveValues fields

end

def maxTraceBytes : ℕ := 32000

def truncated : String := "***TRUNCATED***"

/-- `_sanitize`. -/
def sanitize (T : TextTables) (sensitiveValues : List String) (value : Json) : Json :=
  let sanitized := sanitizeValue T sensitiveValues value
  match Python.dumps T.floatText sanitized with
  | some encoded =>
      if Python.utf8Length encoded ≤ maxTraceBytes then sanitized
      else .obj [("trace", .str truncated)]
  | none => .str truncated

def sanitizeOutput (T : TextTables) (sensitiveValues : List String) (value : Json) : Dict :=
  match sanitize T sensitiveValues value with
  | .obj fields => fields
  | sanitized => [("result", sanitized)]

def sanitizeMetadata (T : TextTables) (sensitiveValues : List String) (value : Json) : Dict :=
  match sanitize T sensitiveValues value with
  | .obj fields => fields
  | sanitized => [("value", sanitized)]

def sanitizeError (T : TextTables) (sensitiveValues : List String) (value : Dict) : Dict :=
  match sanitize T sensitiveValues (.obj value) with
  | .obj fields => fields
  | _ =>
      [("code", .str "UNKNOWN"), ("message", .str "execution failed"),
        ("retryable", .bool false), ("details", .obj [])]

def sanitizeArtifacts (T : TextTables) (sensitiveValues : List String) (value : List Json) :
    List Json :=
  (value.map (sanitize T sensitiveValues)).filter Json.isDict

/-- The environment with the sanitizers of the server, which knows no sensitive values. -/
def Env.sanitizing (env : Env) (T : TextTables) : Env :=
  { env with
    sanitizeOutput := Relayvia.sanitizeOutput T []
    sanitizeError := Relayvia.sanitizeError T []
    sanitizeMetadata := Relayvia.sanitizeMetadata T []
    sanitizeArtifacts := Relayvia.sanitizeArtifacts T [] }

/-! ## What the redaction leaves -/

variable {T : TextTables}

theorem takeWord_suffix {letters s word rest : List Char}
    (h : takeWord letters s = some (word, rest)) : rest <:+ s := by
  induction letters generalizing s word with
  | nil =>
      cases h
      exact List.suffix_refl _
  | cons letter letters ih =>
      cases s with
      | nil => cases h
      | cons c cs =>
          rw [takeWord] at h
          split at h
          · obtain ⟨⟨word', rest'⟩, h', heq⟩ := Option.map_eq_some_iff.mp h
            cases heq
            exact (ih h').trans (List.suffix_cons c cs)
          · cases h

theorem takeSeparator_suffix (s : List Char) : (takeSeparator s).2 <:+ s := by
  unfold takeSeparator
  split
  · split
    · exact List.suffix_cons _ _
    · exact List.suffix_refl _
  · exact List.suffix_refl _

theorem takeSecretWord_suffix {words : String × Option String} {s word rest : List Char}
    (h : takeSecretWord words s = some (word, rest)) : rest <:+ s := by
  unfold takeSecretWord at h
  obtain ⟨⟨word', s'⟩, hfirst, h⟩ := Option.bind_eq_some_iff.mp h
  have hsuffix := takeWord_suffix hfirst
  dsimp only at h
  split at h
  · cases h
    exact hsuffix
  · obtain ⟨⟨word'', s''⟩, hsecond, h⟩ := Option.bind_eq_some_iff.mp h
    cases h
    exact (takeWord_suffix hsecond).trans ((takeSeparator_suffix s').trans hsuffix)

theorem sign_mem_of_takeValue {word s : List Char} {m : SecretMatch}
    (h : takeValue word s = some m) : m.sign ∈ s ∧ (m.sign = ':' ∨ m.sign = '=') := by
  unfold takeValue at h
  split at h
  · next sign s' hs =>
    dsimp only at h
    split at h
    · next hsign =>
      cases h
      refine ⟨?_, hsign.1⟩
      apply (List.dropWhile_suffix Python.isSpace).subset
      rw [hs]
      exact List.mem_cons_self
    · cases h
  · cases h

/-- Every match has a sign. -/
theorem sign_mem_of_matchSecret {before : Option Char} {s : List Char} {m : SecretMatch}
    (h : matchSecret T before s = some m) : m.sign ∈ s ∧ (m.sign = ':' ∨ m.sign = '=') := by
  obtain ⟨words, -, h⟩ := List.exists_of_findSome?_eq_some h
  obtain ⟨⟨word, rest⟩, hword, h⟩ := Option.bind_eq_some_iff.mp h
  dsimp only at h
  split at h
  · obtain ⟨hmem, hsign⟩ := sign_mem_of_takeValue h
    exact ⟨(takeSecretWord_suffix hword).subset hmem, hsign⟩
  · cases h

theorem redactFrom_of_no_sign {n : ℕ} {before : Option Char} {s : List Char}
    (hs : ∀ c ∈ s, c ≠ ':' ∧ c ≠ '=') : redactFrom T n before s = s := by
  induction n generalizing before s with
  | zero => rfl
  | succ n ih =>
      cases s with
      | nil => rfl
      | cons c cs =>
          rw [redactFrom]
          split
          · next m hm =>
            obtain ⟨hmem, hsign⟩ := sign_mem_of_matchSecret hm
            obtain ⟨hcolon, hequals⟩ := hs m.sign hmem
            rcases hsign with h | h
            · exact absurd h hcolon
            · exact absurd h hequals
          · rw [ih fun d hd ↦ hs d (List.mem_cons_of_mem c hd)]

/-- A text without a sign has no secret. -/
theorem redactInline_of_no_sign {s : List Char} (hs : ∀ c ∈ s, c ≠ ':' ∧ c ≠ '=') :
    redactInline T s = s :=
  redactFrom_of_no_sign hs

theorem redactText_nil (s : String) :
    redactText T [] s = String.ofList (redactInline T s.toList) := by
  rfl

theorem isSensitiveKey_of_ascii {key : String} (hkey : key.toList.all (·.toNat < 0x80) = true) :
    isSensitiveKey T key = sensitiveKeywords.any fun keyword ↦ Python.contains keyword.toList
      (Python.replace ['-'] ['_'] (key.toList.map Char.toLower)) := by
  simp only [isSensitiveKey, TextTables.toLower, if_pos hkey, String.toList_ofList]

end Relayvia
