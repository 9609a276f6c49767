import Mathlib.Tactic.IntervalCases
import Mathlib.Tactic.SplitIfs
import Relayvia.Python

/-!
# Texts and their encodings

`bytes.decode("utf-8", errors="replace")`, the UTF-8 length of a text and
`json.dumps(value, ensure_ascii=False)`.
-/

namespace Relayvia.Python

/-! ## Decoding -/

/-- A character whose first bytes were read: its bits so far, the number of missing bytes
and the range of the next one. -/
structure Pending where
  bits : ℕ
  missing : ℕ
  low : ℕ := 0x80
  high : ℕ := 0xBF

def replacement : Char := '\uFFFD'

/-- The first byte of a character of several bytes. -/
def leadByte (b : ℕ) : Option Pending :=
  if 0xC2 ≤ b ∧ b ≤ 0xDF then some { bits := b - 0xC0, missing := 1 }
  else if b = 0xE0 then some { bits := 0, missing := 2, low := 0xA0 }
  else if b = 0xED then some { bits := 0xD, missing := 2, high := 0x9F }
  else if 0xE1 ≤ b ∧ b ≤ 0xEF then some { bits := b - 0xE0, missing := 2 }
  else if b = 0xF0 then some { bits := 0, missing := 3, low := 0x90 }
  else if 0xF1 ≤ b ∧ b ≤ 0xF3 then some { bits := b - 0xF0, missing := 3 }
  else if b = 0xF4 then some { bits := 4, missing := 3, high := 0x8F }
  else none

/-- A byte between two characters: what it adds to the text and the state after it. -/
def decodeFirst (b : ℕ) : List Char × Option Pending :=
  if b < 0x80 then ([Char.ofNat b], none)
  else
    match leadByte b with
    | some p => ([], some p)
    | none => ([replacement], none)

/-- One byte.  The longest valid start of a character becomes one replacement. -/
def decodeByte : Option Pending → ℕ → List Char × Option Pending
  | none, b => decodeFirst b
  | some p, b =>
      if p.low ≤ b ∧ b ≤ p.high then
        let bits := p.bits * 64 + (b - 0x80)
        if p.missing = 1 then ([Char.ofNat bits], none)
        else ([], some { bits := bits, missing := p.missing - 1 })
      else (replacement :: (decodeFirst b).1, (decodeFirst b).2)

def decodeFrom : Option Pending → List UInt8 → List Char
  | none, [] => []
  | some _, [] => [replacement]
  | state, b :: bs =>
      (decodeByte state b.toNat).1 ++ decodeFrom (decodeByte state b.toNat).2 bs

/-- `value.decode("utf-8", errors="replace")`. -/
def decodeUtf8 (value : List UInt8) : List Char :=
  decodeFrom none value

/-- `len(s.encode("utf-8"))`. -/
def utf8Length (s : List Char) : ℕ :=
  (s.map Char.utf8Size).sum

@[simp] theorem utf8Length_nil : utf8Length [] = 0 := rfl

@[simp] theorem utf8Length_cons (c : Char) (s : List Char) :
    utf8Length (c :: s) = c.utf8Size + utf8Length s := rfl

@[simp] theorem utf8Length_append (s t : List Char) :
    utf8Length (s ++ t) = utf8Length s + utf8Length t := by
  simp [utf8Length]

theorem toNat_ofNat {n : ℕ} (h : n.isValidChar) : (Char.ofNat n).toNat = n := by
  rw [Char.ofNat, dif_pos h]
  rfl

theorem utf8Size_ascii {c : Char} (h : c.toNat < 0x80) : c.utf8Size = 1 := by
  apply Char.utf8Size_eq_one_iff.mpr
  apply UInt32.le_iff_toNat_le.mpr
  exact Nat.le_of_lt_succ h

/-- The least character whose encoding has `n` bytes. -/
def leastOfSize : ℕ → ℕ
  | 2 => 0x80
  | 3 => 0x800
  | 4 => 0x10000
  | _ => 0

theorem le_utf8Size {c : Char} {n : ℕ} (hn : n ≤ 4) (h : leastOfSize n ≤ c.toNat) :
    n ≤ c.utf8Size := by
  have hval : c.val.toNat = c.toNat := rfl
  by_contra hlt
  have hbound : c.toNat < leastOfSize n := by
    rcases c.utf8Size_eq with hsize | hsize | hsize | hsize
    · have hle := UInt32.le_iff_toNat_le.mp (Char.utf8Size_eq_one_iff.mp hsize)
      have hle : c.toNat ≤ 0x7F := hle
      interval_cases n <;> simp only [leastOfSize] <;> omega
    · have hle := UInt32.le_iff_toNat_le.mp (Char.utf8Size_eq_two_iff.mp hsize).2
      have hle : c.toNat ≤ 0x7FF := hle
      interval_cases n <;> simp only [leastOfSize] <;> omega
    · have hle := UInt32.le_iff_toNat_le.mp (Char.utf8Size_eq_three_iff.mp hsize).2
      have hle : c.toNat ≤ 0xFFFF := hle
      interval_cases n <;> simp only [leastOfSize] <;> omega
    · omega
  omega

namespace Pending

/-- The least and the greatest character that may become of the bytes. -/
def first (p : Pending) : ℕ :=
  (p.bits * 64 + (p.low - 0x80)) * 64 ^ (p.missing - 1)

def last (p : Pending) : ℕ :=
  (p.bits * 64 + (p.high - 0x80)) * 64 ^ (p.missing - 1) + (64 ^ (p.missing - 1) - 1)

/-- The state after `read` bytes of a character. -/
structure After (p : Pending) (read : ℕ) : Prop where
  pos : 1 ≤ read
  missing : 1 ≤ p.missing
  total : read + p.missing ≤ 4
  low : 0x80 ≤ p.low
  high : p.high ≤ 0xBF
  valid : ∀ n, p.first ≤ n → n ≤ p.last → n.isValidChar ∧ leastOfSize (read + p.missing) ≤ n

theorem After.lead {b : ℕ} {p : Pending} (h : leadByte b = some p) : p.After 1 := by
  unfold leadByte at h
  split_ifs at h
  all_goals obtain rfl := Option.some.inj h
  all_goals
    constructor
    any_goals simp only
    any_goals omega
    intro n hfirst hlast
    simp only [first, last, leastOfSize, Nat.isValidChar] at hfirst hlast ⊢
    omega

/-- The last byte of a character. -/
theorem After.finish {p : Pending} {read b : ℕ} (h : p.After read) (hmissing : p.missing = 1)
    (hlow : p.low ≤ b) (hhigh : b ≤ p.high) :
    (p.bits * 64 + (b - 0x80)).isValidChar ∧
      leastOfSize (read + 1) ≤ p.bits * 64 + (b - 0x80) := by
  have hlo := h.low
  have hvalid := h.valid (p.bits * 64 + (b - 0x80))
  simp only [first, last, hmissing, Nat.sub_self, Nat.pow_zero, Nat.mul_one] at hvalid
  apply hvalid
  · omega
  · omega

/-- Any other byte of a character. -/
theorem After.next {p : Pending} {read b : ℕ} (h : p.After read) (hmissing : p.missing ≠ 1)
    (hlow : p.low ≤ b) (hhigh : b ≤ p.high) :
    After { bits := p.bits * 64 + (b - 0x80), missing := p.missing - 1 } (read + 1) := by
  obtain ⟨hpos, hleast, htotal, hlo, hhi, hvalid⟩ := h
  have hsum : read + 1 + (p.missing - 1) = read + p.missing := by omega
  constructor
  any_goals simp only
  any_goals omega
  intro n hfirst hlast
  simp only [first, last] at hfirst hlast hvalid
  rw [hsum]
  obtain hm | hm : p.missing = 2 ∨ p.missing = 3 := by omega
  all_goals
    simp only [hm] at hfirst hlast hvalid ⊢
    apply hvalid <;> omega

end Pending

/-- The decoder after `read` bytes of a character. -/
def Decoding : Option Pending → ℕ → Prop
  | none, read => read = 0
  | some p, read => p.After read

theorem decoding_none : Decoding none 0 := rfl

/-- What one byte adds, with the bytes that stay pending. -/
structure Decoded (b budget : ℕ) (emitted : List Char) (state : Option Pending) : Prop where
  after : ∃ read, Decoding state read ∧ budget ≤ utf8Length emitted + read
  ascii : ∀ c ∈ emitted, c.toNat < 0x80 → c.toNat = b

theorem decodeFirst_decoded (b : ℕ) : Decoded b 1 (decodeFirst b).1 (decodeFirst b).2 := by
  unfold decodeFirst
  split
  · next hb =>
    have hn : (Char.ofNat b).toNat = b := toNat_ofNat (Or.inl (by omega))
    constructor
    · refine ⟨0, rfl, ?_⟩
      have hsize := (Char.ofNat b).utf8Size_pos
      simp only [utf8Length_cons, utf8Length_nil]
      omega
    · intro c hc _
      rw [List.mem_singleton.mp hc, hn]
  · split
    · next p hp => exact ⟨⟨1, .lead hp, by simp⟩, by simp⟩
    · refine ⟨⟨0, rfl, by decide⟩, ?_⟩
      intro c hc hlt
      rw [List.mem_singleton.mp hc] at hlt
      exact absurd hlt (by decide)

theorem decodeByte_decoded {state : Option Pending} {read : ℕ} (h : Decoding state read) (b : ℕ) :
    Decoded b (read + 1) (decodeByte state b).1 (decodeByte state b).2 := by
  cases state with
  | none =>
      have hread : read = 0 := h
      subst hread
      exact decodeFirst_decoded b
  | some p =>
      have hafter : p.After read := h
      have hread := hafter.total
      have hpos := hafter.pos
      have hmissing := hafter.missing
      simp only [decodeByte]
      split
      · next hrange =>
        split
        · next hone =>
          obtain ⟨hvalid, hleast⟩ := hafter.finish hone hrange.1 hrange.2
          rw [← toNat_ofNat hvalid] at hleast
          have hsize := le_utf8Size (by omega) hleast
          constructor
          · refine ⟨0, rfl, ?_⟩
            simp only [utf8Length_cons, utf8Length_nil]
            omega
          · intro c hc hlt
            rw [List.mem_singleton.mp hc] at hlt
            have hsmall := utf8Size_ascii hlt
            omega
        · next hmore =>
          exact ⟨⟨read + 1, hafter.next hmore hrange.1 hrange.2, by simp⟩, by simp⟩
      · obtain ⟨⟨read', hstate, hlength⟩, hascii⟩ := decodeFirst_decoded b
        constructor
        · refine ⟨read', hstate, ?_⟩
          have hsize : replacement.utf8Size = 3 := rfl
          simp only [utf8Length_cons, hsize]
          omega
        · intro c hc hlt
          rcases List.mem_cons.mp hc with rfl | hc
          · exact absurd hlt (by decide)
          · exact hascii c hc hlt

theorem length_le_decodeFrom {state : Option Pending} {read : ℕ} (h : Decoding state read)
    (bytes : List UInt8) : read + bytes.length ≤ utf8Length (decodeFrom state bytes) := by
  induction bytes generalizing state read with
  | nil =>
      cases state with
      | none =>
          have hread : read = 0 := h
          rw [hread, List.length_nil]
          exact Nat.zero_le _
      | some p =>
          have hafter : p.After read := h
          have htotal := hafter.total
          have hmissing := hafter.missing
          have hsize : utf8Length (decodeFrom (some p) []) = 3 := rfl
          simp only [List.length_nil]
          omega
  | cons b bytes ih =>
      obtain ⟨⟨read', hstate, hlength⟩, -⟩ := decodeByte_decoded h b.toNat
      have hrest := ih hstate
      rw [decodeFrom, utf8Length_append, List.length_cons]
      omega

/-- Decoding never makes a text shorter. -/
theorem length_le_decodeUtf8 (bytes : List UInt8) :
    bytes.length ≤ utf8Length (decodeUtf8 bytes) := by
  have h := length_le_decodeFrom decoding_none bytes
  rwa [Nat.zero_add] at h

theorem ascii_of_mem_decodeFrom {state : Option Pending} {read : ℕ} (h : Decoding state read)
    {bytes : List UInt8} {c : Char} (hc : c ∈ decodeFrom state bytes) (hlt : c.toNat < 0x80) :
    ∃ b ∈ bytes, b.toNat = c.toNat := by
  induction bytes generalizing state read with
  | nil =>
      cases state with
      | none => cases hc
      | some p =>
          rw [List.mem_singleton.mp hc] at hlt
          exact absurd hlt (by decide)
  | cons b bytes ih =>
      obtain ⟨⟨read', hstate, -⟩, hascii⟩ := decodeByte_decoded h b.toNat
      rw [decodeFrom] at hc
      rcases List.mem_append.mp hc with hc | hc
      · exact ⟨b, List.mem_cons_self, (hascii c hc hlt).symm⟩
      · obtain ⟨b', hb', heq⟩ := ih hstate hc
        exact ⟨b', List.mem_cons_of_mem b hb', heq⟩

/-- An ASCII character of the text is one of the bytes. -/
theorem ascii_of_mem_decodeUtf8 {bytes : List UInt8} {c : Char} (hc : c ∈ decodeUtf8 bytes)
    (hlt : c.toNat < 0x80) : ∃ b ∈ bytes, b.toNat = c.toNat :=
  ascii_of_mem_decodeFrom decoding_none hc hlt

/-! ## Encoding -/

/-- One character inside a JSON string. -/
def escapeChar (c : Char) : List Char :=
  if c = '"' then ['\\', '"']
  else if c = '\\' then ['\\', '\\']
  else if c = '\n' then ['\\', 'n']
  else if c = '\r' then ['\\', 'r']
  else if c = '\t' then ['\\', 't']
  else if c = '\x0c' then ['\\', 'f']
  else if c = '\x08' then ['\\', 'b']
  else if c.toNat < 32 then ['\\', 'u', '0', '0', hexDigit (c.toNat / 16), hexDigit c.toNat]
  else [c]

def escapeText (s : List Char) : List Char :=
  s.flatMap escapeChar

def quoteText (s : List Char) : List Char :=
  '"' :: escapeText s ++ ['"']

/-- `", ".join(parts)` between brackets. -/
def bracket (left right : Char) (parts : List (List Char)) : List Char :=
  left :: List.intercalate [',', ' '] parts ++ [right]

/-- `str(i)`: Python raises a `ValueError` beyond 4300 digits. -/
def intText (i : ℤ) : Option (List Char) :=
  if (toString i.natAbs).length ≤ 4300 then some (toString i).toList else none

mutual

/-- `json.dumps(value, ensure_ascii=False)`, with `none` for a `ValueError`; `floatText`
is the `repr` of a float. -/
def dumps (floatText : BitVec 64 → String) : Json → Option (List Char)
  | .null => some "null".toList
  | .bool true => some "true".toList
  | .bool false => some "false".toList
  | .int i => intText i
  | .float bits => some (floatText bits).toList
  | .str s => some (quoteText s.toList)
  | .arr items => (dumpsItems floatText items).map (bracket '[' ']')
  | .obj fields => (dumpsFields floatText fields).map (bracket '\x7b' '\x7d')

def dumpsItems (floatText : BitVec 64 → String) : List Json → Option (List (List Char))
  | [] => some []
  | item :: items => do
      let text ← dumps floatText item
      return text :: (← dumpsItems floatText items)

def dumpsFields (floatText : BitVec 64 → String) :
    List (String × Json) → Option (List (List Char))
  | [] => some []
  | (key, value) :: fields => do
      let text ← dumps floatText value
      return (quoteText key.toList ++ [':', ' '] ++ text) :: (← dumpsFields floatText fields)

end

theorem utf8Size_le_escapeChar (c : Char) : c.utf8Size ≤ utf8Length (escapeChar c) := by
  have hcontrol (h : c.toNat < 32) : c.utf8Size = 1 := utf8Size_ascii (by omega)
  have hpos (d : Char) (s : List Char) : 1 ≤ utf8Length (d :: s) := by
    have hsize := d.utf8Size_pos
    rw [utf8Length_cons]
    omega
  unfold escapeChar
  split_ifs with h₁ h₂ h₃ h₄ h₅ h₆ h₇ h
  · subst h₁; exact hpos _ _
  · subst h₂; exact hpos _ _
  · subst h₃; exact hpos _ _
  · subst h₄; exact hpos _ _
  · subst h₅; exact hpos _ _
  · subst h₆; exact hpos _ _
  · subst h₇; exact hpos _ _
  · rw [hcontrol h]
    exact hpos _ _
  · exact Nat.le_refl _

/-- Escapes never make a text shorter. -/
theorem utf8Length_le_escapeText (s : List Char) : utf8Length s ≤ utf8Length (escapeText s) := by
  induction s with
  | nil => exact Nat.le_refl _
  | cons c s ih =>
      have hc := utf8Size_le_escapeChar c
      rw [escapeText, List.flatMap_cons, utf8Length_append, utf8Length_cons]
      exact Nat.add_le_add hc ih

end Relayvia.Python
