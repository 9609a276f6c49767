import Relayvia.Library.Chunks
import Relayvia.Output.Text

/-!
# The streaming decoder of the browser

`TextDecoder` for UTF-8 with `stream: true`: bytes of an unfinished character wait for the next
chunk, and a byte order mark at the start is dropped.
-/

namespace Relayvia

namespace Python

/-! ## The bytes of one character -/

theorem decodeByte_last {p : Pending} {b : ℕ} (hmissing : p.missing = 1) (hlow : p.low ≤ b)
    (hhigh : b ≤ p.high) : decodeByte (some p) b = ([Char.ofNat (p.bits * 64 + (b - 0x80))], none) := by
  rw [decodeByte, if_pos ⟨hlow, hhigh⟩]
  exact if_pos hmissing

theorem decodeByte_more {p : Pending} {b : ℕ} (hmissing : p.missing ≠ 1) (hlow : p.low ≤ b)
    (hhigh : b ≤ p.high) : decodeByte (some p) b =
      ([], some { bits := p.bits * 64 + (b - 0x80), missing := p.missing - 1 }) := by
  rw [decodeByte, if_pos ⟨hlow, hhigh⟩]
  exact if_neg hmissing

theorem decodeFirst_lead {b : ℕ} (hb : 0x80 ≤ b) {p : Pending} (h : leadByte b = some p) :
    decodeFirst b = ([], some p) := by
  rw [decodeFirst, if_neg (by omega), h]

/-- One step of the decoder. -/
def decodeStep (state : Option Pending) (b : UInt8) : List Char × Option Pending :=
  decodeByte state b.toNat

theorem toNat_byte {n : ℕ} (h : n < 256) : (UInt8.ofNat n).toNat = n := by
  rw [UInt8.toNat_ofNat', Nat.mod_eq_of_lt h]

/-- The first two bytes of a character of three. -/
theorem leadByte_three {v : ℕ} (hlow : 0x800 ≤ v) (hhigh : v < 0x10000)
    (hvalid : v < 0xD800 ∨ 0xDFFF < v) : ∃ p, leadByte (v / 4096 % 16 + 0xE0) = some p ∧
      p.bits = v / 4096 ∧ p.missing = 2 ∧ p.low ≤ v / 64 % 64 + 0x80 ∧
        v / 64 % 64 + 0x80 ≤ p.high := by
  unfold leadByte
  split_ifs
  any_goals omega
  all_goals
    refine ⟨_, rfl, ?_⟩
    dsimp only
    omega

/-- The first two bytes of a character of four. -/
theorem leadByte_four {v : ℕ} (hlow : 0x10000 ≤ v) (hhigh : v < 0x110000) :
    ∃ p, leadByte (v / 262144 % 8 + 0xF0) = some p ∧ p.bits = v / 262144 ∧ p.missing = 3 ∧
      p.low ≤ v / 4096 % 64 + 0x80 ∧ v / 4096 % 64 + 0x80 ≤ p.high := by
  unfold leadByte
  split_ifs
  any_goals omega
  all_goals
    refine ⟨_, rfl, ?_⟩
    dsimp only
    omega

/-- The decoder on the bytes of one character. -/
theorem feed_utf8EncodeChar (c : Char) :
    Chunks.feed decodeStep none (String.utf8EncodeChar c) = ([c], none) := by
  have hvalid : c.val.toNat < 0xD800 ∨ 0xDFFF < c.val.toNat ∧ c.val.toNat < 0x110000 := c.valid
  have hchar : Char.ofNat c.val.toNat = c := Char.ofNat_toNat c
  unfold String.utf8EncodeChar
  generalize c.val.toNat = v at hvalid hchar
  dsimp only
  split
  · next h =>
    rw [Chunks.feed_singleton, decodeStep, toNat_byte (by omega), decodeByte, decodeFirst,
      if_pos (by omega), hchar]
  split
  · next h₁ h₂ =>
    have hlead : leadByte (v / 64 % 32 + 0xC0) = some { bits := v / 64, missing := 1 } := by
      rw [leadByte, if_pos (by omega), Nat.mod_eq_of_lt (by omega), Nat.add_sub_cancel]
    have hbits : v / 64 * 64 + (v % 64 + 0x80 - 0x80) = v := by omega
    simp only [Chunks.feed, decodeStep, toNat_byte (show v / 64 % 32 + 0xC0 < 256 by omega),
      toNat_byte (show v % 64 + 0x80 < 256 by omega)]
    rw [decodeByte, decodeFirst_lead (by omega) hlead]
    dsimp only
    rw [decodeByte_last rfl (by dsimp only; omega) (by dsimp only; omega), hbits, hchar]
    rfl
  split
  · next h₁ h₂ h₃ =>
    obtain ⟨p, hlead, hbits, hmissing, hlow, hhigh⟩ :=
      leadByte_three (v := v) (by omega) (by omega) (by omega)
    have hv : (v / 4096 * 64 + (v / 64 % 64 + 0x80 - 0x80)) * 64 + (v % 64 + 0x80 - 0x80) = v := by
      omega
    simp only [Chunks.feed, decodeStep, toNat_byte (show v / 4096 % 16 + 0xE0 < 256 by omega),
      toNat_byte (show v / 64 % 64 + 0x80 < 256 by omega),
      toNat_byte (show v % 64 + 0x80 < 256 by omega)]
    rw [decodeByte, decodeFirst_lead (by omega) hlead]
    dsimp only
    rw [decodeByte_more (by omega) hlow hhigh, hmissing, hbits]
    dsimp only
    rw [decodeByte_last rfl (by dsimp only; omega) (by dsimp only; omega), hv, hchar]
    rfl
  · next h₁ h₂ h₃ =>
    obtain ⟨p, hlead, hbits, hmissing, hlow, hhigh⟩ := leadByte_four (v := v) (by omega) (by omega)
    have hv : ((v / 262144 * 64 + (v / 4096 % 64 + 0x80 - 0x80)) * 64 +
        (v / 64 % 64 + 0x80 - 0x80)) * 64 + (v % 64 + 0x80 - 0x80) = v := by
      omega
    simp only [Chunks.feed, decodeStep, toNat_byte (show v / 262144 % 8 + 0xF0 < 256 by omega),
      toNat_byte (show v / 4096 % 64 + 0x80 < 256 by omega),
      toNat_byte (show v / 64 % 64 + 0x80 < 256 by omega),
      toNat_byte (show v % 64 + 0x80 < 256 by omega)]
    rw [decodeByte, decodeFirst_lead (by omega) hlead]
    dsimp only
    rw [decodeByte_more (by omega) hlow hhigh, hmissing, hbits]
    dsimp only
    rw [decodeByte_more (by dsimp only; omega) (by dsimp only; omega) (by dsimp only; omega)]
    dsimp only
    rw [decodeByte_last rfl (by dsimp only; omega) (by dsimp only; omega), hv, hchar]
    rfl

end Python

/-- The UTF-8 bytes of a text. -/
def utf8Bytes (text : List Char) : List UInt8 :=
  text.flatMap String.utf8EncodeChar

theorem utf8Bytes_append (s t : List Char) : utf8Bytes (s ++ t) = utf8Bytes s ++ utf8Bytes t := by
  simp [utf8Bytes]

theorem feed_utf8Bytes (text : List Char) :
    Chunks.feed Python.decodeStep none (utf8Bytes text) = (text, none) := by
  induction text with
  | nil => rfl
  | cons c text ih =>
      rw [utf8Bytes, List.flatMap_cons, Chunks.feed_append, Python.feed_utf8EncodeChar]
      dsimp only
      rw [← utf8Bytes, ih]
      rfl

/-! ## The decoder -/

structure TextDecoder where
  pending : Option Python.Pending := none
  bomSeen : Bool := false

namespace TextDecoder

/-- One byte: the characters that it completes. -/
def step (d : TextDecoder) (byte : UInt8) : List Char × TextDecoder :=
  let decoded := Python.decodeStep d.pending byte
  if d.bomSeen = true ∨ decoded.1 = [] then
    (decoded.1, { pending := decoded.2, bomSeen := d.bomSeen })
  else
    (if decoded.1.head? = some '\uFEFF' then decoded.1.tail else decoded.1,
      { pending := decoded.2, bomSeen := true })

/-- `decoder.decode(value, { stream: true })`. -/
def decode (d : TextDecoder) (value : List UInt8) : List Char × TextDecoder :=
  Chunks.feed step d value

/-- The decoder between two characters. -/
def ready : TextDecoder where
  bomSeen := true

theorem decode_append (d : TextDecoder) (a b : List UInt8) :
    d.decode (a ++ b) =
      ((d.decode a).1 ++ ((d.decode a).2.decode b).1, ((d.decode a).2.decode b).2) :=
  Chunks.feed_append d a b

theorem decode_of_bomSeen (pending : Option Python.Pending) (bytes : List UInt8) :
    decode { pending, bomSeen := true } bytes =
      ((Chunks.feed Python.decodeStep pending bytes).1,
        { pending := (Chunks.feed Python.decodeStep pending bytes).2, bomSeen := true }) := by
  induction bytes generalizing pending with
  | nil => rfl
  | cons b bytes ih =>
      rw [decode, Chunks.feed, step, if_pos (.inl rfl), ← decode, ih, Chunks.feed]

theorem decode_ready (text : List Char) : ready.decode (utf8Bytes text) = (text, ready) := by
  rw [ready, decode_of_bomSeen, feed_utf8Bytes]

/-- The first character of a stream. -/
theorem decode_first {pending : Option Python.Pending} {bytes : List UInt8} {c : Char}
    (h : Chunks.feed Python.decodeStep pending bytes = ([c], none)) :
    decode { pending, bomSeen := false } bytes = (if c = '\uFEFF' then [] else [c], ready) := by
  induction bytes generalizing pending with
  | nil => cases h
  | cons b bytes ih =>
      rw [Chunks.feed] at h
      obtain ⟨hchars, hpending⟩ := Prod.mk.inj h
      rw [decode, Chunks.feed, step]
      by_cases hnone : (Python.decodeStep pending b).1 = []
      · rw [if_pos (.inr hnone)]
        rw [hnone, List.nil_append] at hchars
        dsimp only
        rw [← decode, ih (Prod.ext hchars hpending), hnone]
        rfl
      · rw [if_neg (by simp [hnone])]
        dsimp only
        rw [← decode, decode_of_bomSeen, hpending]
        obtain ⟨first, rest, hfirst⟩ := List.exists_cons_of_ne_nil hnone
        rw [hfirst, List.cons_append] at hchars
        obtain ⟨rfl, hnil⟩ := List.cons.inj hchars
        obtain ⟨rfl, hrest⟩ := List.append_eq_nil_iff.mp hnil
        rw [hfirst]
        dsimp only
        rw [hrest, List.append_nil, List.head?_cons]
        by_cases hmark : first = '\uFEFF'
        · rw [if_pos (congrArg some hmark), if_pos hmark]
          rfl
        · rw [if_neg fun h ↦ hmark (Option.some.inj h), if_neg hmark]
          rfl

theorem decode_start (c : Char) (text : List Char) :
    decode {} (utf8Bytes (c :: text)) = (if c = '\uFEFF' then text else c :: text, ready) := by
  have hfirst : decode {} (String.utf8EncodeChar c) = (if c = '\uFEFF' then [] else [c], ready) :=
    decode_first (Python.feed_utf8EncodeChar c)
  rw [utf8Bytes, List.flatMap_cons, decode_append, hfirst, ← utf8Bytes, decode_ready]
  split <;> rfl

end TextDecoder

end Relayvia
