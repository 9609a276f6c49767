import Mathlib.Data.List.DropRight
import Mathlib.Data.Rat.Defs
import Relayvia.Library.Split
import Relayvia.Stream.TextDecoder

/-!
# The reader of the event stream

`streamRunEvents` of the API client on the chunks of one connection.
-/

namespace Relayvia

open Chunks (feed)

/-! ## Texts in the browser -/

/-- White space and line ends, as `trim` removes them. -/
def isTrimmed (c : Char) : Bool :=
  c ∈ ['\t', '\n', '\x0b', '\x0c', '\r', ' ', '\u00A0', '\u1680', '\u2028', '\u2029', '\u202F',
    '\u205F', '\u3000', '\uFEFF'] ∨ (0x2000 ≤ c.toNat ∧ c.toNat ≤ 0x200A)

def trim (s : List Char) : List Char :=
  (s.rdropWhile isTrimmed).dropWhile isTrimmed

/-- `s.replace(/\r\n/g, "\n")`. -/
def normalizeEnds (s : List Char) : List Char :=
  Text.replace ['\r', '\n'] ['\n'] s

/-! ## Frames -/

/-- A call of `onEvent`. -/
structure DeliveredEvent where
  eventType : List Char
  eventId : ℚ
  deriving DecidableEq

/-- The value of the first line of a field. -/
def fieldValue (name : String) (lines : List (List Char)) : Option (List Char) :=
  (lines.find? name.toList.isPrefixOf).map fun line ↦ trim (line.drop name.length)

/-- The fields of one frame; `number text` is the value of `Number(text)` when it is finite. -/
def handleFields (number : List Char → Option ℚ) (lastEventId : ℚ)
    (id eventType : Option (List Char)) : List DeliveredEvent × ℚ :=
  let parsedId := (id.map number).getD (some lastEventId)
  let lastEventId := (parsedId.map (max lastEventId)).getD lastEventId
  ((eventType.map (⟨·, lastEventId⟩)).toList, lastEventId)

def handleLines (number : List Char → Option ℚ) (lastEventId : ℚ) (lines : List (List Char)) :
    List DeliveredEvent × ℚ :=
  handleFields number lastEventId (fieldValue "id:" lines) (fieldValue "event:" lines)

def handleFrame (number : List Char → Option ℚ) (lastEventId : ℚ) (frame : List Char) :
    List DeliveredEvent × ℚ :=
  let parts := Text.split ['\n'] frame
  handleLines number lastEventId (parts.1 ++ [parts.2])

/-! ## Chunks -/

/-- The variables of the loop over one connection. -/
structure StreamReader where
  decoder : TextDecoder := {}
  buffered : List Char := []
  lastEventId : ℚ

/-- One pass of the loop. -/
def readChunk (number : List Char → Option ℚ) (s : StreamReader) (value : List UInt8) :
    List DeliveredEvent × StreamReader :=
  let decoded := s.decoder.decode value
  let frames := Text.split ['\n', '\n'] (s.buffered ++ normalizeEnds decoded.1)
  let handled := feed (handleFrame number) s.lastEventId frames.1
  (handled.1, { decoder := decoded.2, buffered := frames.2, lastEventId := handled.2 })

/-- The events that one connection delivers. -/
def deliver (number : List Char → Option ℚ) (lastEventId : ℚ) (chunks : List (List UInt8)) :
    List DeliveredEvent :=
  (feed (readChunk number) { lastEventId } chunks).1

/-! ## The text that is split -/

/-- The decoded chunks, each with its own line ends replaced. -/
def normalized : TextDecoder → List (List UInt8) → List Char
  | _, [] => []
  | d, chunk :: chunks =>
      normalizeEnds (d.decode chunk).1 ++ normalized (d.decode chunk).2 chunks

variable {number : List Char → Option ℚ}

theorem feed_readChunk (d : TextDecoder) {buffered : List Char}
    (hbuffered : ¬['\n', '\n'] <:+: buffered) (lastEventId : ℚ) (chunks : List (List UInt8)) :
    (feed (readChunk number) { decoder := d, buffered, lastEventId } chunks).1 =
      (feed (handleFrame number) lastEventId
        (Text.split ['\n', '\n'] (buffered ++ normalized d chunks)).1).1 := by
  induction chunks generalizing d buffered lastEventId with
  | nil => rw [normalized, List.append_nil, Text.split_whole (by simp) hbuffered, feed, feed]
  | cons chunk chunks ih =>
      rw [feed, readChunk, normalized, ← List.append_assoc,
        Text.split_append (by simp) (buffered ++ normalizeEnds (d.decode chunk).1),
        Chunks.feed_append]
      dsimp only
      rw [ih _ (Text.split_rest (by simp) _)]

/-- The reader splits the whole text, whose line ends were replaced chunk by chunk. -/
theorem deliver_eq (lastEventId : ℚ) (chunks : List (List UInt8)) :
    deliver number lastEventId chunks =
      (feed (handleFrame number) lastEventId
        (Text.split ['\n', '\n'] (normalized {} chunks)).1).1 := by
  rw [deliver, feed_readChunk _ (by simp), List.nil_append]

/-! ## Line ends at chunk ends -/

/-- One character, where `held` says that a carriage return before it waits for it. -/
def pushChar (held : Bool) (c : Char) : List Char × Bool :=
  if c = '\n' then (['\n'], false)
  else if c = '\r' then (if held then ['\r'] else [], true)
  else (if held then ['\r', c] else [c], false)

/-- What is left when the chunk ends. -/
def heldBack (held : Bool) : List Char :=
  if held then ['\r'] else []

theorem normalizeEnds_newline (s : List Char) :
    normalizeEnds ('\r' :: '\n' :: s) = '\n' :: normalizeEnds s :=
  Text.replace_word (by simp) s

theorem normalizeEnds_other {c : Char} {s : List Char} (h : ¬['\r', '\n'] <+: c :: s) :
    normalizeEnds (c :: s) = c :: normalizeEnds s :=
  Text.replace_cons h

theorem normalizeEnds_heldBack (held : Bool) (s : List Char) :
    normalizeEnds (heldBack held ++ s) =
      (feed pushChar held s).1 ++ heldBack (feed pushChar held s).2 := by
  induction s generalizing held with
  | nil => cases held <;> rfl
  | cons c s ih =>
      rw [feed, pushChar]
      have hwaiting := ih true
      have hplain := ih false
      simp only [heldBack, if_true, Bool.false_eq_true, if_false, List.cons_append,
        List.nil_append] at hwaiting hplain ⊢
      by_cases hnewline : c = '\n'
      · subst hnewline
        rw [if_pos rfl]
        cases held with
        | true => exact (normalizeEnds_newline s).trans (congrArg _ hplain)
        | false => exact (normalizeEnds_other (by simp)).trans (congrArg _ hplain)
      rw [if_neg hnewline]
      by_cases hreturn : c = '\r'
      · subst hreturn
        rw [if_pos rfl]
        cases held with
        | true => exact (normalizeEnds_other (by simp)).trans (congrArg _ hwaiting)
        | false => exact hwaiting
      · rw [if_neg hreturn]
        have hother : normalizeEnds (c :: s) = c :: normalizeEnds s :=
          normalizeEnds_other (by simp [Ne.symm hreturn])
        cases held with
        | true =>
            have hfirst : normalizeEnds ('\r' :: c :: s) = '\r' :: normalizeEnds (c :: s) :=
              normalizeEnds_other (by simp [Ne.symm hnewline])
            exact hfirst.trans (congrArg _ (hother.trans (congrArg _ hplain)))
        | false => exact hother.trans (congrArg _ hplain)

theorem normalizeEnds_append (held : Bool) (s t : List Char) :
    normalizeEnds (heldBack held ++ (s ++ t)) =
      (feed pushChar held s).1 ++ normalizeEnds (heldBack (feed pushChar held s).2 ++ t) := by
  rw [normalizeEnds_heldBack, normalizeEnds_heldBack, Chunks.feed_append, List.append_assoc]

/-- One byte, where its mark says that its chunk ends after it. -/
def pushByte (s : TextDecoder × Bool) (byte : UInt8 × Bool) : List Char × (TextDecoder × Bool) :=
  let decoded := s.1.step byte.1
  let pushed := feed pushChar s.2 decoded.1
  if byte.2 then (pushed.1 ++ heldBack pushed.2, (decoded.2, false))
  else (pushed.1, (decoded.2, pushed.2))

theorem feed_markEnd (d : TextDecoder) (held : Bool) {chunk : List UInt8} (hchunk : chunk ≠ []) :
    feed pushByte (d, held) (Chunks.markEnd chunk) =
      (normalizeEnds (heldBack held ++ (d.decode chunk).1), ((d.decode chunk).2, false)) := by
  induction chunk using Chunks.markEnd.induct generalizing d held with
  | case1 => exact absurd rfl hchunk
  | case2 b =>
      rw [Chunks.markEnd, Chunks.feed_singleton, pushByte, if_pos rfl, TextDecoder.decode,
        Chunks.feed_singleton, normalizeEnds_heldBack]
  | case3 a b chunk ih =>
      rw [Chunks.markEnd, feed, pushByte, if_neg (by simp)]
      dsimp only
      rw [ih _ _ (List.cons_ne_nil b chunk), TextDecoder.decode, TextDecoder.decode,
        feed.eq_def TextDecoder.step d]
      dsimp only
      rw [normalizeEnds_append]

theorem normalized_eq (d : TextDecoder) (chunks : List (List UInt8)) :
    normalized d chunks = (feed pushByte (d, false) (Chunks.marked chunks)).1 := by
  induction chunks generalizing d with
  | nil => rfl
  | cons chunk chunks ih =>
      rw [normalized, ih, Chunks.marked_cons, Chunks.feed_append]
      by_cases hchunk : chunk = []
      · subst hchunk
        rfl
      · rw [feed_markEnd d false hchunk]
        rfl

/-- Text without carriage returns is not changed, wherever chunks end in it. -/
theorem feed_pushByte_plain {d : TextDecoder} {bytes : List (UInt8 × Bool)}
    (h : '\r' ∉ (d.decode (bytes.map Prod.fst)).1) :
    feed pushByte (d, false) bytes =
      ((d.decode (bytes.map Prod.fst)).1, ((d.decode (bytes.map Prod.fst)).2, false)) := by
  induction bytes generalizing d with
  | nil => rfl
  | cons byte bytes ih =>
      have hpush : ∀ s : List Char, '\r' ∉ s → feed pushChar false s = (s, false) := by
        intro s hs
        induction s with
        | nil => rfl
        | cons c s ihs =>
            have hc : c ≠ '\r' := fun hc ↦ hs (by simp [hc])
            have hpushed : pushChar false c = ([c], false) := by
              by_cases hnewline : c = '\n'
              · rw [pushChar, if_pos hnewline, hnewline]
              · rw [pushChar, if_neg hnewline, if_neg hc]
                rfl
            rw [feed, hpushed, ihs fun hmem ↦ hs (List.mem_cons_of_mem c hmem)]
            rfl
      rw [List.map_cons, TextDecoder.decode, feed] at h ⊢
      rw [List.mem_append, not_or] at h
      rw [feed, pushByte, hpush _ h.1]
      have hrest := ih h.2
      rw [TextDecoder.decode] at hrest
      cases byte.2 <;> simp [heldBack, hrest]

/-- A line end, where `torn` says that a chunk ends inside it. -/
theorem feed_pushByte_crlf (torn marked : Bool) :
    feed pushByte (.ready, false) [(0x0D, torn), (0x0A, marked)] =
      (if torn then ['\r', '\n'] else ['\n'], (.ready, false)) := by
  cases torn <;> cases marked <;> rfl

end Relayvia
