import Relayvia.Stream.Reader

/-!
# Well-formed event streams

The bytes of a stream of run events: frames of lines that an empty line closes, with LF or CRLF
line ends.  What the reader splits are these lines, except for the carriage returns of the line
ends that chunks have torn apart.
-/

namespace Relayvia

open Chunks (feed marked)

/-! ## The format -/

inductive LineEnd where
  | lf | crlf
  deriving DecidableEq

def LineEnd.bytes : LineEnd → List UInt8
  | lf => [0x0A]
  | crlf => [0x0D, 0x0A]

structure EventLine where
  text : List Char
  ending : LineEnd
  nonempty : text ≠ []
  plain : '\r' ∉ text ∧ '\n' ∉ text

/-- An event or a comment. -/
structure EventFrame where
  lines : List EventLine
  closing : LineEnd
  nonempty : lines ≠ []
  /-- an id is the id of an event -/
  id_of_event : fieldValue "event:" (lines.map EventLine.text) = none →
    fieldValue "id:" (lines.map EventLine.text) = none

def EventLine.bytes (line : EventLine) : List UInt8 :=
  utf8Bytes line.text ++ line.ending.bytes

namespace EventFrame

def texts (f : EventFrame) : List (List Char) :=
  f.lines.map EventLine.text

def isEvent (f : EventFrame) : Bool :=
  (fieldValue "event:" f.texts).isSome

/-- The frame without the line end that closes it. -/
def body (f : EventFrame) : List UInt8 :=
  f.lines.flatMap EventLine.bytes

def bytes (f : EventFrame) : List UInt8 :=
  f.body ++ f.closing.bytes

end EventFrame

/-- The stream of one connection, with or without a byte order mark. -/
structure FrameStream where
  bom : Bool := false
  frames : List EventFrame
  /-- a mark that is text does not stand at the start -/
  noMark : bom = true ∨ ∀ f ∈ frames.head?, ∀ line ∈ f.lines.head?, line.text.head? ≠ some '\uFEFF'

def FrameStream.bytes (s : FrameStream) : List UInt8 :=
  (if s.bom then [0xEF, 0xBB, 0xBF] else []) ++ s.frames.flatMap EventFrame.bytes

/-- Frame by frame, whether a chunk ends inside the line end that closes it; the bytes from the
first frame on carry the ends of the chunks. -/
def tornClosings : List EventFrame → List (UInt8 × Bool) → List Bool
  | [], _ => []
  | f :: frames, bytes =>
      (f.closing = .crlf && bytes[f.body.length]?.any Prod.snd) ::
        tornClosings frames (bytes.drop f.bytes.length)

def FrameStream.torn (s : FrameStream) (chunks : List (List UInt8)) : List Bool :=
  tornClosings s.frames ((marked chunks).drop (if s.bom then 3 else 0))

/-! ## The lines that arrive -/

/-- Lines with the line ends that the reader splits at. -/
def terminated (lines : List (List Char)) : List Char :=
  lines.flatMap (· ++ ['\n'])

theorem terminated_append (a b : List (List Char)) :
    terminated (a ++ b) = terminated a ++ terminated b := by
  simp [terminated]

theorem terminated_cons (line : List Char) (lines : List (List Char)) :
    terminated (line :: lines) = line ++ '\n' :: terminated lines := by
  simp [terminated]

/-- A line as it arrives: a torn line end leaves its carriage return. -/
def Received (received : List Char) (line : EventLine) : Prop :=
  received = line.text ∨ received = line.text ++ ['\r']

/-- The lines of the frames as they arrive, where `torn` says which closing line ends are torn. -/
inductive Arrives : List EventFrame → List Bool → List (List Char) → Prop where
  | nil : Arrives [] [] []
  | cons {f : EventFrame} {frames : List EventFrame} {torn : List Bool}
      {received lines : List (List Char)} (t : Bool) :
      List.Forall₂ Received received f.lines → Arrives frames torn lines →
      Arrives (f :: frames) (t :: torn) (received ++ (if t then ['\r'] else []) :: lines)

/-- A text and its line end. -/
theorem feed_line {d : TextDecoder} {text : List Char} (hplain : '\r' ∉ text)
    (hd : d.decode (utf8Bytes text) = (text, .ready)) {ending : LineEnd}
    {bytes : List (UInt8 × Bool)} (hbytes : bytes.map Prod.fst = utf8Bytes text ++ ending.bytes) :
    feed pushByte (d, false) bytes =
      (text ++ (if ending = .crlf && bytes[(utf8Bytes text).length]?.any Prod.snd then
        ['\r', '\n'] else ['\n']), (.ready, false)) := by
  obtain ⟨front, back, rfl, hfront, hback⟩ := List.map_eq_append_iff.mp hbytes
  have hlength : front.length = (utf8Bytes text).length := by
    rw [← hfront, List.length_map]
  have hdecode : d.decode (front.map Prod.fst) = (text, .ready) := by
    rw [hfront, hd]
  rw [Chunks.feed_append, feed_pushByte_plain (by rwa [hdecode]), hdecode, ← hlength]
  dsimp only
  rw [List.getElem?_append_right le_rfl, Nat.sub_self]
  cases ending with
  | lf =>
      obtain ⟨⟨byte, mark⟩, rest, rfl, rfl, hrest⟩ := List.map_eq_cons_iff.mp hback
      cases List.map_eq_nil_iff.mp hrest
      cases mark <;> rfl
  | crlf =>
      obtain ⟨⟨byte, mark⟩, rest, rfl, rfl, hrest⟩ := List.map_eq_cons_iff.mp hback
      obtain ⟨⟨byte', mark'⟩, rest', rfl, rfl, hnil⟩ := List.map_eq_cons_iff.mp hrest
      cases List.map_eq_nil_iff.mp hnil
      rw [feed_pushByte_crlf]
      rfl

theorem feed_eventLine {d : TextDecoder} {line : EventLine}
    (hd : d.decode (utf8Bytes line.text) = (line.text, .ready)) {bytes : List (UInt8 × Bool)}
    (hbytes : bytes.map Prod.fst = line.bytes) :
    ∃ received, Received received line ∧
      feed pushByte (d, false) bytes = (received ++ ['\n'], (.ready, false)) := by
  rw [feed_line line.plain.1 hd hbytes]
  split
  · exact ⟨line.text ++ ['\r'], .inr rfl, by simp⟩
  · exact ⟨line.text, .inl rfl, rfl⟩

theorem feed_lines {lines : List EventLine} {bytes : List (UInt8 × Bool)}
    (hbytes : bytes.map Prod.fst = lines.flatMap EventLine.bytes) :
    ∃ received, List.Forall₂ Received received lines ∧
      feed pushByte (.ready, false) bytes = (terminated received, (.ready, false)) := by
  induction lines generalizing bytes with
  | nil =>
      cases List.map_eq_nil_iff.mp hbytes
      exact ⟨[], .nil, rfl⟩
  | cons line lines ih =>
      rw [List.flatMap_cons] at hbytes
      obtain ⟨front, back, rfl, hfront, hback⟩ := List.map_eq_append_iff.mp hbytes
      obtain ⟨first, hfirst, hfeed⟩ := feed_eventLine (TextDecoder.decode_ready line.text) hfront
      obtain ⟨rest, hrest, hfeeds⟩ := ih hback
      refine ⟨first :: rest, .cons hfirst hrest, ?_⟩
      rw [Chunks.feed_append, hfeed]
      dsimp only
      rw [hfeeds, terminated_cons]
      simp

/-- A decoder that reads the first line of the frame as it is. -/
def Opens (d : TextDecoder) (f : EventFrame) : Prop :=
  ∀ line ∈ f.lines.head?, d.decode (utf8Bytes line.text) = (line.text, .ready)

theorem opens_ready (f : EventFrame) : Opens .ready f :=
  fun line _ ↦ TextDecoder.decode_ready line.text

theorem feed_frame {d : TextDecoder} {f : EventFrame} (hd : Opens d f)
    {bytes : List (UInt8 × Bool)} (hbytes : bytes.map Prod.fst = f.bytes) :
    ∃ received, List.Forall₂ Received received f.lines ∧
      feed pushByte (d, false) bytes =
        (terminated (received ++ [if f.closing = .crlf && bytes[f.body.length]?.any Prod.snd then
          ['\r'] else []]), (.ready, false)) := by
  obtain ⟨line, lines, hlines⟩ := List.exists_cons_of_ne_nil f.nonempty
  rw [EventFrame.bytes] at hbytes
  obtain ⟨front, back, rfl, hfront, hback⟩ := List.map_eq_append_iff.mp hbytes
  have hlength : f.body.length = front.length := by
    rw [← hfront, List.length_map]
  have hbody := hfront
  rw [EventFrame.body, hlines, List.flatMap_cons] at hbody
  obtain ⟨start, rest, rfl, hstart, hrest⟩ := List.map_eq_append_iff.mp hbody
  have hline : line ∈ f.lines.head? := by
    rw [hlines]
    rfl
  obtain ⟨first, hfirst, hfeed⟩ := feed_eventLine (hd line hline) hstart
  obtain ⟨others, hothers, hfeeds⟩ := feed_lines hrest
  have hclosing := feed_line (by simp) (TextDecoder.decode_ready []) hback
  have hempty : (utf8Bytes []).length = 0 := rfl
  rw [hempty] at hclosing
  rw [hlines]
  refine ⟨first :: others, .cons hfirst hothers, ?_⟩
  rw [Chunks.feed_append, Chunks.feed_append, hfeed]
  dsimp only
  rw [hfeeds]
  dsimp only
  rw [hclosing, hlength, List.getElem?_append_right le_rfl, Nat.sub_self, terminated_append,
    terminated_cons]
  generalize (f.closing = .crlf && back[0]?.any Prod.snd : Bool) = torn
  cases torn <;> simp [terminated]

theorem feed_frames {frames : List EventFrame} {bytes : List (UInt8 × Bool)}
    (hbytes : bytes.map Prod.fst = frames.flatMap EventFrame.bytes) {d : TextDecoder}
    (hd : ∀ f ∈ frames.head?, Opens d f) :
    ∃ lines, Arrives frames (tornClosings frames bytes) lines ∧
      (feed pushByte (d, false) bytes).1 = terminated lines := by
  induction frames generalizing bytes d with
  | nil =>
      cases List.map_eq_nil_iff.mp hbytes
      exact ⟨[], .nil, rfl⟩
  | cons f frames ih =>
      rw [List.flatMap_cons] at hbytes
      obtain ⟨front, back, rfl, hfront, hback⟩ := List.map_eq_append_iff.mp hbytes
      have hlength : f.bytes.length = front.length := by
        rw [← hfront, List.length_map]
      have hinside : f.body.length < front.length := by
        rw [← hlength, EventFrame.bytes, List.length_append]
        cases f.closing <;> simp [LineEnd.bytes]
      obtain ⟨received, hreceived, hfeed⟩ := feed_frame (hd f rfl) hfront
      obtain ⟨lines, hlines, hfeeds⟩ := ih hback fun f' _ ↦ opens_ready f'
      refine ⟨received ++ (if f.closing = .crlf && front[f.body.length]?.any Prod.snd then ['\r']
        else []) :: lines, ?_, ?_⟩
      · rw [tornClosings, List.getElem?_append_left hinside, hlength, List.drop_left]
        exact .cons _ hreceived hlines
      · rw [Chunks.feed_append, hfeed]
        dsimp only
        rw [hfeeds, ← terminated_append, List.append_assoc]
        rfl

/-- What the reader splits are the lines of the frames. -/
theorem normalized_stream {s : FrameStream} {chunks : List (List UInt8)}
    (h : chunks.flatten = s.bytes) :
    ∃ lines, Arrives s.frames (s.torn chunks) lines ∧
      normalized {} chunks = terminated lines := by
  rw [normalized_eq, FrameStream.torn]
  have hbytes : (marked chunks).map Prod.fst = s.bytes := by
    rw [Chunks.marked_fst, h]
  rw [FrameStream.bytes] at hbytes
  obtain ⟨front, back, hmarked, hfront, hback⟩ := List.map_eq_append_iff.mp hbytes
  rw [hmarked, Chunks.feed_append]
  cases hbom : s.bom with
  | true =>
      rw [hbom, if_pos rfl] at hfront
      have hlength : front.length = 3 := by
        rw [← List.length_map (f := Prod.fst), hfront]
        rfl
      have hmark : feed pushByte (({} : TextDecoder), false) front = ([], (.ready, false)) := by
        have hdecode : TextDecoder.decode {} (front.map Prod.fst) = ([], .ready) := by
          rw [hfront]
          rfl
        rw [feed_pushByte_plain (by simp [hdecode]), hdecode]
      rw [if_pos rfl, ← hlength, List.drop_left, hmark]
      exact feed_frames hback fun f _ ↦ opens_ready f
  | false =>
      rw [hbom, if_neg (by simp)] at hfront
      cases List.map_eq_nil_iff.mp hfront
      rw [if_neg (by simp), List.drop_zero]
      apply feed_frames hback
      intro f hf line hline
      have hfirst : line.text.head? ≠ some '\uFEFF' := by
        rcases s.noMark with hmark | hmark
        · rw [hbom] at hmark
          cases hmark
        · exact hmark f hf line hline
      obtain ⟨c, text, htext⟩ := List.exists_cons_of_ne_nil line.nonempty
      rw [htext, List.head?_cons] at hfirst
      rw [htext, TextDecoder.decode_start, if_neg fun hc ↦ hfirst (congrArg some hc)]

end Relayvia
