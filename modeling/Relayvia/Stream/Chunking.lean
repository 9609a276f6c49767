import Relayvia.Stream.Frames

/-!
# Events do not depend on the chunks

A frame whose closing line end is torn apart runs on into the next frame.  The events are those
of the frames exactly when no two events get into one frame and none stays in the buffer.
-/

namespace Relayvia

open Chunks (feed marked)

variable {number : List Char → Option ℚ}

/-! ## Fields -/

theorem fieldValue_append (name : String) (a b : List (List Char)) :
    fieldValue name (a ++ b) = (fieldValue name a).or (fieldValue name b) := by
  unfold fieldValue
  rw [List.find?_append]
  cases a.find? name.toList.isPrefixOf <;> rfl

theorem trim_return (s : List Char) : trim (s ++ ['\r']) = trim s := by
  rw [trim, List.rdropWhile_concat_pos _ _ _ (by decide)]
  rfl

/-- A carriage return at the end of a line does not change its field. -/
theorem fieldValue_received {name : String} (hname : '\r' ∉ name.toList)
    {received : List (List Char)} {lines : List EventLine}
    (h : List.Forall₂ Received received lines) :
    fieldValue name received = fieldValue name (lines.map EventLine.text) := by
  have hstarts (s : List Char) :
      name.toList.isPrefixOf (s ++ ['\r']) = name.toList.isPrefixOf s := by
    rw [Bool.eq_iff_iff, List.isPrefixOf_iff_prefix, List.isPrefixOf_iff_prefix]
    refine ⟨fun hstart ↦ ?_, fun hstart ↦ hstart.trans (List.prefix_append s _)⟩
    rcases List.prefix_concat_iff.mp hstart with heq | hstart
    · exact absurd (heq ▸ List.mem_append_right s List.mem_cons_self) hname
    · exact hstart
  induction h with
  | nil => rfl
  | @cons received line rest lines hfirst _ ih =>
      have hone : fieldValue name [received] = fieldValue name [line.text] := by
        rcases hfirst with rfl | rfl
        · rfl
        · unfold fieldValue
          rw [List.find?_cons, List.find?_cons, hstarts]
          cases hmatch : name.toList.isPrefixOf line.text with
          | false => rfl
          | true =>
              have hle := (List.isPrefixOf_iff_prefix.mp hmatch).length_le
              rw [String.length_toList] at hle
              simp only [Option.map_some, List.drop_append_of_le_length hle, trim_return]
      rw [List.map_cons, ← List.singleton_append, fieldValue_append, hone, ih, ← fieldValue_append]
      rfl

/-! ## Frames of lines -/

/-- Lines that do not end a frame. -/
def Inside (lines : List (List Char)) : Prop :=
  ∀ line ∈ lines, line ≠ [] ∧ '\n' ∉ line

theorem not_infix_append {s t : List Char} (hs : '\n' ∉ s) (ht : ¬['\n', '\n'] <:+: t) :
    ¬['\n', '\n'] <:+: s ++ t := by
  induction s with
  | nil => exact ht
  | cons c s ih =>
      rw [List.cons_append, List.infix_cons_iff, not_or]
      refine ⟨fun hstart ↦ ?_, ih fun hmem ↦ hs (List.mem_cons_of_mem c hmem)⟩
      obtain ⟨rest, hrest⟩ := hstart
      exact hs ((List.cons.inj hrest).1 ▸ List.mem_cons_self)

theorem not_infix_terminated {lines : List (List Char)} (h : Inside lines) :
    ¬['\n', '\n'] <:+: terminated lines := by
  induction lines with
  | nil => simp [terminated]
  | cons line lines ih =>
      rw [terminated_cons]
      apply not_infix_append (h line List.mem_cons_self).2
      have hlines : Inside lines := fun l hl ↦ h l (List.mem_cons_of_mem _ hl)
      rw [List.infix_cons_iff, not_or]
      refine ⟨fun hstart ↦ ?_, ih hlines⟩
      obtain ⟨rest, hrest⟩ := hstart
      cases lines with
      | nil => cases hrest
      | cons next lines =>
          obtain ⟨hnext, hplain⟩ := hlines next List.mem_cons_self
          obtain ⟨c, text, rfl⟩ := List.exists_cons_of_ne_nil hnext
          rw [terminated_cons] at hrest
          have hc : '\n' = c := (List.cons.inj (List.cons.inj hrest).2).1
          exact hplain (hc ▸ List.mem_cons_self)

theorem terminated_eq {lines : List (List Char)} (hne : lines ≠ []) :
    terminated lines = ['\n'].intercalate lines ++ ['\n'] := by
  induction lines with
  | nil => exact absurd rfl hne
  | cons line lines ih =>
      rw [terminated_cons]
      cases lines with
      | nil => simp [terminated]
      | cons line' lines =>
          rw [ih (List.cons_ne_nil _ _), List.intercalate_cons_cons]
          simp

theorem split_lines {lines : List (List Char)} (hne : lines ≠ []) (h : ∀ line ∈ lines, '\n' ∉ line) :
    (Text.split ['\n'] (['\n'].intercalate lines)).1 ++
      [(Text.split ['\n'] (['\n'].intercalate lines)).2] = lines := by
  induction lines with
  | nil => exact absurd rfl hne
  | cons line lines ih =>
      have hline : ¬['\n'] <:+: line := by
        intro hword
        exact h line List.mem_cons_self (hword.subset List.mem_cons_self)
      cases lines with
      | nil => 
          rw [List.intercalate_singleton, Text.split_whole (by simp) hline]
          rfl
      | cons line' lines =>
          have hrest := ih (List.cons_ne_nil _ _) fun l hl ↦ h l (List.mem_cons_of_mem _ hl)
          rw [List.intercalate_cons_cons, List.append_assoc,
            Text.split_part (by simp) (by simpa using hline)]
          dsimp only
          rw [List.cons_append, hrest]

theorem handleFrame_lines (lastEventId : ℚ) {lines : List (List Char)} (hne : lines ≠ [])
    (h : Inside lines) :
    handleFrame number lastEventId (['\n'].intercalate lines) =
      handleLines number lastEventId lines := by
  unfold handleFrame
  dsimp only
  rw [split_lines hne fun line hline ↦ (h line hline).2]

theorem split_group {lines : List (List Char)} (hne : lines ≠ []) (h : Inside lines)
    (s : List Char) :
    Text.split ['\n', '\n'] (terminated lines ++ '\n' :: s) =
      (['\n'].intercalate lines :: (Text.split ['\n', '\n'] s).1,
        (Text.split ['\n', '\n'] s).2) := by
  have hclear := not_infix_terminated h
  rw [terminated_eq hne] at hclear ⊢
  rw [List.append_assoc]
  exact Text.split_part (by simp) hclear s

theorem inside_received {received : List (List Char)} {lines : List EventLine}
    (h : List.Forall₂ Received received lines) : Inside received := by
  induction h with
  | nil => simp [Inside]
  | @cons received line rest lines hfirst _ ih =>
      intro l hl
      rcases List.mem_cons.mp hl with rfl | hl
      · rcases hfirst with rfl | rfl
        · exact ⟨line.nonempty, line.plain.2⟩
        · refine ⟨by simp, ?_⟩
          simpa using line.plain.2
      · exact ih l hl

/-! ## Frames that run on -/

/-- The events of frames of which some run on into the next one, where `id` and `eventType` are
the fields of the frames that have run on so far. -/
def joined (number : List Char → Option ℚ) : ℚ → Option (List Char) → Option (List Char) →
    List EventFrame → List Bool → List DeliveredEvent
  | lastEventId, id, eventType, f :: frames, torn :: rest =>
      let id := id.or (fieldValue "id:" f.texts)
      let eventType := eventType.or (fieldValue "event:" f.texts)
      let handled := handleFields number lastEventId id eventType
      if torn then joined number lastEventId id eventType frames rest
      else handled.1 ++ joined number handled.2 none none frames rest
  | _, _, _, _, _ => []

variable (number) in
theorem deliver_arrived {frames : List EventFrame} {torn : List Bool} {lines : List (List Char)}
    (h : Arrives frames torn lines) {pending : List (List Char)} (hpending : Inside pending)
    (lastEventId : ℚ) :
    (feed (handleFrame number) lastEventId
        (Text.split ['\n', '\n'] (terminated (pending ++ lines))).1).1 =
      joined number lastEventId (fieldValue "id:" pending) (fieldValue "event:" pending)
        frames torn := by
  induction h generalizing pending lastEventId with
  | nil =>
      rw [List.append_nil, Text.split_whole (by simp) (not_infix_terminated hpending)]
      rfl
  | @cons f frames torn received lines t hreceived _ ih =>
      have hinside : Inside (pending ++ received) := by
        intro line hline
        rcases List.mem_append.mp hline with hline | hline
        · exact hpending line hline
        · exact inside_received hreceived line hline
      have hid : fieldValue "id:" (pending ++ received) =
          (fieldValue "id:" pending).or (fieldValue "id:" f.texts) := by
        rw [fieldValue_append, fieldValue_received (by decide) hreceived]
        rfl
      have hevent : fieldValue "event:" (pending ++ received) =
          (fieldValue "event:" pending).or (fieldValue "event:" f.texts) := by
        rw [fieldValue_append, fieldValue_received (by decide) hreceived]
        rfl
      rw [joined]
      cases t with
      | true =>
          have hnext : Inside (pending ++ received ++ [['\r']]) := by
            intro line hline
            rcases List.mem_append.mp hline with hline | hline
            · exact hinside line hline
            · rw [List.mem_singleton.mp hline]
              decide
          have hjoin : pending ++ (received ++ ['\r'] :: lines) =
              pending ++ received ++ [['\r']] ++ lines := by
            simp
          have hreturn (name : String) (hname : name.toList.isPrefixOf ['\r'] = false) :
              fieldValue name (pending ++ received ++ [['\r']]) =
                fieldValue name (pending ++ received) := by
            have hnone : fieldValue name [['\r']] = none := by
              rw [fieldValue, List.find?_cons, hname]
              rfl
            rw [fieldValue_append, hnone, Option.or_none]
          rw [if_pos rfl, if_pos rfl, hjoin, ih hnext, hreturn "id:" (by decide),
            hreturn "event:" (by decide), hid, hevent]
      | false =>
          have hne : pending ++ received ≠ [] := by
            intro hnil
            obtain ⟨-, hnil⟩ := List.append_eq_nil_iff.mp hnil
            subst hnil
            cases hlines : f.lines with
            | nil => exact f.nonempty hlines
            | cons line rest =>
                rw [hlines] at hreceived
                cases hreceived
          have hjoin : terminated (pending ++ (received ++ [] :: lines)) =
              terminated (pending ++ received) ++ '\n' :: terminated lines := by
            rw [← List.append_assoc, terminated_append, terminated_cons]
            rfl
          rw [if_neg (by simp), if_neg (by simp), hjoin, split_group hne hinside, feed,
            handleFrame_lines lastEventId hne hinside, handleLines, hid, hevent]
          exact congrArg (_ ++ ·) (ih (show Inside [] by simp [Inside]) _)

/-- No event frame runs on into another one or stays in the buffer, where `unclosed` says that
an event frame before these has run on into them. -/
def Separated : Bool → List EventFrame → List Bool → Prop
  | unclosed, f :: frames, torn :: rest =>
      (f.isEvent = true → unclosed = false) ∧
        Separated (torn && (unclosed || f.isEvent)) frames rest
  | unclosed, _, _ => unclosed = false

theorem length_handleFields (lastEventId : ℚ) (id eventType : Option (List Char)) :
    (handleFields number lastEventId id eventType).1.length = eventType.isSome.toNat := by
  cases eventType <;> rfl

/-- The number of event frames. -/
def eventCount (frames : List EventFrame) : ℕ :=
  (frames.filter EventFrame.isEvent).length

theorem eventCount_cons (f : EventFrame) (frames : List EventFrame) :
    eventCount (f :: frames) = f.isEvent.toNat + eventCount frames := by
  rw [eventCount, List.filter_cons]
  cases f.isEvent <;> simp [eventCount, Nat.add_comm]

theorem isSome_or_event (eventType : Option (List Char)) (f : EventFrame) :
    (eventType.or (fieldValue "event:" f.texts)).isSome = (eventType.isSome || f.isEvent) :=
  Option.isSome_or

theorem toNat_or_le : ∀ a b : Bool, (a || b).toNat ≤ a.toNat + b.toNat := by
  decide

theorem eq_false_of_toNat_add_le : ∀ {a b : Bool}, a.toNat + b.toNat ≤ (a || b).toNat →
    b = true → a = false := by
  decide

variable (number) in
theorem length_joined_le (lastEventId : ℚ) (id eventType : Option (List Char))
    (frames : List EventFrame) (torn : List Bool) :
    (joined number lastEventId id eventType frames torn).length ≤
      eventType.isSome.toNat + eventCount frames := by
  induction frames generalizing lastEventId id eventType torn with
  | nil => simp [joined]
  | cons f frames ih =>
      cases torn with
      | nil => simp [joined]
      | cons t torn =>
          have hboth := toNat_or_le eventType.isSome f.isEvent
          rw [joined, eventCount_cons]
          cases t with
          | true =>
              have hrest := ih lastEventId (id.or (fieldValue "id:" f.texts))
                (eventType.or (fieldValue "event:" f.texts)) torn
              rw [isSome_or_event] at hrest
              rw [if_pos rfl]
              omega
          | false =>
              have hrest := ih (handleFields number lastEventId (id.or (fieldValue "id:" f.texts))
                (eventType.or (fieldValue "event:" f.texts))).2 none none torn
              rw [Option.isSome_none, Bool.toNat_false] at hrest
              rw [if_neg (by simp), List.length_append, length_handleFields, isSome_or_event]
              omega

/-- As many events as event frames arrive only when these are separated. -/
theorem separated_of_length {lastEventId : ℚ} {id eventType : Option (List Char)}
    {frames : List EventFrame} {torn : List Bool}
    (h : (joined number lastEventId id eventType frames torn).length =
      eventType.isSome.toNat + eventCount frames) :
    Separated eventType.isSome frames torn := by
  induction frames generalizing lastEventId id eventType torn with
  | nil =>
      simp only [joined, List.length_nil] at h
      have hnone : eventType.isSome.toNat = 0 := by omega
      cases torn <;> exact Bool.toNat_eq_zero.mp hnone
  | cons f frames ih =>
      cases torn with
      | nil =>
          simp only [joined, List.length_nil] at h
          exact Bool.toNat_eq_zero.mp (by omega)
      | cons t torn =>
          have hboth := toNat_or_le eventType.isSome f.isEvent
          rw [joined, eventCount_cons] at h
          -- where two event frames are joined, one event is missing
          cases t with
          | true =>
              have hrest := length_joined_le number lastEventId (id.or (fieldValue "id:" f.texts))
                (eventType.or (fieldValue "event:" f.texts)) frames torn
              rw [isSome_or_event] at hrest
              rw [if_pos rfl] at h
              refine ⟨eq_false_of_toNat_add_le (by omega), ?_⟩
              rw [Bool.true_and, ← isSome_or_event]
              apply ih
              rw [h, isSome_or_event]
              omega
          | false =>
              rw [if_neg (by simp), List.length_append, length_handleFields, isSome_or_event] at h
              generalize (handleFields number lastEventId (id.or (fieldValue "id:" f.texts))
                (eventType.or (fieldValue "event:" f.texts))).2 = last at h
              have hrest := length_joined_le number last none none frames torn
              rw [Option.isSome_none, Bool.toNat_false] at hrest
              have hall : (joined number last none none frames torn).length =
                  (none : Option (List Char)).isSome.toNat + eventCount frames := by
                rw [Option.isSome_none, Bool.toNat_false]
                omega
              exact ⟨eq_false_of_toNat_add_le (by omega), ih hall⟩

/-- A comment changes nothing. -/
theorem EventFrame.comment {f : EventFrame} (h : f.isEvent = false) :
    fieldValue "event:" f.texts = none ∧ fieldValue "id:" f.texts = none := by
  have hnone : fieldValue "event:" f.texts = none := by
    simpa [isEvent] using h
  exact ⟨hnone, f.id_of_event hnone⟩

theorem handleLines_comment {f : EventFrame} (h : f.isEvent = false) (lastEventId : ℚ) :
    handleLines number lastEventId f.texts = ([], lastEventId) := by
  obtain ⟨hevent, hid⟩ := f.comment h
  rw [handleLines, hevent, hid]
  simp [handleFields]

/-- The frames one by one. -/
def separate (number : List Char → Option ℚ) (lastEventId : ℚ) (frames : List EventFrame) :
    List DeliveredEvent :=
  (feed (fun last (f : EventFrame) ↦ handleLines number last f.texts) lastEventId frames).1

theorem separate_cons (lastEventId : ℚ) (f : EventFrame) (frames : List EventFrame) :
    separate number lastEventId (f :: frames) =
      (handleLines number lastEventId f.texts).1 ++
        separate number (handleLines number lastEventId f.texts).2 frames :=
  rfl

/-- Separated frames are handled one by one; an event that has run on comes first. -/
theorem joined_of_separated {frames : List EventFrame} {torn : List Bool}
    (hlength : torn.length = frames.length) (lastEventId : ℚ) :
    (Separated false frames torn →
      joined number lastEventId none none frames torn = separate number lastEventId frames) ∧
    ∀ id eventType, Separated true frames torn →
      joined number lastEventId id (some eventType) frames torn =
        (handleFields number lastEventId id (some eventType)).1 ++
          separate number (handleFields number lastEventId id (some eventType)).2 frames := by
  induction frames generalizing torn lastEventId with
  | nil =>
      constructor
      · intro _
        rfl
      · intro id eventType h
        cases torn <;> cases h
  | cons f frames ih =>
      cases torn with
      | nil => cases hlength
      | cons t torn =>
          have hrest := ih (Nat.succ.inj hlength)
          constructor
          · rintro ⟨-, h⟩
            rw [joined, Option.none_or, Option.none_or, separate_cons]
            rw [Bool.false_or] at h
            cases t with
            | false => exact congrArg (_ ++ ·) ((hrest _).1 h)
            | true =>
                rw [if_pos rfl]
                rw [Bool.true_and] at h
                cases hf : f.isEvent with
                | false =>
                    rw [hf] at h
                    obtain ⟨hevent, hid⟩ := f.comment hf
                    rw [hevent, hid, handleLines_comment hf, (hrest lastEventId).1 h]
                    rfl
                | true =>
                    rw [hf] at h
                    obtain ⟨e, he⟩ := Option.isSome_iff_exists.mp hf
                    rw [handleLines, he]
                    exact (hrest lastEventId).2 _ e h
          · rintro id eventType ⟨hfirst, h⟩
            have hf : f.isEvent = false := by
              cases hf : f.isEvent with
              | false => rfl
              | true => cases hfirst hf
            obtain ⟨hevent, hid⟩ := f.comment hf
            rw [joined, hevent, hid, Option.or_none, Option.or_none, separate_cons,
              handleLines_comment hf]
            rw [Bool.true_or, Bool.and_true] at h
            cases t with
            | false => exact congrArg (_ ++ ·) ((hrest _).1 h)
            | true => exact (hrest lastEventId).2 id eventType h

theorem length_separate (lastEventId : ℚ) (frames : List EventFrame) :
    (separate number lastEventId frames).length = eventCount frames := by
  induction frames generalizing lastEventId with
  | nil => rfl
  | cons f frames ih =>
      rw [separate_cons, List.length_append, ih, eventCount_cons, handleLines, length_handleFields]
      rfl

theorem joined_eq_separate_iff {frames : List EventFrame} {torn : List Bool}
    (hlength : torn.length = frames.length) (lastEventId : ℚ) :
    joined number lastEventId none none frames torn = separate number lastEventId frames ↔
      Separated false frames torn := by
  constructor
  · intro h
    have hcount : (joined number lastEventId none none frames torn).length =
        (none : Option (List Char)).isSome.toNat + eventCount frames := by
      rw [h, length_separate, Option.isSome_none, Bool.toNat_false, Nat.zero_add]
    exact separated_of_length hcount
  · exact (joined_of_separated hlength lastEventId).1

/-! ## Whole streams -/

/-- The events of the frames of the stream. -/
def FrameStream.events (number : List Char → Option ℚ) (lastEventId : ℚ) (s : FrameStream) :
    List DeliveredEvent :=
  separate number lastEventId s.frames

theorem Arrives.length_eq {frames : List EventFrame} {torn : List Bool}
    {lines : List (List Char)} (h : Arrives frames torn lines) : torn.length = frames.length := by
  induction h with
  | nil => rfl
  | cons t _ _ ih => rw [List.length_cons, List.length_cons, ih]

/-- The events are delivered one by one unless event frames run on. -/
theorem deliver_eq_events_iff (lastEventId : ℚ) {s : FrameStream} {chunks : List (List UInt8)}
    (h : chunks.flatten = s.bytes) :
    deliver number lastEventId chunks = s.events number lastEventId ↔
      Separated false s.frames (s.torn chunks) := by
  obtain ⟨lines, harrives, hlines⟩ := normalized_stream h
  have hdeliver := deliver_arrived number harrives
    (show Inside [] by simp [Inside]) lastEventId
  rw [List.nil_append] at hdeliver
  rw [deliver_eq, hlines, hdeliver]
  exact joined_eq_separate_iff harrives.length_eq lastEventId

theorem separated_of_closed {frames : List EventFrame} {torn : List Bool}
    (h : ∀ t ∈ torn, t = false) : Separated false frames torn := by
  induction frames generalizing torn with
  | nil => cases torn <;> rfl
  | cons f frames ih =>
      cases torn with
      | nil => rfl
      | cons t torn =>
          have ht : t = false := h t List.mem_cons_self
          subst ht
          exact ⟨fun _ ↦ rfl, ih fun t' ht' ↦ h t' (List.mem_cons_of_mem _ ht')⟩

/-- No line end is torn inside one chunk. -/
theorem tornClosings_markEnd (frames : List EventFrame) :
    ∀ t ∈ tornClosings frames (Chunks.markEnd (frames.flatMap EventFrame.bytes)), t = false := by
  induction frames with
  | nil => simp [tornClosings]
  | cons f frames ih =>
      rw [tornClosings, List.flatMap_cons, Chunks.drop_markEnd, List.drop_left]
      intro t ht
      rcases List.mem_cons.mp ht with rfl | ht
      · rw [Bool.and_eq_false_iff, or_iff_not_imp_right]
        intro hmark
        have hend := Chunks.mark_markEnd (Bool.not_eq_false _ ▸ hmark)
        cases hclosing : f.closing with
        | lf => rfl
        | crlf =>
            rw [List.length_append, EventFrame.bytes, List.length_append, hclosing] at hend
            simp only [LineEnd.bytes, List.length_cons, List.length_nil] at hend
            omega
      · exact ih t ht

theorem deliver_whole (lastEventId : ℚ) (s : FrameStream) :
    deliver number lastEventId [s.bytes] = s.events number lastEventId := by
  rw [deliver_eq_events_iff lastEventId (by simp)]
  apply separated_of_closed
  have hdrop : (marked [s.bytes]).drop (if s.bom then 3 else 0) =
      Chunks.markEnd (s.frames.flatMap EventFrame.bytes) := by
    rw [marked, List.flatMap_singleton, Chunks.drop_markEnd, FrameStream.bytes]
    cases s.bom <;> rfl
  rw [FrameStream.torn, hdrop]
  exact tornClosings_markEnd s.frames

theorem tornClosings_lf {frames : List EventFrame} (h : ∀ f ∈ frames, f.closing = .lf)
    (bytes : List (UInt8 × Bool)) : ∀ t ∈ tornClosings frames bytes, t = false := by
  induction frames generalizing bytes with
  | nil => simp [tornClosings]
  | cons f frames ih =>
      rw [tornClosings, h f List.mem_cons_self]
      intro t ht
      rcases List.mem_cons.mp ht with rfl | ht
      · rfl
      · exact ih (fun f' hf' ↦ h f' (List.mem_cons_of_mem _ hf')) _ t ht

/-- With LF between the frames the chunks do not matter. -/
theorem deliver_lf (lastEventId : ℚ) {s : FrameStream} {chunks : List (List UInt8)}
    (h : chunks.flatten = s.bytes) (hlf : ∀ f ∈ s.frames, f.closing = .lf) :
    deliver number lastEventId chunks = s.events number lastEventId :=
  (deliver_eq_events_iff lastEventId h).mpr (separated_of_closed (tornClosings_lf hlf _))

/-- Where every frame is an event, no closing line end may be torn. -/
theorem separated_events_iff {frames : List EventFrame} {torn : List Bool}
    (hlength : torn.length = frames.length) (h : ∀ f ∈ frames, f.isEvent = true) (unclosed : Bool) :
    Separated unclosed frames torn ↔ unclosed = false ∧ ∀ t ∈ torn, t = false := by
  induction frames generalizing torn unclosed with
  | nil =>
      cases List.length_eq_zero_iff.mp hlength
      simp [Separated]
  | cons f frames ih =>
      cases torn with
      | nil => cases hlength
      | cons t torn =>
          have hrest := ih (Nat.succ.inj hlength) fun f' hf' ↦ h f' (List.mem_cons_of_mem _ hf')
          rw [Separated, hrest, h f List.mem_cons_self]
          simp

/-- The chunks do not matter exactly when every event frame is closed before the next one. -/
theorem deliver_chunks_iff (number : List Char → Option ℚ) (lastEventId : ℚ) (s : FrameStream)
    {chunks : List (List UInt8)} (h : chunks.flatten = s.bytes) :
    deliver number lastEventId [s.bytes] = s.events number lastEventId ∧
      (deliver number lastEventId chunks = deliver number lastEventId [s.bytes] ↔
        Separated false s.frames (s.torn chunks)) := by
  rw [deliver_whole]
  exact ⟨rfl, deliver_eq_events_iff lastEventId h⟩

/-! ## A carriage return at a chunk end -/

/-- The value of a decimal number. -/
def decimal (text : List Char) : Option ℚ :=
  if text ≠ [] ∧ text.all Char.isDigit then
    some ((text.foldl (fun n c ↦ 10 * n + (c.toNat - '0'.toNat)) 0 : ℕ) : ℚ)
  else none

def crlfLine (text : List Char) (nonempty : text ≠ []) (plain : '\r' ∉ text ∧ '\n' ∉ text) :
    EventLine :=
  { text, ending := .crlf, nonempty, plain }

/-- Two events with CRLF line ends. -/
def crlfStream : FrameStream where
  frames :=
    [{ lines :=
        [crlfLine "id: 1".toList (by decide) (by decide),
          crlfLine "event: A".toList (by decide) (by decide)]
       closing := .crlf
       nonempty := by simp
       id_of_event := by decide },
      { lines :=
          [crlfLine "id: 2".toList (by decide) (by decide),
            crlfLine "event: B".toList (by decide) (by decide)]
        closing := .crlf
        nonempty := by simp
        id_of_event := by decide }]
  noMark := by decide

/-- A chunk that ends inside the line end at `n`. -/
def crlfChunks (n : ℕ) : List (List UInt8) :=
  [crlfStream.bytes.take n, crlfStream.bytes.drop n]

/-- The first chunk ends inside the empty line after the first event, and the second event is
lost. -/
theorem not_deliver_chunks :
    (crlfChunks 18).flatten = crlfStream.bytes ∧
      deliver decimal 0 [crlfStream.bytes] = [⟨['A'], 1⟩, ⟨['B'], 2⟩] ∧
      deliver decimal 0 (crlfChunks 18) = [⟨['A'], 1⟩] := by
  decide +kernel

/-- A chunk that ends inside the line end of a field does no harm. -/
theorem deliver_chunks_crlfStream :
    deliver decimal 0 (crlfChunks 6) = crlfStream.events decimal 0 := by
  obtain ⟨hwhole, hiff⟩ := deliver_chunks_iff decimal 0 crlfStream
    (show (crlfChunks 6).flatten = crlfStream.bytes by decide +kernel)
  rw [← hwhole]
  apply hiff.mpr
  exact separated_of_closed (by decide +kernel)

end Relayvia
