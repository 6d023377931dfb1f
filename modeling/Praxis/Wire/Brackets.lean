import Praxis.Foundation.Steps
import Praxis.Wire.CommonStream

/-!
# Items of a stream open and close

Whoever reads the events of a stream wants them well bracketed: an item is added, grows by its
deltas and is done with the text they make up, before another one is added; and the answer is
completed once, at the end.  `Phase.next` reads events in that way, and `WellBracketed` says that
it reads all of them.

Two calls break the brackets.  Reasoning of white space alone is dropped when it ends, though its
item has been added.  And reasoning in a field of its own adds its item though a message may be
open; reasoning between think tags closes the message first.  Every other call keeps the events
bracketed (`judged_step`), so that a stream is bracketed exactly if it avoids these two
(`well_bracketed_iff`).
-/

namespace Praxis.Wire

open Foundation

/-! ## Reading events -/

/-- Where a reader is: between items, in a message or in reasoning with the text so far, or at the
end. -/
inductive Phase where
  | between
  | message (text : Text)
  | reasoning (id text : Text)
  | finished
  deriving DecidableEq

/-- The next event, if it may come here.  Calls of functions are done without being added. -/
def Phase.next : Phase → ResponseEvent → Option Phase
  | .between, .created => some .between
  | .between, .outputItemAdded (.message ..) => some (.message [])
  | .between, .outputItemAdded (.reasoning id ..) => some (.reasoning id [])
  | .between, .completed .. => some .finished
  | .between, .outputItemDone (.functionCall ..) => some .between
  | .message text, .outputTextDelta delta => some (.message (text ++ delta))
  | .message text, .outputItemDone (.message _ content) =>
    if content = [.outputText text] then some .between else none
  | .message text, .outputItemDone (.functionCall ..) => some (.message text)
  | .reasoning id text, .reasoningContentDelta delta _ => some (.reasoning id (text ++ delta))
  | .reasoning id text, .outputItemDone (.reasoning id' content _) =>
    if id' = id ∧ content = some [.reasoningText text] then some .between else none
  | .reasoning id text, .outputItemDone (.functionCall ..) => some (.reasoning id text)
  | _, _ => none

/-- Where events lead. -/
def phaseOf (events : List ResponseEvent) : Option Phase := events.foldlM Phase.next .between

/-- Every item that is added is done, with the text of its deltas and before the next one is
added, and the answer is completed at the end. -/
def WellBracketed (events : List ResponseEvent) : Prop := phaseOf events = some .finished

theorem phaseOf_append (events more : List ResponseEvent) :
    phaseOf (events ++ more) = (phaseOf events).bind (more.foldlM Phase.next) :=
  List.foldlM_append

@[simp]
theorem phaseOf_send (s : CommonStreamState) (event : ResponseEvent) :
    phaseOf (s.send event).sent = (phaseOf s.sent).bind (·.next event) := by
  rw [CommonStreamState.send, phaseOf_append]
  cases phaseOf s.sent with
  | none => rfl
  | some phase => simp

/-! ## The items of a state -/

/-- The state agrees with where its events lead. -/
inductive CommonStreamState.At (s : CommonStreamState) : Phase → Prop
  | between : s.messageOpen = false → s.messageText = [] → s.reasoningOpen = false →
      s.reasoningText = [] → s.reasoningId = none → At s .between
  | message : s.messageOpen = true → s.reasoningOpen = false →
      s.reasoningText = [] → s.reasoningId = none → At s (.message s.messageText)
  | reasoning (id : Text) : s.messageOpen = false → s.messageText = [] →
      s.reasoningOpen = true → s.reasoningId = some id → At s (.reasoning id s.reasoningText)

/-- What a state knows of open items. -/
def CommonStreamState.slots (s : CommonStreamState) : Bool × Text × Bool × Text × Option Text :=
  (s.messageOpen, s.messageText, s.reasoningOpen, s.reasoningText, s.reasoningId)

theorem CommonStreamState.At.congr {s s' : CommonStreamState} {phase : Phase} (h : s.At phase)
    (heq : s'.slots = s.slots) : s'.At phase := by
  simp only [slots, Prod.mk.injEq] at heq
  obtain ⟨hm, hmt, hr, hrt, hid⟩ := heq
  cases h with
  | between h₁ h₂ h₃ h₄ h₅ =>
    exact .between (hm.trans h₁) (hmt.trans h₂) (hr.trans h₃) (hrt.trans h₄) (hid.trans h₅)
  | message h₁ h₂ h₃ h₄ =>
    rw [← hmt]
    exact .message (hm.trans h₁) (hr.trans h₂) (hrt.trans h₃) (hid.trans h₄)
  | reasoning id h₁ h₂ h₃ h₄ =>
    rw [← hrt]
    exact .reasoning id (hm.trans h₁) (hmt.trans h₂) (hr.trans h₃) (hid.trans h₄)

theorem CommonStreamState.At.ne_finished {s : CommonStreamState} {phase : Phase}
    (h : s.At phase) : phase ≠ .finished := by
  cases h <;> nofun

/-- The events so far are bracketed, and the state knows what is open. -/
def Sound (s : CommonStreamState) : Prop := ∃ phase, phaseOf s.sent = some phase ∧ s.At phase

/-- The events can no longer become bracketed: they are not, or reasoning is open that the state
has forgotten. -/
def Broken (s : CommonStreamState) : Prop :=
  phaseOf s.sent = none ∨
    ∃ id text, phaseOf s.sent = some (.reasoning id text) ∧ s.messageOpen = false ∧
      s.reasoningOpen = false ∧ s.reasoningText = []

/-- A change of other fields than those of the items. -/
theorem Sound.congr {s s' : CommonStreamState} (hs : Sound s) (hslots : s'.slots = s.slots)
    (hsent : s'.sent = s.sent) : Sound s' := by
  obtain ⟨phase, hphase, hat⟩ := hs
  exact ⟨phase, hsent ▸ hphase, hat.congr hslots⟩

theorem Broken.congr {s s' : CommonStreamState} (hs : Broken s) (hslots : s'.slots = s.slots)
    (hsent : s'.sent = s.sent) : Broken s' := by
  simp only [CommonStreamState.slots, Prod.mk.injEq] at hslots
  obtain ⟨hm, -, hr, hrt, -⟩ := hslots
  simpa only [Broken, hsent, hm, hr, hrt] using hs

/-- What becomes of a bracketed state, if `ok` says whether it stays bracketed. -/
structure Judged (ok : Prop) (s : CommonStreamState) : Prop where
  sound : ok → Sound s
  broken : ¬ ok → Broken s

/-- Reasoning that is open is more than white space. -/
def Speaks (s : CommonStreamState) : Prop := s.reasoningOpen = true → trim s.reasoningText ≠ []

instance (s : CommonStreamState) : Decidable (Speaks s) :=
  inferInstanceAs (Decidable (s.reasoningOpen = true → trim s.reasoningText ≠ []))

section Calls

variable {serde : Serde} {uuid : Nat → Text} {s : CommonStreamState}

/-! ## Calls that close -/

theorem emitCommonReasoningDone_of_blank (h : trim s.reasoningText = []) :
    emitCommonReasoningDone uuid s =
      { s with reasoningText := [], reasoningOpen := false, reasoningId := none } := by
  simp only [emitCommonReasoningDone, h, if_true]

theorem emitCommonReasoningDone_of_speaks {id : Text} (h : trim s.reasoningText ≠ [])
    (hid : s.reasoningId = some id) :
    emitCommonReasoningDone uuid s =
      CommonStreamState.send
        { s with reasoningText := [], reasoningOpen := false, reasoningId := none }
        (.outputItemDone (commonReasoningItemWithId id s.reasoningText)) := by
  simp only [emitCommonReasoningDone, h, if_false, hid]

theorem reasoningOpen_reasoningDone : (emitCommonReasoningDone uuid s).reasoningOpen = false := by
  simp only [emitCommonReasoningDone]
  split
  · rfl
  · split <;> rfl

theorem speaks_of_closed (h : s.reasoningOpen = false) : Speaks s :=
  fun hopen ↦ absurd (h.symm.trans hopen) Bool.false_ne_true

theorem judged_reasoningDone (hs : Sound s) :
    Judged (Speaks s) (emitCommonReasoningDone uuid s) := by
  obtain ⟨phase, hphase, hat⟩ := hs
  cases hat with
  | between hm hmt hr hrt hid =>
    rw [emitCommonReasoningDone_of_blank (by rw [hrt]; rfl)]
    exact ⟨fun _ ↦ ⟨.between, hphase, .between hm hmt rfl rfl rfl⟩,
      fun hspeaks ↦ absurd (speaks_of_closed hr) hspeaks⟩
  | message hm hr hrt hid =>
    rw [emitCommonReasoningDone_of_blank (by rw [hrt]; rfl)]
    exact ⟨fun _ ↦ ⟨.message s.messageText, hphase, .message hm rfl rfl rfl⟩,
      fun hspeaks ↦ absurd (speaks_of_closed hr) hspeaks⟩
  | reasoning id hm hmt hr hid =>
    by_cases hblank : trim s.reasoningText = []
    · rw [emitCommonReasoningDone_of_blank hblank]
      exact ⟨fun hspeaks ↦ absurd hblank (hspeaks hr),
        fun _ ↦ .inr ⟨id, s.reasoningText, hphase, hm, rfl, rfl⟩⟩
    · rw [emitCommonReasoningDone_of_speaks hblank hid]
      refine ⟨fun _ ↦ ⟨.between, ?_, .between hm hmt rfl rfl rfl⟩,
        fun hspeaks ↦ absurd (fun _ ↦ hblank) hspeaks⟩
      rw [phaseOf_send]
      change (phaseOf s.sent).bind _ = _
      simp [hphase, Phase.next, commonReasoningItemWithId]

theorem messageOpen_messageDone : (emitCommonMessageDone s).messageOpen = false := by
  unfold emitCommonMessageDone
  split
  · rfl
  · rename_i h
    exact Bool.eq_false_iff.mpr h

theorem reasoningOpen_messageDone :
    (emitCommonMessageDone s).reasoningOpen = s.reasoningOpen := by
  unfold emitCommonMessageDone
  split <;> rfl

theorem sound_messageDone (hs : Sound s) : Sound (emitCommonMessageDone s) := by
  obtain ⟨phase, hphase, hat⟩ := hs
  unfold emitCommonMessageDone
  cases hat with
  | between hm hmt hr hrt hid =>
    rw [if_neg (hm ▸ Bool.false_ne_true)]
    exact ⟨.between, hphase, .between hm hmt hr hrt hid⟩
  | message hm hr hrt hid =>
    rw [if_pos hm]
    refine ⟨.between, ?_, .between rfl rfl hr hrt hid⟩
    rw [phaseOf_send]
    change (phaseOf s.sent).bind _ = _
    simp [hphase, Phase.next, assistantMessage]
  | reasoning id hm hmt hr hid =>
    rw [if_neg (hm ▸ Bool.false_ne_true)]
    exact ⟨.reasoning id s.reasoningText, hphase, .reasoning id hm hmt hr hid⟩

/-! ## Calls that open or grow -/

theorem sound_textDelta (hs : Sound s) (hclosed : s.reasoningOpen = false) (delta : Text) :
    Sound (emitCommonTextDelta s delta) := by
  unfold emitCommonTextDelta
  split
  · exact hs
  · obtain ⟨phase, hphase, hat⟩ := hs
    cases hat with
    | between hm hmt hr hrt hid =>
      rw [if_neg (hm ▸ Bool.false_ne_true)]
      refine ⟨.message (s.messageText ++ delta), ?_, .message rfl hr hrt hid⟩
      rw [phaseOf_send]
      change (phaseOf (s.send _).sent).bind _ = _
      simp [hphase, Phase.next, assistantMessage, hmt]
    | message hm hr hrt hid =>
      rw [if_pos hm]
      refine ⟨.message (s.messageText ++ delta), ?_, .message hm hr hrt hid⟩
      rw [phaseOf_send]
      change (phaseOf s.sent).bind _ = _
      simp [hphase, Phase.next]
    | reasoning id hm hmt hr hid => exact absurd (hclosed.symm.trans hr) Bool.false_ne_true

/-- Reasoning opens an item, or grows in the one that is open. -/
theorem judged_reasoningDelta (hs : Sound s) (delta : Text) :
    Judged (delta ≠ [] → s.messageOpen = false) (emitCommonReasoningDelta uuid s delta) := by
  unfold emitCommonReasoningDelta
  split
  · rename_i hdelta
    exact ⟨fun _ ↦ hs, fun hok ↦ absurd (fun h ↦ absurd hdelta h) hok⟩
  · rename_i hdelta
    obtain ⟨phase, hphase, hat⟩ := hs
    cases hat with
    | between hm hmt hr hrt hid =>
      rw [if_neg (hr ▸ Bool.false_ne_true), hid]
      refine ⟨fun _ ↦ ⟨.reasoning _ (s.reasoningText ++ delta), ?_, .reasoning _ hm hmt rfl rfl⟩,
        fun hok ↦ absurd (fun _ ↦ hm) hok⟩
      rw [phaseOf_send]
      change (phaseOf (s.send _).sent).bind _ = _
      simp [hphase, Phase.next, commonReasoningItemWithId, hrt]
    | message hm hr hrt hid =>
      rw [if_neg (hr ▸ Bool.false_ne_true), hid]
      refine ⟨fun hok ↦ absurd ((hok hdelta).symm.trans hm) Bool.false_ne_true, fun _ ↦ .inl ?_⟩
      rw [phaseOf_send]
      change (phaseOf (s.send _).sent).bind _ = _
      simp [hphase, Phase.next, commonReasoningItemWithId]
    | reasoning id hm hmt hr hid =>
      rw [if_pos hr]
      refine ⟨fun _ ↦ ⟨.reasoning id (s.reasoningText ++ delta), ?_, .reasoning id hm hmt hr hid⟩,
        fun hok ↦ absurd (fun _ ↦ hm) hok⟩
      rw [phaseOf_send]
      change (phaseOf s.sent).bind _ = _
      simp [hphase, Phase.next]

/-! ## Nothing mends broken events -/

theorem none_of_send {event : ResponseEvent} (h : phaseOf s.sent = none) :
    phaseOf (s.send event).sent = none := by
  rw [phaseOf_send, h]
  rfl

theorem broken_reasoningDone (hs : Broken s) : Broken (emitCommonReasoningDone uuid s) := by
  obtain hnone | ⟨id, text, hphase, hm, hr, hrt⟩ := hs
  · left
    simp only [emitCommonReasoningDone]
    split
    · exact hnone
    · split <;> exact none_of_send hnone
  · rw [emitCommonReasoningDone_of_blank (by rw [hrt]; rfl)]
    exact .inr ⟨id, text, hphase, hm, rfl, rfl⟩

theorem broken_messageDone (hs : Broken s) : Broken (emitCommonMessageDone s) := by
  obtain hnone | ⟨id, text, hphase, hm, hr, hrt⟩ := hs
  · left
    unfold emitCommonMessageDone
    split
    · exact none_of_send hnone
    · exact hnone
  · rw [emitCommonMessageDone, if_neg (hm ▸ Bool.false_ne_true)]
    exact .inr ⟨id, text, hphase, hm, hr, hrt⟩

theorem broken_textDelta (hs : Broken s) (delta : Text) : Broken (emitCommonTextDelta s delta) := by
  unfold emitCommonTextDelta
  split
  · exact hs
  · left
    obtain hnone | ⟨id, text, hphase, hm, hr, hrt⟩ := hs
    · apply none_of_send
      change phaseOf (if s.messageOpen then s else _).sent = none
      split
      · exact hnone
      · exact none_of_send hnone
    · apply none_of_send
      rw [if_neg (hm ▸ Bool.false_ne_true)]
      change phaseOf (s.send _).sent = none
      rw [phaseOf_send, hphase]
      rfl

theorem broken_reasoningDelta (hs : Broken s) (delta : Text) :
    Broken (emitCommonReasoningDelta uuid s delta) := by
  unfold emitCommonReasoningDelta
  split
  · exact hs
  · left
    apply none_of_send
    change phaseOf (if s.reasoningOpen then s else _).sent = none
    obtain hnone | ⟨id, text, hphase, hm, hr, hrt⟩ := hs
    · split
      · exact hnone
      · split <;> exact none_of_send hnone
    · rw [if_neg (hr ▸ Bool.false_ne_true)]
      split <;>
      · change phaseOf (s.send _).sent = none
        rw [phaseOf_send, hphase]
        rfl

/-! ## Segments -/

/-- What a segment asks of the state before it: text ends reasoning. -/
def SegmentOrderly (s : CommonStreamState) : CommonThinkSegment → Prop
  | .text _ => Speaks s
  | .reasoning _ => True

instance (s : CommonStreamState) (segment : CommonThinkSegment) :
    Decidable (SegmentOrderly s segment) :=
  match segment with
  | .text _ => inferInstanceAs (Decidable (Speaks s))
  | .reasoning _ => inferInstanceAs (Decidable True)

theorem judged_segment (hs : Sound s) (segment : CommonThinkSegment) :
    Judged (SegmentOrderly s segment) (emitCommonContentSegment uuid s segment) := by
  cases segment with
  | text text =>
    have hdone : Judged (Speaks s) (emitCommonReasoningDone uuid s) := judged_reasoningDone hs
    exact ⟨fun hok ↦ sound_textDelta (hdone.sound hok) reasoningOpen_reasoningDone text,
      fun hok ↦ broken_textDelta (hdone.broken hok) text⟩
  | reasoning text =>
    have hdelta : Judged _ (emitCommonReasoningDelta uuid (emitCommonMessageDone s) text) :=
      judged_reasoningDelta (sound_messageDone hs) text
    exact ⟨fun _ ↦ hdelta.sound fun _ ↦ messageOpen_messageDone, fun hok ↦ absurd trivial hok⟩

theorem broken_segment (hs : Broken s) (segment : CommonThinkSegment) :
    Broken (emitCommonContentSegment uuid s segment) := by
  cases segment with
  | text text => exact broken_textDelta (broken_reasoningDone hs) text
  | reasoning text => exact broken_reasoningDelta (broken_messageDone hs) text

/-- The segments of a content find reasoning that is more than white space wherever they end
it. -/
def SegmentsOrderly (uuid : Nat → Text) : CommonStreamState → List CommonThinkSegment → Prop :=
  Allowed (emitCommonContentSegment uuid) SegmentOrderly

instance : Decidable (SegmentsOrderly uuid s segments) :=
  inferInstanceAs (Decidable (Allowed (emitCommonContentSegment uuid) SegmentOrderly s segments))

theorem judged_segments (hs : Sound s) (segments : List CommonThinkSegment) :
    Judged (SegmentsOrderly uuid s segments) (emitCommonContentSegments uuid s segments) := by
  have hkeep : ∀ s segment, Sound s → SegmentOrderly s segment →
      Sound (emitCommonContentSegment uuid s segment) :=
    fun s segment hs ↦ (judged_segment hs segment).sound
  refine ⟨foldl_of_allowed hkeep hs, foldl_of_not_allowed hkeep ?_ ?_ hs⟩
  · exact fun s segment hs ↦ (judged_segment hs segment).broken
  · exact fun s segment hs ↦ broken_segment hs segment

theorem broken_segments (hs : Broken s) (segments : List CommonThinkSegment) :
    Broken (emitCommonContentSegments uuid s segments) :=
  List.foldlRecOn segments _ hs fun _ ht segment _ ↦ broken_segment ht segment

/-! ## Tool calls and the end -/

theorem emitCommonToolCall_eq (serde : Serde) (uuid : Nat → Text) (s : CommonStreamState)
    (entry : Nat × CommonToolCallState) :
    ∃ generated metadata name arguments callId, emitCommonToolCall serde uuid s entry =
      { s with
        generated
        sent := s.sent ++ [.outputItemDone (.functionCall metadata name arguments callId)] } := by
  simp only [emitCommonToolCall]
  split <;> exact ⟨_, _, _, _, _, rfl⟩

theorem phaseOf_functionCall {events : List ResponseEvent} {phase : Phase}
    {metadata : Option Value} {name arguments callId : Text} (h : phaseOf events = some phase)
    (hphase : phase ≠ .finished) :
    phaseOf (events ++ [.outputItemDone (.functionCall metadata name arguments callId)]) =
      some phase := by
  rw [phaseOf_append, h]
  cases phase with
  | finished => exact absurd rfl hphase
  | between | message | reasoning => rfl

theorem sound_toolCall (hs : Sound s) (entry : Nat × CommonToolCallState) :
    Sound (emitCommonToolCall serde uuid s entry) := by
  obtain ⟨generated, metadata, name, arguments, callId, heq⟩ :=
    emitCommonToolCall_eq serde uuid s entry
  obtain ⟨phase, hphase, hat⟩ := hs
  rw [heq]
  exact ⟨phase, phaseOf_functionCall hphase hat.ne_finished, hat.congr rfl⟩

theorem broken_toolCall (hs : Broken s) (entry : Nat × CommonToolCallState) :
    Broken (emitCommonToolCall serde uuid s entry) := by
  obtain ⟨generated, metadata, name, arguments, callId, heq⟩ :=
    emitCommonToolCall_eq serde uuid s entry
  rw [heq]
  obtain hnone | ⟨id, text, hphase, hrest⟩ := hs
  · left
    rw [phaseOf_append, hnone]
    rfl
  · exact .inr ⟨id, text, phaseOf_functionCall hphase nofun, hrest⟩

theorem sound_toolCalls (hs : Sound s) : Sound (emitCommonToolCalls serde uuid s) := by
  unfold emitCommonToolCalls
  split
  · exact hs
  · have hstart : Sound { s with toolCalls := .empty } := hs.congr rfl rfl
    have hloop := List.foldlRecOn s.toolCalls.entries (emitCommonToolCall serde uuid) hstart
      fun t ht entry _ ↦ sound_toolCall ht entry
    exact hloop.congr rfl rfl

theorem broken_toolCalls (hs : Broken s) : Broken (emitCommonToolCalls serde uuid s) := by
  unfold emitCommonToolCalls
  split
  · exact hs
  · have hstart : Broken { s with toolCalls := .empty } := hs.congr rfl rfl
    have hloop := List.foldlRecOn s.toolCalls.entries (emitCommonToolCall serde uuid) hstart
      fun t ht entry _ ↦ broken_toolCall ht entry
    exact hloop.congr rfl rfl

theorem slots_foldl_toolCall (entries : List (Nat × CommonToolCallState)) :
    (entries.foldl (emitCommonToolCall serde uuid) s).slots = s.slots := by
  induction entries generalizing s with
  | nil => rfl
  | cons entry rest ih =>
    obtain ⟨_, _, _, _, _, heq⟩ := emitCommonToolCall_eq serde uuid s entry
    rw [List.foldl_cons, ih, heq]
    rfl

theorem slots_toolCalls : (emitCommonToolCalls serde uuid s).slots = s.slots := by
  unfold emitCommonToolCalls
  split
  · rfl
  · have hstart : CommonStreamState.slots { s with toolCalls := .empty } = s.slots := rfl
    exact (slots_foldl_toolCall s.toolCalls.entries).trans hstart

theorem phaseOf_sendCompleted :
    phaseOf (sendCompleted uuid s).sent = if phaseOf s.sent = some .between then some .finished
      else none := by
  have hnext : ∀ responseId usage, phaseOf (s.send (.completed responseId usage)).sent =
      if phaseOf s.sent = some .between then some .finished else none := by
    intro responseId usage
    rw [phaseOf_send]
    rcases phaseOf s.sent with _ | (_ | _ | _ | _) <;> rfl
  unfold sendCompleted
  split <;> exact hnext _ _

/-! ## Runs -/

/-- What a call asks of the state before it, for the events to stay bracketed. -/
def Step.Orderly (uuid : Nat → Text) (s : CommonStreamState) : Step → Prop
  | .reasoningDelta delta => delta ≠ [] → s.messageOpen = false
  | .reasoningDone => Speaks s
  | .contentDelta delta =>
    SegmentsOrderly uuid { s with thinkTagParser := (s.thinkTagParser.push delta).2 }
      (s.thinkTagParser.push delta).1
  | .contentDone =>
    SegmentsOrderly uuid { s with thinkTagParser := s.thinkTagParser.finish.2 }
      s.thinkTagParser.finish.1
  | _ => True

instance (step : Step) : Decidable (step.Orderly uuid s) :=
  match step with
  | .reasoningDelta delta =>
    inferInstanceAs (Decidable (delta ≠ [] → s.messageOpen = false))
  | .reasoningDone => inferInstanceAs (Decidable (Speaks s))
  | .contentDelta _ | .contentDone => inferInstanceAs (Decidable (SegmentsOrderly ..))
  | .header _ | .messageDone | .fragments _ | .finishReason | .toolCalls =>
    inferInstanceAs (Decidable True)

/-- A call keeps the events bracketed exactly if it is in order. -/
theorem judged_step (hs : Sound s) (step : Step) :
    Judged (step.Orderly uuid s) (step.perform serde uuid s) := by
  cases step with
  | reasoningDelta delta => exact judged_reasoningDelta hs delta
  | reasoningDone => exact judged_reasoningDone hs
  | contentDelta delta =>
    have hstart : Sound { s with thinkTagParser := (s.thinkTagParser.push delta).2 } :=
      hs.congr rfl rfl
    exact judged_segments hstart _
  | contentDone =>
    have hstart : Sound { s with thinkTagParser := s.thinkTagParser.finish.2 } :=
      hs.congr rfl rfl
    exact judged_segments hstart _
  | messageDone => exact ⟨fun _ ↦ sound_messageDone hs, fun h ↦ absurd trivial h⟩
  | toolCalls => exact ⟨fun _ ↦ sound_toolCalls hs, fun h ↦ absurd trivial h⟩
  | header | fragments | finishReason =>
    exact ⟨fun _ ↦ hs.congr rfl rfl, fun h ↦ absurd trivial h⟩

theorem broken_step (hs : Broken s) (step : Step) : Broken (step.perform serde uuid s) := by
  cases step with
  | reasoningDelta delta => exact broken_reasoningDelta hs delta
  | reasoningDone => exact broken_reasoningDone hs
  | contentDelta delta =>
    have hstart : Broken { s with thinkTagParser := (s.thinkTagParser.push delta).2 } :=
      hs.congr rfl rfl
    exact broken_segments hstart _
  | contentDone =>
    have hstart : Broken { s with thinkTagParser := s.thinkTagParser.finish.2 } :=
      hs.congr rfl rfl
    exact broken_segments hstart _
  | messageDone => exact broken_messageDone hs
  | toolCalls => exact broken_toolCalls hs
  | header | fragments | finishReason => exact hs.congr rfl rfl

theorem judged_steps (hs : Sound s) (steps : List Step) :
    Judged (Allowed (Step.perform serde uuid) (Step.Orderly uuid) s steps)
      (steps.foldl (Step.perform serde uuid) s) := by
  have hkeep : ∀ s step, Sound s → Step.Orderly uuid s step →
      Sound (Step.perform serde uuid s step) :=
    fun s step hs ↦ (judged_step hs step).sound
  refine ⟨foldl_of_allowed hkeep hs, foldl_of_not_allowed hkeep ?_ ?_ hs⟩
  · exact fun s step hs ↦ (judged_step hs step).broken
  · exact fun s step hs ↦ broken_step hs step

/-- A completion leaves no item open. -/
theorem closed_completion (serde : Serde) (uuid : Nat → Text) (s : CommonStreamState) :
    (completionSteps.foldl (Step.perform serde uuid) s).messageOpen = false ∧
      (completionSteps.foldl (Step.perform serde uuid) s).reasoningOpen = false := by
  have hslots : (emitCommonToolCalls serde uuid (emitCommonMessageDone
      (emitCommonReasoningDone uuid (emitCommonContentDone uuid s)))).slots = _ := slots_toolCalls
  simp only [CommonStreamState.slots, Prod.mk.injEq] at hslots
  obtain ⟨hm, -, hr, -⟩ := hslots
  refine ⟨hm.trans messageOpen_messageDone, hr.trans ?_⟩
  rw [reasoningOpen_messageDone, reasoningOpen_reasoningDone]

theorem well_bracketed_sendCompleted (hs : Sound s) (hm : s.messageOpen = false)
    (hr : s.reasoningOpen = false) : WellBracketed (sendCompleted uuid s).sent := by
  obtain ⟨phase, hphase, hat⟩ := hs
  rw [WellBracketed, phaseOf_sendCompleted]
  cases hat with
  | between => rw [if_pos hphase]
  | message hopen => exact absurd (hm.symm.trans hopen) Bool.false_ne_true
  | reasoning id _ _ hopen => exact absurd (hr.symm.trans hopen) Bool.false_ne_true

theorem not_well_bracketed_sendCompleted (hs : Broken s) :
    ¬ WellBracketed (sendCompleted uuid s).sent := by
  rw [WellBracketed, phaseOf_sendCompleted]
  obtain hnone | ⟨id, text, hphase, -⟩ := hs
  · rw [hnone]
    nofun
  · rw [hphase]
    nofun

end Calls

/-- Every call of a stream is in order: reasoning that ends is more than white space, and a field
of reasoning comes when no message is open. -/
def Orderly (serde : Serde) (uuid : Nat → Text) (policy : CommonThinkingPolicy)
    (arrivals : List Arrival) : Prop :=
  Allowed (Step.perform serde uuid) (Step.Orderly uuid) .initial
    (arrivals.flatMap (Arrival.steps serde policy) ++ completionSteps)

instance (serde : Serde) (uuid : Nat → Text) (policy : CommonThinkingPolicy)
    (arrivals : List Arrival) : Decidable (Orderly serde uuid policy arrivals) :=
  inferInstanceAs (Decidable (Allowed (Step.perform serde uuid) (Step.Orderly uuid) .initial _))

theorem sound_initial : Sound .initial := ⟨.between, rfl, .between rfl rfl rfl rfl rfl⟩

/-- The events of a stream that completes are well bracketed exactly if every call is in order. -/
theorem well_bracketed_iff (serde : Serde) (uuid : Nat → Text) (policy : CommonThinkingPolicy)
    (arrivals : List Arrival) (s : CommonStreamState)
    (h : processCommonSse serde uuid policy .initial arrivals = some s) :
    WellBracketed s.sent ↔ Orderly serde uuid policy arrivals := by
  have hrun := run_steps h
  rw [emitCommonCompletion_eq, ← List.foldl_append] at hrun
  have hjudged : Judged (Orderly serde uuid policy arrivals) _ := judged_steps sound_initial _
  rw [hrun]
  constructor
  · intro hbracketed
    by_contra horderly
    exact not_well_bracketed_sendCompleted (hjudged.broken horderly) hbracketed
  · intro horderly
    have hclosed := closed_completion serde uuid
      ((arrivals.flatMap (Arrival.steps serde policy)).foldl (Step.perform serde uuid) .initial)
    rw [← List.foldl_append] at hclosed
    exact well_bracketed_sendCompleted (hjudged.sound horderly) hclosed.1 hclosed.2

/-! ## Streams in and out of order -/

instance (events : List ResponseEvent) : Decidable (WellBracketed events) :=
  inferInstanceAs (Decidable (phaseOf events = some .finished))

/-- A payload with one choice. -/
def deltaArrival (delta : Map) : Arrival :=
  .payload (.chunk (.object [("choices", .array [.object [("delta", .object delta)]])]))

/-- A stream of the default format, from its beginning. -/
def openaiStream (arrivals : List Arrival) : Option CommonStreamState :=
  processCommonSse noSerde unaryIds (.fromFormat .openai) .initial arrivals

/-- Text with think tags, and reasoning in a field before it. -/
def orderlyArrivals : List Arrival :=
  [deltaArrival [("reasoning_content", .string "why".toList)],
    deltaArrival [("content", .string "so<think>hm</think>and so".toList)], .payload .done]

/-- Events in order, for a stream whose calls are. -/
theorem well_bracketed_iff_orderly :
    ∃ s, openaiStream orderlyArrivals = some s ∧ WellBracketed s.sent := by
  obtain ⟨s, hs⟩ := Option.isSome_iff_exists.mp
    (show (openaiStream orderlyArrivals).isSome = true by decide +kernel)
  exact ⟨s, hs, (well_bracketed_iff _ _ _ _ s hs).mpr (by decide +kernel)⟩

/-- Reasoning of a space is added and never done; and a field of reasoning is added while a message
is open. -/
theorem stream_breaks_brackets :
    (∃ s, openaiStream [deltaArrival [("reasoning_content", .string [' '])], .payload .done] =
      some s ∧ ¬ WellBracketed s.sent) ∧
    ∃ s, openaiStream [deltaArrival [("content", .string (List.replicate 200 'a'))],
      deltaArrival [("reasoning_content", .string "why".toList)], .payload .done] = some s ∧
      ¬ WellBracketed s.sent := by
  have hbad : ∀ {stream : Option CommonStreamState},
      stream.any (fun s ↦ !decide (WellBracketed s.sent)) = true →
      ∃ s, stream = some s ∧ ¬ WellBracketed s.sent := by
    intro stream h
    cases stream with
    | none => cases h
    | some s => exact ⟨s, rfl, by simpa using h⟩
  exact ⟨hbad (by decide +kernel), hbad (by decide +kernel)⟩

end Praxis.Wire
