import Praxis.Foundation.OrderedMap
import Praxis.Wire.Items

/-!
# The stream of a chat-completions provider

A provider streams an answer as payloads, each with fragments of reasoning, of text and of tool
calls (`streaming/common.rs`).  The handler turns them into events: an item is opened by its first
fragment, grows with every further one, and is closed when something else begins or the answer
ends.

Every handler makes some of the same few calls, in an order that depends on the payload alone.  A
call is a `Step`; a payload is the list of its steps (`processChoice_eq`, `process_eq_steps`), and
so is a stream, up to the event that completes the answer (`run_steps`).
-/

namespace Praxis.Wire

open Foundation

/-! ## Policies -/

/-- `ModelProviderThinkingFormat`. -/
inductive ModelProviderThinkingFormat where
  | openai
  | openrouter
  | deepseek
  | kimi
  | gemini
  | zai
  | qwen
  | qwenChatTemplate
  | chatTemplateKwargs
  deriving DecidableEq

/-- `CommonThinkingPolicy`, without the style of requests. -/
structure CommonThinkingPolicy where
  replayField : Option String
  responseFields : List String
  completeOnMessageIdle : Bool
  completeOnFinishReason : Bool

/-- `CommonThinkingPolicy::from_format`. -/
def CommonThinkingPolicy.fromFormat : ModelProviderThinkingFormat → CommonThinkingPolicy
  | .openrouter => ⟨none, ["reasoning", "reasoning_content"], false, false⟩
  | .deepseek => ⟨none, ["reasoning_content", "reasoning"], true, true⟩
  | .openai | .kimi | .gemini | .zai | .qwen | .qwenChatTemplate | .chatTemplateKwargs =>
    ⟨some "reasoning_content", ["reasoning_content", "reasoning"], false, false⟩

/-! ## Tool calls -/

/-- `CommonToolCallState`. -/
structure CommonToolCallState where
  callId : Option Text
  name : Option Text
  arguments : Text
  providerMetadata : Option Value

/-- `Default for CommonToolCallState`. -/
def CommonToolCallState.initial : CommonToolCallState := ⟨none, none, [], none⟩

/-- `extract_common_tool_call_provider_metadata`. -/
def extractCommonToolCallProviderMetadata (toolCall : Value) : Option Value :=
  match toolCall with
  | .object root =>
    let metadata := root.filter fun field ↦ field.1 ∉ ["id", "type", "function", "index"]
    let metadata :=
      match Map.get root "function" with
      | some (.object function) =>
        let functionMetadata := function.filter fun field ↦ field.1 ∉ ["name", "arguments"]
        if functionMetadata.isEmpty then metadata
        else Map.insert metadata "function" (.object functionMetadata)
      | _ => metadata
    if metadata.isEmpty then none else some (.object metadata)
  | _ => none

/-- `merge_common_tool_call_state_provider_metadata`. -/
def mergeCommonToolCallStateProviderMetadata (slot metadata : Option Value) : Option Value :=
  match slot, metadata with
  | slot, none => slot
  | some (.object existing), some (.object update) =>
    some (.object (update.foldl (fun map field ↦ Map.insert map field.1 field.2) existing))
  | _, some metadata => some metadata

/-- A fragment joins what is known of its call. -/
def CommonToolCallState.merge (entry : CommonToolCallState) (toolCall : Value) :
    CommonToolCallState where
  callId := (toolCall.word "id").or entry.callId
  name := ((toolCall.get "function").bind (·.word "name")).or entry.name
  arguments := entry.arguments ++ ((toolCall.get "function").bind (·.str "arguments")).getD []
  providerMetadata := mergeCommonToolCallStateProviderMetadata entry.providerMetadata
    (extractCommonToolCallProviderMetadata toolCall)

/-- The index of a fragment, which may be its place in the payload. -/
def fragmentIndex (fragment : Value × Nat) : Nat :=
  ((fragment.1.get "index").bind Value.asU64).getD fragment.2

/-- `entry(index).or_default()`, with the fragment joined. -/
def collectFragment (toolCalls : OrderedMap Nat CommonToolCallState) (fragment : Value × Nat) :
    OrderedMap Nat CommonToolCallState :=
  let index := fragmentIndex fragment
  toolCalls.insert index (((toolCalls.get? index).getD .initial).merge fragment.1)

section Streams

variable (serde : Serde)

/-- `infer_common_tool_call_name_from_arguments`. -/
def inferCommonToolCallNameFromArguments (arguments : Text) : Option String := do
  let map ← (← serde.fromStr arguments).asObject
  if Map.containsKey map "task_name" && Map.containsKey map "message" then some "spawn_agent"
  else if Map.containsKey map "timeout_ms" && map.length = 1 then some "wait_agent"
  else if Map.containsKey map "path_prefix" then some "list_agents"
  else if Map.containsKey map "target" && Map.containsKey map "message" then some "send_message"
  else if Map.containsKey map "target" && Map.containsKey map "objective" then some "assign_task"
  else none

/-- `normalize_common_tool_call_name`. -/
def normalizeCommonToolCallName (name : Option Text) (arguments : Text) : Option Text :=
  ((name.map trim).filter (!·.isEmpty)).or
    ((inferCommonToolCallNameFromArguments serde arguments).map String.toList)

/-- `extract_common_stream_delta_text`. -/
def extractCommonStreamDeltaText : Option Value → Option Text
  | none | some .null => none
  | some (.string text) => some text
  | some (.array parts) =>
    some (parts.filterMap fun part ↦
      if part.str "type" = some "text".toList ∨ part.str "type" = some "output_text".toList
      then part.str "text" else none).flatten
  | some content => some (serde.toString content)

/-- `extract_common_reasoning_delta`. -/
def extractCommonReasoningDelta (policy : CommonThinkingPolicy) (delta : Value) : Option Text :=
  policy.responseFields.findSome? fun key ↦ extractCommonStreamDeltaText serde (delta.get key)

/-! ## The state of a stream -/

/-- `CommonStreamState`, with the events that have been sent and the number of identifiers that
have been generated.  The two instants only say when a wait ends, and are left out. -/
structure CommonStreamState where
  responseId : Option Text
  reasoningText : Text
  reasoningOpen : Bool
  reasoningId : Option Text
  messageText : Text
  messageOpen : Bool
  thinkTagParser : CommonThinkTagStreamState
  toolCalls : OrderedMap Nat CommonToolCallState
  toolCallsEmitted : Bool
  tokenUsage : Option TokenUsage
  sawFinishReason : Bool
  sent : List ResponseEvent
  generated : Nat

/-- The state in which a stream begins: `Created` has been sent. -/
def CommonStreamState.initial : CommonStreamState :=
  ⟨none, [], false, none, [], false, .initial, .empty, false, none, false, [.created], 0⟩

/-- `send_stream_event`. -/
def CommonStreamState.send (s : CommonStreamState) (event : ResponseEvent) : CommonStreamState :=
  { s with sent := s.sent ++ [event] }

/-! ## Sending -/

/-- `emit_common_text_delta`. -/
def emitCommonTextDelta (s : CommonStreamState) (delta : Text) : CommonStreamState :=
  if delta = [] then s
  else
    let s :=
      if s.messageOpen then s
      else { s.send (.outputItemAdded (assistantMessage [])) with messageOpen := true }
    { s with messageText := s.messageText ++ delta }.send (.outputTextDelta delta)

variable (uuid : Nat → Text)

/-- `emit_common_reasoning_delta`. -/
def emitCommonReasoningDelta (s : CommonStreamState) (delta : Text) : CommonStreamState :=
  if delta = [] then s
  else
    let s :=
      if s.reasoningOpen then s
      else
        match s.reasoningId with
        | some id =>
          { s.send (.outputItemAdded (commonReasoningItemWithId id [])) with
            reasoningOpen := true }
        | none =>
          let id := "common-reasoning-".toList ++ uuid s.generated
          { s.send (.outputItemAdded (commonReasoningItemWithId id [])) with
            reasoningId := some id, reasoningOpen := true, generated := s.generated + 1 }
    { s with reasoningText := s.reasoningText ++ delta }.send (.reasoningContentDelta delta 0)

/-- `emit_common_reasoning_done`. -/
def emitCommonReasoningDone (s : CommonStreamState) : CommonStreamState :=
  let text := s.reasoningText
  let s := { s with reasoningText := [], reasoningOpen := false }
  if trim text = [] then { s with reasoningId := none }
  else
    match s.reasoningId with
    | some id =>
      { s with reasoningId := none }.send (.outputItemDone (commonReasoningItemWithId id text))
    | none =>
      { s with generated := s.generated + 1 }.send (.outputItemDone
        (commonReasoningItemWithId ("common-reasoning-".toList ++ uuid s.generated) text))

/-- `emit_common_message_done`. -/
def emitCommonMessageDone (s : CommonStreamState) : CommonStreamState :=
  if s.messageOpen then
    { s with messageText := [], messageOpen := false }.send
      (.outputItemDone (assistantMessage s.messageText))
  else s

/-- One round of the loop of `emit_common_content_segments`. -/
def emitCommonContentSegment (s : CommonStreamState) :
    CommonThinkSegment → CommonStreamState
  | .text text => emitCommonTextDelta (emitCommonReasoningDone uuid s) text
  | .reasoning text => emitCommonReasoningDelta uuid (emitCommonMessageDone s) text

/-- `emit_common_content_segments`. -/
def emitCommonContentSegments (s : CommonStreamState) (segments : List CommonThinkSegment) :
    CommonStreamState :=
  segments.foldl (emitCommonContentSegment uuid) s

/-- `emit_common_content_delta`. -/
def emitCommonContentDelta (s : CommonStreamState) (delta : Text) : CommonStreamState :=
  let (segments, parser) := s.thinkTagParser.push delta
  emitCommonContentSegments uuid { s with thinkTagParser := parser } segments

/-- `emit_common_content_done`. -/
def emitCommonContentDone (s : CommonStreamState) : CommonStreamState :=
  let (segments, parser) := s.thinkTagParser.finish
  emitCommonContentSegments uuid { s with thinkTagParser := parser } segments

/-- One round of the loop of `emit_common_tool_calls`. -/
def emitCommonToolCall (s : CommonStreamState) (entry : Nat × CommonToolCallState) :
    CommonStreamState :=
  let (index, toolCall) := entry
  let arguments := if toolCall.arguments = [] then ['{', '}'] else toolCall.arguments
  let name := (normalizeCommonToolCallName serde toolCall.name arguments).getD
    ("tool_" ++ toString index).toList
  match toolCall.callId with
  | some callId =>
    s.send (.outputItemDone (.functionCall toolCall.providerMetadata name arguments callId))
  | none =>
    let callId := s!"common-tool-{index}-".toList ++ uuid s.generated
    { s with generated := s.generated + 1 }.send
      (.outputItemDone (.functionCall toolCall.providerMetadata name arguments callId))

/-- `emit_common_tool_calls`. -/
def emitCommonToolCalls (s : CommonStreamState) : CommonStreamState :=
  if s.toolCallsEmitted then s
  else
    let s' := s.toolCalls.entries.foldl (emitCommonToolCall serde uuid)
      { s with toolCalls := .empty }
    { s' with toolCallsEmitted := true }

/-- The last event of `emit_common_completion`. -/
def sendCompleted (s : CommonStreamState) : CommonStreamState :=
  match s.responseId with
  | some responseId => { s with tokenUsage := none }.send (.completed responseId s.tokenUsage)
  | none =>
    { s with tokenUsage := none, generated := s.generated + 1 }.send
      (.completed ("common-".toList ++ uuid s.generated) s.tokenUsage)

/-- `emit_common_completion`. -/
def emitCommonCompletion (s : CommonStreamState) : CommonStreamState :=
  sendCompleted uuid (emitCommonToolCalls serde uuid
    (emitCommonMessageDone (emitCommonReasoningDone uuid (emitCommonContentDone uuid s))))

/-! ## Payloads -/

variable (policy : CommonThinkingPolicy)

/-- The part of `process_common_stream_event` that reads the delta of a choice. -/
def processDelta (s : CommonStreamState) (delta : Value) : CommonStreamState :=
  let s :=
    match extractCommonReasoningDelta serde policy delta with
    | some reasoning => if reasoning = [] then s else emitCommonReasoningDelta uuid s reasoning
    | none => s
  let s :=
    match delta.list "tool_calls" with
    | some toolCalls =>
      let s := emitCommonReasoningDone uuid (emitCommonContentDone uuid s)
      let s := if s.messageOpen then emitCommonMessageDone s else s
      { s with toolCalls := toolCalls.zipIdx.foldl collectFragment s.toolCalls }
    | none => s
  match extractCommonStreamDeltaText serde (delta.get "content") with
  | some text => if text = [] then s else emitCommonContentDelta uuid s text
  | none => s

local instance lawfulReason : LawfulBEq Text := inferInstance

/-- The part of `process_common_stream_event` that reads the finish reason of a choice. -/
def processFinishReason (s : CommonStreamState) (reason : Text) : CommonStreamState :=
  let s := { s with sawFinishReason := true }
  if reason = "tool_calls".toList then
    emitCommonToolCalls serde uuid (emitCommonMessageDone (emitCommonContentDone uuid s))
  else if reason ∈ ["stop".toList, "length".toList, "content_filter".toList] then
    emitCommonMessageDone (emitCommonContentDone uuid s)
  else s

/-- One round of the loop of `process_common_stream_event`. -/
def processChoice (s : CommonStreamState) (choice : Value) : CommonStreamState :=
  let s :=
    match choice.get "delta" with
    | some delta => processDelta serde uuid policy s delta
    | none => s
  match choice.str "finish_reason" with
  | some reason => processFinishReason serde uuid s reason
  | none => s

/-- What a payload is read as: the text `[DONE]`, a value, or no JSON. -/
inductive Payload where
  | done
  | chunk (chunk : Value)
  | malformed

/-- The identifier and the usage that a chunk tells. -/
def readHeader (s : CommonStreamState) (chunk : Value) : CommonStreamState :=
  { s with
    responseId := (chunk.str "id").or s.responseId
    tokenUsage := ((commonUsageValue chunk).map parseCommonUsage).or s.tokenUsage }

/-- `process_common_stream_event`: the state behind the payload, and whether the answer is
complete.  It fails on a payload that is not JSON. -/
def processCommonStreamEvent (s : CommonStreamState) :
    Payload → Option (CommonStreamState × Bool)
  | .done => some (emitCommonCompletion serde uuid s, true)
  | .malformed => none
  | .chunk chunk =>
    let s := readHeader s chunk
    match chunk.list "choices" with
    | none => some (s, false)
    | some choices =>
      let s := choices.foldl (processChoice serde uuid policy) s
      if policy.completeOnFinishReason ∧
          choices.any (fun choice ↦ (choice.str "finish_reason").isSome) then
        some (emitCommonCompletion serde uuid s, true)
      else some (s, false)

/-! ## The whole stream -/

/-- `common_stream_produced_output`. -/
def commonStreamProducedOutput (s : CommonStreamState) : Bool :=
  !s.messageText.isEmpty || !s.reasoningText.isEmpty || !s.toolCalls.entries.isEmpty ||
    s.toolCallsEmitted

/-- `common_can_complete_on_message_idle`. -/
def commonCanCompleteOnMessageIdle (s : CommonStreamState) : Bool :=
  policy.completeOnMessageIdle && s.messageOpen && !s.messageText.isEmpty &&
    s.toolCalls.entries.isEmpty

/-- `common_can_complete_on_timeout`. -/
def commonCanCompleteOnTimeout (s : CommonStreamState) : Bool :=
  (s.sawFinishReason && commonStreamProducedOutput s) || commonCanCompleteOnMessageIdle policy s

/-- `common_can_complete_on_stream_close`. -/
def commonCanCompleteOnStreamClose (s : CommonStreamState) : Bool :=
  s.sawFinishReason && commonStreamProducedOutput s

/-- Whether there is a `common_completion_deadline`.  A message that is open has had its last
delta. -/
def hasCompletionDeadline (s : CommonStreamState) : Bool :=
  s.sawFinishReason || commonCanCompleteOnMessageIdle policy s

/-- What the loop of `process_common_sse` meets next: its deadline, a payload, the end of the
connection, an error of it, or the end of a wait. -/
inductive Arrival where
  | deadline
  | payload (payload : Payload)
  | closed
  | failed
  | timedOut

/-- One round of `process_common_sse`. -/
def processArrival (s : CommonStreamState) : Arrival → Option (CommonStreamState × Bool)
  | .deadline =>
    if hasCompletionDeadline policy s then some (emitCommonCompletion serde uuid s, true)
    else some (s, false)
  | .payload payload => processCommonStreamEvent serde uuid policy s payload
  | .closed =>
    if commonCanCompleteOnStreamClose s then some (emitCommonCompletion serde uuid s, true)
    else none
  | .failed => none
  | .timedOut =>
    if commonCanCompleteOnTimeout policy s then some (emitCommonCompletion serde uuid s, true)
    else none

/-- `process_common_sse` over arrivals of which the last one completes the answer. -/
def processCommonSse (s : CommonStreamState) : List Arrival → Option CommonStreamState
  | [] => none
  | arrival :: rest =>
    match processArrival serde uuid policy s arrival with
    | some (s, true) => if rest.isEmpty then some s else none
    | some (s, false) => processCommonSse s rest
    | none => none

/-! ## Steps -/

/-- A call that the handlers make. -/
inductive Step where
  | header (chunk : Value)
  | reasoningDelta (delta : Text)
  | contentDelta (delta : Text)
  | contentDone
  | reasoningDone
  | messageDone
  | fragments (toolCalls : List Value)
  | finishReason
  | toolCalls

/-- What a call does. -/
def Step.perform (s : CommonStreamState) : Step → CommonStreamState
  | .header chunk => readHeader s chunk
  | .reasoningDelta delta => emitCommonReasoningDelta uuid s delta
  | .contentDelta delta => emitCommonContentDelta uuid s delta
  | .contentDone => emitCommonContentDone uuid s
  | .reasoningDone => emitCommonReasoningDone uuid s
  | .messageDone => emitCommonMessageDone s
  | .fragments values =>
    { s with toolCalls := values.zipIdx.foldl collectFragment s.toolCalls }
  | .finishReason => { s with sawFinishReason := true }
  | .toolCalls => emitCommonToolCalls serde uuid s

/-- The call for a text that is there and not empty. -/
def textSteps (call : Text → Step) : Option Text → List Step
  | some text => if text = [] then [] else [call text]
  | none => []

/-- The calls for fragments of tool calls. -/
def fragmentSteps : Option (List Value) → List Step
  | some toolCalls => [.contentDone, .reasoningDone, .messageDone, .fragments toolCalls]
  | none => []

/-- The calls for the delta of a choice. -/
def deltaSteps (delta : Value) : List Step :=
  textSteps .reasoningDelta (extractCommonReasoningDelta serde policy delta) ++
    fragmentSteps (delta.list "tool_calls") ++
    textSteps .contentDelta (extractCommonStreamDeltaText serde (delta.get "content"))

/-- The calls for a finish reason. -/
def finishReasonSteps (reason : Text) : List Step :=
  .finishReason ::
    if reason = "tool_calls".toList then [.contentDone, .messageDone, .toolCalls]
    else if reason ∈ ["stop".toList, "length".toList, "content_filter".toList] then
      [.contentDone, .messageDone]
    else []

/-- The calls for a choice. -/
def choiceSteps (choice : Value) : List Step :=
  ((choice.get "delta").map (deltaSteps serde policy)).getD [] ++
    ((choice.str "finish_reason").map finishReasonSteps).getD []

/-- The calls before the event that completes the answer. -/
def completionSteps : List Step := [.contentDone, .reasoningDone, .messageDone, .toolCalls]

/-- The choices of a payload. -/
def Payload.choices : Payload → List Value
  | .chunk value => (value.list "choices").getD []
  | .done | .malformed => []

/-- The calls for a payload, apart from those that complete the answer. -/
def Payload.steps (payload : Payload) : List Step :=
  (match payload with
    | .chunk value => [.header value]
    | .done | .malformed => []) ++ payload.choices.flatMap (choiceSteps serde policy)

/-- The calls for what the loop meets, apart from those that complete the answer. -/
def Arrival.steps : Arrival → List Step
  | .payload p => p.steps serde policy
  | .deadline | .closed | .failed | .timedOut => []

variable {serde uuid policy}

theorem emitCommonMessageDone_of_open (s : CommonStreamState) :
    (if s.messageOpen then emitCommonMessageDone s else s) = emitCommonMessageDone s := by
  rw [emitCommonMessageDone]
  split <;> rfl

theorem processDelta_eq (s : CommonStreamState) (delta : Value) :
    processDelta serde uuid policy s delta =
      (deltaSteps serde policy delta).foldl (Step.perform serde uuid) s := by
  simp only [processDelta, deltaSteps, List.foldl_append, emitCommonMessageDone_of_open]
  cases extractCommonReasoningDelta serde policy delta <;>
    cases delta.list "tool_calls" <;>
    cases extractCommonStreamDeltaText serde (delta.get "content") <;>
    first | rfl | (simp only [textSteps]; split_ifs <;> rfl)

theorem processFinishReason_eq (s : CommonStreamState) (reason : Text) :
    processFinishReason serde uuid s reason =
      (finishReasonSteps reason).foldl (Step.perform serde uuid) s := by
  simp only [processFinishReason, finishReasonSteps, List.foldl_cons]
  split_ifs <;> rfl

/-- A choice is the calls that it stands for. -/
theorem processChoice_eq (s : CommonStreamState) (choice : Value) :
    processChoice serde uuid policy s choice =
      (choiceSteps serde policy choice).foldl (Step.perform serde uuid) s := by
  simp only [processChoice, choiceSteps, List.foldl_append]
  cases choice.get "delta" <;> cases choice.str "finish_reason" <;>
    simp only [Option.map_none, Option.map_some, Option.getD_none, Option.getD_some,
      List.foldl_nil, processDelta_eq, processFinishReason_eq]

theorem foldl_processChoice (s : CommonStreamState) (choices : List Value) :
    choices.foldl (processChoice serde uuid policy) s =
      (choices.flatMap (choiceSteps serde policy)).foldl (Step.perform serde uuid) s := by
  induction choices generalizing s with
  | nil => rfl
  | cons choice rest ih =>
    rw [List.foldl_cons, ih, processChoice_eq, List.flatMap_cons, List.foldl_append]

theorem emitCommonCompletion_eq (s : CommonStreamState) :
    emitCommonCompletion serde uuid s =
      sendCompleted uuid (completionSteps.foldl (Step.perform serde uuid) s) := rfl

/-- A payload is the calls that it stands for. -/
theorem process_eq_steps {s s' : CommonStreamState} {payload : Payload} {done : Bool}
    (h : processCommonStreamEvent serde uuid policy s payload = some (s', done)) :
    let behind := (payload.steps serde policy).foldl (Step.perform serde uuid) s
    s' = if done then emitCommonCompletion serde uuid behind else behind := by
  cases payload with
  | done =>
    obtain ⟨rfl, rfl⟩ := Prod.mk.inj (Option.some.inj h)
    rfl
  | malformed => cases h
  | chunk value =>
    simp only [processCommonStreamEvent] at h
    simp only [Payload.steps, Payload.choices, List.foldl_append, List.foldl_cons, List.foldl_nil]
    cases hchoices : value.list "choices" with
    | none =>
      rw [hchoices] at h
      obtain ⟨rfl, rfl⟩ := Prod.mk.inj (Option.some.inj h)
      rfl
    | some choices =>
      simp only [hchoices, foldl_processChoice] at h
      split at h <;> obtain ⟨rfl, rfl⟩ := Prod.mk.inj (Option.some.inj h) <;> rfl

theorem processArrival_eq_steps {s s' : CommonStreamState} {arrival : Arrival} {done : Bool}
    (h : processArrival serde uuid policy s arrival = some (s', done)) :
    let behind := (arrival.steps serde policy).foldl (Step.perform serde uuid) s
    s' = if done then emitCommonCompletion serde uuid behind else behind := by
  cases arrival with
  | payload p => exact process_eq_steps h
  | failed => cases h
  | deadline | closed | timedOut =>
    simp only [processArrival] at h
    split at h <;> cases h <;> rfl

/-- A stream that completes is its calls, and then its completion. -/
theorem run_steps {s s' : CommonStreamState} {arrivals : List Arrival}
    (h : processCommonSse serde uuid policy s arrivals = some s') :
    s' = emitCommonCompletion serde uuid
      ((arrivals.flatMap (Arrival.steps serde policy)).foldl (Step.perform serde uuid) s) := by
  induction arrivals generalizing s with
  | nil => cases h
  | cons arrival rest ih =>
    rw [processCommonSse] at h
    cases hround : processArrival serde uuid policy s arrival with
    | none => rw [hround] at h; cases h
    | some round =>
      obtain ⟨next, done⟩ := round
      have hnext := processArrival_eq_steps hround
      rw [hround] at h
      cases done with
      | true =>
        dsimp only at h
        split at h
        · rename_i hrest
          obtain rfl := List.isEmpty_iff.mp hrest
          obtain rfl := Option.some.inj h
          simpa using hnext
        · cases h
      | false =>
        rw [ih h, hnext, List.flatMap_cons, List.foldl_append]
        rfl

end Streams

end Praxis.Wire
