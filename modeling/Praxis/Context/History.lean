import Mathlib.Data.List.Basic
import Praxis.Protocol.Items

/-!
# The history of a conversation

`ContextManager` (`context_manager/history.rs`): the items that are sent to the
model.  An item is recorded, the whole is replaced by a compaction, and a rollback
drops the last user turns.

A user turn starts with a message of the user that is not context added by the
program, or with an instruction of another agent.  What counts as such context is
read from the text of a message (`contextual_user_message.rs`, `event_mapping.rs`).
-/

namespace Praxis.Context

open Foundation Protocol

/-! ## Texts -/

/-- `char::is_whitespace`: the property `White_Space` of Unicode. -/
def isWhitespace (c : Char) : Bool :=
  let code := c.toNat
  (0x9 ≤ code && code ≤ 0xd) || code == 0x20 || code == 0x85 || code == 0xa0 || code == 0x1680 ||
    (0x2000 ≤ code && code ≤ 0x200a) || code == 0x2028 || code == 0x2029 || code == 0x202f ||
    code == 0x205f || code == 0x3000

/-- `trim_start`. -/
def trimStart (text : List Char) : List Char := text.dropWhile isWhitespace

/-- `trim_end`. -/
def trimEnd (text : List Char) : List Char := (trimStart text.reverse).reverse

/-- `eq_ignore_ascii_case`. -/
def eqIgnoreAsciiCase (a b : List Char) : Bool := a.map Char.toLower == b.map Char.toLower

/-- The text starts with a marker.  A marker is ASCII, so that a slice that equals it is
one of as many characters. -/
def startsWithMarker (text : List Char) (marker : String) : Bool :=
  eqIgnoreAsciiCase (text.take marker.length) marker.toList

/-- The text ends with a marker. -/
def endsWithMarker (text : List Char) (marker : String) : Bool :=
  eqIgnoreAsciiCase (text.drop (text.length - marker.length)) marker.toList

/-- `ContextualUserFragmentDefinition`. -/
structure ContextualUserFragmentDefinition where
  startMarker : String
  endMarker : String

/-- `matches_text`. -/
def ContextualUserFragmentDefinition.matchesText (definition : ContextualUserFragmentDefinition)
    (text : List Char) : Bool :=
  let trimmed := trimStart text
  startsWithMarker trimmed definition.startMarker &&
    endsWithMarker (trimEnd trimmed) definition.endMarker

/-- `CONTEXTUAL_USER_FRAGMENTS`. -/
def contextualUserFragments : List ContextualUserFragmentDefinition :=
  [⟨"# AGENTS.md instructions for ", "</INSTRUCTIONS>"⟩,
    ⟨"<environment_context>", "</environment_context>"⟩,
    ⟨"<skill>", "</skill>"⟩,
    ⟨"<user_shell_command>", "</user_shell_command>"⟩,
    ⟨"<turn_aborted>", "</turn_aborted>"⟩,
    ⟨"<subagent_notification>", "</subagent_notification>"⟩,
    ⟨"<praxis_runtime_recovery>", "</praxis_runtime_recovery>"⟩,
    ⟨"<praxis_internal_context", "</praxis_internal_context>"⟩]

/-- `CONTEXTUAL_DEVELOPER_PREFIXES`. -/
def contextualDeveloperPrefixes : List String :=
  ["<permissions instructions>", "<model_switch>", "<collaboration_mode>",
    "<realtime_conversation>", "<personality_spec>"]

/-- What is left to other crates. -/
structure Externals where
  /-- The identifier of the run that `quick_xml` reads from a hook prompt. -/
  hookRunId : List Char → Option (List Char)
  /-- `serde_json` reads an `InterAgentCommunication`. -/
  interAgentCommunication : Str → Bool
  /-- Its `trigger_turn`. -/
  triggerTurn : Str → Bool
  /-- `truncate_function_output_payload`, with the policy of the turn. -/
  truncate : FunctionCallOutputPayload → FunctionCallOutputPayload

variable (X : Externals)

/-- `parse_hook_prompt_fragment` finds a fragment. -/
def isHookPrompt (text : List Char) : Bool :=
  match X.hookRunId (trimEnd (trimStart text)) with
  | none => false
  | some hookRunId => !(trimEnd (trimStart hookRunId)).isEmpty

/-! ## User turns -/

/-- `is_contextual_user_fragment`. -/
def isContextualUserFragment : ContentItem → Bool
  | .inputText text =>
    isHookPrompt X text.val.toList ||
      contextualUserFragments.any fun definition ↦ definition.matchesText text.val.toList
  | _ => false

/-- `is_contextual_user_message_content`. -/
def isContextualUserMessageContent (message : List ContentItem) : Bool :=
  message.any (isContextualUserFragment X)

/-- `is_contextual_dev_fragment`. -/
def isContextualDevFragment : ContentItem → Bool
  | .inputText text =>
    contextualDeveloperPrefixes.any fun marker ↦
      startsWithMarker (trimStart text.val.toList) marker
  | _ => false

/-- `is_contextual_dev_message_content`. -/
def isContextualDevMessageContent (message : List ContentItem) : Bool :=
  message.any isContextualDevFragment

/-- `InterAgentCommunication::is_message_content`. -/
def isInterAgentInstructionContent : List ContentItem → Bool
  | [.inputText text] | [.outputText text] => X.interAgentCommunication text
  | _ => false

/-- `is_user_turn_boundary`. -/
def isUserTurnBoundary : ResponseItem → Bool
  | .message _ role content _ =>
    (role.val == "user" && !isContextualUserMessageContent X content) ||
      (role.val == "assistant" && isInterAgentInstructionContent X content)
  | _ => false

/-- A message that `trim_pre_turn_context_updates` trims. -/
def isPreTurnContextUpdate : ResponseItem → Bool
  | .message _ role content _ =>
    (role.val == "developer" && isContextualDevMessageContent content) ||
      (role.val == "user" && isContextualUserMessageContent X content)
  | _ => false

/-! ## The context manager -/

/-- `is_api_message`. -/
def isApiMessage : ResponseItem → Bool
  | .message _ role _ _ => role.val != "system"
  | .functionCallOutput .. | .functionCall .. | .toolSearchCall .. | .toolSearchOutput ..
  | .customToolCall .. | .customToolCallOutput .. | .localShellCall .. | .imageGenerationCall ..
  | .api .. => true
  | .workspaceCheckpoint _ | .other => false

/-- `process_item`. -/
def processItem : ResponseItem → ResponseItem
  | .functionCallOutput callId output => .functionCallOutput callId (X.truncate output)
  | .customToolCallOutput callId name output =>
    .customToolCallOutput callId name (X.truncate output)
  | item => item

/-- `record_items`, for one item. -/
def recordItem (items : List ResponseItem) (item : ResponseItem) : List ResponseItem :=
  match item with
  | .workspaceCheckpoint _ => items ++ [processItem X item]
  | _ => if isApiMessage item then items ++ [processItem X item] else items

/-- `trim_pre_turn_context_updates`: the index to cut at. -/
def trimPreTurnContextUpdates (items : List ResponseItem) (firstInstructionTurnIdx : Nat) :
    Nat → Nat
  | 0 => 0
  | cutIdx + 1 =>
    if firstInstructionTurnIdx < cutIdx + 1 ∧ (items[cutIdx]?.any (isPreTurnContextUpdate X)) then
      trimPreTurnContextUpdates items firstInstructionTurnIdx cutIdx
    else cutIdx + 1

/-- `drop_last_n_user_turns`. -/
def dropLastNUserTurns (items : List ResponseItem) (numTurns : UInt32) : List ResponseItem :=
  if numTurns = 0 then items
  else
    match items.findIdx? (isUserTurnBoundary X) with
    | none => items
    | some firstInstructionTurnIdx =>
      let boundaries := items.zipIdx.reverse.filter fun entry ↦ isUserTurnBoundary X entry.1
      let cutIdx :=
        (boundaries[numTurns.toNat - 1]?).elim firstInstructionTurnIdx fun entry ↦ entry.2
      items.take (trimPreTurnContextUpdates X items firstInstructionTurnIdx cutIdx)

end Praxis.Context
