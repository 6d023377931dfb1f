import Praxis.Contracts.Event

/-!
# Rollout items

The data a conversation is recorded as (`protocol/src`): the items of the model's
context, the events of a session, and the rollout item that is one or the other,
or a marker between them.

A constructor has the fields that some function of the development reads.  The
others are left out, or stand together in one text where a record is handed on
as a whole.  The events that only report on a tool are one constructor with a
kind (`ToolCallEvent`).
-/

namespace Praxis.Protocol

open Foundation Contracts

/-! ## Items of the context -/

inductive MessagePhase where
  | commentary
  | finalAnswer
deriving DecidableEq

inductive ContentItem where
  | inputText (text : Str)
  | inputImage (imageUrl : Str)
  | outputText (text : Str)
deriving DecidableEq

inductive ImageDetail where
  | auto
  | low
  | high
  | original
deriving DecidableEq

inductive FunctionCallOutputContentItem where
  | inputText (text : Str)
  | inputImage (imageUrl : Str) (detail : Option ImageDetail)
deriving DecidableEq

inductive FunctionCallOutputBody where
  | text (content : Str)
  | contentItems (items : List FunctionCallOutputContentItem)
deriving DecidableEq

/-- `FunctionCallOutputPayload`. -/
structure FunctionCallOutputPayload where
  body : FunctionCallOutputBody
  success : Option Bool
deriving DecidableEq

/-- `FunctionCallOutputPayload::from_text`. -/
def FunctionCallOutputPayload.fromText (content : Str) : FunctionCallOutputPayload :=
  ⟨.text content, none⟩

/-- The variants of `ResponseItem` whose fields nothing here reads. -/
inductive ResponseItemKind where
  | reasoning
  | webSearchCall
  | compaction
deriving DecidableEq

/-- `ResponseItem`. -/
inductive ResponseItem where
  | message (id : Option Str) (role : Str) (content : List ContentItem)
      (phase : Option MessagePhase)
  | localShellCall (callId : Option Str) (fields : Str)
  | functionCall (callId : Str) (fields : Str)
  | toolSearchCall (callId : Option Str) (fields : Str)
  | functionCallOutput (callId : Str) (output : FunctionCallOutputPayload)
  | customToolCall (callId : Str) (fields : Str)
  | customToolCallOutput (callId : Str) (name : Option Str) (output : FunctionCallOutputPayload)
  | toolSearchOutput (callId : Option Str) (status execution : Str) (tools : List Str)
  | imageGenerationCall (result : Str) (fields : Str)
  | api (kind : ResponseItemKind) (fields : Str)
  | workspaceCheckpoint (checkpoint : Str)
  | other
deriving DecidableEq

/-! ## Events -/

structure UserMessageEvent where
  message : Str
  images : Option (List Str)
  localImages : List Str
  textElements : List Str
deriving DecidableEq

/-- `TurnItem`. -/
inductive TurnItem where
  | userMessage (id : Str) (content : List Str)
  | plan (id text : Str)
  | other
deriving DecidableEq

/-- The events that report on a tool. -/
inductive ToolCallKind where
  | webSearchBegin
  | webSearchEnd
  | execCommandBegin
  | execCommandEnd
  | applyPatchApprovalRequest
  | patchApplyBegin
  | patchApplyEnd
  | dynamicToolCallRequest
  | dynamicToolCallResponse
  | mcpToolCallBegin
  | mcpToolCallEnd
  | viewImageToolCall
  | imageGenerationBegin
  | imageGenerationEnd
  | collabAgentSpawnBegin
  | collabAgentSpawnEnd
  | collabAgentInteractionBegin
  | collabAgentInteractionEnd
  | collabWaitingBegin
  | collabWaitingEnd
  | collabCloseBegin
  | collabCloseEnd
  | collabResumeBegin
  | collabResumeEnd
deriving DecidableEq

/-- An event that reports on a tool.  The turn is empty in the kinds that name none. -/
structure ToolCallEvent where
  kind : ToolCallKind
  callId : Str
  turnId : Str
  fields : Str
deriving DecidableEq

/-- `ErrorEvent`. -/
structure ErrorEvent where
  message : Str
  praxisErrorInfo : Option Str
  /-- `affects_turn_status`, which depends on the kind of the error. -/
  affectsTurnStatus : Bool
deriving DecidableEq

/-- `EventMsg`. -/
inductive EventMsg where
  | error (event : ErrorEvent)
  | contextCompacted
  | threadRolledBack (numTurns : UInt32)
  | turnStarted (turnId collaborationModeKind : Str)
  | turnComplete (turnId : Str)
  | turnAborted (turnId : Option Str)
  | agentMessage (message : Str) (phase : Option MessagePhase) (memoryCitation : Option Str)
  | userMessage (event : UserMessageEvent)
  | agentReasoning (text : Str)
  | agentReasoningRawContent (text : Str)
  | enteredReviewMode (userFacingHint : Option Str)
  | exitedReviewMode (overallExplanation : Option Str)
  | itemStarted (turnId : Str) (item : TurnItem)
  | itemCompleted (turnId : Str) (item : TurnItem)
  | toolCall (event : ToolCallEvent)
  /-- The events that no function here reads. -/
  | other (fields : Str)
deriving DecidableEq

/-! ## Rollout items -/

/-- `SessionMetaLine`. -/
structure SessionMetaLine where
  id : ThreadId
  timestamp : Str
  cwd : Str
  modelProvider : Option Str
  /-- The tools, in the text that is written for them. -/
  dynamicTools : Option Str
  fields : Str
deriving DecidableEq

/-- `CompactedItem`. -/
structure CompactedItem where
  message : Str
  replacementHistory : Option (List ResponseItem)
deriving DecidableEq

/-- `TurnContextItem`. -/
structure TurnContextItem where
  turnId : Option Str
  cwd : Str
  model : Str
  realtimeActive : Option Bool
  effort : Option Str
  fields : Str
deriving DecidableEq

/-- `RolloutItem`. -/
inductive RolloutItem where
  | sessionMeta (line : SessionMetaLine)
  | responseItem (item : ResponseItem)
  | compacted (item : CompactedItem)
  | turnContext (context : TurnContextItem)
  | eventMsg (event : EventMsg)
deriving DecidableEq

end Praxis.Protocol
