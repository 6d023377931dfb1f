import Mathlib.Data.String.Basic
import Praxis.Contracts.Event

/-!
# The thread projection

The derived state of a thread (`thread-store/src/projection.rs`): what the thread
list shows of it, the position of its agent events, and a bounded index of the
turns of its transcript.

A projection starts with the event that created the thread
(`ThreadIndexProjection.fromCreated`).  Every later event is read as a mutation
(`ThreadIndexMutation.fromEvent`) and applied; `ThreadIndexAccumulator` is the
fold over a whole journal.
-/

namespace Praxis.Store

open Foundation Contracts

/-! ## The projection -/

/-- `RECENT_TURN_CHECKPOINT_CAPACITY`. -/
def recentTurnCheckpointCapacity : Nat := 256

/-- `DYNAMIC_TOOLS_DIGEST_DOMAIN`. -/
def dynamicToolsDigestDomain : Str := .lit "praxis.thread-store.dynamic-tools.v1"

/-- `ThreadSummary`. -/
@[ext]
structure ThreadSummary where
  threadId : ThreadId
  revision : ThreadRevision
  source : Str
  workspace : Str
  name : Option Str
  summary : Option Str
  archived : Bool
  createdAtUnixMs : Int64
  updatedAtUnixMs : Int64
  preview : Option Str
  firstUserMessage : Option Str
  totalCostMicros : Option Int64
  lastCostMicros : Option Int64
  model : Option Str
  modelProvider : Option Str
  reasoningEffort : Option Str
deriving DecidableEq

/-- `TurnCheckpoint`. -/
@[ext]
structure TurnCheckpoint where
  ordinal : UInt64
  scanAfter : ThreadRevision
  previousAgentSequence : Option UInt64
deriving DecidableEq

/-- `NativeTranscriptIndex`. -/
@[ext]
structure NativeTranscriptIndex where
  totalTurns : UInt64
  checkpoints : List TurnCheckpoint
  throughRevision : ThreadRevision
  frontierSequence : Option UInt64
deriving DecidableEq

/-- `ThreadIndexProjection`. -/
@[ext]
structure ThreadIndexProjection where
  summary : ThreadSummary
  lastAgentSequence : UInt64
  modelContextCheckpoint : Option ThreadRevision
  dynamicToolsDigest : Option Digest
  agentEventMetadataGeneration : UInt32
  transcriptIndex : NativeTranscriptIndex
deriving DecidableEq

/-- The revision in front of one, `revision.get().saturating_sub(1)`. -/
def revisionBefore (revision : ThreadRevision) : ThreadRevision :=
  ⟨saturatingSub revision.value 1⟩

/-- `native_turn_started`. -/
def NativeTranscriptIndex.nativeTurnStarted (index : NativeTranscriptIndex)
    (revision : ThreadRevision) (previousAgentSequence : Option UInt64) : NativeTranscriptIndex :=
  let checkpoints := index.checkpoints ++
    [⟨index.totalTurns, revisionBefore revision, previousAgentSequence⟩]
  { index with
    totalTurns := saturatingAdd index.totalTurns 1
    checkpoints := checkpoints.drop (checkpoints.length - recentTurnCheckpointCapacity) }

/-- `from_created`. -/
def ThreadIndexProjection.fromCreated (event : ThreadEventEnvelope) :
    Option ThreadIndexProjection :=
  match event.body with
  | .threadCreated source workspace _ =>
    some
      { summary :=
          { threadId := event.threadId
            revision := event.revision
            source
            workspace
            name := none
            summary := none
            archived := false
            createdAtUnixMs := event.recordedAtUnixMs
            updatedAtUnixMs := event.recordedAtUnixMs
            preview := none
            firstUserMessage := none
            totalCostMicros := none
            lastCostMicros := none
            model := none
            modelProvider := none
            reasoningEffort := none }
        lastAgentSequence := 0
        modelContextCheckpoint := none
        dynamicToolsDigest := none
        agentEventMetadataGeneration := 0
        transcriptIndex := ⟨0, [], event.revision, none⟩ }
  | _ => none

/-! ## Mutations -/

/-- `preview`: the first 160 characters of a text. -/
def preview (text : Str) : Str where
  val := String.ofList (text.val.toList.take 160)
  size_le := by
    refine le_trans ?_ text.size_le
    conv_rhs => rw [← String.ofList_toList (s := text.val),
      ← List.take_append_drop 160 text.val.toList, String.ofList_append,
      String.utf8ByteSize_append]
    exact Nat.le_add_right _ _

/-- `content_preview`. -/
def contentPreview : ContentRef → Option Str
  | .inlineText text => some (preview text)
  | .artifact .. => none

/-- `ThreadIndexMutation`. -/
inductive ThreadIndexMutation where
  | unchanged
  | name (value : Option Str)
  | summary (value : Option Str)
  | archived (value : Bool)
  | workspace (value : Str)
  | preview (value : Option Str)
  | previewSnapshot (preview firstUserMessage : Option Str)
  | userMessage (value : Str)
  | cost (value : Option Int64)
  | resumeConfig (model provider effort : Option Str)
  | nativeAgent (sequence : UInt64) (turnStarted : Bool)
  | modelContextCheckpoint (checkpoint : Option ThreadRevision)
  | dynamicTools (tools : ContentRef)
  | agentEventMetadataGeneration (generation : UInt32)
  | agentEventTimeline (generation : UInt32) (createdAt updatedAt : Option Int64)
deriving DecidableEq

namespace ThreadIndexMutation

/-- `from_event`. -/
def fromEvent (event : ThreadEventEnvelope) : ThreadIndexMutation :=
  match event.body with
  | .threadNameSet value => .name value
  | .threadSummarySet value => .summary value
  | .threadArchived value => .archived value
  | .threadWorkspaceSet value => .workspace value
  | .nativeAgentEventRecorded agentSequence _ _ route _ =>
    .nativeAgent agentSequence (route = .turnStarted)
  | .modelContextSnapshotReplaced basisRevision _ =>
    .modelContextCheckpoint
      (if basisRevision.toNat < event.revision.toNat then some basisRevision else none)
  | .modelContextRolledBack _ => .modelContextCheckpoint none
  | .threadDynamicToolsSet tools => .dynamicTools tools
  | .threadPreviewSet text firstText => .previewSnapshot text firstText
  | .agentEventMetadataReconciled generation => .agentEventMetadataGeneration generation
  | .agentEventTimelineReconciled generation createdAt updatedAt =>
    .agentEventTimeline generation createdAt updatedAt
  | .turnCostRecorded costMicros => .cost costMicros
  | .threadResumeConfigSet model provider effort => .resumeConfig model provider effort
  | .transcriptItemCreated _ _ .userMessage content =>
    (contentPreview content).elim (.preview none) .userMessage
  | .transcriptItemCreated _ _ _ content => .preview (contentPreview content)
  | .transcriptItemFinalized _ content => .preview (contentPreview content)
  | .contentRedacted _ replacement _ => .preview (replacement.bind contentPreview)
  | _ => .unchanged

end ThreadIndexMutation

variable (sha256 : Bytes → Digest)

/-- `dynamic_tools_digest`. -/
def dynamicToolsDigest (tools : ContentRef) : Digest :=
  canonicalDigest sha256 dynamicToolsDigestDomain tools

/-- The sequence number of the last agent event, unless there was none: the
store reads the number `0` as none. -/
def nonZero (sequence : UInt64) : Option UInt64 :=
  if sequence ≠ 0 then some sequence else none

/-- `ThreadIndexMutation::apply`. -/
def ThreadIndexMutation.apply (mutation : ThreadIndexMutation) (projection : ThreadIndexProjection)
    (revision : ThreadRevision) : ThreadIndexProjection :=
  let summary := projection.summary
  match mutation with
  | .unchanged => projection
  | .name value => { projection with summary := { summary with name := value } }
  | .summary value => { projection with summary := { summary with summary := value } }
  | .archived value => { projection with summary := { summary with archived := value } }
  | .workspace value => { projection with summary := { summary with workspace := value } }
  | .preview value => { projection with summary := { summary with preview := value } }
  | .previewSnapshot text firstText =>
    { projection with summary := { summary with preview := text, firstUserMessage := firstText } }
  | .userMessage value =>
    { projection with
      summary :=
        { summary with
          preview := some value
          firstUserMessage := summary.firstUserMessage.or (some value) } }
  | .cost value =>
    { projection with
      summary :=
        { summary with
          lastCostMicros := value
          totalCostMicros := match value with
            | some value => some (saturatingAddI64 (summary.totalCostMicros.getD 0) value)
            | none => summary.totalCostMicros } }
  | .resumeConfig model provider effort =>
    { projection with
      summary := { summary with model, modelProvider := provider, reasoningEffort := effort } }
  | .nativeAgent sequence turnStarted =>
    let index := projection.transcriptIndex
    let index := if turnStarted then
      index.nativeTurnStarted revision (nonZero projection.lastAgentSequence) else index
    let lastAgentSequence := max projection.lastAgentSequence sequence
    { projection with
      lastAgentSequence
      transcriptIndex := { index with frontierSequence := some lastAgentSequence } }
  | .modelContextCheckpoint checkpoint => { projection with modelContextCheckpoint := checkpoint }
  | .dynamicTools tools =>
    { projection with dynamicToolsDigest := some (dynamicToolsDigest sha256 tools) }
  | .agentEventMetadataGeneration generation =>
    { projection with agentEventMetadataGeneration := generation }
  | .agentEventTimeline generation createdAt updatedAt =>
    { projection with
      agentEventMetadataGeneration := generation
      summary :=
        { summary with
          createdAtUnixMs := createdAt.getD summary.createdAtUnixMs
          updatedAtUnixMs := updatedAt.getD summary.updatedAtUnixMs } }

/-! ## The accumulator -/

/-- `ThreadIndexAccumulator`. -/
inductive ThreadIndexAccumulator where
  | awaitingCreation
  | projected (projection : ThreadIndexProjection)
  | rejected
deriving DecidableEq

/-- What `push` does to a projection. -/
def ThreadIndexProjection.push (projection : ThreadIndexProjection)
    (event : ThreadEventEnvelope) : ThreadIndexProjection :=
  if event.revision.toNat ≤ projection.summary.revision.toNat then projection
  else
    let projection :=
      { projection with
        summary :=
          { projection.summary with
            revision := event.revision
            updatedAtUnixMs := event.recordedAtUnixMs }
        transcriptIndex := { projection.transcriptIndex with throughRevision := event.revision } }
    (ThreadIndexMutation.fromEvent event).apply sha256 projection event.revision

namespace ThreadIndexAccumulator

/-- `push`. -/
def push (accumulator : ThreadIndexAccumulator) (event : ThreadEventEnvelope) :
    ThreadIndexAccumulator :=
  let accumulator : ThreadIndexAccumulator := match accumulator with
    | .awaitingCreation =>
      match ThreadIndexProjection.fromCreated event with
      | some projection => .projected projection
      | none => .rejected
    | accumulator => accumulator
  match accumulator with
  | .projected projection => .projected (projection.push sha256 event)
  | accumulator => accumulator

/-- `finish`. -/
def finish : ThreadIndexAccumulator → Option ThreadIndexProjection
  | .projected projection => some projection
  | .awaitingCreation | .rejected => none

/-- The accumulator folded over events, from the state `default` gives. -/
def fold (events : List ThreadEventEnvelope) : ThreadIndexAccumulator :=
  events.foldl (push sha256) .awaitingCreation

end ThreadIndexAccumulator

end Praxis.Store
