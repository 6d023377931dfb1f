import Praxis.Contracts.Canonical

/-!
# Thread events

The event vocabulary of `event.rs`, its canonical encoding, and the two digests
of an envelope: the payload digest of the body and the record digest of
everything else.

The encoding of a body starts with its type name and continues with its fields.
Every field but one is self-delimiting; the exception is the optional
`model_provider` of `thread_resume_config_set`, which is written without a
presence byte.  It is the last field of the body, and a body is the last thing
in the payload stream, so the encoding is still injective
(`ThreadEventBody.encode_injective`), although it is not self-delimiting.
-/

namespace Praxis.Contracts

open Foundation

/-! ## Vocabulary -/

/-- `THREAD_STORE_SCHEMA_VERSION`. -/
def threadStoreSchemaVersion : UInt32 := 1

/-- Who caused a command or an event. -/
inductive ThreadActor where
  | user
  | agent
  | runtime
  | system
  | importer (name : Str)
deriving DecidableEq

/-- Content stored inline, or a reference to an artifact. -/
inductive ContentRef where
  | inlineText (text : Str)
  | artifact (digest : Digest) (bytes : UInt64) (mediaType : Str)
deriving DecidableEq

inductive TranscriptItemKind where
  | userMessage
  | assistantMessage
  | reasoningSummary
  | toolCall
  | toolResult
  | fileChange
  | collaborationAction
  | systemNotice
  | opaqueImported
deriving DecidableEq

inductive TurnAbortReason where
  | interrupted
  | replaced
  | reviewEnded
  | other (detail : Str)
deriving DecidableEq

/-- The routing tag of an opaque agent-event payload. -/
inductive AgentEventRoute where
  | turnStarted
  | userMessage
  | assistantMessage
  | transcript
  | other
deriving DecidableEq

/-- `ThreadEventBody`, constructor for constructor. -/
inductive ThreadEventBody where
  | threadCreated (source workspace : Str) (parent : Option ThreadRevisionRef)
  | threadNameSet (name : Option Str)
  | threadSummarySet (summary : Option Str)
  | threadArchived (archived : Bool)
  | threadWorkspaceSet (workspace : Str)
  | turnStarted (turnId : TurnId) (collaborationMode : Option Str)
  | turnExecutionContextCaptured (turnId : TurnId) (context : ContentRef)
  | nativeAgentEventRecorded (agentSequence : UInt64) (eventId : Str) (turnId : Option TurnId)
      (route : AgentEventRoute) (payload : ContentRef)
  | transcriptItemCreated (itemId : ItemId) (turnId : Option TurnId)
      (itemKind : TranscriptItemKind) (content : ContentRef)
  | transcriptItemFinalized (itemId : ItemId) (content : ContentRef)
  | transcriptItemCancelled (itemId : ItemId) (reason : Str)
  | turnCompleted (turnId : TurnId)
  | turnAborted (turnId : TurnId) (reason : TurnAbortReason)
  | turnFailed (turnId : TurnId) (errorCode message : Str)
  | modelContextBaselineReplaced (basisRevision : ThreadRevision) (summary : ContentRef)
      (retainedItemIds : RVec ItemId)
  | modelContextSnapshotReplaced (basisRevision : ThreadRevision) (snapshot : ContentRef)
  | modelContextRolledBack (userTurns : UInt32)
  | transcriptHeadMoved (fromRevision toRevision : ThreadRevision) (reason : Str)
  | contentRedacted (itemId : ItemId) (replacement : Option ContentRef) (reason : Str)
  | externalHistoryImported (sourceFormat : Str) (sourceFingerprint : Digest)
      (importerId importerVersion : Str) (importedEventCount warningCount : UInt64)
      (source : Option ContentRef)
  | opaqueImportedEvent (sourceFormat originalType : Str) (payload : ContentRef)
  | modelContextItemRecorded (itemId : ItemId) (turnId : Option TurnId) (content : ContentRef)
  | turnCostRecorded (costMicros : Option Int64)
  | threadResumeConfigSet (model modelProvider reasoningEffort : Option Str)
  | threadDynamicToolsSet (tools : ContentRef)
  | threadPreviewSet (preview firstUserMessage : Option Str)
  | agentEventMetadataReconciled (generation : UInt32)
  | agentEventTimelineReconciled (generation : UInt32) (createdAtUnixMs updatedAtUnixMs : Option Int64)
deriving DecidableEq

/-! ## Canonical encodings of the parts -/

/-- The tag `ThreadActor` is encoded with, and the importer behind it. -/
def ThreadActor.encode : ThreadActor → Bytes
  | .user => [0]
  | .agent => [1]
  | .runtime => [2]
  | .system => [3]
  | .importer name => 4 :: encodeCanonical name

instance : CanonicalEncode ThreadActor := ⟨ThreadActor.encode⟩

def ContentRef.encode : ContentRef → Bytes
  | .inlineText text => 0 :: encodeCanonical text
  | .artifact digest bytes mediaType =>
      1 :: (encodeCanonical digest ++ encodeCanonical bytes ++ encodeCanonical mediaType)

instance : CanonicalEncode ContentRef := ⟨ContentRef.encode⟩

/-- The `u8` of a transcript item kind. -/
def TranscriptItemKind.tag : TranscriptItemKind → UInt8
  | .userMessage => 0
  | .assistantMessage => 1
  | .reasoningSummary => 2
  | .toolCall => 3
  | .toolResult => 4
  | .fileChange => 5
  | .collaborationAction => 6
  | .systemNotice => 7
  | .opaqueImported => 8

instance : CanonicalEncode TranscriptItemKind := ⟨fun k ↦ encodeCanonical k.tag⟩

/-- The `u8` of an agent event route. -/
def AgentEventRoute.tag : AgentEventRoute → UInt8
  | .turnStarted => 0
  | .userMessage => 1
  | .assistantMessage => 2
  | .transcript => 3
  | .other => 4

instance : CanonicalEncode AgentEventRoute := ⟨fun r ↦ encodeCanonical r.tag⟩

def TurnAbortReason.encode : TurnAbortReason → Bytes
  | .interrupted => [0]
  | .replaced => [1]
  | .reviewEnded => [2]
  | .other detail => 3 :: encodeCanonical detail

instance : CanonicalEncode TurnAbortReason := ⟨TurnAbortReason.encode⟩

instance : LawfulCanonicalEncode ThreadActor where
  selfDelimiting a b s t h := by
    change a.encode ++ s = b.encode ++ t at h
    cases a <;> cases b <;> simp_all [ThreadActor.encode]

instance : LawfulCanonicalEncode ContentRef where
  selfDelimiting a b s t h := by
    change a.encode ++ s = b.encode ++ t at h
    cases a <;> cases b <;> simp_all [ContentRef.encode]

instance : LawfulCanonicalEncode TranscriptItemKind where
  selfDelimiting := (LawfulCanonicalEncode.selfDelimiting (α := UInt8)).comp
    fun a b h ↦ by cases a <;> cases b <;> first | rfl | (exact absurd h (by decide))

instance : LawfulCanonicalEncode AgentEventRoute where
  selfDelimiting := (LawfulCanonicalEncode.selfDelimiting (α := UInt8)).comp
    fun a b h ↦ by cases a <;> cases b <;> first | rfl | (exact absurd h (by decide))

instance : LawfulCanonicalEncode TurnAbortReason where
  selfDelimiting a b s t h := by
    change a.encode ++ s = b.encode ++ t at h
    cases a <;> cases b <;> simp_all [TurnAbortReason.encode]

/-! ## Bodies -/

namespace ThreadEventBody

/-- `type_name`. -/
def typeName : ThreadEventBody → Str
  | .threadCreated .. => .lit "thread_created"
  | .threadNameSet .. => .lit "thread_name_set"
  | .threadSummarySet .. => .lit "thread_summary_set"
  | .threadArchived .. => .lit "thread_archived"
  | .threadWorkspaceSet .. => .lit "thread_workspace_set"
  | .turnStarted .. => .lit "turn_started"
  | .turnExecutionContextCaptured .. => .lit "turn_execution_context_captured"
  | .nativeAgentEventRecorded .. => .lit "native_agent_event_recorded"
  | .transcriptItemCreated .. => .lit "transcript_item_created"
  | .transcriptItemFinalized .. => .lit "transcript_item_finalized"
  | .transcriptItemCancelled .. => .lit "transcript_item_cancelled"
  | .turnCompleted .. => .lit "turn_completed"
  | .turnAborted .. => .lit "turn_aborted"
  | .turnFailed .. => .lit "turn_failed"
  | .modelContextBaselineReplaced .. => .lit "model_context_baseline_replaced"
  | .modelContextSnapshotReplaced .. => .lit "model_context_snapshot_replaced"
  | .modelContextRolledBack .. => .lit "model_context_rolled_back"
  | .transcriptHeadMoved .. => .lit "transcript_head_moved"
  | .contentRedacted .. => .lit "content_redacted"
  | .externalHistoryImported .. => .lit "external_history_imported"
  | .opaqueImportedEvent .. => .lit "opaque_imported_event"
  | .modelContextItemRecorded .. => .lit "model_context_item_recorded"
  | .turnCostRecorded .. => .lit "turn_cost_recorded"
  | .threadResumeConfigSet .. => .lit "thread_resume_config_set"
  | .threadDynamicToolsSet .. => .lit "thread_dynamic_tools_set"
  | .threadPreviewSet .. => .lit "thread_preview_set"
  | .agentEventMetadataReconciled .. => .lit "agent_event_metadata_reconciled"
  | .agentEventTimelineReconciled .. => .lit "agent_event_timeline_reconciled"

/-- The optional provider of a resume configuration is written without a
presence byte: nothing at all when there is none. -/
def encodeUntagged : Option Str → Bytes
  | some s => encodeCanonical s
  | none => []

/-- The fields behind the type name. -/
def encodeFields : ThreadEventBody → Bytes
  | .threadCreated source workspace parent =>
      encodeCanonical source ++ encodeCanonical workspace ++ encodeCanonical parent
  | .threadNameSet name => encodeCanonical name
  | .threadSummarySet summary => encodeCanonical summary
  | .threadArchived archived => encodeCanonical archived
  | .threadWorkspaceSet workspace => encodeCanonical workspace
  | .turnStarted turnId collaborationMode =>
      encodeCanonical turnId ++ encodeCanonical collaborationMode
  | .turnExecutionContextCaptured turnId context =>
      encodeCanonical turnId ++ encodeCanonical context
  | .nativeAgentEventRecorded agentSequence eventId turnId route payload =>
      encodeCanonical agentSequence ++ encodeCanonical eventId ++ encodeCanonical turnId ++
        encodeCanonical route ++ encodeCanonical payload
  | .transcriptItemCreated itemId turnId itemKind content =>
      encodeCanonical itemId ++ encodeCanonical turnId ++ encodeCanonical itemKind ++
        encodeCanonical content
  | .transcriptItemFinalized itemId content => encodeCanonical itemId ++ encodeCanonical content
  | .transcriptItemCancelled itemId reason => encodeCanonical itemId ++ encodeCanonical reason
  | .turnCompleted turnId => encodeCanonical turnId
  | .turnAborted turnId reason => encodeCanonical turnId ++ encodeCanonical reason
  | .turnFailed turnId errorCode message =>
      encodeCanonical turnId ++ encodeCanonical errorCode ++ encodeCanonical message
  | .modelContextBaselineReplaced basisRevision summary retainedItemIds =>
      encodeCanonical basisRevision ++ encodeCanonical summary ++ encodeCanonical retainedItemIds
  | .modelContextSnapshotReplaced basisRevision snapshot =>
      encodeCanonical basisRevision ++ encodeCanonical snapshot
  | .modelContextRolledBack userTurns => encodeCanonical userTurns
  | .transcriptHeadMoved fromRevision toRevision reason =>
      encodeCanonical fromRevision ++ encodeCanonical toRevision ++ encodeCanonical reason
  | .contentRedacted itemId replacement reason =>
      encodeCanonical itemId ++ encodeCanonical replacement ++ encodeCanonical reason
  | .externalHistoryImported sourceFormat sourceFingerprint importerId importerVersion
      importedEventCount warningCount source =>
      encodeCanonical sourceFormat ++ encodeCanonical sourceFingerprint ++
        encodeCanonical importerId ++ encodeCanonical importerVersion ++
        encodeCanonical importedEventCount ++ encodeCanonical warningCount ++
        encodeCanonical source
  | .opaqueImportedEvent sourceFormat originalType payload =>
      encodeCanonical sourceFormat ++ encodeCanonical originalType ++ encodeCanonical payload
  | .modelContextItemRecorded itemId turnId content =>
      encodeCanonical itemId ++ encodeCanonical turnId ++ encodeCanonical content
  | .turnCostRecorded costMicros => encodeCanonical costMicros
  | .threadResumeConfigSet model modelProvider reasoningEffort =>
      -- the provider goes last, whatever its place among the fields
      encodeCanonical model ++ encodeCanonical reasoningEffort ++ encodeUntagged modelProvider
  | .threadDynamicToolsSet tools => encodeCanonical tools
  | .threadPreviewSet preview firstUserMessage =>
      encodeCanonical preview ++ encodeCanonical firstUserMessage
  | .agentEventMetadataReconciled generation => encodeCanonical generation
  | .agentEventTimelineReconciled generation createdAtUnixMs updatedAtUnixMs =>
      encodeCanonical generation ++ encodeCanonical createdAtUnixMs ++
        encodeCanonical updatedAtUnixMs

/-- `encode_canonical`: the type name, then the fields. -/
def encode (body : ThreadEventBody) : Bytes :=
  encodeCanonical body.typeName ++ body.encodeFields

instance : CanonicalEncode ThreadEventBody := ⟨encode⟩

/-- An untagged provider is told apart from an absent one by its length word. -/
theorem encodeUntagged_injective : Function.Injective encodeUntagged := by
  rintro (_ | s) (_ | t) h
  · rfl
  · simp [encodeUntagged, encodeCanonical, hashBytes, leBytes] at h
  · simp [encodeUntagged, encodeCanonical, hashBytes, leBytes] at h
  · simpa [encodeUntagged] using h

/-- Bodies with the same type name and the same field bytes are equal.  The
off-diagonal pairs of constructors are closed by their names, the diagonal ones
by splitting off field after field. -/
theorem eq_of_typeName_of_encodeFields {a b : ThreadEventBody} (hn : a.typeName = b.typeName)
    (hf : a.encodeFields = b.encodeFields) : a = b := by
  cases a <;> cases b <;> simp [typeName] at hn
  all_goals simpa [encodeFields, and_assoc, and_comm, and_left_comm,
    encodeUntagged_injective.eq_iff] using hf

/-- The encoding of a body determines it. -/
theorem encode_injective : Function.Injective encode := by
  intro a b h
  obtain ⟨hn, hf⟩ := (encodeCanonical_append_eq_iff _ _ _ _).mp h
  exact eq_of_typeName_of_encodeFields hn hf

end ThreadEventBody

/-! ## Envelopes -/

/-- `EVENT_PAYLOAD_DOMAIN`. -/
def eventPayloadDomain : Str := .lit "praxis.thread-store.event-payload.v1"

/-- `EVENT_RECORD_DOMAIN`. -/
def eventRecordDomain : Str := .lit "praxis.thread-store.event-record.v1"

/-- A committed event with its chain digests. -/
@[ext]
structure ThreadEventEnvelope where
  schemaVersion : UInt32
  threadId : ThreadId
  revision : ThreadRevision
  eventId : EventId
  batchId : BatchId
  sequence : UInt32
  recordedAtUnixMs : Int64
  actor : ThreadActor
  correlationId : Option Str
  causationId : Option EventId
  body : ThreadEventBody
  payloadDigest : Digest
  previousRecordDigest : Digest
  recordDigest : Digest
deriving DecidableEq

/-- What the caller of `ThreadEventEnvelope::new` provides. -/
structure NewThreadEvent where
  threadId : ThreadId
  revision : ThreadRevision
  eventId : EventId
  batchId : BatchId
  sequence : UInt32
  recordedAtUnixMs : Int64
  actor : ThreadActor
  correlationId : Option Str
  causationId : Option EventId
  body : ThreadEventBody
  previousRecordDigest : Digest

namespace ThreadEventEnvelope

/-- The stream behind the payload digest of a body. -/
def payloadStream (body : ThreadEventBody) : Bytes :=
  domainBytes eventPayloadDomain ++ encodeCanonical body

/-- The stream `compute_record_digest` hashes. -/
def recordStream (e : ThreadEventEnvelope) : Bytes :=
  domainBytes eventRecordDomain ++ encodeCanonical e.schemaVersion ++
    encodeCanonical e.threadId ++ encodeCanonical e.revision ++ encodeCanonical e.eventId ++
    encodeCanonical e.batchId ++ encodeCanonical e.sequence ++
    encodeCanonical e.recordedAtUnixMs ++ encodeCanonical e.actor ++
    encodeCanonical e.correlationId ++ encodeCanonical e.causationId ++
    encodeCanonical e.payloadDigest ++ encodeCanonical e.previousRecordDigest

section Digests

variable (sha256 : Bytes → Digest)

/-- `compute_record_digest`. -/
def computeRecordDigest (e : ThreadEventEnvelope) : Digest := sha256 e.recordStream

/-- `has_valid_digests`. -/
def hasValidDigests (e : ThreadEventEnvelope) : Bool :=
  e.payloadDigest = canonicalDigest sha256 eventPayloadDomain e.body ∧
    e.recordDigest = e.computeRecordDigest sha256

/-- `ThreadEventEnvelope::new`. -/
def new (event : NewThreadEvent) : ThreadEventEnvelope :=
  let envelope : ThreadEventEnvelope :=
    { schemaVersion := threadStoreSchemaVersion
      threadId := event.threadId
      revision := event.revision
      eventId := event.eventId
      batchId := event.batchId
      sequence := event.sequence
      recordedAtUnixMs := event.recordedAtUnixMs
      actor := event.actor
      correlationId := event.correlationId
      causationId := event.causationId
      body := event.body
      payloadDigest := canonicalDigest sha256 eventPayloadDomain event.body
      previousRecordDigest := event.previousRecordDigest
      recordDigest := .zero }
  { envelope with recordDigest := envelope.computeRecordDigest sha256 }

/-- A freshly built envelope carries valid digests: the record digest does not
hash itself. -/
theorem new_hasValidDigests (event : NewThreadEvent) :
    (new sha256 event).hasValidDigests sha256 = true := by
  simp [hasValidDigests, new, computeRecordDigest, recordStream]

end Digests

/-- Two different inputs with the same digest. -/
def Collision (sha256 : Bytes → Digest) (x y : Bytes) : Prop := x ≠ y ∧ sha256 x = sha256 y

/-- The record stream determines every field it covers. -/
theorem recordStream_inj {e f : ThreadEventEnvelope} (h : e.recordStream = f.recordStream) :
    e.schemaVersion = f.schemaVersion ∧ e.threadId = f.threadId ∧ e.revision = f.revision ∧
      e.eventId = f.eventId ∧ e.batchId = f.batchId ∧ e.sequence = f.sequence ∧
      e.recordedAtUnixMs = f.recordedAtUnixMs ∧ e.actor = f.actor ∧
      e.correlationId = f.correlationId ∧ e.causationId = f.causationId ∧
      e.payloadDigest = f.payloadDigest ∧ e.previousRecordDigest = f.previousRecordDigest := by
  simpa [recordStream] using h

/-- The payload stream determines the body. -/
theorem payloadStream_injective : Function.Injective payloadStream := fun _ _ h ↦
  ThreadEventBody.encode_injective (List.append_cancel_left h)

/-- Equal record digests of valid envelopes leave two possibilities: the
envelopes are equal, or their streams exhibit a SHA-256 collision. -/
theorem eq_or_collision_of_recordDigest (sha256 : Bytes → Digest) {e f : ThreadEventEnvelope}
    (he : e.hasValidDigests sha256 = true) (hf : f.hasValidDigests sha256 = true)
    (h : e.recordDigest = f.recordDigest) :
    e = f ∨ Collision sha256 e.recordStream f.recordStream ∨
      Collision sha256 (payloadStream e.body) (payloadStream f.body) := by
  simp only [hasValidDigests, decide_eq_true_eq] at he hf
  by_cases hr : e.recordStream = f.recordStream
  · obtain ⟨h₁, h₂, h₃, h₄, h₅, h₆, h₇, h₈, h₉, h₁₀, h₁₁, h₁₂⟩ := recordStream_inj hr
    by_cases hp : payloadStream e.body = payloadStream f.body
    · have hb : e.body = f.body := payloadStream_injective hp
      exact .inl (ThreadEventEnvelope.ext h₁ h₂ h₃ h₄ h₅ h₆ h₇ h₈ h₉ h₁₀ hb h₁₁ h₁₂ h)
    · refine .inr (.inr ⟨hp, ?_⟩)
      exact he.1.symm.trans (h₁₁.trans hf.1)
  · refine .inr (.inl ⟨hr, ?_⟩)
    exact he.2.symm.trans (h.trans hf.2)

/-- **The canonical event encoding is injective.**  Bodies are determined by
their encodings, the fields of an envelope by the stream behind its record
digest, and hence, short of a SHA-256 collision that the two events themselves
exhibit, a valid event is determined by its record digest. -/
theorem canonical_encoding_injective :
    (∀ a b : ThreadEventBody, encodeCanonical a = encodeCanonical b → a = b) ∧
    (∀ e f : ThreadEventEnvelope, e.recordStream = f.recordStream →
      e.schemaVersion = f.schemaVersion ∧ e.threadId = f.threadId ∧ e.revision = f.revision ∧
        e.eventId = f.eventId ∧ e.batchId = f.batchId ∧ e.sequence = f.sequence ∧
        e.recordedAtUnixMs = f.recordedAtUnixMs ∧ e.actor = f.actor ∧
        e.correlationId = f.correlationId ∧ e.causationId = f.causationId ∧
        e.payloadDigest = f.payloadDigest ∧ e.previousRecordDigest = f.previousRecordDigest) ∧
    (∀ (sha256 : Bytes → Digest) (e f : ThreadEventEnvelope),
      e.hasValidDigests sha256 = true → f.hasValidDigests sha256 = true →
      e.recordDigest = f.recordDigest →
      e = f ∨ Collision sha256 e.recordStream f.recordStream ∨
        Collision sha256 (payloadStream e.body) (payloadStream f.body)) :=
  ⟨fun _ _ h ↦ ThreadEventBody.encode_injective h, fun _ _ h ↦ recordStream_inj h,
    fun sha256 _ _ he hf h ↦ eq_or_collision_of_recordDigest sha256 he hf h⟩

end ThreadEventEnvelope

end Praxis.Contracts
