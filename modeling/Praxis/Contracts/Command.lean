import Praxis.Contracts.Event

/-!
# Thread commands

The command vocabulary of `command.rs`, its canonical encoding and the command
digest that idempotency rests on.

`ThreadResumeConfig` writes its optional `model_provider` without a presence
byte.  As the last field of `SetResumeConfig` this is harmless, but inside
`ReconcileSessionMetadata` the encoding of the dynamic tools follows, and the
length word of a provider can be read as the presence byte, the content tag and
the length word of the tools.  `ThreadCommand.Overlaps` is the exact overlap of
the two readings, and `CommandContent.stream_injective_iff` says that it is the
only way in which two different commands share their canonical bytes.
-/

namespace Praxis.Contracts

open Foundation

/-! ## Vocabulary -/

/-- `COMMAND_DOMAIN`. -/
def commandDomain : Str := .lit "praxis.thread-store.command.v1"

structure ThreadResumeConfig where
  model : Option Str
  modelProvider : Option Str
  reasoningEffort : Option Str
deriving DecidableEq

structure NativeAgentEventCommand where
  agentSequence : UInt64
  eventId : Str
  turnId : Option TurnId
  route : AgentEventRoute
  payload : ContentRef
deriving DecidableEq

/-- `ThreadCommand`, constructor for constructor. -/
inductive ThreadCommand where
  | create (source workspace : Str) (parent : Option ThreadRevisionRef)
  | setName (name : Option Str)
  | setSummary (summary : Option Str)
  | setArchived (archived : Bool)
  | setWorkspace (workspace : Str)
  | startTurn (turnId : TurnId) (collaborationMode : Option Str)
  | captureTurnExecutionContext (turnId : TurnId) (context : ContentRef)
  | recordNativeAgentEvent (agentSequence : UInt64) (eventId : Str) (turnId : Option TurnId)
      (route : AgentEventRoute) (payload : ContentRef)
  | recordNativeAgentEvents (events : RVec NativeAgentEventCommand)
  | appendTranscriptItem (itemId : ItemId) (turnId : Option TurnId)
      (itemKind : TranscriptItemKind) (content : ContentRef)
  | finalizeTranscriptItem (itemId : ItemId) (content : ContentRef)
  | cancelTranscriptItem (itemId : ItemId) (reason : Str)
  | completeTurn (turnId : TurnId)
  | abortTurn (turnId : TurnId) (reason : TurnAbortReason)
  | failTurn (turnId : TurnId) (errorCode message : Str)
  | replaceModelContextBaseline (basisRevision : ThreadRevision) (summary : ContentRef)
      (retainedItemIds : RVec ItemId)
  | replaceModelContextSnapshot (basisRevision : ThreadRevision) (snapshot : ContentRef)
  | rollbackModelContext (userTurns : UInt32)
  | moveTranscriptHead (fromRevision toRevision : ThreadRevision) (reason : Str)
  | redactContent (itemId : ItemId) (replacement : Option ContentRef) (reason : Str)
  | recordModelContextItem (itemId : ItemId) (turnId : Option TurnId) (content : ContentRef)
  | recordTurnCost (costMicros : Option Int64)
  | setResumeConfig (model modelProvider reasoningEffort : Option Str)
  | setDynamicTools (tools : ContentRef)
  | setPreview (preview firstUserMessage : Option Str)
  | markAgentEventMetadataReconciled (generation : UInt32)
  | reconcileAgentEventTimeline (generation : UInt32) (createdAtUnixMs updatedAtUnixMs : Option Int64)
  | reconcileSessionMetadata (name : Option Str) (resumeConfig : Option ThreadResumeConfig)
      (dynamicTools : Option ContentRef)
deriving DecidableEq

/-! ## The canonical encoding -/

def NativeAgentEventCommand.encode (e : NativeAgentEventCommand) : Bytes :=
  encodeCanonical e.agentSequence ++ encodeCanonical e.eventId ++ encodeCanonical e.turnId ++
    encodeCanonical e.route ++ encodeCanonical e.payload

instance : CanonicalEncode NativeAgentEventCommand := ⟨NativeAgentEventCommand.encode⟩

instance : LawfulCanonicalEncode NativeAgentEventCommand where
  selfDelimiting := by
    rintro ⟨a₁, a₂, a₃, a₄, a₅⟩ ⟨b₁, b₂, b₃, b₄, b₅⟩ s t h
    change NativeAgentEventCommand.encode _ ++ s = NativeAgentEventCommand.encode _ ++ t at h
    simpa [NativeAgentEventCommand.encode, and_assoc] using h

/-- The provider comes last, without a presence byte. -/
def ThreadResumeConfig.encode (c : ThreadResumeConfig) : Bytes :=
  encodeCanonical c.model ++ encodeCanonical c.reasoningEffort ++
    ThreadEventBody.encodeUntagged c.modelProvider

instance : CanonicalEncode ThreadResumeConfig := ⟨ThreadResumeConfig.encode⟩

namespace ThreadCommand

/-- The append-only command tags.  Fifteen is not in use. -/
def tag : ThreadCommand → UInt8
  | .create .. => 0
  | .setName .. => 1
  | .setSummary .. => 2
  | .setArchived .. => 3
  | .startTurn .. => 4
  | .captureTurnExecutionContext .. => 5
  | .appendTranscriptItem .. => 6
  | .finalizeTranscriptItem .. => 7
  | .cancelTranscriptItem .. => 8
  | .completeTurn .. => 9
  | .abortTurn .. => 10
  | .failTurn .. => 11
  | .replaceModelContextBaseline .. => 12
  | .moveTranscriptHead .. => 13
  | .redactContent .. => 14
  | .recordModelContextItem .. => 16
  | .setWorkspace .. => 17
  | .recordTurnCost .. => 18
  | .setResumeConfig .. => 19
  | .rollbackModelContext .. => 20
  | .replaceModelContextSnapshot .. => 21
  | .recordNativeAgentEvent .. => 22
  | .setDynamicTools .. => 23
  | .reconcileSessionMetadata .. => 24
  | .setPreview .. => 25
  | .markAgentEventMetadataReconciled .. => 26
  | .reconcileAgentEventTimeline .. => 27
  | .recordNativeAgentEvents .. => 28

/-- The fields behind the tag. -/
def encodeFields : ThreadCommand → Bytes
  | .create source workspace parent =>
      encodeCanonical source ++ encodeCanonical workspace ++ encodeCanonical parent
  | .setName name => encodeCanonical name
  | .setSummary summary => encodeCanonical summary
  | .setArchived archived => encodeCanonical archived
  | .setWorkspace workspace => encodeCanonical workspace
  | .startTurn turnId collaborationMode =>
      encodeCanonical turnId ++ encodeCanonical collaborationMode
  | .captureTurnExecutionContext turnId context =>
      encodeCanonical turnId ++ encodeCanonical context
  | .recordNativeAgentEvent agentSequence eventId turnId route payload =>
      encodeCanonical agentSequence ++ encodeCanonical eventId ++ encodeCanonical turnId ++
        encodeCanonical route ++ encodeCanonical payload
  | .recordNativeAgentEvents events => encodeCanonical events
  | .appendTranscriptItem itemId turnId itemKind content =>
      encodeCanonical itemId ++ encodeCanonical turnId ++ encodeCanonical itemKind ++
        encodeCanonical content
  | .finalizeTranscriptItem itemId content => encodeCanonical itemId ++ encodeCanonical content
  | .cancelTranscriptItem itemId reason => encodeCanonical itemId ++ encodeCanonical reason
  | .completeTurn turnId => encodeCanonical turnId
  | .abortTurn turnId reason => encodeCanonical turnId ++ encodeCanonical reason
  | .failTurn turnId errorCode message =>
      encodeCanonical turnId ++ encodeCanonical errorCode ++ encodeCanonical message
  | .replaceModelContextBaseline basisRevision summary retainedItemIds =>
      encodeCanonical basisRevision ++ encodeCanonical summary ++ encodeCanonical retainedItemIds
  | .replaceModelContextSnapshot basisRevision snapshot =>
      encodeCanonical basisRevision ++ encodeCanonical snapshot
  | .rollbackModelContext userTurns => encodeCanonical userTurns
  | .moveTranscriptHead fromRevision toRevision reason =>
      encodeCanonical fromRevision ++ encodeCanonical toRevision ++ encodeCanonical reason
  | .redactContent itemId replacement reason =>
      encodeCanonical itemId ++ encodeCanonical replacement ++ encodeCanonical reason
  | .recordModelContextItem itemId turnId content =>
      encodeCanonical itemId ++ encodeCanonical turnId ++ encodeCanonical content
  | .recordTurnCost costMicros => encodeCanonical costMicros
  | .setResumeConfig model modelProvider reasoningEffort =>
      encodeCanonical model ++ encodeCanonical reasoningEffort ++
        ThreadEventBody.encodeUntagged modelProvider
  | .setDynamicTools tools => encodeCanonical tools
  | .setPreview preview firstUserMessage =>
      encodeCanonical preview ++ encodeCanonical firstUserMessage
  | .markAgentEventMetadataReconciled generation => encodeCanonical generation
  | .reconcileAgentEventTimeline generation createdAtUnixMs updatedAtUnixMs =>
      encodeCanonical generation ++ encodeCanonical createdAtUnixMs ++
        encodeCanonical updatedAtUnixMs
  | .reconcileSessionMetadata name resumeConfig dynamicTools =>
      encodeCanonical name ++ encodeCanonical resumeConfig ++ encodeCanonical dynamicTools

/-- `encode_canonical`: the tag, then the fields. -/
def encode (command : ThreadCommand) : Bytes := command.tag :: command.encodeFields

instance : CanonicalEncode ThreadCommand := ⟨encode⟩

end ThreadCommand

/-! ## Where two commands share their bytes -/

namespace ThreadCommand

/-- The bytes of dynamic tools read as a provider and other dynamic tools.

The presence byte of `tools`, its content tag and the six bytes behind it are
read as the length of `provider`; what is left of `tools` is read as the text of
`provider` and as `tools'`. -/
def Overlaps (tools : ContentRef) (provider : Str) (tools' : Option ContentRef) : Prop :=
  match tools with
  | .inlineText text =>
      provider.asBytes.length = 1 + 256 ^ 2 * (text.asBytes.length % 256 ^ 6) ∧
        leBytes 2 (text.asBytes.length / 256 ^ 6) ++ text.asBytes =
          provider.asBytes ++ encodeCanonical tools'
  | .artifact digest bytes mediaType =>
      provider.asBytes.length = 257 + 256 ^ 2 * ofLeBytes (digest.asBytes.take 6) ∧
        digest.asBytes.drop 6 ++ (encodeCanonical bytes ++ encodeCanonical mediaType) =
          provider.asBytes ++ encodeCanonical tools'

/-- `Overlaps` is exactly the equality of the two readings. -/
theorem overlaps_iff (tools : ContentRef) (provider : Str) (tools' : Option ContentRef) :
    encodeCanonical (some tools) = encodeCanonical provider ++ encodeCanonical tools' ↔
      Overlaps tools provider tools' := by
  have hp := provider.asBytes_length_lt
  change 1 :: tools.encode = leBytes 8 _ ++ provider.asBytes ++ encodeCanonical tools' ↔ _
  rw [List.append_assoc]
  cases tools with
  | inlineText text =>
    -- the length word of the text is cut in two: six bytes belong to the length of the provider
    have hcut : 1 :: ContentRef.encode (.inlineText text) =
        ([1, 0] ++ leBytes 6 text.asBytes.length) ++
          (leBytes 2 (text.asBytes.length / 256 ^ 6) ++ text.asBytes) := by
      change 1 :: 0 :: (leBytes (6 + 2) _ ++ _) = _
      rw [leBytes_add]
      simp
    have hread := ofLeBytes_leBytes_mod 6 text.asBytes.length
    rw [hcut, append_eq_leBytes_append_iff (by simp) hp]
    simp only [List.cons_append, List.nil_append, ofLeBytes, hread, Overlaps]
    refine and_congr_left fun _ ↦ ?_
    have h1 : (1 : UInt8).toNat = 1 := rfl
    have h0 : (0 : UInt8).toNat = 0 := rfl
    omega
  | artifact digest bytes mediaType =>
    have hcut : 1 :: ContentRef.encode (.artifact digest bytes mediaType) =
        ([1, 1] ++ digest.asBytes.take 6) ++
          (digest.asBytes.drop 6 ++ (encodeCanonical bytes ++ encodeCanonical mediaType)) := by
      change 1 :: 1 :: (digest.asBytes ++ _ ++ _) = _
      simp [← List.append_assoc]
    rw [hcut, append_eq_leBytes_append_iff (by simp) hp]
    simp only [List.cons_append, List.nil_append, ofLeBytes, Overlaps]
    refine and_congr_left fun _ ↦ ?_
    have h1 : (1 : UInt8).toNat = 1 := rfl
    omega

/-- `a` writes its dynamic tools where `b` writes a provider, and the bytes
coincide; everything else is the same. -/
def Ambiguous : ThreadCommand → ThreadCommand → Prop
  | .reconcileSessionMetadata name (some ⟨model, none, effort⟩) (some tools),
    .reconcileSessionMetadata name' (some ⟨model', some provider, effort'⟩) tools' =>
      name = name' ∧ model = model' ∧ effort = effort' ∧ Overlaps tools provider tools'
  | _, _ => False

/-- An absent provider in front of `t`, against a provider in front of `u`. -/
private theorem overlaps_of_untagged {t u : Option ContentRef} {provider : Str}
    (h : ThreadEventBody.encodeUntagged none ++ encodeCanonical t =
      ThreadEventBody.encodeUntagged (some provider) ++ encodeCanonical u) :
    ∃ tools, t = some tools ∧ Overlaps tools provider u := by
  cases t with
  | none => simp [ThreadEventBody.encodeUntagged, encodeCanonical, optionBytes, hashBytes, leBytes] at h
  | some tools => exact ⟨tools, rfl, (overlaps_iff _ _ _).mp h⟩

/-- What follows the session name of `ReconcileSessionMetadata`. -/
private theorem resumeConfig_append_eq {c d : Option ThreadResumeConfig}
    {t u : Option ContentRef}
    (h : encodeCanonical c ++ encodeCanonical t = encodeCanonical d ++ encodeCanonical u)
    (name : Option Str) :
    (c = d ∧ t = u) ∨ Ambiguous (.reconcileSessionMetadata name c t)
        (.reconcileSessionMetadata name d u) ∨
      Ambiguous (.reconcileSessionMetadata name d u) (.reconcileSessionMetadata name c t) := by
  rcases c with - | ⟨m, p, e⟩ <;> rcases d with - | ⟨m', p', e'⟩
  · exact .inl ⟨rfl, by simpa using h⟩
  · simp [encodeCanonical, optionBytes] at h
  · simp [encodeCanonical, optionBytes] at h
  · change 1 :: ThreadResumeConfig.encode _ ++ _ = 1 :: ThreadResumeConfig.encode _ ++ _ at h
    simp only [ThreadResumeConfig.encode, List.cons_append, List.cons.injEq, List.append_assoc,
      encodeCanonical_append_eq_iff, true_and] at h
    obtain ⟨rfl, rfl, h⟩ := h
    rcases p with - | p <;> rcases p' with - | p'
    · exact .inl ⟨rfl, by simpa [ThreadEventBody.encodeUntagged] using h⟩
    · obtain ⟨tools, rfl, ho⟩ := overlaps_of_untagged h
      exact .inr (.inl ⟨rfl, rfl, rfl, ho⟩)
    · obtain ⟨tools, rfl, ho⟩ := overlaps_of_untagged h.symm
      exact .inr (.inr ⟨rfl, rfl, rfl, ho⟩)
    · simp only [ThreadEventBody.encodeUntagged, encodeCanonical_append_eq_iff,
        encodeCanonical_inj] at h
      exact .inl ⟨by rw [h.1], h.2⟩

/-- Ambiguous commands are different, and share their bytes. -/
theorem Ambiguous.encode_eq {a b : ThreadCommand} (h : Ambiguous a b) :
    a ≠ b ∧ a.encode = b.encode := by
  revert h
  fun_cases Ambiguous a b with
  | case1 name model effort tools name' model' provider effort' tools' =>
    rintro ⟨rfl, rfl, rfl, ho⟩
    have hbytes := (overlaps_iff _ _ _).mpr ho
    refine ⟨by simp, ?_⟩
    simp only [encode, tag, encodeFields]
    congr 1
    change encodeCanonical name ++ 1 :: ThreadResumeConfig.encode _ ++ _ =
      encodeCanonical name ++ 1 :: ThreadResumeConfig.encode _ ++ _
    simp [ThreadResumeConfig.encode, ThreadEventBody.encodeUntagged, hbytes]
  | case2 => exact False.elim

/-- Commands with the same bytes are equal or ambiguous. -/
theorem eq_or_ambiguous_of_encode {a b : ThreadCommand} (h : a.encode = b.encode) :
    a = b ∨ Ambiguous a b ∨ Ambiguous b a := by
  obtain ⟨ht, hf⟩ := List.cons.inj h
  cases a <;> cases b <;> simp [tag] at ht
  case reconcileSessionMetadata.reconcileSessionMetadata name c t name' d u =>
    simp only [encodeFields, List.append_assoc, encodeCanonical_append_eq_iff] at hf
    obtain ⟨rfl, hf⟩ := hf
    obtain ⟨rfl, rfl⟩ | hamb := resumeConfig_append_eq hf name
    · exact .inl rfl
    · exact .inr hamb
  all_goals
    left
    simpa [encodeFields, and_assoc, and_comm, and_left_comm,
      ThreadEventBody.encodeUntagged_injective.eq_iff] using hf

end ThreadCommand

/-- The arguments of `compute_command_digest`. -/
@[ext]
structure CommandContent where
  schemaVersion : UInt32
  commandId : CommandId
  threadId : ThreadId
  expectedRevision : ThreadRevision
  actor : ThreadActor
  correlationId : Option Str
  command : ThreadCommand
deriving DecidableEq

namespace CommandContent

/-- The stream `compute_command_digest` feeds to the hasher behind the domain. -/
def stream (c : CommandContent) : Bytes :=
  encodeCanonical c.schemaVersion ++ encodeCanonical c.commandId ++ encodeCanonical c.threadId ++
    encodeCanonical c.expectedRevision ++ encodeCanonical c.actor ++
    encodeCanonical c.correlationId ++ encodeCanonical c.command

/-- `compute_command_digest`. -/
def computeCommandDigest (sha256 : Bytes → Digest) (c : CommandContent) : Digest :=
  sha256 (domainBytes commandDomain ++ c.stream)

/-- The two contents agree on everything but their commands, which are ambiguous
in one order or the other. -/
def Ambiguous (c d : CommandContent) : Prop :=
  { c with command := d.command } = d ∧
    (c.command.Ambiguous d.command ∨ d.command.Ambiguous c.command)

/-- The stream determines all that stands in front of the command, and the bytes
of the command. -/
theorem stream_eq_iff {c d : CommandContent} :
    c.stream = d.stream ↔
      { c with command := d.command } = d ∧ c.command.encode = d.command.encode := by
  obtain ⟨c₁, c₂, c₃, c₄, c₅, c₆, c₇⟩ := c
  obtain ⟨d₁, d₂, d₃, d₄, d₅, d₆, d₇⟩ := d
  simp only [stream, List.append_assoc, encodeCanonical_append_eq_iff, mk.injEq, and_true,
    and_assoc]
  rfl

/-- **When the canonical command encoding is injective.**  Two contents with the
same stream are equal unless they are ambiguous, and ambiguous contents are
different contents with the same stream. -/
theorem stream_injective_iff (c d : CommandContent) :
    (c.stream = d.stream → c = d) ↔ ¬ c.Ambiguous d := by
  constructor
  · rintro hinj ⟨hrest, hamb⟩
    have hne : c.command ≠ d.command ∧ c.command.encode = d.command.encode := by
      rcases hamb with hamb | hamb
      · exact hamb.encode_eq
      · exact ⟨hamb.encode_eq.1.symm, hamb.encode_eq.2.symm⟩
    exact hne.1 (congrArg command (hinj (stream_eq_iff.mpr ⟨hrest, hne.2⟩)))
  · intro hamb hstream
    obtain ⟨hrest, hbytes⟩ := stream_eq_iff.mp hstream
    rcases ThreadCommand.eq_or_ambiguous_of_encode hbytes with heq | hamb'
    · rw [← hrest, ← heq]
    · exact absurd ⟨hrest, hamb'⟩ hamb

/-- Reconciling a session with empty dynamic tools and no provider, and
reconciling it with the provider `"\x00"` and no dynamic tools, are hashed from
the same bytes. -/
theorem stream_not_injective :
    let content (command : ThreadCommand) : CommandContent :=
      { schemaVersion := threadStoreSchemaVersion
        commandId := ⟨⟨Vector.replicate 16 1⟩⟩
        threadId := ⟨⟨Vector.replicate 16 2⟩⟩
        expectedRevision := ⟨1⟩
        actor := .runtime
        correlationId := none
        command }
    let c := content (.reconcileSessionMetadata none (some ⟨none, none, none⟩)
      (some (.inlineText (.lit ""))))
    let d := content (.reconcileSessionMetadata none (some ⟨none, some (.lit "\x00"), none⟩) none)
    c.stream = d.stream ∧ c ≠ d := by
  decide

end CommandContent

/-- The command identity that is left once the content has been hashed. -/
structure ThreadCommandHeader where
  commandId : CommandId
  threadId : ThreadId
  expectedRevision : ThreadRevision
  commandDigest : Digest
deriving DecidableEq

/-- `ThreadCommandHeader::new`. -/
def ThreadCommandHeader.new (sha256 : Bytes → Digest) (commandId : CommandId)
    (threadId : ThreadId) (expectedRevision : ThreadRevision) (actor : ThreadActor)
    (correlationId : Option Str) (command : ThreadCommand) : ThreadCommandHeader :=
  { commandId, threadId, expectedRevision
    commandDigest := CommandContent.computeCommandDigest sha256
      { schemaVersion := threadStoreSchemaVersion
        commandId, threadId, expectedRevision, actor, correlationId, command } }

end Praxis.Contracts
