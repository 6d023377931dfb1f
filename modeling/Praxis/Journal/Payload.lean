import Praxis.Foundation.Hash
import Praxis.Foundation.Json
import Praxis.Journal.Format

/-!
# The JSON of a frame, and the crates it is written with

`Externals` leaves open what `serde_json`, `sha2`, `crc32c` and `uuid` compute.
This module says what they compute for the types of the journal: the text that the
`Serialize` implementations of `event.rs`, `receipt.rs` and `format.rs` produce for
a stored batch, and the hash functions by their definitions.

Every one of these `Serialize` implementations is injective, options apart from
options of options, and so is the text (`toJson_injective`).  A reader that inverts
it exists, and with it `crates` is an instance of `Externals` that round-trips
(`crates_roundTrips`): the one hypothesis of the development about other crates
holds of the functions the program runs with.
-/

namespace Praxis.Journal

open Foundation Contracts

/-! ## Serialisation -/

/-- Types with a `serde::Serialize` implementation, by the JSON value it writes. -/
class Serialize (α : Type) where
  /-- The value `serialize` writes. -/
  serialize : α → Json

export Serialize (serialize)

/-- A value can be read back from what it is serialised to. -/
class InjectiveSerialize (α : Type) [Serialize α] : Prop where
  injective : Function.Injective (serialize : α → Json)

/-- Moreover no value is serialised to `null`. -/
class LawfulSerialize (α : Type) [Serialize α] : Prop extends InjectiveSerialize α where
  ne_null : ∀ a : α, serialize a ≠ .null

@[simp] theorem serialize_inj {α : Type} [Serialize α] [InjectiveSerialize α] {a b : α} :
    serialize a = serialize b ↔ a = b :=
  InjectiveSerialize.injective.eq_iff

/-! ### Scalars -/

/-- The number of an unsigned integer. -/
def unsigned (n : Nat) (h : n < 2 ^ 64) : Json.Number := ⟨n, by omega, by omega⟩

instance : Serialize Bool := ⟨.bool⟩

instance : Serialize UInt8 :=
  ⟨fun n ↦ .number (unsigned n.toNat (by have := n.toNat_lt; omega))⟩

instance : Serialize UInt32 :=
  ⟨fun n ↦ .number (unsigned n.toNat (by have := n.toNat_lt; omega))⟩

instance : Serialize UInt64 := ⟨fun n ↦ .number (unsigned n.toNat n.toNat_lt)⟩

instance : Serialize Int64 :=
  ⟨fun n ↦ .number ⟨n.toInt, n.le_toInt, by have := n.toInt_lt; omega⟩⟩

instance : Serialize Str := ⟨fun s ↦ .string s.asBytes⟩

instance : LawfulSerialize Bool where
  injective _ _ h := Json.bool.inj h
  ne_null _ h := nomatch h

instance : LawfulSerialize UInt8 where
  injective m n h := by
    have hval := congrArg Json.Number.val (Json.number.inj h)
    exact UInt8.toNat_inj.mp (Int.ofNat_inj.mp hval)
  ne_null _ h := nomatch h

instance : LawfulSerialize UInt32 where
  injective m n h := by
    have hval := congrArg Json.Number.val (Json.number.inj h)
    exact UInt32.toNat_inj.mp (Int.ofNat_inj.mp hval)
  ne_null _ h := nomatch h

instance : LawfulSerialize UInt64 where
  injective m n h := by
    have hval := congrArg Json.Number.val (Json.number.inj h)
    exact UInt64.toNat_inj.mp (Int.ofNat_inj.mp hval)
  ne_null _ h := nomatch h

instance : LawfulSerialize Int64 where
  injective m n h := by
    have hval := congrArg Json.Number.val (Json.number.inj h)
    exact Int64.toInt_inj.mp hval
  ne_null _ h := nomatch h

instance : LawfulSerialize Str where
  injective _ _ h := Str.asBytes_injective (Json.string.inj h)
  ne_null _ h := nomatch h

/-! ### Options and sequences -/

instance {α : Type} [Serialize α] : Serialize (Option α) :=
  ⟨fun | some a => serialize a | none => .null⟩

instance {α : Type} [Serialize α] : Serialize (List α) := ⟨fun as ↦ .array (as.map serialize)⟩

instance {α : Type} [Serialize α] : Serialize (RVec α) := ⟨fun as ↦ serialize as.toList⟩

instance {α : Type} [Serialize α] [LawfulSerialize α] : InjectiveSerialize (Option α) where
  injective := by
    rintro (_ | a) (_ | b) h
    · rfl
    · exact absurd h.symm (LawfulSerialize.ne_null b)
    · exact absurd h (LawfulSerialize.ne_null a)
    · exact congrArg some (InjectiveSerialize.injective h)

instance {α : Type} [Serialize α] [InjectiveSerialize α] : LawfulSerialize (List α) where
  injective _ _ h := InjectiveSerialize.injective.list_map (Json.array.inj h)
  ne_null _ h := nomatch h

instance {α : Type} [Serialize α] [InjectiveSerialize α] : LawfulSerialize (RVec α) where
  injective _ _ h := RVec.toList_injective (InjectiveSerialize.injective h)
  ne_null _ h := nomatch h

/-! ### Identifiers, digests and revisions -/

/-- `uuid::fmt::Hyphenated`, in lower case. -/
def Uuid.hyphenated (u : Uuid) : Bytes :=
  (slice u.asBytes 0 4).flatMap Json.hexByte ++ 0x2D ::
    ((slice u.asBytes 4 2).flatMap Json.hexByte ++ 0x2D ::
      ((slice u.asBytes 6 2).flatMap Json.hexByte ++ 0x2D ::
        ((slice u.asBytes 8 2).flatMap Json.hexByte ++ 0x2D ::
          (slice u.asBytes 10 6).flatMap Json.hexByte)))

theorem Uuid.hyphenated_injective : Function.Injective Uuid.hyphenated := by
  intro u v h
  have hhex : SelfDelimiting Json.hexByte := .of_width 2 (fun _ ↦ rfl) Json.hexByte_injective
  have hlen : ∀ offset n, offset + n ≤ 16 →
      (slice u.asBytes offset n).length = (slice v.asBytes offset n).length := by
    intro offset n hn
    simp [slice]
  unfold Uuid.hyphenated at h
  obtain ⟨h₀, h⟩ := hhex.flatMap_of_length _ _ _ _ (hlen 0 4 (by decide)) h
  obtain ⟨h₁, h⟩ := hhex.flatMap_of_length _ _ _ _ (hlen 4 2 (by decide)) (List.cons.inj h).2
  obtain ⟨h₂, h⟩ := hhex.flatMap_of_length _ _ _ _ (hlen 6 2 (by decide)) (List.cons.inj h).2
  obtain ⟨h₃, h⟩ := hhex.flatMap_of_length _ _ _ _ (hlen 8 2 (by decide)) (List.cons.inj h).2
  obtain ⟨h₄, -⟩ := hhex.flatMap_of_length _ _ [] [] (hlen 10 6 (by decide))
    (by rw [List.append_nil, List.append_nil]; exact (List.cons.inj h).2)
  have hparts : ∀ w : Uuid, w.asBytes = slice w.asBytes 0 4 ++ (slice w.asBytes 4 2 ++
      (slice w.asBytes 6 2 ++ (slice w.asBytes 8 2 ++ slice w.asBytes 10 6))) := by
    intro w
    rw [← slice_add w.asBytes 8 2 6, ← slice_add w.asBytes 6 2 8, ← slice_add w.asBytes 4 2 10,
      ← slice_add w.asBytes 0 4 12]
    exact (List.take_of_length_le (by simp)).symm
  exact Uuid.asBytes_injective (by rw [hparts u, hparts v, h₀, h₁, h₂, h₃, h₄])

instance {k : IdKind} : Serialize (Id k) := ⟨fun i ↦ .string (Uuid.hyphenated i.uuid)⟩

instance : Serialize Digest := ⟨fun d ↦ serialize d.asBytes⟩

instance : Serialize ThreadRevision := ⟨fun r ↦ serialize r.value⟩

instance {k : IdKind} : LawfulSerialize (Id k) where
  injective := by
    rintro ⟨u⟩ ⟨v⟩ h
    exact congrArg Id.mk (Uuid.hyphenated_injective (Json.string.inj h))
  ne_null _ h := nomatch h

instance : LawfulSerialize Digest where
  injective _ _ h := Digest.asBytes_injective (InjectiveSerialize.injective (α := List UInt8) h)
  ne_null _ h := nomatch h

instance : LawfulSerialize ThreadRevision where
  injective := by
    rintro ⟨r⟩ ⟨q⟩ h
    exact congrArg ThreadRevision.mk (InjectiveSerialize.injective h)
  ne_null _ h := nomatch h

/-! ### Objects -/

/-- The bytes of a field name or of a variant name. -/
def key (name : String) : Bytes := name.toByteArray.data.toList

@[simp] theorem key_inj {s t : String} : key s = key t ↔ s = t := by
  refine ⟨fun h ↦ ?_, fun h ↦ by rw [h]⟩
  exact String.toByteArray_inj.mp (ByteArray.ext (Array.toList_inj.mp h))

/-- A field of an object. -/
def field {α : Type} [Serialize α] (name : String) (a : α) : Bytes × Json := (key name, serialize a)

/-- A field that is skipped when it is `None`. -/
def optionalField {α : Type} [Serialize α] (name : String) : Option α → List (Bytes × Json)
  | some a => [field name a]
  | none => []

@[simp] theorem field_inj {α : Type} [Serialize α] [InjectiveSerialize α] {name : String}
    {a b : α} : field name a = field name b ↔ a = b := by
  simp [field]

/-- A field that may be skipped, in front of fields with other names. -/
theorem optionalField_append_inj {α : Type} [Serialize α] [InjectiveSerialize α] {name : String}
    {a b : Option α} {s t : List (Bytes × Json)} (hs : ∀ f ∈ s, f.1 ≠ key name)
    (ht : ∀ f ∈ t, f.1 ≠ key name) :
    optionalField name a ++ s = optionalField name b ++ t ↔ a = b ∧ s = t := by
  rcases a with _ | a <;> rcases b with _ | b
  · simp [optionalField]
  · simp only [optionalField, List.nil_append, List.cons_append, reduceCtorEq, false_and, iff_false]
    rintro rfl
    exact hs _ List.mem_cons_self rfl
  · simp only [optionalField, List.nil_append, List.cons_append, reduceCtorEq, false_and, iff_false]
    rintro rfl
    exact ht _ List.mem_cons_self rfl
  · simp [optionalField]

theorem key_of_mem_optionalField {α : Type} [Serialize α] {name : String} {a : Option α}
    {f : Bytes × Json} (h : f ∈ optionalField name a) : f.1 = key name := by
  cases a with
  | none => cases h
  | some a => rw [List.mem_singleton.mp h, field]

/-- A unit variant of an enumeration that is renamed to `snake_case`. -/
def unitVariant (name : String) : Json := .string (key name)

/-- A variant with `tag = "kind"` and its content. -/
def taggedVariant (name : Bytes) (content : List (Bytes × Json)) : Json :=
  .object ((key "kind", .string name) :: content)

@[simp] theorem unitVariant_inj {s t : String} : unitVariant s = unitVariant t ↔ s = t := by
  simp [unitVariant]

@[simp] theorem taggedVariant_inj {m n : Bytes} {s t : List (Bytes × Json)} :
    taggedVariant m s = taggedVariant n t ↔ m = n ∧ s = t := by
  simp [taggedVariant]

/-! ## Events -/

instance : Serialize ThreadRevisionRef :=
  ⟨fun r ↦ .object [field "thread_id" r.threadId, field "revision" r.revision]⟩

instance : Serialize ThreadActor where
  serialize
    | .user => taggedVariant (key "user") []
    | .agent => taggedVariant (key "agent") []
    | .runtime => taggedVariant (key "runtime") []
    | .system => taggedVariant (key "system") []
    | .importer name => taggedVariant (key "importer") [field "value" name]

instance : Serialize ContentRef where
  serialize
    | .inlineText text => taggedVariant (key "inline_text") [field "text" text]
    | .artifact digest bytes mediaType =>
        taggedVariant (key "artifact")
          [field "digest" digest, field "bytes" bytes, field "media_type" mediaType]

instance : Serialize TranscriptItemKind where
  serialize
    | .userMessage => unitVariant "user_message"
    | .assistantMessage => unitVariant "assistant_message"
    | .reasoningSummary => unitVariant "reasoning_summary"
    | .toolCall => unitVariant "tool_call"
    | .toolResult => unitVariant "tool_result"
    | .fileChange => unitVariant "file_change"
    | .collaborationAction => unitVariant "collaboration_action"
    | .systemNotice => unitVariant "system_notice"
    | .opaqueImported => unitVariant "opaque_imported"

instance : Serialize TurnAbortReason where
  serialize
    | .interrupted => taggedVariant (key "interrupted") []
    | .replaced => taggedVariant (key "replaced") []
    | .reviewEnded => taggedVariant (key "review_ended") []
    | .other detail => taggedVariant (key "other") [field "detail" detail]

instance : Serialize AgentEventRoute where
  serialize
    | .turnStarted => unitVariant "turn_started"
    | .userMessage => unitVariant "user_message"
    | .assistantMessage => unitVariant "assistant_message"
    | .transcript => unitVariant "transcript"
    | .other => unitVariant "other"

instance : LawfulSerialize ThreadRevisionRef where
  injective := by
    rintro ⟨i, r⟩ ⟨j, q⟩ h
    simpa [serialize] using h
  ne_null _ h := nomatch h

instance : LawfulSerialize ThreadActor where
  injective a b h := by
    cases a <;> cases b <;> simp_all [serialize]
  ne_null a h := by cases a <;> cases h

instance : LawfulSerialize ContentRef where
  injective a b h := by
    cases a <;> cases b <;> simp_all [serialize]
  ne_null a h := by cases a <;> cases h

instance : LawfulSerialize TranscriptItemKind where
  injective a b h := by
    cases a <;> cases b <;> simp_all [serialize]
  ne_null a h := by cases a <;> cases h

instance : LawfulSerialize TurnAbortReason where
  injective a b h := by
    cases a <;> cases b <;> simp_all [serialize]
  ne_null a h := by cases a <;> cases h

instance : LawfulSerialize AgentEventRoute where
  injective a b h := by
    cases a <;> cases b <;> simp_all [serialize]
  ne_null a h := by cases a <;> cases h

/-- The fields of a variant of `ThreadEventBody`. -/
def bodyFields : ThreadEventBody → List (Bytes × Json)
  | .threadCreated source workspace parent =>
      [field "source" source, field "workspace" workspace, field "parent" parent]
  | .threadNameSet name => [field "name" name]
  | .threadSummarySet summary => [field "summary" summary]
  | .threadArchived archived => [field "archived" archived]
  | .threadWorkspaceSet workspace => [field "workspace" workspace]
  | .turnStarted turnId collaborationMode =>
      [field "turn_id" turnId, field "collaboration_mode" collaborationMode]
  | .turnExecutionContextCaptured turnId context =>
      [field "turn_id" turnId, field "context" context]
  | .nativeAgentEventRecorded agentSequence eventId turnId route payload =>
      [field "agent_sequence" agentSequence, field "event_id" eventId, field "turn_id" turnId,
        field "route" route, field "payload" payload]
  | .transcriptItemCreated itemId turnId itemKind content =>
      [field "item_id" itemId, field "turn_id" turnId, field "item_kind" itemKind,
        field "content" content]
  | .transcriptItemFinalized itemId content =>
      [field "item_id" itemId, field "content" content]
  | .transcriptItemCancelled itemId reason => [field "item_id" itemId, field "reason" reason]
  | .turnCompleted turnId => [field "turn_id" turnId]
  | .turnAborted turnId reason => [field "turn_id" turnId, field "reason" reason]
  | .turnFailed turnId errorCode message =>
      [field "turn_id" turnId, field "error_code" errorCode, field "message" message]
  | .modelContextBaselineReplaced basisRevision summary retainedItemIds =>
      [field "basis_revision" basisRevision, field "summary" summary,
        field "retained_item_ids" retainedItemIds]
  | .modelContextSnapshotReplaced basisRevision snapshot =>
      [field "basis_revision" basisRevision, field "snapshot" snapshot]
  | .modelContextRolledBack userTurns => [field "user_turns" userTurns]
  | .transcriptHeadMoved fromRevision toRevision reason =>
      [field "from_revision" fromRevision, field "to_revision" toRevision, field "reason" reason]
  | .contentRedacted itemId replacement reason =>
      [field "item_id" itemId, field "replacement" replacement, field "reason" reason]
  | .externalHistoryImported sourceFormat sourceFingerprint importerId importerVersion
      importedEventCount warningCount source =>
      [field "source_format" sourceFormat, field "source_fingerprint" sourceFingerprint,
        field "importer_id" importerId, field "importer_version" importerVersion,
        field "imported_event_count" importedEventCount, field "warning_count" warningCount,
        field "source" source]
  | .opaqueImportedEvent sourceFormat originalType payload =>
      [field "source_format" sourceFormat, field "original_type" originalType,
        field "payload" payload]
  | .modelContextItemRecorded itemId turnId content =>
      [field "item_id" itemId, field "turn_id" turnId, field "content" content]
  | .turnCostRecorded costMicros => [field "cost_micros" costMicros]
  | .threadResumeConfigSet model modelProvider reasoningEffort =>
      field "model" model :: (optionalField "model_provider" modelProvider ++
        [field "reasoning_effort" reasoningEffort])
  | .threadDynamicToolsSet tools => [field "tools" tools]
  | .threadPreviewSet preview firstUserMessage =>
      [field "preview" preview, field "first_user_message" firstUserMessage]
  | .agentEventMetadataReconciled generation => [field "generation" generation]
  | .agentEventTimelineReconciled generation createdAtUnixMs updatedAtUnixMs =>
      [field "generation" generation, field "created_at_unix_ms" createdAtUnixMs,
        field "updated_at_unix_ms" updatedAtUnixMs]

/-- The name of a variant in `snake_case` is the type name of the canonical
encoding. -/
instance : Serialize ThreadEventBody where
  serialize body :=
    taggedVariant body.typeName.asBytes [(key "payload", .object (bodyFields body))]

instance : Serialize ThreadEventEnvelope where
  serialize e := .object
    [field "schema_version" e.schemaVersion, field "thread_id" e.threadId,
      field "revision" e.revision, field "event_id" e.eventId, field "batch_id" e.batchId,
      field "sequence" e.sequence, field "recorded_at_unix_ms" e.recordedAtUnixMs,
      field "actor" e.actor, field "correlation_id" e.correlationId,
      field "causation_id" e.causationId, field "body" e.body,
      field "payload_digest" e.payloadDigest,
      field "previous_record_digest" e.previousRecordDigest,
      field "record_digest" e.recordDigest]

/-- Bodies with the same type name and the same fields are equal. -/
theorem eq_of_typeName_of_bodyFields {a b : ThreadEventBody} (hn : a.typeName = b.typeName)
    (hf : bodyFields a = bodyFields b) : a = b := by
  have hprovider : ∀ (p q : Option Str) (d e : Option Str),
      optionalField "model_provider" p ++ [field "reasoning_effort" d] =
        optionalField "model_provider" q ++ [field "reasoning_effort" e] ↔ p = q ∧ d = e := by
    intro p q d e
    rw [optionalField_append_inj (by simp [field]) (by simp [field])]
    simp
  cases a <;> cases b <;> simp [ThreadEventBody.typeName] at hn
  all_goals simpa [bodyFields, hprovider] using hf

instance : LawfulSerialize ThreadEventBody where
  injective a b h := by
    have h := taggedVariant_inj.mp h
    simp only [List.cons.injEq, Prod.mk.injEq, true_and, and_true, Json.object.injEq] at h
    exact eq_of_typeName_of_bodyFields (Str.asBytes_injective h.1) h.2
  ne_null _ h := nomatch h

instance : LawfulSerialize ThreadEventEnvelope where
  injective a b h := by
    simp only [serialize, Json.object.injEq, List.cons.injEq, field_inj] at h
    obtain ⟨h₁, h₂, h₃, h₄, h₅, h₆, h₇, h₈, h₉, h₁₀, h₁₁, h₁₂, h₁₃, h₁₄, -⟩ := h
    exact ThreadEventEnvelope.ext h₁ h₂ h₃ h₄ h₅ h₆ h₇ h₈ h₉ h₁₀ h₁₁ h₁₂ h₁₃ h₁₄
  ne_null _ h := nomatch h

/-! ## Receipts -/

instance : Serialize ReceiptStatus where
  serialize
    | .applied => unitVariant "applied"
    | .noOp => unitVariant "no_op"
    | .rejected => unitVariant "rejected"

instance : Serialize AchievedDurability where
  serialize
    | .none => unitVariant "none"
    | .volatile => unitVariant "volatile"
    | .buffered => unitVariant "buffered"
    | .durable => unitVariant "durable"

instance : Serialize ReceiptDiagnostic :=
  ⟨fun d ↦ .object [field "code" d.code, field "message" d.message, field "path" d.path]⟩

instance : Serialize CommittedEventRef :=
  ⟨fun r ↦ .object [field "event_id" r.eventId, field "revision" r.revision]⟩

instance : LawfulSerialize ReceiptStatus where
  injective a b h := by
    cases a <;> cases b <;> simp_all [serialize]
  ne_null a h := by cases a <;> cases h

instance : LawfulSerialize AchievedDurability where
  injective a b h := by
    cases a <;> cases b <;> simp_all [serialize]
  ne_null a h := by cases a <;> cases h

instance : LawfulSerialize ReceiptDiagnostic where
  injective := by
    rintro ⟨c, m, p⟩ ⟨c', m', p'⟩ h
    simpa [serialize] using h
  ne_null _ h := nomatch h

instance : LawfulSerialize CommittedEventRef where
  injective := by
    rintro ⟨i, r⟩ ⟨j, q⟩ h
    simpa [serialize] using h
  ne_null _ h := nomatch h

instance : Serialize ThreadCommandReceipt where
  serialize r := .object
    [field "schema_version" r.schemaVersion, field "receipt_id" r.receiptId,
      field "command_id" r.commandId, field "command_digest" r.commandDigest,
      field "batch_id" r.batchId, field "status" r.status,
      field "expected_revision" r.expectedRevision, field "revision_before" r.revisionBefore,
      field "revision_after" r.revisionAfter, field "events" r.events,
      field "batch_digest" r.batchDigest, field "durability" r.durability,
      field "diagnostics" r.diagnostics, field "recorded_at_unix_ms" r.recordedAtUnixMs]

instance : LawfulSerialize ThreadCommandReceipt where
  injective a b h := by
    simp only [serialize, Json.object.injEq, List.cons.injEq, field_inj] at h
    obtain ⟨h₁, h₂, h₃, h₄, h₅, h₆, h₇, h₈, h₉, h₁₀, h₁₁, h₁₂, h₁₃, h₁₄, -⟩ := h
    exact ThreadCommandReceipt.ext h₁ h₂ h₃ h₄ h₅ h₆ h₇ h₈ h₉ h₁₀ h₁₁ h₁₂ h₁₃ h₁₄
  ne_null _ h := nomatch h

/-! ## Stored batches -/

/-- The fields behind the batch digest.  The first three of them are skipped when
they are `None`. -/
def trailingFields (stored : StoredBatch) : List (Bytes × Json) :=
  optionalField "receipt" stored.legacyReceipt ++
    (optionalField "durability" stored.durability ++
      (optionalField "receipt_schema_version" stored.receiptSchemaVersion ++
        [field "events" stored.events]))

instance : Serialize StoredBatch where
  serialize b := .object
    (field "schema_version" b.schemaVersion :: field "thread_id" b.threadId ::
      field "batch_id" b.batchId :: field "command_id" b.commandId ::
      field "command_digest" b.commandDigest :: field "expected_revision" b.expectedRevision ::
      field "recorded_at_unix_ms" b.recordedAtUnixMs :: field "batch_digest" b.batchDigest ::
      trailingFields b)

theorem trailingFields_inj {a b : StoredBatch} :
    trailingFields a = trailingFields b ↔ a.legacyReceipt = b.legacyReceipt ∧
      a.durability = b.durability ∧ a.receiptSchemaVersion = b.receiptSchemaVersion ∧
      a.events = b.events := by
  have hevents : ∀ (c : StoredBatch) (name : String), name ≠ "events" →
      ∀ f ∈ [field "events" c.events], f.1 ≠ key name := by
    intro c name hne f hf
    rw [List.mem_singleton.mp hf]
    exact fun h ↦ hne (key_inj.mp h).symm
  have hversion : ∀ (c : StoredBatch) (name : String), name ≠ "events" →
      name ≠ "receipt_schema_version" →
      ∀ f ∈ optionalField "receipt_schema_version" c.receiptSchemaVersion ++
        [field "events" c.events], f.1 ≠ key name := by
    intro c name hne hne' f hf
    rcases List.mem_append.mp hf with hf | hf
    · rw [key_of_mem_optionalField hf]
      exact fun h ↦ hne' (key_inj.mp h).symm
    · exact hevents c name hne f hf
  have hdurability : ∀ c : StoredBatch, ∀ f ∈ optionalField "durability" c.durability ++
      (optionalField "receipt_schema_version" c.receiptSchemaVersion ++
        [field "events" c.events]), f.1 ≠ key "receipt" := by
    intro c f hf
    rcases List.mem_append.mp hf with hf | hf
    · rw [key_of_mem_optionalField hf]
      simp
    · exact hversion c _ (by decide) (by decide) f hf
  unfold trailingFields
  rw [optionalField_append_inj (hdurability a) (hdurability b),
    optionalField_append_inj (hversion a _ (by decide) (by decide))
      (hversion b _ (by decide) (by decide)),
    optionalField_append_inj (hevents a _ (by decide)) (hevents b _ (by decide))]
  simp

instance : LawfulSerialize StoredBatch where
  injective a b h := by
    simp only [serialize, Json.object.injEq, List.cons.injEq, field_inj, trailingFields_inj] at h
    obtain ⟨h₁, h₂, h₃, h₄, h₅, h₆, h₇, h₈, h₉, h₁₀, h₁₁, h₁₂⟩ := h
    exact StoredBatch.ext h₁ h₂ h₃ h₄ h₅ h₆ h₇ h₈ h₉ h₁₀ h₁₁ h₁₂
  ne_null _ h := nomatch h

/-- The text `serde_json` writes for a batch. -/
def payloadText (stored : StoredBatch) : Bytes := (serialize stored).render

/-- **The payload of a frame determines the batch it was written from.** -/
theorem payloadText_injective : Function.Injective payloadText :=
  Json.render_injective.comp InjectiveSerialize.injective

/-! ## The crates -/

/-- `Uuid::new_v5`: the SHA-1 hash of the namespace and the name, with the version
and the variant written over it. -/
def Uuid.newV5 (namespaceBytes name : Bytes) : Uuid :=
  let hash := sha1 (namespaceBytes ++ name)
  ⟨Vector.ofFn fun i ↦
    if i.val = 6 then hash.getD 6 0 &&& 0x0f ||| 0x50
    else if i.val = 8 then hash.getD 8 0 &&& 0x3f ||| 0x80
    else hash.getD i 0⟩

/-- `ReceiptId::NAMESPACE`. -/
def receiptNamespace : Bytes := beBytes 16 0x43d5e6b676105c89a255673020ced910

/-- `sha2::Sha256`, as a digest. -/
@[irreducible]
def sha256Digest (bytes : Bytes) : Digest := ⟨Vector.ofFn fun i ↦ (sha256 bytes).getD i 0⟩

/-- The crates the journal is built with.  `serde_json` reads more texts than it
writes; the reader here only reads those. -/
noncomputable def crates : Externals where
  sha256 := sha256Digest
  crc32c := Foundation.crc32c
  receiptIdForCommand commandId := ⟨Uuid.newV5 receiptNamespace commandId.asBytes⟩
  toJson := payloadText
  fromJson text :=
    open Classical in
    if h : ∃ stored, payloadText stored = text then .ok h.choose else .error "invalid payload"

theorem crates_roundTrips : crates.RoundTrips := by
  intro stored
  have hexists : ∃ stored', payloadText stored' = payloadText stored := ⟨stored, rfl⟩
  have hread : crates.fromJson (payloadText stored) = .ok hexists.choose := dif_pos hexists
  exact hread.trans (congrArg Except.ok (payloadText_injective hexists.choose_spec))

end Praxis.Journal
