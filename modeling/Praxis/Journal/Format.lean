import Praxis.Contracts.Command
import Praxis.Contracts.Receipt

/-!
# The segment and frame format

The byte format of the thread journal (`format.rs`).  A segment file is a header
of eighty bytes followed by frames; a frame is a header, a JSON payload and a
commit trailer, each behind a CRC32C, with the payload bound to the trailer by a
canonical batch digest.

SHA-256, CRC32C, the UUID hash and `serde_json` come from other crates.  They are
the fields of `Externals`; the one property of them that the development uses is
`Externals.RoundTrips`.
-/

namespace Praxis.Journal

open Foundation Contracts

/-! ## Batches -/

inductive JournalDurability where
  | buffered
  | durable
deriving DecidableEq

structure JournalBatch where
  threadId : ThreadId
  batchId : BatchId
  commandId : CommandId
  commandDigest : Digest
  expectedRevision : ThreadRevision
  recordedAtUnixMs : Int64
  events : List ThreadEventEnvelope
deriving DecidableEq

/-- `JournalBatch::new`. -/
def JournalBatch.new (command : ThreadCommandHeader) (batchId : BatchId)
    (recordedAtUnixMs : Int64) (events : List ThreadEventEnvelope) : JournalBatch :=
  { threadId := command.threadId
    batchId
    commandId := command.commandId
    commandDigest := command.commandDigest
    expectedRevision := command.expectedRevision
    recordedAtUnixMs, events }

/-- The payload of a frame.  `StoredEvents` stores an empty, a singleton or a
longer sequence in different ways and reads as a slice in all of them; it is
modelled by that slice. -/
@[ext]
structure StoredBatch where
  schemaVersion : UInt32
  threadId : ThreadId
  batchId : BatchId
  commandId : CommandId
  commandDigest : Digest
  expectedRevision : ThreadRevision
  recordedAtUnixMs : Int64
  batchDigest : Digest
  legacyReceipt : Option ThreadCommandReceipt
  durability : Option AchievedDurability
  receiptSchemaVersion : Option UInt32
  events : List ThreadEventEnvelope
deriving DecidableEq

/-- The functions of other crates. -/
structure Externals where
  /-- `sha2::Sha256`. -/
  sha256 : Bytes → Digest
  /-- `crc32c::crc32c`. -/
  crc32c : Bytes → UInt32
  /-- `ReceiptId::for_command`, a `Uuid::new_v5`. -/
  receiptIdForCommand : CommandId → ReceiptId
  /-- The text `serde_json::to_writer` produces. -/
  toJson : StoredBatch → Bytes
  /-- `serde_json::from_slice`. -/
  fromJson : Bytes → Except String StoredBatch

/-- `serde_json` reads back every batch it writes. -/
def Externals.RoundTrips (X : Externals) : Prop :=
  ∀ stored : StoredBatch, X.fromJson (X.toJson stored) = .ok stored

/-! ## Constants -/

/-- `SEGMENT_HEADER_LEN`. -/
def segmentHeaderLen : Nat := 80
/-- `FRAME_HEADER_LEN`. -/
def frameHeaderLen : Nat := 184
/-- `FRAME_TRAILER_LEN`. -/
def frameTrailerLen : Nat := 52
/-- `SEGMENT_MAGIC`, `PRXTSJ01`. -/
def segmentMagic : Bytes := [0x50, 0x52, 0x58, 0x54, 0x53, 0x4A, 0x30, 0x31]
/-- `FRAME_MAGIC`, `PRXBTH01`. -/
def frameMagic : Bytes := [0x50, 0x52, 0x58, 0x42, 0x54, 0x48, 0x30, 0x31]
/-- `TRAILER_MAGIC`, `PRXCOM01`. -/
def trailerMagic : Bytes := [0x50, 0x52, 0x58, 0x43, 0x4F, 0x4D, 0x30, 0x31]
/-- `FORMAT_VERSION`. -/
def formatVersion : UInt16 := 1
/-- `JSON_CODEC`. -/
def jsonCodec : UInt8 := 1
/-- `BATCH_DIGEST_DOMAIN`. -/
def batchDigestDomain : Str := .lit "praxis.thread-store.journal-batch.v1"
/-- `LEGACY_STORED_BATCH_SCHEMA_VERSION`. -/
def legacyStoredBatchSchemaVersion : UInt32 := 1
/-- `STORED_BATCH_SCHEMA_VERSION`. -/
def storedBatchSchemaVersion : UInt32 := 2
/-- `STORED_RECEIPT_SCHEMA_VERSION`. -/
def storedReceiptSchemaVersion : UInt32 := 1

/-! ## Reading fields -/

/-- `u16_at`. -/
def u16At (bytes : Bytes) (offset : Nat) : UInt16 := UInt16.ofNat (ofLeBytes (slice bytes offset 2))

/-- `u32_at`. -/
def u32At (bytes : Bytes) (offset : Nat) : UInt32 := UInt32.ofNat (ofLeBytes (slice bytes offset 4))

/-- `u64_at`. -/
def u64At (bytes : Bytes) (offset : Nat) : UInt64 := UInt64.ofNat (ofLeBytes (slice bytes offset 8))

/-- A fixed-size array copied out of the bytes. -/
def arrayAt (n : Nat) (bytes : Bytes) (offset : Nat) : Vector UInt8 n :=
  Vector.ofFn fun i ↦ (slice bytes offset n).getD i 0

/-- `digest_at`. -/
def digestAt (bytes : Bytes) (offset : Nat) : Digest := ⟨arrayAt 32 bytes offset⟩

/-! ## Segment headers -/

structure SegmentHeader where
  sequence : UInt64
  firstRevision : ThreadRevision
  threadId : Vector UInt8 16
  previousRecordDigest : Digest
deriving DecidableEq

section Codec

variable (X : Externals)

/-- Fields in a row with their CRC behind them. -/
def checksummed (fields : List Bytes) : Bytes :=
  fields.flatten ++ leBytes 4 (X.crc32c fields.flatten).toNat

/-- What the CRC of a segment header covers. -/
def segmentHeaderFields (h : SegmentHeader) : List Bytes :=
  [segmentMagic, leBytes 2 formatVersion.toNat, leBytes 2 segmentHeaderLen,
    leBytes 8 h.sequence.toNat, leBytes 8 h.firstRevision.toNat, h.threadId.toList,
    h.previousRecordDigest.asBytes]

/-- `encode_segment_header`. -/
def encodeSegmentHeader (h : SegmentHeader) : Bytes := checksummed X (segmentHeaderFields h)

/-- `decode_segment_header`. -/
def decodeSegmentHeader (bytes : Bytes) : Except String SegmentHeader :=
  if bytes.length ≠ segmentHeaderLen then .error "incomplete segment header"
  else if bytes.take 8 ≠ segmentMagic then .error "invalid segment magic"
  else if u16At bytes 8 ≠ formatVersion then .error "unsupported segment format version"
  else if (u16At bytes 10).toNat ≠ segmentHeaderLen then .error "invalid segment header length"
  else if u32At bytes (segmentHeaderLen - 4) ≠ X.crc32c (bytes.take (segmentHeaderLen - 4)) then
    .error "segment header CRC32C mismatch"
  else .ok
    { sequence := u64At bytes 12
      firstRevision := ⟨u64At bytes 20⟩
      threadId := arrayAt 16 bytes 28
      previousRecordDigest := digestAt bytes 44 }

end Codec

structure FrameHeader where
  payloadLen : UInt64
  startRevision : ThreadRevision
  endRevision : ThreadRevision
  eventCount : UInt32
  batchId : Vector UInt8 16
  commandId : Vector UInt8 16
  commandDigest : Digest
  previousRecordDigest : Digest
  lastRecordDigest : Digest
  payloadCrc32c : UInt32
deriving DecidableEq

section Codec

variable (X : Externals)

/-- What the CRC of a frame header covers. -/
def frameHeaderFields (h : FrameHeader) : List Bytes :=
  [frameMagic, leBytes 2 formatVersion.toNat, [jsonCodec], [0], leBytes 4 frameHeaderLen,
    leBytes 8 h.payloadLen.toNat, leBytes 8 h.startRevision.toNat, leBytes 8 h.endRevision.toNat,
    leBytes 4 h.eventCount.toNat, leBytes 4 0, h.batchId.toList, h.commandId.toList,
    h.commandDigest.asBytes, h.previousRecordDigest.asBytes, h.lastRecordDigest.asBytes,
    leBytes 4 h.payloadCrc32c.toNat]

/-- `encode_frame_header`. -/
def encodeFrameHeader (h : FrameHeader) : Bytes := checksummed X (frameHeaderFields h)

/-- `decode_frame_header`. -/
def decodeFrameHeader (bytes : Bytes) : Except String FrameHeader :=
  if bytes.length ≠ frameHeaderLen then .error "incomplete frame header"
  else if bytes.take 8 ≠ frameMagic then .error "invalid frame magic"
  else if u16At bytes 8 ≠ formatVersion ∨ bytes.getD 10 0 ≠ jsonCodec ∨ bytes.getD 11 0 ≠ 0 then
    .error "unsupported frame format or codec"
  else if (u32At bytes 12).toNat ≠ frameHeaderLen then .error "invalid frame header length"
  else if u32At bytes (frameHeaderLen - 4) ≠ X.crc32c (bytes.take (frameHeaderLen - 4)) then
    .error "frame header CRC32C mismatch"
  else .ok
    { payloadLen := u64At bytes 16
      startRevision := ⟨u64At bytes 24⟩
      endRevision := ⟨u64At bytes 32⟩
      eventCount := u32At bytes 40
      batchId := arrayAt 16 bytes 48
      commandId := arrayAt 16 bytes 64
      commandDigest := digestAt bytes 80
      previousRecordDigest := digestAt bytes 112
      lastRecordDigest := digestAt bytes 144
      payloadCrc32c := u32At bytes 176 }

/-- What the CRC of a commit trailer covers. -/
def trailerFields (frameLen : UInt64) (batchDigest : Digest) : List Bytes :=
  [trailerMagic, leBytes 8 frameLen.toNat, batchDigest.asBytes]

/-- `encode_trailer`. -/
def encodeTrailer (frameLen : UInt64) (batchDigest : Digest) : Bytes :=
  checksummed X (trailerFields frameLen batchDigest)

/-- `frame_len`. -/
def frameLen (header : FrameHeader) : Except String Nat :=
  if frameHeaderLen + frameTrailerLen + header.payloadLen.toNat < 2 ^ 64 then
    .ok (frameHeaderLen + frameTrailerLen + header.payloadLen.toNat)
  else .error "frame length overflow"

/-! ## Batch digests -/

/-- `compute_digest_fields`. -/
def computeDigestFields (threadId : ThreadId) (batchId : BatchId) (commandId : CommandId)
    (commandDigest : Digest) (expectedRevision : ThreadRevision) (recordedAtUnixMs : Int64)
    (events : List ThreadEventEnvelope) : Digest :=
  X.sha256 (domainBytes batchDigestDomain ++ encodeCanonical threadId ++ encodeCanonical batchId ++
    encodeCanonical commandId ++ encodeCanonical commandDigest ++
    encodeCanonical expectedRevision ++ encodeCanonical recordedAtUnixMs ++
    leBytes 8 events.length ++ events.flatMap fun event ↦ encodeCanonical event.recordDigest)

/-- `compute_batch_digest`. -/
def computeBatchDigest (batch : JournalBatch) : Digest :=
  computeDigestFields X batch.threadId batch.batchId batch.commandId batch.commandDigest
    batch.expectedRevision batch.recordedAtUnixMs batch.events

/-- `compute_stored_batch_digest`. -/
def computeStoredBatchDigest (batch : StoredBatch) : Digest :=
  computeDigestFields X batch.threadId batch.batchId batch.commandId batch.commandDigest
    batch.expectedRevision batch.recordedAtUnixMs batch.events

/-! ## Frames -/

structure EncodedFrame where
  bytes : Bytes
  header : FrameHeader
  stored : StoredBatch

structure DecodedFrame where
  header : FrameHeader
  stored : StoredBatch
deriving DecidableEq

/-- The durability a stored batch records for an append. -/
def JournalDurability.achieved : JournalDurability → AchievedDurability
  | .buffered => .buffered
  | .durable => .durable

/-- The stored batch `encode_batch` builds. -/
def storedBatch (batch : JournalBatch) (durability : JournalDurability) : StoredBatch :=
  { schemaVersion := storedBatchSchemaVersion
    threadId := batch.threadId
    batchId := batch.batchId
    commandId := batch.commandId
    commandDigest := batch.commandDigest
    expectedRevision := batch.expectedRevision
    recordedAtUnixMs := batch.recordedAtUnixMs
    batchDigest := computeBatchDigest X batch
    legacyReceipt := none
    durability := some durability.achieved
    receiptSchemaVersion := some storedReceiptSchemaVersion
    events := batch.events }

/-- The header `encode_batch` builds for a batch with the given first and last
event. -/
def frameHeader (stored : StoredBatch) (first last : ThreadEventEnvelope) (payload : Bytes) :
    FrameHeader :=
  { payloadLen := UInt64.ofNat payload.length
    startRevision := first.revision
    endRevision := last.revision
    eventCount := UInt32.ofNat stored.events.length
    batchId := stored.batchId.uuid.bytes
    commandId := stored.commandId.uuid.bytes
    commandDigest := stored.commandDigest
    previousRecordDigest := first.previousRecordDigest
    lastRecordDigest := last.recordDigest
    payloadCrc32c := X.crc32c payload }

/-- The three parts of a frame in order. -/
def frameBytes (header : FrameHeader) (stored : StoredBatch) (payload : Bytes) : Bytes :=
  encodeFrameHeader X header ++ (payload ++
    encodeTrailer X (UInt64.ofNat (frameHeaderLen + payload.length + frameTrailerLen))
      stored.batchDigest)

/-- `encode_batch`.  The payload writer stops the serialisation when the payload
passes the limit, and `Vec` panics when the frame passes `isize::MAX`; neither
has any effect outside the call. -/
def encodeBatch (batch : JournalBatch) (durability : JournalDurability) (maxPayloadBytes : Nat) :
    Except String EncodedFrame :=
  let stored := storedBatch X batch durability
  match stored.events.head?, stored.events.getLast? with
  | some first, some last =>
    if 2 ^ 32 ≤ stored.events.length then .error "event count exceeds the frame format"
    else
      let payload := X.toJson stored
      if maxPayloadBytes < payload.length then .error "frame payload exceeds configured maximum"
      else if isizeMax < frameHeaderLen + payload.length + frameTrailerLen then
        .error "capacity overflow"
      else
        let header := frameHeader X stored first last payload
        .ok { bytes := frameBytes X header stored payload, header, stored }
  | _, _ => .error "event batch is empty"

/-- `decode_complete_frame`. -/
def decodeCompleteFrame (bytes : Bytes) : Except String DecodedFrame :=
  if bytes.length < frameHeaderLen + frameTrailerLen then .error "incomplete frame"
  else match decodeFrameHeader X (bytes.take frameHeaderLen) with
  | .error reason => .error reason
  | .ok header =>
    match frameLen header with
    | .error reason => .error reason
    | .ok expectedLen =>
      if bytes.length ≠ expectedLen then .error "frame length does not match its header"
      else
        let payloadEnd := bytes.length - frameTrailerLen
        let payload := slice bytes frameHeaderLen (payloadEnd - frameHeaderLen)
        let trailer := bytes.drop payloadEnd
        if X.crc32c payload ≠ header.payloadCrc32c then .error "frame payload CRC32C mismatch"
        else if trailer.take 8 ≠ trailerMagic then .error "missing atomic batch commit trailer"
        else if (u64At trailer 8).toNat ≠ expectedLen then
          .error "commit trailer frame length mismatch"
        else if u32At trailer (frameTrailerLen - 4) ≠
            X.crc32c (trailer.take (frameTrailerLen - 4)) then
          .error "commit trailer CRC32C mismatch"
        else match X.fromJson payload with
        | .error error => .error s!"invalid batch payload: {error}"
        | .ok stored =>
          if digestAt trailer 16 ≠ stored.batchDigest then
            .error "commit trailer batch digest mismatch"
          else .ok { header, stored }

/-! ## Validation -/

/-- `is_committed_durability`. -/
def isCommittedDurability : AchievedDurability → Bool
  | .buffered | .durable => true
  | _ => false

/-- `receipt_events_match`. -/
def receiptEventsMatch (receipt : ThreadCommandReceipt) (events : List ThreadEventEnvelope) : Bool :=
  receipt.events.length == events.length &&
    (receipt.events.zip events).all fun (committed, event) ↦
      committed.eventId = event.eventId ∧ committed.revision = event.revision

/-- `validate_receipt_encoding`. -/
def validateReceiptEncoding (stored : StoredBatch) : Except String Unit :=
  if stored.schemaVersion = legacyStoredBatchSchemaVersion then
    if stored.durability.isSome ∨ stored.receiptSchemaVersion.isSome then
      .error "legacy stored batch contains canonical receipt metadata"
    else match stored.legacyReceipt with
    | none => .error "legacy stored batch is missing its receipt"
    | some receipt =>
      match receipt.validateCausality X.receiptIdForCommand stored.commandDigest with
      | .error error => .error ("invalid stored receipt: " ++ error.message)
      | .ok () =>
        if receipt.commandId ≠ stored.commandId ∨ receipt.batchId ≠ some stored.batchId ∨
            !receiptEventsMatch receipt stored.events ∨
            receipt.batchDigest ≠ some stored.batchDigest ∨
            receipt.recordedAtUnixMs ≠ stored.recordedAtUnixMs ∨
            !isCommittedDurability receipt.durability then
          .error "stored receipt does not describe its batch"
        else .ok ()
  else if stored.schemaVersion = storedBatchSchemaVersion then
    if stored.legacyReceipt.isSome ∨ !stored.durability.any isCommittedDurability ∨
        stored.receiptSchemaVersion ≠ some storedReceiptSchemaVersion then
      .error "canonical stored batch has invalid receipt metadata"
    else .ok ()
  else .error "unsupported stored batch schema version"

/-- The loop of `validate_stored_batch` over the events.  `prior` is the digest the
next event has to continue, `eventIds` the identifiers seen so far. -/
def validateEvents (threadId : ThreadId) (batchId : BatchId) (revisionBefore : ThreadRevision)
    (checkDuplicateIds : Bool) :
    Nat → Digest → List EventId → List ThreadEventEnvelope → Except String Unit
  | _, _, _, [] => .ok ()
  | index, prior, eventIds, event :: events =>
    match revisionBefore.checkedAdvance (UInt64.ofNat (index + 1)) with
    | none => .error "thread revision overflow"
    | some revision =>
      if event.threadId ≠ threadId ∨ event.batchId ≠ batchId ∨
          event.sequence ≠ UInt32.ofNat index ∨ event.revision ≠ revision ∨
          event.previousRecordDigest ≠ prior ∨ !event.hasValidDigests X.sha256 then
        .error s!"invalid event at batch sequence {index}"
      else if checkDuplicateIds ∧ event.eventId ∈ eventIds then
        .error "duplicate event id inside one batch"
      else validateEvents threadId batchId revisionBefore checkDuplicateIds (index + 1)
        event.recordDigest (event.eventId :: eventIds) events

/-- `validate_stored_batch`. -/
def validateStoredBatch (header : FrameHeader) (stored : StoredBatch) (threadId : ThreadId)
    (previousHead : ThreadHead) : Except String ThreadHead :=
  match validateReceiptEncoding X stored with
  | .error reason => .error reason
  | .ok () =>
    if stored.threadId ≠ threadId ∨ header.batchId ≠ stored.batchId.uuid.bytes ∨
        header.commandId ≠ stored.commandId.uuid.bytes ∨
        header.commandDigest ≠ stored.commandDigest then
      .error "frame identity does not match its payload"
    else if stored.expectedRevision ≠ previousHead.revision ∨
        header.previousRecordDigest ≠ previousHead.recordDigest then
      .error "batch does not continue the preceding thread head"
    else if header.eventCount = 0 ∨ header.eventCount.toNat ≠ stored.events.length then
      .error "frame event count does not match its payload"
    else match previousHead.revision.checkedNext with
    | none => .error "thread revision overflow"
    | some expectedStart =>
      if header.startRevision ≠ expectedStart then .error "frame start revision is not contiguous"
      else match validateEvents X threadId stored.batchId previousHead.revision
          (1 < stored.events.length) 0 previousHead.recordDigest [] stored.events with
      | .error reason => .error reason
      | .ok () =>
        match stored.events.getLast? with
        | none => .error "event batch is empty"
        | some last =>
          if header.endRevision ≠ last.revision ∨ header.lastRecordDigest ≠ last.recordDigest then
            .error "frame end does not match its final event"
          else if stored.batchDigest ≠ computeStoredBatchDigest X stored then
            .error "canonical batch digest mismatch"
          else .ok { revision := last.revision, recordDigest := last.recordDigest }

/-! ## Receipts -/

/-- `StoredBatch::derive_receipt`. -/
def deriveReceipt (stored : StoredBatch) : Except String ThreadCommandReceipt :=
  if stored.schemaVersion = legacyStoredBatchSchemaVersion then
    match stored.legacyReceipt with
    | some receipt => .ok receipt
    | none => .error "legacy stored batch is missing its receipt"
  else if stored.schemaVersion = storedBatchSchemaVersion then
    match stored.durability with
    | none => .error "stored batch is missing its durability"
    | some durability =>
      match stored.receiptSchemaVersion with
      | none => .error "stored batch is missing its receipt schema version"
      | some receiptSchemaVersion =>
        let events := stored.events.map fun event ↦
          { eventId := event.eventId, revision := event.revision : CommittedEventRef }
        .ok { ThreadCommandReceipt.applied X.receiptIdForCommand stored.commandId
                stored.commandDigest stored.batchId stored.expectedRevision events
                stored.batchDigest durability stored.recordedAtUnixMs with
              schemaVersion := receiptSchemaVersion }
  else .error "unsupported stored batch schema version"

end Codec

end Praxis.Journal
