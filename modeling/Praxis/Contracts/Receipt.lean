import Praxis.Contracts.Event

/-!
# Command receipts

What a command is answered with (`receipt.rs`), and the causality check that
recovery runs on the receipts stored by the first version of the batch format.

The receipt identifier is a version-5 UUID of the command identifier.  The hash
behind it is a parameter, `forCommand`.
-/

namespace Praxis.Contracts

open Foundation

inductive ReceiptStatus where
  | applied
  | noOp
  | rejected
deriving DecidableEq

inductive AchievedDurability where
  | none
  | volatile
  | buffered
  | durable
deriving DecidableEq

structure ReceiptDiagnostic where
  code : Str
  message : Str
  path : Option Str
deriving DecidableEq

structure CommittedEventRef where
  eventId : EventId
  revision : ThreadRevision
deriving DecidableEq

@[ext]
structure ThreadCommandReceipt where
  schemaVersion : UInt32
  receiptId : ReceiptId
  commandId : CommandId
  commandDigest : Digest
  batchId : Option BatchId
  status : ReceiptStatus
  expectedRevision : ThreadRevision
  revisionBefore : ThreadRevision
  revisionAfter : ThreadRevision
  events : List CommittedEventRef
  batchDigest : Option Digest
  durability : AchievedDurability
  diagnostics : List ReceiptDiagnostic
  recordedAtUnixMs : Int64
deriving DecidableEq

inductive ReceiptValidationError where
  | schemaVersion
  | receiptId
  | commandDigest
  | statusPayload
  | revisionRange
  | eventSequence
deriving DecidableEq

/-- The texts of the `Display` implementation. -/
def ReceiptValidationError.message : ReceiptValidationError → String
  | .schemaVersion => "unsupported ThreadStore receipt schema version"
  | .receiptId => "receipt id does not match command id"
  | .commandDigest => "receipt command digest does not match the submitted command"
  | .statusPayload => "receipt status does not match revision or payload fields"
  | .revisionRange => "receipt revision range does not match committed event count"
  | .eventSequence => "committed event revisions are not contiguous"

namespace ThreadCommandReceipt

variable (forCommand : CommandId → ReceiptId)

/-- `ThreadCommandReceipt::applied`. -/
def applied (commandId : CommandId) (commandDigest : Digest) (batchId : BatchId)
    (expectedRevision : ThreadRevision) (events : List CommittedEventRef) (batchDigest : Digest)
    (durability : AchievedDurability) (recordedAtUnixMs : Int64) : ThreadCommandReceipt :=
  { schemaVersion := threadStoreSchemaVersion
    receiptId := forCommand commandId
    commandId, commandDigest
    batchId := some batchId
    status := .applied
    expectedRevision
    revisionBefore := expectedRevision
    revisionAfter := (events.getLast?.map CommittedEventRef.revision).getD expectedRevision
    events
    batchDigest := some batchDigest
    durability
    diagnostics := []
    recordedAtUnixMs }

/-- The loop of `validate_applied` over the committed events. -/
def validateEventSequence (revisionBefore : ThreadRevision) :
    Nat → List CommittedEventRef → Except ReceiptValidationError Unit
  | _, [] => .ok ()
  | index, event :: events =>
    match revisionBefore.checkedAdvance (UInt64.ofNat (index + 1)) with
    | none => .error .revisionRange
    | some expected =>
      if event.revision ≠ expected then .error .eventSequence
      else validateEventSequence revisionBefore (index + 1) events

/-- `validate_applied`. -/
def validateApplied (r : ThreadCommandReceipt) : Except ReceiptValidationError Unit :=
  if r.expectedRevision ≠ r.revisionBefore ∨ r.revisionAfter.toNat ≤ r.revisionBefore.toNat ∨
      r.batchId = none ∨ r.batchDigest = none ∨ r.durability = .none ∨ r.diagnostics ≠ [] ∨
      r.events = [] then
    .error .statusPayload
  else if r.revisionAfter.toNat - r.revisionBefore.toNat ≠ r.events.length then
    .error .revisionRange
  else validateEventSequence r.revisionBefore 0 r.events

/-- `validate_no_op`. -/
def validateNoOp (r : ThreadCommandReceipt) : Except ReceiptValidationError Unit :=
  if r.expectedRevision ≠ r.revisionBefore ∨ r.revisionBefore ≠ r.revisionAfter ∨
      r.batchId ≠ none ∨ r.batchDigest ≠ none ∨ r.durability ≠ .none ∨ r.events ≠ [] ∨
      r.diagnostics ≠ [] then
    .error .statusPayload
  else .ok ()

/-- `validate_rejected`. -/
def validateRejected (r : ThreadCommandReceipt) : Except ReceiptValidationError Unit :=
  if r.revisionBefore ≠ r.revisionAfter ∨ r.batchId ≠ none ∨ r.batchDigest ≠ none ∨
      r.durability ≠ .none ∨ r.events ≠ [] ∨ r.diagnostics = [] then
    .error .statusPayload
  else .ok ()

/-- `validate_causality`. -/
def validateCausality (r : ThreadCommandReceipt) (expectedCommandDigest : Digest) :
    Except ReceiptValidationError Unit :=
  if r.schemaVersion ≠ threadStoreSchemaVersion then .error .schemaVersion
  else if r.receiptId ≠ forCommand r.commandId then .error .receiptId
  else if r.commandDigest ≠ expectedCommandDigest then .error .commandDigest
  else match r.status with
    | .applied => r.validateApplied
    | .noOp => r.validateNoOp
    | .rejected => r.validateRejected

end ThreadCommandReceipt

end Praxis.Contracts
