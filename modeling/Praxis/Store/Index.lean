import Praxis.Store.Projection
import Praxis.Journal.Segments

/-!
# The thread index

The SQLite tables that hold the projections (`thread-store/src/index.rs` and
`index/write.rs`): one `thread_projection` row for each thread, and the
`thread_turn_checkpoint` rows of its recent turns.

Both tables are modelled by their primary keys.  A statement that names a thread
touches at most one projection row, and the checkpoints of a thread are kept in
the order of their ordinals, which is the order every query asks for.

The columns have the types SQLite stores.  The only arithmetic the statements do
is the addition of integers in two of them, and there a sum that is no `i64`
becomes a floating-point number (`SqlNumber.add`); reading such a column as an
integer fails.  What floating-point numbers are is left to the parameter `Sqlite`.
-/

namespace Praxis.Store

open Foundation Contracts

/-! ## Errors -/

/-- The `sqlx` errors the statements can end in. -/
inductive SqlError where
  /-- A column holds a value of another type. -/
  | columnDecode (column : String)
  /-- A row with the same primary key exists. -/
  | uniqueViolation
  /-- The database could not be read or written. -/
  | io
deriving DecidableEq

/-- `ThreadStoreError`. -/
inductive ThreadStoreError where
  | journal (error : Journal.JournalError)
  | index (error : SqlError)
  | threadNotCreated
  | threadAlreadyExists
  | revisionNotFound (revision : UInt64)
  | preparedProjectionAhead (prepared recovered : UInt64)
  | worker (message : String)
  | writerPoisoned
  | invalidClock
  | revisionOverflow
deriving DecidableEq

/-! ## Columns -/

/-- What the model leaves open of SQLite's numbers. -/
structure Sqlite where
  /-- The floating-point numbers. -/
  Real : Type
  /-- The sum of two integers that no `i64` holds.  It is a floating-point number
  outside the range of `i64`, and the integer affinity of the column keeps it one. -/
  overflow : Int64 → Int64 → Real
  /-- The sum of a floating-point number and an integer, which the integer affinity of the
  column turns back into an integer where it is one. -/
  addReal : Real → Int64 → Real ⊕ Int64

/-- A value of a numeric column. -/
inductive SqlNumber (sql : Sqlite) where
  | null
  | integer (value : Int64)
  | real (value : sql.Real)

namespace SqlNumber

variable {sql : Sqlite}

/-- `try_get::<Option<i64>>`. -/
def tryGetOption (column : String) : SqlNumber sql → Except ThreadStoreError (Option Int64)
  | .null => .ok none
  | .integer value => .ok (some value)
  | .real _ => .error (.index (.columnDecode column))

/-- `try_get::<i64>`. -/
def tryGet (column : String) : SqlNumber sql → Except ThreadStoreError Int64
  | .integer value => .ok value
  | .null | .real _ => .error (.index (.columnDecode column))

/-- The value an optional integer is bound as. -/
def ofOption : Option Int64 → SqlNumber sql
  | none => .null
  | some value => .integer value

end SqlNumber

/-- `revision_to_i64`, and the other conversions of a `u64` into a column. -/
def toI64 (value : UInt64) : Except ThreadStoreError Int64 :=
  match i64TryFrom value with
  | some value => .ok value
  | none => .error .revisionOverflow

/-- `revision_from_i64`, and the other conversions of a column into a `u64`. -/
def fromI64 (value : Int64) : Except ThreadStoreError UInt64 :=
  match u64TryFrom value with
  | some value => .ok value
  | none => .error .revisionOverflow

/-- A conversion under an `Option`, `map(..).transpose()`. -/
def transpose {α β : Type} (convert : α → Except ThreadStoreError β) :
    Option α → Except ThreadStoreError (Option β)
  | none => .ok none
  | some value => (convert value).map some

/-! ## Rows -/

/-- `CURRENT_PROJECTION_GENERATION`. -/
def currentProjectionGeneration : Int64 := 7

/-- A row of `thread_projection`. -/
@[ext]
structure ProjectionRow (sql : Sqlite) where
  threadId : ThreadId
  revision : Int64
  source : Str
  workspace : Str
  name : Option Str
  summary : Option Str
  archived : Bool
  createdAt : Int64
  updatedAt : Int64
  preview : Option Str
  firstUserMessage : Option Str
  totalCostMicros : SqlNumber sql
  lastCostMicros : Option Int64
  model : Option Str
  modelProvider : Option Str
  reasoningEffort : Option Str
  lastAgentSequence : Int64
  modelContextCheckpointRevision : Option Int64
  dynamicToolsDigest : Option Bytes
  agentEventMetadataGeneration : Int64
  transcriptTotalTurns : SqlNumber sql
  projectionGeneration : Int64

/-- A row of `thread_turn_checkpoint`, without the thread it belongs to. -/
@[ext]
structure TurnCheckpointRow where
  ordinal : Int64
  scanAfterRevision : Int64
  previousAgentSequence : Option Int64
deriving DecidableEq

/-- The two tables. -/
@[ext]
structure Index (sql : Sqlite) where
  /-- The row of a thread. -/
  projection : ThreadId → Option (ProjectionRow sql)
  /-- The checkpoints of a thread, by ascending ordinal. -/
  turnCheckpoint : ThreadId → List TurnCheckpointRow

namespace Index

variable {sql : Sqlite}

/-! ## Reading -/

/-- `digest_from_blob`. -/
def digestFromBlob (bytes : Bytes) : Except ThreadStoreError Digest :=
  if h : bytes.length = 32 then .ok ⟨⟨bytes.toArray, by simpa using h⟩⟩
  else .error (.worker s!"invalid projection digest length: {bytes.length}")

/-- `row_to_summary`. -/
def rowToSummary (row : ProjectionRow sql) : Except ThreadStoreError ThreadSummary := do
  let revision ← fromI64 row.revision
  let totalCostMicros ← row.totalCostMicros.tryGetOption "total_cost_micros"
  return {
    threadId := row.threadId
    revision := ⟨revision⟩
    source := row.source
    workspace := row.workspace
    name := row.name
    summary := row.summary
    archived := row.archived
    createdAtUnixMs := row.createdAt
    updatedAtUnixMs := row.updatedAt
    preview := row.preview
    firstUserMessage := row.firstUserMessage
    totalCostMicros
    lastCostMicros := row.lastCostMicros
    model := row.model
    modelProvider := row.modelProvider
    reasoningEffort := row.reasoningEffort }

/-- `row_to_projection`. -/
def rowToProjection (row : ProjectionRow sql) : Except ThreadStoreError ThreadIndexProjection := do
  let modelContextCheckpoint ← transpose fromI64 row.modelContextCheckpointRevision
  let transcriptTotalTurns ← row.transcriptTotalTurns.tryGet "transcript_total_turns"
  let dynamicToolsDigest ← transpose digestFromBlob row.dynamicToolsDigest
  let summary ← rowToSummary row
  let totalTurns ← fromI64 transcriptTotalTurns
  let frontierSequence ← transpose fromI64
    (if row.lastAgentSequence ≠ 0 then some row.lastAgentSequence else none)
  let lastAgentSequence ← fromI64 row.lastAgentSequence
  let generation ← fromI64 row.agentEventMetadataGeneration
  if 2 ^ 32 ≤ generation.toNat then throw .revisionOverflow
  return {
    summary
    lastAgentSequence
    modelContextCheckpoint := modelContextCheckpoint.map ThreadRevision.mk
    dynamicToolsDigest
    agentEventMetadataGeneration := UInt32.ofNat generation.toNat
    transcriptIndex := ⟨totalTurns, [], summary.revision, frontierSequence⟩ }

/-- `row_to_turn_checkpoint`. -/
def rowToTurnCheckpoint (row : TurnCheckpointRow) : Except ThreadStoreError TurnCheckpoint := do
  let ordinal ← fromI64 row.ordinal
  let scanAfter ← fromI64 row.scanAfterRevision
  let previousAgentSequence ← transpose fromI64 row.previousAgentSequence
  return ⟨ordinal, ⟨scanAfter⟩, previousAgentSequence⟩

/-- The row of a thread, if it is of the current generation. -/
def currentRow (index : Index sql) (threadId : ThreadId) : Option (ProjectionRow sql) :=
  (index.projection threadId).filter (·.projectionGeneration = currentProjectionGeneration)

/-- `read_projection`. -/
def readProjection (index : Index sql) (threadId : ThreadId) :
    Except ThreadStoreError (Option ThreadIndexProjection) :=
  match index.currentRow threadId with
  | none => .ok none
  | some row => do
    let projection ← rowToProjection row
    let checkpoints ← (index.turnCheckpoint threadId).mapM rowToTurnCheckpoint
    return some
      { projection with
        transcriptIndex := { projection.transcriptIndex with checkpoints } }

/-! ## Writing a projection -/

/-- The row `write_projection` binds, with the conversions that can fail. -/
def rowOf (sql : Sqlite) (projection : ThreadIndexProjection) :
    Except ThreadStoreError (ProjectionRow sql) := do
  let summary := projection.summary
  let revision ← toI64 summary.revision.value
  let lastAgentSequence ← toI64 projection.lastAgentSequence
  let modelContextCheckpoint ← transpose (toI64 ·.value) projection.modelContextCheckpoint
  let totalTurns ← toI64 projection.transcriptIndex.totalTurns
  return {
    threadId := summary.threadId
    revision
    source := summary.source
    workspace := summary.workspace
    name := summary.name
    summary := summary.summary
    archived := summary.archived
    createdAt := summary.createdAtUnixMs
    updatedAt := summary.updatedAtUnixMs
    preview := summary.preview
    firstUserMessage := summary.firstUserMessage
    totalCostMicros := .ofOption summary.totalCostMicros
    lastCostMicros := summary.lastCostMicros
    model := summary.model
    modelProvider := summary.modelProvider
    reasoningEffort := summary.reasoningEffort
    lastAgentSequence
    modelContextCheckpointRevision := modelContextCheckpoint
    dynamicToolsDigest := projection.dynamicToolsDigest.map Digest.asBytes
    agentEventMetadataGeneration := .ofNat projection.agentEventMetadataGeneration.toNat
    transcriptTotalTurns := .integer totalTurns
    projectionGeneration := currentProjectionGeneration }

/-- The row of a checkpoint. -/
def checkpointRowOf (checkpoint : TurnCheckpoint) : Except ThreadStoreError TurnCheckpointRow := do
  let ordinal ← toI64 checkpoint.ordinal
  let scanAfter ← toI64 checkpoint.scanAfter.value
  let previousAgentSequence ← transpose toI64 checkpoint.previousAgentSequence
  return ⟨ordinal, scanAfter, previousAgentSequence⟩

/-- `INSERT INTO thread_turn_checkpoint` of one row, in the order of the primary key. -/
def insertRow (row : TurnCheckpointRow) :
    List TurnCheckpointRow → Except ThreadStoreError (List TurnCheckpointRow)
  | [] => .ok [row]
  | held :: rows =>
    if row.ordinal < held.ordinal then .ok (row :: held :: rows)
    else if row.ordinal = held.ordinal then .error (.index .uniqueViolation)
    else (insertRow row rows).map (held :: ·)

/-- Whether the upsert of `write_projection` writes the row over the one that is held:
always with `force`, else when the revision or the generation differs. -/
def overwrites (force : Bool) (row : ProjectionRow sql) (held : Option (ProjectionRow sql)) :
    Bool :=
  match held with
  | none => true
  | some held => force || held.revision ≠ row.revision ||
      held.projectionGeneration ≠ row.projectionGeneration

/-- `write_projection`, one transaction: it fails without a change. -/
def writeProjection (index : Index sql) (projection : ThreadIndexProjection) (force : Bool) :
    Except ThreadStoreError (Index sql) := do
  let threadId := projection.summary.threadId
  let row ← rowOf sql projection
  let checkpointRows ← projection.transcriptIndex.checkpoints.mapM checkpointRowOf
  let rows ← checkpointRows.foldlM (fun rows row ↦ insertRow row rows) []
  return {
    projection := Function.update index.projection threadId
      (if overwrites force row (index.projection threadId) then some row
        else index.projection threadId)
    turnCheckpoint := Function.update index.turnCheckpoint threadId rows }

/-- `synchronize`. -/
def synchronize (index : Index sql) (projection : ThreadIndexProjection) :
    Except ThreadStoreError (Index sql) :=
  index.writeProjection projection false

/-- `remove`.  The checkpoints go with the row. -/
def remove (index : Index sql) (threadId : ThreadId) : Index sql :=
  { projection := Function.update index.projection threadId none
    turnCheckpoint := Function.update index.turnCheckpoint threadId [] }

/-! ## Applying events -/

variable (sha256 : Bytes → Digest)

end Index

end Praxis.Store
