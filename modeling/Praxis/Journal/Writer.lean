import Praxis.Journal.Recovery

/-!
# The writer

`ThreadJournal::append`, `sync` and `receipt` (`journal.rs`, `io.rs`), on a
`System` of an open journal and its segments directory.

Every file operation of a call may fail.  Which ones do is given by a `Faults`
record: a failing write may have written some of its bytes, and the operations
that undo a failed call (removing a new segment, truncating a frame) may fail
themselves.  A call returns its result together with the system it leaves behind,
also when it returns an error.
-/

namespace Praxis.Journal

open Foundation Contracts

/-! ## State -/

structure ThreadJournal where
  config : JournalConfig
  threadId : ThreadId
  head : ThreadHead
  segments : List SegmentInfo
  commandIndex : CommandIndex
  pendingSyncs : List Nat
  dirtyBatchCount : Nat

/-- An open journal and its segments directory. -/
structure System where
  journal : ThreadJournal
  dir : Directory

/-- The file operations of one call that fail. -/
structure Faults where
  /-- Reading a segment to look up a command. -/
  read : Bool
  /-- Creating a segment file. -/
  create : Bool
  /-- Writing its header, after this many bytes. -/
  header : Option Nat
  /-- Removing it after its header could not be written. -/
  remove : Bool
  /-- Opening a segment to append a frame. -/
  openAppend : Bool
  /-- Writing the frame, after this many bytes. -/
  write : Option Nat
  /-- Truncating a segment to undo a frame. -/
  truncate : Bool
  /-- Syncing it after the truncation. -/
  truncateSync : Bool
  /-- The file sync with this number among those of the call. -/
  syncFile : Option Nat
  /-- Syncing the directory. -/
  syncDirectory : Bool
deriving DecidableEq

/-- No operation fails. -/
def Faults.none : Faults :=
  { read := false, create := false, header := .none, remove := false, openAppend := false
    write := .none, truncate := false, truncateSync := false, syncFile := .none
    syncDirectory := false }

/-- The operations that undo a failed call succeed. -/
def Faults.Compensated (faults : Faults) : Prop :=
  faults.remove = false ∧ faults.truncate = false ∧ faults.truncateSync = false

instance (faults : Faults) : Decidable faults.Compensated :=
  inferInstanceAs (Decidable (_ ∧ _ ∧ _))

section

variable (X : Externals)

/-! ## Looking up commands -/

namespace ThreadJournal

/-- `find_command_frame`. -/
def findCommandFrame (j : ThreadJournal) (d : Directory) (readFails : Bool)
    (commandId : CommandId) : Except JournalError (Option FramePointer) :=
  if !j.commandIndex.maybeContains commandId then .ok none
  else match j.commandIndex.recentFrame commandId with
  | some frame => .ok (some frame)
  | none =>
    if readFails then .error (.io .failed) else findCommandPointer X d commandId j.segments

/-- `read_committed_command`. -/
def readCommittedCommand (j : ThreadJournal) (d : Directory) (readFails : Bool)
    (frame : FramePointer) : Except JournalError (Digest × ThreadCommandReceipt) :=
  match (segmentIndexForRevision j.segments frame.startRevision).bind (j.segments[·]?) with
  | none => .error (.invalidConfig "receipt frame references a missing segment")
  | some segment =>
    if readFails then .error (.io .failed)
    else match d.file? segment.path with
    | none => .error (.io .notFound)
    | some file =>
      match readPointer X frame file segment.path j.threadId j.config.maxFramePayloadBytes with
      | .error error => .error error
      | .ok decoded =>
        match deriveReceipt X decoded.stored with
        | .error reason => .error (.corruptSegment segment.path frame.offset reason)
        | .ok receipt => .ok (decoded.stored.commandDigest, receipt)

/-- `receipt`. -/
def receipt (j : ThreadJournal) (d : Directory) (commandId : CommandId) :
    Except JournalError (Option ThreadCommandReceipt) :=
  match j.findCommandFrame X d false commandId with
  | .error error => .error error
  | .ok none => .ok none
  | .ok (some frame) =>
    match j.readCommittedCommand X d false frame with
    | .error error => .error error
    | .ok (_, receipt) => .ok (some receipt)

end ThreadJournal

/-! ## Pending syncs -/

/-- `PendingSegmentSyncs::mark`.  The list is sorted, so the binary search finds the
sequence number where it is, or the place to insert it. -/
def markPending (sequences : List Nat) (sequence : Nat) : List Nat :=
  match sequences.getLast? with
  | none => [sequence]
  | some last =>
    if last = sequence then sequences
    else if last < sequence then sequences ++ [sequence]
    else if sequence ∈ sequences then sequences
    else sequences.orderedInsert (· ≤ ·) sequence

/-- `PendingSegmentSyncs::iter_including`. -/
def iterIncluding (sequences : List Nat) : Option Nat → List Nat
  | none => sequences
  | some current => if current ∈ sequences then sequences else sequences ++ [current]

/-- The loop of `sync_pending_segments`; `index` counts the syncs of the call. -/
def syncFiles (faults : Faults) (segments : List SegmentInfo) :
    Nat → List Nat → Directory → Except JournalError Unit × Directory
  | _, [], d => (.ok (), d)
  | index, sequence :: sequences, d =>
    match segments[sequence]? with
    | none => (.error (.invalidConfig "dirty segment is not open"), d)
    | some segment =>
      if faults.syncFile = some index then (.error (.io .failed), d)
      else match d.file? segment.path with
      | none => (.error (.io .notFound), d)
      | some file => syncFiles faults segments (index + 1) sequences (d.setFile segment.path file.sync)

/-- `sync_pending_segments`. -/
def syncPendingSegments (faults : Faults) (j : ThreadJournal) (d : Directory)
    (current : Option Nat) : Except JournalError Unit × Directory :=
  match syncFiles faults j.segments 0 (iterIncluding j.pendingSyncs current) d with
  | (.error error, d) => (.error error, d)
  | (.ok (), d) =>
    if current.isSome ∨ j.pendingSyncs ≠ [] then
      if faults.syncDirectory then (.error (.io .failed), d) else (.ok (), d.sync)
    else (.ok (), d)

/-! ## Segments -/

/-- `create_segment`. -/
def createSegment (faults : Faults) (s : System) : Except JournalError Unit × System :=
  let sequence := s.journal.segments.length
  match s.journal.head.revision.checkedNext with
  | none => (.error (.invalidBatch "thread revision overflow"), s)
  | some firstRevision =>
    let path := segmentName sequence
    if faults.create then (.error (.io .failed), s)
    else if (s.dir.lookup path).isSome then (.error (.io .alreadyExists), s)
    else
      let header := encodeSegmentHeader X
        { sequence := UInt64.ofNat sequence
          firstRevision
          threadId := s.journal.threadId.uuid.bytes
          previousRecordDigest := s.journal.head.recordDigest }
      match faults.header with
      | some written =>
        let dir := s.dir.setFile path (.created (header.take written))
        (.error (.io .failed), { s with dir := if faults.remove then dir else dir.remove path })
      | none =>
        (.ok (),
          { dir := s.dir.setFile path (.created header)
            journal :=
              { s.journal with
                segments := s.journal.segments ++
                  [{ sequence
                     firstRevision
                     lastRevision := s.journal.head.revision
                     path
                     bytes := segmentHeaderLen }] } })

/-- The condition of `select_segment` for starting a new segment. -/
def rotates (j : ThreadJournal) (frameBytes : Nat) : Bool :=
  match j.segments.getLast? with
  | none => true
  | some segment =>
    segmentHeaderLen < segment.bytes ∧
      (2 ^ 64 ≤ segment.bytes + frameBytes ∨
        j.config.maxSegmentBytes.toNat < segment.bytes + frameBytes)

/-- `select_segment`, with the segment in place of its index, which is always the
last one. -/
def selectSegment (faults : Faults) (s : System) (frameBytes : Nat) :
    Except JournalError Unit × System :=
  if rotates s.journal frameBytes then createSegment X faults s else (.ok (), s)

/-! ## Frames -/

/-- `truncate_and_sync`. -/
def truncateAndSync (faults : Faults) (d : Directory) (path : FileName) (len : Nat) :
    Except JournalError Unit × Directory :=
  if faults.truncate then (.error (.io .failed), d)
  else match d.file? path with
  | none => (.error (.io .notFound), d)
  | some file =>
    if faults.truncateSync then (.error (.io .failed), d.setFile path (file.setLen len))
    else (.ok (), d.setFile path (file.setLen len).sync)

/-- `write_frame`, with `append_at`. -/
def writeFrame (faults : Faults) (d : Directory) (path : FileName) (expectedOffset : Nat)
    (bytes : Bytes) : Except JournalError Unit × Directory :=
  if faults.openAppend then (.error (.io .failed), d)
  else match d.file? path with
  | none => (.error (.io .notFound), d)
  | some file =>
    if file.data.length ≠ expectedOffset then
      (.error (.corruptSegment path file.data.length
        s!"segment length changed from expected offset {expectedOffset}"), d)
    else match faults.write with
    | none => (.ok (), d.setFile path (file.write bytes))
    | some written =>
      match truncateAndSync faults (d.setFile path (file.write (bytes.take written))) path
          expectedOffset with
      | (.error error, d) => (.error error, d)
      | (.ok (), d) => (.error (.io .failed), d)

/-! ## The calls -/

/-- The end of `append`: the frame is on file, and the journal takes it over. -/
def finishAppend (j : ThreadJournal) (segment : SegmentInfo) (encoded : EncodedFrame)
    (nextHead : ThreadHead) : Except JournalError AppendOutcome × ThreadJournal :=
  if 2 ^ 64 ≤ segment.bytes + encoded.bytes.length then
    (.error (.invalidBatch "segment length overflow"), j)
  else
    let j' : ThreadJournal :=
      { j with
        segments := j.segments.dropLast ++
          [{ segment with
             bytes := segment.bytes + encoded.bytes.length
             lastRevision := nextHead.revision }]
        head := nextHead }
    match deriveReceipt X encoded.stored with
    | .error reason => (.error (.invalidBatch reason), j')
    | .ok receipt =>
      let frame : FramePointer :=
        { previousRecordDigest := j.head.recordDigest
          startRevision := encoded.header.startRevision
          offset := segment.bytes
          len := encoded.bytes.length }
      (.ok (.committed receipt encoded.stored.events),
        { j' with commandIndex := j.commandIndex.insert encoded.stored.commandId frame })

/-- The middle of `append`: the frame is written to the last segment, and synced
when the append is durable. -/
def commitFrame (faults : Faults) (s : System) (encoded : EncodedFrame)
    (durability : JournalDurability) (nextHead : ThreadHead) :
    Except JournalError AppendOutcome × System :=
  match s.journal.segments.getLast? with
  | none => (.error (.invalidConfig "segment sequence overflow"), s)
  | some segment =>
    match writeFrame faults s.dir segment.path segment.bytes encoded.bytes with
    | (.error error, dir) => (.error error, { s with dir })
    | (.ok (), dir) =>
      match durability with
      | .durable =>
        match syncPendingSegments faults s.journal dir (some segment.sequence) with
        | (.error error, dir) =>
          match truncateAndSync faults dir segment.path segment.bytes with
          | (.error error, dir) => (.error error, { s with dir })
          | (.ok (), dir) => (.error error, { s with dir })
        | (.ok (), dir) =>
          let j := { s.journal with pendingSyncs := [], dirtyBatchCount := 0 }
          let (result, journal) := finishAppend X j segment encoded nextHead
          (result, { journal, dir })
      | .buffered =>
        let j :=
          { s.journal with pendingSyncs := markPending s.journal.pendingSyncs segment.sequence }
        if 2 ^ 64 ≤ j.dirtyBatchCount + 1 then
          (.error (.invalidBatch "dirty batch count overflow"), { journal := j, dir })
        else
          let (result, journal) := finishAppend X
            { j with dirtyBatchCount := j.dirtyBatchCount + 1 } segment encoded nextHead
          (result, { journal, dir })

/-- `append`. -/
def append (faults : Faults) (s : System) (batch : JournalBatch)
    (durability : JournalDurability) : Except JournalError AppendOutcome × System :=
  match s.journal.findCommandFrame X s.dir faults.read batch.commandId with
  | .error error => (.error error, s)
  | .ok (some frame) =>
    match s.journal.readCommittedCommand X s.dir faults.read frame with
    | .error error => (.error error, s)
    | .ok (commandDigest, receipt) =>
      if commandDigest = batch.commandDigest then (.ok (.duplicate receipt), s)
      else (.error (.idempotencyCollision batch.commandId), s)
  | .ok none =>
    if batch.threadId ≠ s.journal.threadId then
      (.error (.invalidBatch "batch thread id does not match the open journal"), s)
    else if batch.expectedRevision ≠ s.journal.head.revision then
      (.error (.revisionConflict batch.expectedRevision s.journal.head.revision), s)
    else match encodeBatch X batch durability s.journal.config.maxFramePayloadBytes.toNat with
    | .error reason => (.error (.invalidBatch reason), s)
    | .ok encoded =>
      match validateStoredBatch X encoded.header encoded.stored s.journal.threadId
          s.journal.head with
      | .error reason => (.error (.invalidBatch reason), s)
      | .ok nextHead =>
        match selectSegment X faults s encoded.bytes.length with
        | (.error error, s) => (.error error, s)
        | (.ok (), s) => commitFrame X faults s encoded durability nextHead

/-- `sync`. -/
def sync (faults : Faults) (s : System) : Except JournalError DurabilityBarrier × System :=
  let count := s.journal.dirtyBatchCount
  if 0 < count then
    match syncPendingSegments faults s.journal s.dir none with
    | (.error error, dir) => (.error error, { s with dir })
    | (.ok (), dir) =>
      (.ok { through := s.journal.head, batchCount := count },
        { dir, journal := { s.journal with pendingSyncs := [], dirtyBatchCount := 0 } })
  else (.ok { through := s.journal.head, batchCount := count }, s)

/-- The journal that `open_and_fold` returns for a recovery. -/
def openRecovered (config : JournalConfig) (threadId : ThreadId) (state : RecoveryState) :
    ThreadJournal :=
  { config, threadId
    head := state.head
    segments := state.segments
    commandIndex := state.commandIndex
    pendingSyncs := []
    dirtyBatchCount := 0 }

/-- `open_and_fold`, with the events it visits.  The locks that keep other writers
out are not modelled. -/
def openAndFold (config : JournalConfig) (threadId : ThreadId) (d : Directory) :
    Except JournalError (System × List ThreadEventEnvelope) :=
  match validateConfig config with
  | .error error => .error error
  | .ok () =>
    match recoverWithMode X config threadId d .writer with
    | .error error => .error error
    | .ok r =>
      .ok ({ journal := openRecovered config threadId r.state, dir := r.dir }, r.visited)

end

end Praxis.Journal
