import Praxis.Journal.CommandIndex

/-!
# Recovery

`recovery.rs`: rebuilding the state of a journal from its segment files, and
reading single frames back through their pointers.

A recovery carries a `Scan` from frame to frame: the head, the segments and the
command index that it will return, the commands seen so far, and the events it
has handed to its visitor.  What the next bytes of a file are, a whole frame, a
torn one or something else, is decided by `nextFrame`; the rest of the loop of
`recover_segment` is `recoverFrames`.

All file operations of a recovery are taken to succeed.  A recovery that returns
an error has not changed the directory: the two repairs (`remove_file` and
`set_len`) are the last thing that happens to the last segment.
-/

namespace Praxis.Journal

open Foundation Contracts

inductive RecoveryMode where
  | writer
  | snapshot
deriving DecidableEq

@[ext]
structure RecoveryState where
  head : ThreadHead
  segments : List SegmentInfo
  commandIndex : CommandIndex

/-- What a recovery carries along: its state, `recovered_commands`, and the
events it has visited. -/
structure Scan where
  state : RecoveryState
  recoveredCommands : List CommandId
  visited : List ThreadEventEnvelope

/-- The state `recover_with_mode` starts from. -/
def Scan.start : Scan :=
  { state := { head := .empty, segments := [], commandIndex := .new }
    recoveredCommands := []
    visited := [] }

/-- What a recovery returns, and the directory it leaves behind. -/
structure Recovered where
  state : RecoveryState
  visited : List ThreadEventEnvelope
  dir : Directory

section

variable (X : Externals)

/-! ## The frames of a segment -/

/-- What stands at the front of the unread part of a segment file. -/
inductive NextFrame where
  | torn
  | corrupt (reason : String)
  | frame (length : Nat) (decoded : DecodedFrame)

/-- The first half of the loop body of `recover_segment`. -/
def nextFrame (config : JournalConfig) (rest : Bytes) : NextFrame :=
  if rest.length < frameHeaderLen then .torn
  else match decodeFrameHeader X (rest.take frameHeaderLen) with
  | .error reason => .corrupt reason
  | .ok header =>
    if config.maxFramePayloadBytes < header.payloadLen then
      .corrupt "frame payload exceeds configured maximum"
    else match frameLen header with
    | .error reason => .corrupt reason
    | .ok length =>
      if rest.length < length then .torn
      else match decodeCompleteFrame X (rest.take length) with
      | .error reason => .corrupt reason
      | .ok decoded => .frame length decoded

/-- The second half: the frame is validated against the head and taken over. -/
def recoverFrame (threadId : ThreadId) (path : FileName) (mode : RecoveryMode) (scan : Scan)
    (offset length : Nat) (decoded : DecodedFrame) : Except JournalError Scan :=
  match validateStoredBatch X decoded.header decoded.stored threadId scan.state.head with
  | .error reason => .error (.corruptSegment path offset reason)
  | .ok head =>
    match mode with
    | .snapshot => .ok
        { scan with
          state := { scan.state with head }
          visited := scan.visited ++ decoded.stored.events }
    | .writer =>
      if decoded.stored.commandId ∈ scan.recoveredCommands then
        .error (.corruptSegment path offset "duplicate committed command id")
      else .ok
        { state :=
            { scan.state with
              head
              commandIndex := scan.state.commandIndex.insert decoded.stored.commandId
                { previousRecordDigest := scan.state.head.recordDigest
                  startRevision := decoded.header.startRevision
                  offset
                  len := length } }
          recoveredCommands := scan.recoveredCommands ++ [decoded.stored.commandId]
          visited := scan.visited ++ decoded.stored.events }

variable {X} in
/-- A frame is never empty, so the loop makes progress. -/
theorem length_pos_of_nextFrame {config : JournalConfig} {rest : Bytes} {length : Nat}
    {decoded : DecodedFrame} (h : nextFrame X config rest = .frame length decoded) :
    0 < length := by
  unfold nextFrame at h
  split at h; · cases h
  split at h; · cases h
  split at h; · cases h
  split at h; · cases h
  rename_i hlen
  split at h; · cases h
  split at h; · cases h
  cases h
  unfold frameLen at hlen
  split at hlen
  · have := Except.ok.inj hlen
    unfold frameHeaderLen at this
    omega
  · cases hlen

/-- The loop of `recover_segment` over the unread part of the file.  It returns
the offset it reached and whether a torn frame stands there. -/
def recoverFrames (config : JournalConfig) (threadId : ThreadId) (path : FileName)
    (mode : RecoveryMode) (scan : Scan) (offset : Nat) (rest : Bytes) :
    Except JournalError (Scan × Nat × Bool) :=
  if rest = [] then .ok (scan, offset, false)
  else match _hnext : nextFrame X config rest with
  | .torn => .ok (scan, offset, true)
  | .corrupt reason => .error (.corruptSegment path offset reason)
  | .frame length decoded =>
    match recoverFrame X threadId path mode scan offset length decoded with
    | .error error => .error error
    | .ok scan =>
      if offset + length < 2 ^ 64 then
        recoverFrames config threadId path mode scan (offset + length) (rest.drop length)
      else .error (.corruptSegment path offset "segment offset overflow")
termination_by rest.length
decreasing_by
  have hpos := length_pos_of_nextFrame _hnext
  have hrest : 0 < rest.length := List.length_pos_iff.mpr ‹_›
  rw [List.length_drop]
  omega

/-! ## Segments -/

/-- `handle_incomplete_tail`. -/
def handleIncompleteTail (d : Directory) (path : FileName) (file : File) (offset : Nat)
    (isLast : Bool) (mode : RecoveryMode) : Except JournalError Directory :=
  if !isLast then .error (.corruptSegment path offset "incomplete frame before the final segment")
  else match mode with
  | .writer => .ok (d.setFile path (file.setLen offset).sync)
  | .snapshot => .ok d

/-- The part of `recover_segment` in front of its loop: the header is read and
compared with the head.  Returns the first revision of the segment. -/
def checkSegmentHeader (threadId : ThreadId) (path : FileName) (expectedSequence : Nat)
    (file : File) (head : ThreadHead) : Except JournalError ThreadRevision :=
  if file.data.length < segmentHeaderLen then
    .error (.corruptSegment path 0 "incomplete segment header")
  else match decodeSegmentHeader X (file.data.take segmentHeaderLen) with
  | .error reason => .error (.corruptSegment path 0 reason)
  | .ok header =>
    match head.revision.checkedNext with
    | none => .error (.corruptSegment path 0 "thread revision overflow")
    | some expectedFirst =>
      if header.sequence.toNat ≠ expectedSequence ∨ header.firstRevision ≠ expectedFirst ∨
          header.threadId ≠ threadId.uuid.bytes ∨
          header.previousRecordDigest ≠ head.recordDigest then
        .error (.corruptSegment path 0 "segment header breaks journal continuity")
      else .ok header.firstRevision

/-- The part of `recover_segment` behind its loop, which has reached an offset and
may have found a torn frame there. -/
def finishSegment (path : FileName) (expectedSequence : Nat) (isLast : Bool) (mode : RecoveryMode)
    (d : Directory) (file : File) (firstRevision : ThreadRevision) (scan : Scan) (offset : Nat)
    (torn : Bool) : Except JournalError (Directory × Scan) :=
  match (if torn then handleIncompleteTail d path file offset isLast mode else .ok d) with
  | .error error => .error error
  | .ok d =>
    if !isLast ∧ offset = segmentHeaderLen then
      .error (.corruptSegment path offset "empty segment before journal tail")
    else match mode with
    | .snapshot => .ok (d, scan)
    | .writer => .ok (d,
        { scan with
          state :=
            { scan.state with
              segments := scan.state.segments ++
                [{ sequence := expectedSequence
                   firstRevision
                   lastRevision := scan.state.head.revision
                   path
                   bytes := offset }] } })

/-- `recover_segment`. -/
def recoverSegment (config : JournalConfig) (threadId : ThreadId) (path : FileName)
    (expectedSequence : Nat) (isLast : Bool) (mode : RecoveryMode) (d : Directory) (scan : Scan) :
    Except JournalError (Directory × Scan) :=
  match d.file? path with
  | none => .error (.io .notFound)
  | some file =>
    match checkSegmentHeader X threadId path expectedSequence file scan.state.head with
    | .error error => .error error
    | .ok firstRevision =>
      match recoverFrames X config threadId path mode scan segmentHeaderLen
          (file.data.drop segmentHeaderLen) with
      | .error error => .error error
      | .ok (scan, offset, torn) =>
        finishSegment path expectedSequence isLast mode d file firstRevision scan offset torn

/-- The loop of `recover_with_mode`.  The source compares the index with the number
of paths to see whether no path follows. -/
def recoverSegments (config : JournalConfig) (threadId : ThreadId) (mode : RecoveryMode) :
    Nat → List (Nat × FileName) → Directory → Scan → Except JournalError (Directory × Scan)
  | _, [], d, scan => .ok (d, scan)
  | index, (sequence, path) :: paths, d, scan =>
    if sequence ≠ index then .error (.corruptSegment path 0 "segment sequence has a gap")
    else match d.file? path with
    | none => .error (.io .notFound)
    | some file =>
      if paths.isEmpty ∧ file.data.length < segmentHeaderLen then
        match mode with
        | .writer => .ok ((d.remove path).sync, scan)
        | .snapshot => .ok (d, scan)
      else match recoverSegment X config threadId path sequence paths.isEmpty mode d scan with
      | .error error => .error error
      | .ok (d, scan) => recoverSegments config threadId mode (index + 1) paths d scan

/-- `recover_with_mode`. -/
def recoverWithMode (config : JournalConfig) (threadId : ThreadId) (d : Directory)
    (mode : RecoveryMode) : Except JournalError Recovered :=
  match segmentPaths d with
  | .error error => .error error
  | .ok paths =>
    match recoverSegments X config threadId mode 0 paths d .start with
    | .error error => .error error
    | .ok (dir, scan) => .ok { state := scan.state, visited := scan.visited, dir }

/-! ## Reading single frames -/

/-- `segment_index_for_revision`.  On segments sorted by their last revision the
partition point is the number of segments in front of the revision. -/
def segmentIndexForRevision (segments : List SegmentInfo) (revision : ThreadRevision) :
    Option Nat :=
  let index := (segments.takeWhile fun segment ↦
    segment.lastRevision.toNat < revision.toNat).length
  match segments[index]? with
  | some segment => if segment.firstRevision.toNat ≤ revision.toNat then some index else none
  | none => none

/-- `read_exact` at an offset. -/
def readExact (file : File) (offset len : Nat) : Except JournalError Bytes :=
  if offset + len ≤ file.data.length then .ok (slice file.data offset len)
  else .error (.io .unexpectedEof)

/-- `read_pointer`. -/
def readPointer (pointer : FramePointer) (file : File) (path : FileName) (threadId : ThreadId)
    (maxPayloadBytes : UInt64) : Except JournalError DecodedFrame :=
  match readExact file pointer.offset pointer.len with
  | .error error => .error error
  | .ok bytes =>
    if 2 ^ 64 ≤ pointer.offset + pointer.len then
      .error (.corruptSegment path pointer.offset "frame end offset overflow")
    else match decodeCompleteFrame X bytes with
    | .error reason => .error (.corruptSegment path pointer.offset reason)
    | .ok frame =>
      if maxPayloadBytes < frame.header.payloadLen then
        .error (.corruptSegment path pointer.offset "frame payload exceeds configured maximum")
      else match validateStoredBatch X frame.header frame.stored threadId pointer.previousHead with
      | .error reason => .error (.corruptSegment path pointer.offset reason)
      | .ok _ => .ok frame

/-- The loop of `visit_segment_pointers`, with the state of the visitor passed
along; the result says whether the visitor stopped it. -/
def visitPointers {σ : Type} (segment : SegmentInfo) (file : File)
    (visit : σ → FramePointer → Vector UInt8 16 → Except JournalError (σ × Bool))
    (state : σ) (offset : Nat) : Except JournalError (σ × Bool) :=
  if offset < segment.bytes then
    match readExact file offset frameHeaderLen with
    | .error error => .error error
    | .ok bytes =>
      match decodeFrameHeader X bytes with
      | .error reason => .error (.corruptSegment segment.path offset reason)
      | .ok header =>
        match _hlen : frameLen header with
        | .error reason => .error (.corruptSegment segment.path offset reason)
        | .ok len =>
          if 2 ^ 64 ≤ offset + len then
            .error (.corruptSegment segment.path offset "segment offset overflow")
          else if segment.bytes < offset + len then
            .error (.corruptSegment segment.path offset
              "frame extends beyond recovered segment length")
          else
            let pointer : FramePointer :=
              { previousRecordDigest := header.previousRecordDigest
                startRevision := header.startRevision
                offset, len }
            match visit state pointer header.commandId with
            | .error error => .error error
            | .ok (state, true) => .ok (state, true)
            | .ok (state, false) => visitPointers segment file visit state (offset + len)
  else if offset ≠ segment.bytes then
    .error (.corruptSegment segment.path offset "segment framing does not end at recovered length")
  else .ok (state, false)
termination_by segment.bytes - offset
decreasing_by
  unfold frameLen at _hlen
  split at _hlen
  · have := Except.ok.inj _hlen
    unfold frameHeaderLen at this
    omega
  · cases _hlen

/-- `visit_segment_pointers`. -/
def visitSegmentPointers {σ : Type} (d : Directory) (segment : SegmentInfo)
    (visit : σ → FramePointer → Vector UInt8 16 → Except JournalError (σ × Bool)) (state : σ) :
    Except JournalError (σ × Bool) :=
  match d.file? segment.path with
  | none => .error (.io .notFound)
  | some file => visitPointers X segment file visit state segmentHeaderLen

/-- `find_command_pointer`. -/
def findCommandPointer (d : Directory) (commandId : CommandId) :
    List SegmentInfo → Except JournalError (Option FramePointer)
  | [] => .ok none
  | segment :: segments =>
    match visitSegmentPointers X d segment
        (fun found pointer stored ↦
          if stored = commandId.uuid.bytes then .ok (some pointer, true) else .ok (found, false))
        none with
    | .error error => .error error
    | .ok (some pointer, _) => .ok (some pointer)
    | .ok (none, _) => findCommandPointer d commandId segments

end

end Praxis.Journal
