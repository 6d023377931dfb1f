import Praxis.Foundation.Chunks
import Praxis.Foundation.Steps
import Praxis.Journal.Recovery

/-!
# Logs and how they are laid out in files

The abstract content of a journal is a `Log`: a list of segments, each a list of
frames.  A `Frame` carries its bytes together with the proof that they decode, so
a log is made of whole frames by construction.

The functions of this module say how a log is laid out (`LogSegment.data`), and
what the writer and the recovery keep about it (`Log.infos`, `Log.pointers`,
`Log.head`).  `Log.Valid` collects what makes a log a journal of one thread:
every frame continues the one before, no command occurs twice, and only the last
segment may be empty.
-/

namespace Praxis.Journal

open Foundation Contracts

/-! ## Frames -/

/-- The bytes of a whole frame, with what they decode to. -/
structure Frame (X : Externals) where
  bytes : Bytes
  decoded : DecodedFrame
  decodes : decodeCompleteFrame X bytes = .ok decoded

namespace Frame

variable {X : Externals}

def header (f : Frame X) : FrameHeader := f.decoded.header
def stored (f : Frame X) : StoredBatch := f.decoded.stored
def commandId (f : Frame X) : CommandId := f.stored.commandId
def events (f : Frame X) : List ThreadEventEnvelope := f.stored.events
def len (f : Frame X) : Nat := f.bytes.length

/-- The head after the frame. -/
def endHead (f : Frame X) : ThreadHead := ⟨f.header.endRevision, f.header.lastRecordDigest⟩

/-- The pointer to the frame at an offset. -/
def pointer (f : Frame X) (offset : Nat) : FramePointer :=
  { previousRecordDigest := f.header.previousRecordDigest
    startRevision := f.header.startRevision
    offset
    len := f.len }

theorem decodeFrameHeader_eq (f : Frame X) :
    decodeFrameHeader X (f.bytes.take frameHeaderLen) = .ok f.header :=
  (frameLen_of_decodeCompleteFrame f.decodes).1

theorem frameLen_eq (f : Frame X) : frameLen f.header = .ok f.len :=
  (frameLen_of_decodeCompleteFrame f.decodes).2.1

theorem frameHeaderLen_le (f : Frame X) : frameHeaderLen ≤ f.len := by
  have h := (frameLen_of_decodeCompleteFrame f.decodes).2.2.1
  simp only [len]
  omega

theorem len_pos (f : Frame X) : 0 < f.len :=
  Nat.lt_of_lt_of_le (by decide) f.frameHeaderLen_le

end Frame

/-- A frame continues a head: `validate_stored_batch` accepts it. -/
def Follows (X : Externals) (threadId : ThreadId) (head : ThreadHead) (f : Frame X)
    (head' : ThreadHead) : Prop :=
  validateStoredBatch X f.header f.stored threadId head = .ok head'

namespace Follows

variable {X : Externals} {threadId : ThreadId} {head head' : ThreadHead} {f : Frame X}

theorem spec (h : Follows X threadId head f head') :
    FrameFollows X threadId head f.decoded head' :=
  validateStoredBatch_spec h

theorem head_eq (h : Follows X threadId head f head') : head' = f.endHead := h.spec.end_eq

theorem previous_eq (h : Follows X threadId head f head') :
    f.header.previousRecordDigest = head.recordDigest := h.spec.previous_eq

/-- The revisions a frame advances the head by. -/
theorem revision_eq (h : Follows X threadId head f head') :
    head'.revision.toNat = head.revision.toNat + f.events.length := by
  have hsteps := h.spec.events.measure (fun h ↦ h.revision.toNat) (fun _ ↦ 1)
    fun _ _ _ hstep ↦ by rw [hstep.head_eq]; exact hstep.revision_eq
  simpa [Frame.events, Frame.stored] using hsteps

theorem events_ne (h : Follows X threadId head f head') : 0 < f.events.length :=
  List.length_pos_iff.mpr h.spec.events_ne

end Follows

/-! ## Lists of frames -/

section Frames

variable {X : Externals}

/-- The head after some frames. -/
def endHead (head : ThreadHead) (frames : List (Frame X)) : ThreadHead :=
  frames.foldl (fun _ f ↦ f.endHead) head

/-- The bytes of some frames. -/
def framesBytes (frames : List (Frame X)) : Bytes := frames.flatMap Frame.bytes

/-- The pointers to frames in a row from an offset on, under their commands. -/
def framePointers : Nat → List (Frame X) → List (CommandId × FramePointer)
  | _, [] => []
  | offset, f :: frames => (f.commandId, f.pointer offset) :: framePointers (offset + f.len) frames

@[simp] theorem endHead_nil (head : ThreadHead) : endHead (X := X) head [] = head := rfl

@[simp] theorem endHead_cons (head : ThreadHead) (f : Frame X) (frames : List (Frame X)) :
    endHead head (f :: frames) = endHead f.endHead frames := rfl

theorem endHead_append (head : ThreadHead) (as bs : List (Frame X)) :
    endHead head (as ++ bs) = endHead (endHead head as) bs := List.foldl_append

@[simp] theorem framesBytes_nil : framesBytes (X := X) [] = [] := rfl

@[simp] theorem framesBytes_cons (f : Frame X) (frames : List (Frame X)) :
    framesBytes (f :: frames) = f.bytes ++ framesBytes frames := rfl

@[simp] theorem framesBytes_append (as bs : List (Frame X)) :
    framesBytes (as ++ bs) = framesBytes as ++ framesBytes bs := List.flatMap_append

theorem framePointers_append (offset : Nat) (as bs : List (Frame X)) :
    framePointers offset (as ++ bs) =
      framePointers offset as ++ framePointers (offset + (framesBytes as).length) bs := by
  induction as generalizing offset with
  | nil => simp [framePointers]
  | cons f as ih =>
    simp only [List.cons_append, framePointers, ih, framesBytes_cons, List.length_append, Frame.len,
      Nat.add_assoc]

/-- Frames that follow one another end at the head of the last one. -/
theorem endHead_of_steps {threadId : ThreadId} {head head' : ThreadHead} {frames : List (Frame X)}
    (h : Steps (Follows X threadId) head frames head') : head' = endHead head frames := by
  induction h with
  | nil => rfl
  | cons hf _ ih => rw [ih, endHead_cons, hf.head_eq]

/-- Frames advance the revision by the number of their events. -/
theorem revision_of_steps {threadId : ThreadId} {head head' : ThreadHead} {frames : List (Frame X)}
    (h : Steps (Follows X threadId) head frames head') :
    head'.revision.toNat =
      head.revision.toNat + (frames.map fun f ↦ f.events.length).sum :=
  h.measure (fun h ↦ h.revision.toNat) _ fun _ _ _ hf ↦ hf.revision_eq

/-- The events of frames that follow one another follow one another. -/
theorem events_of_steps {threadId : ThreadId} {head head' : ThreadHead} {frames : List (Frame X)}
    (h : Steps (Follows X threadId) head frames head') :
    Steps (EventFollows X threadId) head (frames.flatMap Frame.events) head' := by
  induction h with
  | nil head => exact .nil head
  | cons hf _ ih => exact steps_append_iff.mpr ⟨_, hf.spec.events, ih⟩

end Frames

/-! ## Segments and logs -/

/-- A segment file and the frames it holds. -/
structure LogSegment (X : Externals) where
  path : FileName
  frames : List (Frame X)

abbrev Log (X : Externals) := List (LogSegment X)

/-- The revision after a head, where there is room for one. -/
def nextRevision (head : ThreadHead) : ThreadRevision := ⟨head.revision.value + 1⟩

/-- The header of the segment with a sequence number that starts behind a head. -/
def segmentHeader (threadId : ThreadId) (sequence : Nat) (head : ThreadHead) : SegmentHeader :=
  { sequence := UInt64.ofNat sequence
    firstRevision := nextRevision head
    threadId := threadId.uuid.bytes
    previousRecordDigest := head.recordDigest }

namespace LogSegment

variable {X : Externals}

/-- The length of the file. -/
def size (s : LogSegment X) : Nat := segmentHeaderLen + (framesBytes s.frames).length

/-- The contents of the file. -/
def data (s : LogSegment X) (threadId : ThreadId) (sequence : Nat) (head : ThreadHead) : Bytes :=
  encodeSegmentHeader X (segmentHeader threadId sequence head) ++ framesBytes s.frames

/-- The entry of the segment list. -/
def info (s : LogSegment X) (sequence : Nat) (head : ThreadHead) : SegmentInfo :=
  { sequence
    firstRevision := nextRevision head
    lastRevision := (endHead head s.frames).revision
    path := s.path
    bytes := s.size }

@[simp] theorem data_length (s : LogSegment X) (threadId : ThreadId) (sequence : Nat)
    (head : ThreadHead) : (s.data threadId sequence head).length = s.size := by
  simp [data, size]

/-- The segment that is left of a file cut at a length: its whole frames. -/
def cut (s : LogSegment X) (n : Nat) : LogSegment X :=
  { s with frames := wholeChunks Frame.bytes (n - segmentHeaderLen) s.frames }

/-- A cut at or behind the end takes nothing away. -/
theorem cut_of_le {s : LogSegment X} {n : Nat} (h : s.size ≤ n) : s.cut n = s := by
  have hwhole : wholeChunks Frame.bytes (n - segmentHeaderLen) s.frames = s.frames := by
    apply wholeChunks_of_le
    have hsize : segmentHeaderLen + (s.frames.flatMap Frame.bytes).length ≤ n := h
    omega
  rw [cut, hwhole]

end LogSegment

namespace Log

variable {X : Externals}

/-- The frames of all segments in order. -/
def frames (log : Log X) : List (Frame X) := log.flatMap LogSegment.frames

/-- The head after the last frame. -/
def head (log : Log X) : ThreadHead := endHead .empty log.frames

/-- The events of all frames in order. -/
def events (log : Log X) : List ThreadEventEnvelope := log.frames.flatMap Frame.events

/-- The segment list, from a sequence number and a head on. -/
def infos : Nat → ThreadHead → Log X → List SegmentInfo
  | _, _, [] => []
  | sequence, head, s :: log =>
      s.info sequence head :: infos (sequence + 1) (endHead head s.frames) log

/-- The pointers to all frames. -/
def pointers (log : Log X) : List (CommandId × FramePointer) :=
  log.flatMap fun s ↦ framePointers segmentHeaderLen s.frames

/-- The paths of the segments with their sequence numbers. -/
def paths : Nat → Log X → List (Nat × FileName)
  | _, [] => []
  | sequence, s :: log => (sequence, s.path) :: paths (sequence + 1) log

/-- The directory holds the files of the segments. -/
def Stored (d : Directory) (threadId : ThreadId) : Nat → ThreadHead → Log X → Prop
  | _, _, [] => True
  | sequence, head, s :: log =>
      d.contents s.path = some (s.data threadId sequence head) ∧
        Stored d threadId (sequence + 1) (endHead head s.frames) log

@[simp] theorem frames_nil : frames (X := X) [] = [] := rfl

@[simp] theorem frames_cons (s : LogSegment X) (log : Log X) :
    frames (s :: log) = s.frames ++ frames log := rfl

@[simp] theorem frames_append (as bs : Log X) : frames (as ++ bs) = frames as ++ frames bs :=
  List.flatMap_append

/-- The head after a last segment. -/
theorem head_append_singleton (log : Log X) (s : LogSegment X) :
    Log.head (log ++ [s]) = endHead log.head s.frames := by
  rw [head, head, frames_append, endHead_append, frames_cons, frames_nil, List.append_nil]

theorem infos_append (sequence : Nat) (head : ThreadHead) (as bs : Log X) :
    infos sequence head (as ++ bs) =
      infos sequence head as ++ infos (sequence + as.length) (endHead head as.frames) bs := by
  induction as generalizing sequence head with
  | nil => rfl
  | cons s as ih =>
    simp only [List.cons_append, infos, ih, frames_cons, endHead_append, List.length_cons,
      Nat.add_assoc, Nat.add_comm 1]

theorem paths_append (sequence : Nat) (as bs : Log X) :
    paths sequence (as ++ bs) = paths sequence as ++ paths (sequence + as.length) bs := by
  induction as generalizing sequence with
  | nil => rfl
  | cons s as ih =>
    simp only [List.cons_append, paths, ih, List.length_cons, Nat.add_assoc, Nat.add_comm 1]

/-- The entry of a segment in the segment list. -/
theorem infos_getElem {sequence : Nat} {head : ThreadHead} {log : Log X} {i : Nat}
    (h : i < log.length) (h' : i < (infos sequence head log).length) :
    (infos sequence head log)[i] =
      log[i].info (sequence + i) (endHead head (frames (log.take i))) := by
  induction log generalizing sequence head i with
  | nil => cases h
  | cons s log ih =>
    cases i with
    | zero => rfl
    | succ i =>
      simp only [infos, List.getElem_cons_succ, List.take_succ_cons, frames_cons, endHead_append]
      rw [ih (by simpa using h), Nat.add_assoc, Nat.add_comm 1]

/-- The file of a segment. -/
theorem Stored.getElem {d : Directory} {threadId : ThreadId} {sequence : Nat} {head : ThreadHead}
    {log : Log X} (hstored : Stored d threadId sequence head log) {i : Nat} (h : i < log.length) :
    d.contents log[i].path =
      some (log[i].data threadId (sequence + i) (endHead head (frames (log.take i)))) := by
  induction log generalizing sequence head i with
  | nil => cases h
  | cons s log ih =>
    cases i with
    | zero => exact hstored.1
    | succ i =>
      simp only [List.getElem_cons_succ, List.take_succ_cons, frames_cons, endHead_append]
      rw [ih hstored.2 (by simpa using h), Nat.add_assoc, Nat.add_comm 1]

theorem stored_append_iff {d : Directory} {threadId : ThreadId} {sequence : Nat}
    {head : ThreadHead} {as bs : Log X} :
    Stored d threadId sequence head (as ++ bs) ↔ Stored d threadId sequence head as ∧
      Stored d threadId (sequence + as.length) (endHead head as.frames) bs := by
  induction as generalizing sequence head with
  | nil => simp [Stored]
  | cons s as ih =>
    simp only [List.cons_append, Stored, ih, frames_cons, endHead_append, List.length_cons,
      Nat.add_assoc, Nat.add_comm 1, and_assoc]

@[simp] theorem infos_length (sequence : Nat) (head : ThreadHead) (log : Log X) :
    (infos sequence head log).length = log.length := by
  induction log generalizing sequence head with
  | nil => rfl
  | cons s log ih => simp [infos, ih]

end Log

/-! ## Valid logs -/

/-- A segment continues a head. -/
structure SegmentFollows (X : Externals) (config : JournalConfig) (threadId : ThreadId)
    (head : ThreadHead) (s : LogSegment X) (head' : ThreadHead) : Prop where
  /-- There is room for a revision after the head. -/
  room : head.revision.toNat + 1 < 2 ^ 64
  /-- The frames follow one another. -/
  frames : Steps (Follows X threadId) head s.frames head'
  /-- The payloads are within the configured maximum. -/
  payload_le : ∀ f ∈ s.frames, f.header.payloadLen ≤ config.maxFramePayloadBytes
  /-- The length of the file is a `u64`. -/
  size_lt : s.size < 2 ^ 64

/-- The frames of segments that follow one another follow one another. -/
theorem frames_of_segments {X : Externals} {config : JournalConfig} {threadId : ThreadId}
    {head head' : ThreadHead} {log : Log X}
    (h : Steps (SegmentFollows X config threadId) head log head') :
    Steps (Follows X threadId) head log.frames head' := by
  induction h with
  | nil head => exact .nil head
  | cons hs _ ih => exact steps_append_iff.mpr ⟨_, hs.frames, ih⟩

/-- Segments that are not empty advance the revision. -/
theorem length_le_of_segments {X : Externals} {config : JournalConfig} {threadId : ThreadId}
    {head head' : ThreadHead} {log : Log X}
    (h : Steps (SegmentFollows X config threadId) head log head')
    (hfull : ∀ s ∈ log, s.frames ≠ []) :
    head.revision.toNat + log.length ≤ head'.revision.toNat := by
  induction h with
  | nil head => simp
  | @cons head mid head' s log hs _ ih =>
    have hlog := ih fun s hs ↦ hfull s (List.mem_cons_of_mem _ hs)
    have hadvance : head.revision.toNat < mid.revision.toNat := by
      obtain ⟨f, frames, hcons⟩ := List.exists_cons_of_ne_nil (hfull s (by simp))
      have hsum := revision_of_steps hs.frames
      obtain ⟨_, hf, -⟩ := steps_cons_iff.mp (hcons ▸ hs.frames)
      have := hf.events_ne
      rw [hcons, List.map_cons, List.sum_cons] at hsum
      omega
    rw [List.length_cons]
    omega

/-- A log is a journal of one thread. -/
structure Log.Valid (X : Externals) (config : JournalConfig) (threadId : ThreadId) (log : Log X) :
    Prop where
  /-- The segments follow one another. -/
  segments : Steps (SegmentFollows X config threadId) .empty log log.head
  /-- No command is committed twice. -/
  commands_nodup : (log.frames.map Frame.commandId).Nodup
  /-- Only the last segment may be empty. -/
  full : ∀ s ∈ log.dropLast, s.frames ≠ []

end Praxis.Journal
