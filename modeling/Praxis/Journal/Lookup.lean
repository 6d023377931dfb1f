import Praxis.Journal.Replay
import Praxis.Journal.Writer

/-!
# Looking up commands in the files of a log

A journal finds a committed command through its filter, its recent pointers or a
scan of the segment headers, and then reads the frame.  On a directory that holds
a valid log each of these ways leads to the frame of the log with that command,
and to none when the log has no such frame.

* `visitPointers_frames`: the scan of a segment visits its frames in order.
* `findCommandPointer_infos`: the scan of all segments finds the first pointer of
  the command.
* `readCommittedCommand_frame`: a pointer of the log reads back its frame.
-/

namespace Praxis.Journal

open Foundation Contracts

variable {X : Externals} {config : JournalConfig} {threadId : ThreadId}

/-! ## Scanning the headers -/

section Visit

variable {σ : Type} (visit : σ → FramePointer → Vector UInt8 16 → Except JournalError (σ × Bool))

/-- A visitor applied to pointers in order, until it stops. -/
def visitEntries : σ → List (CommandId × FramePointer) → Except JournalError (σ × Bool)
  | state, [] => .ok (state, false)
  | state, (commandId, pointer) :: entries =>
    match visit state pointer commandId.uuid.bytes with
    | .error error => .error error
    | .ok (state, true) => .ok (state, true)
    | .ok (state, false) => visitEntries state entries

/-- The bytes of a frame in the middle of a file. -/
theorem slice_frame (pre rest : Bytes) (f : Frame X) :
    slice (pre ++ (f.bytes ++ rest)) pre.length f.len = f.bytes := by
  rw [slice_append_right (Nat.le_refl _), Nat.sub_self, Frame.len, slice_append_exact rfl]

/-- The header of a frame in the middle of a file. -/
theorem slice_frame_header (pre rest : Bytes) (f : Frame X) :
    slice (pre ++ (f.bytes ++ rest)) pre.length frameHeaderLen = f.bytes.take frameHeaderLen := by
  rw [slice_append_right (Nat.le_refl _), Nat.sub_self,
    slice_append_left (by rw [Nat.zero_add]; exact f.frameHeaderLen_le)]
  rfl

/-- The scan of a segment visits the pointers of its frames. -/
theorem visitPointers_frames (segment : SegmentInfo) {file : File} (pre : Bytes)
    {frames : List (Frame X)} (state : σ) (hdata : file.data = pre ++ framesBytes frames)
    (hbytes : segment.bytes = file.data.length) (hlt : segment.bytes < 2 ^ 64)
    (hids : ∀ f ∈ frames, f.header.commandId = f.commandId.uuid.bytes) :
    visitPointers X segment file visit state pre.length =
      visitEntries visit state (framePointers pre.length frames) := by
  induction frames generalizing pre state with
  | nil =>
    have hend : pre.length = segment.bytes := by simp [hbytes, hdata]
    rw [visitPointers, if_neg (by omega), if_neg (by simp [hend])]
    rfl
  | cons f frames ih =>
    have hlen := f.frameHeaderLen_le
    have hpos := f.len_pos
    have htotal : segment.bytes = pre.length + (f.len + (framesBytes frames).length) := by
      simp [hbytes, hdata, Frame.len]
    have hread : readExact file pre.length frameHeaderLen = .ok (f.bytes.take frameHeaderLen) := by
      rw [readExact, if_pos (by omega), hdata, framesBytes_cons, slice_frame_header]
    have hnext := fun state ↦ ih (pre ++ f.bytes) state
      (by rw [hdata, framesBytes_cons, List.append_assoc])
      fun g hg ↦ hids g (List.mem_cons_of_mem _ hg)
    rw [List.length_append] at hnext
    rw [visitPointers, if_pos (by omega), hread]
    simp only [f.decodeFrameHeader_eq]
    split
    · rename_i hframe
      rw [f.frameLen_eq] at hframe
      cases hframe
    · rename_i len hframe
      obtain rfl : f.len = len := Except.ok.inj (f.frameLen_eq.symm.trans hframe)
      rw [if_neg (by omega), if_neg (by omega), framePointers, visitEntries,
        hids f List.mem_cons_self]
      simp only [Frame.pointer, Frame.len, hnext] <;> rfl

/-- The scan of the file of a segment visits the pointers of its frames. -/
theorem visitSegmentPointers_info {d : Directory} {s : LogSegment X} {head head' : ThreadHead}
    {sequence : Nat} (state : σ) (hs : SegmentFollows X config threadId head s head')
    (hstored : d.contents s.path = some (s.data threadId sequence head)) :
    visitSegmentPointers X d (s.info sequence head) visit state =
      visitEntries visit state (framePointers segmentHeaderLen s.frames) := by
  obtain ⟨file, hfile, hdata⟩ := Directory.contents_eq_some_iff.mp hstored
  have hids : ∀ f ∈ s.frames, f.header.commandId = f.commandId.uuid.bytes := by
    intro f hf
    obtain ⟨_, _, hfollows⟩ := hs.frames.exists_of_mem hf
    exact hfollows.spec.commandId_eq
  have hscan := visitPointers_frames visit (s.info sequence head) _ state hdata
    (by simp [hdata, LogSegment.info]) hs.size_lt hids
  rw [encodeSegmentHeader_length] at hscan
  have hpath : (s.info sequence head).path = s.path := rfl
  simp only [visitSegmentPointers, hpath, hfile, hscan]

end Visit

/-! ## Finding a command -/

/-- The pointer of a command among others. -/
def lookupPointer (entries : List (CommandId × FramePointer)) (commandId : CommandId) :
    Option FramePointer :=
  (entries.find? fun entry ↦ entry.1 = commandId).map Prod.snd

theorem lookupPointer_append (as bs : List (CommandId × FramePointer)) (commandId : CommandId) :
    lookupPointer (as ++ bs) commandId =
      (lookupPointer as commandId).or (lookupPointer bs commandId) := by
  rw [lookupPointer, List.find?_append, Option.map_or]
  rfl

theorem uuid_bytes_inj {a b : CommandId} : a.uuid.bytes = b.uuid.bytes ↔ a = b := by
  constructor
  · rcases a with ⟨⟨a⟩⟩
    rcases b with ⟨⟨b⟩⟩
    rintro rfl
    rfl
  · rintro rfl
    rfl

/-- The visitor of `find_command_pointer` stops at the first pointer of the
command. -/
theorem visitEntries_find (commandId : CommandId) (entries : List (CommandId × FramePointer)) :
    ∃ stopped, visitEntries (fun found pointer stored ↦
        if stored = commandId.uuid.bytes then .ok (some pointer, true) else .ok (found, false))
      none entries = .ok (lookupPointer entries commandId, stopped) := by
  induction entries with
  | nil => exact ⟨false, rfl⟩
  | cons entry entries ih =>
    obtain ⟨id, pointer⟩ := entry
    rw [visitEntries, lookupPointer, List.find?_cons]
    by_cases hid : id = commandId
    · exact ⟨true, by simp [hid]⟩
    · simpa [uuid_bytes_inj, hid, lookupPointer] using ih

/-- The scan of all segments finds the first pointer of a command. -/
theorem findCommandPointer_infos {log : Log X} {d : Directory} {head head' : ThreadHead}
    {sequence : Nat} (hsegments : Steps (SegmentFollows X config threadId) head log head')
    (hstored : log.Stored d threadId sequence head) (commandId : CommandId) :
    findCommandPointer X d commandId (log.infos sequence head) =
      .ok (lookupPointer log.pointers commandId) := by
  induction log generalizing head sequence with
  | nil => rfl
  | cons s log ih =>
    obtain ⟨mid, hs, hlog⟩ := steps_cons_iff.mp hsegments
    obtain rfl := endHead_of_steps hs.frames
    obtain ⟨stopped, hvisit⟩ :=
      visitEntries_find commandId (framePointers segmentHeaderLen s.frames)
    have hscan := visitSegmentPointers_info
      (fun found pointer stored ↦
        if stored = commandId.uuid.bytes then .ok (some pointer, true) else .ok (found, false))
      none hs hstored.1
    rw [hvisit] at hscan
    have hpointers : Log.pointers (s :: log) =
        framePointers segmentHeaderLen s.frames ++ Log.pointers log := rfl
    rw [hpointers, lookupPointer_append, Log.infos, findCommandPointer]
    simp only [hscan, ih hlog hstored.2]
    cases lookupPointer (framePointers segmentHeaderLen s.frames) commandId <;> rfl

/-! ## Reading a frame -/

theorem exists_of_mem_framePointers {offset : Nat} {frames : List (Frame X)} {commandId : CommandId}
    {pointer : FramePointer} (h : (commandId, pointer) ∈ framePointers offset frames) :
    ∃ as f bs, frames = as ++ f :: bs ∧ f.commandId = commandId ∧
      pointer = f.pointer (offset + (framesBytes as).length) := by
  induction frames generalizing offset with
  | nil => cases h
  | cons g frames ih =>
    rcases List.mem_cons.mp h with h | h
    · cases h
      exact ⟨[], g, frames, rfl, rfl, by simp⟩
    · obtain ⟨as, f, bs, rfl, hid, rfl⟩ := ih h
      refine ⟨g :: as, f, bs, rfl, hid, ?_⟩
      rw [framesBytes_cons, List.length_append, Frame.len, Nat.add_assoc]

/-- A frame ends behind the head it follows. -/
theorem Follows.lt {head head' : ThreadHead} {f : Frame X} (h : Follows X threadId head f head') :
    head.revision.toNat < head'.revision.toNat := by
  have hlen := h.events_ne
  rw [h.revision_eq]
  omega

/-- Frames do not take the revision back. -/
theorem revision_le_of_steps {head head' : ThreadHead} {frames : List (Frame X)}
    (h : Steps (Follows X threadId) head frames head') :
    head.revision.toNat ≤ head'.revision.toNat := by
  rw [revision_of_steps h]
  exact Nat.le_add_right _ _

/-- Segments end at or before the head after all of them. -/
theorem lastRevision_le_of_mem_infos {head head' : ThreadHead} {log : Log X} {sequence : Nat}
    (h : Steps (SegmentFollows X config threadId) head log head') {info : SegmentInfo}
    (hmem : info ∈ log.infos sequence head) :
    info.lastRevision.toNat ≤ head'.revision.toNat := by
  induction h generalizing sequence with
  | nil => cases hmem
  | cons hs hlog ih =>
    obtain rfl := endHead_of_steps hs.frames
    rcases List.mem_cons.mp hmem with rfl | hmem
    · exact revision_le_of_steps (frames_of_segments hlog)
    · exact ih hmem

/-- The head a pointer continues. -/
theorem previousHead_pointer {head head' : ThreadHead} {f : Frame X}
    (h : Follows X threadId head f head') (offset : Nat) :
    (f.pointer offset).previousHead = head := by
  have hstart : f.header.startRevision.toNat = head.revision.toNat + 1 := h.spec.start_eq
  have hprevious := h.previous_eq
  have hrevision : UInt64.ofNat (f.header.startRevision.toNat - 1) = head.revision.value := by
    rw [hstart, Nat.add_sub_cancel, ThreadRevision.toNat, UInt64.ofNat_toNat]
  simp only [Frame.pointer, FramePointer.previousHead, hprevious, hrevision]

/-- A pointer reads back the frame it was made for. -/
theorem readPointer_frame {head head' : ThreadHead} {f : Frame X} {file : File} {pre rest : Bytes}
    (path : FileName) {maxPayloadBytes : UInt64} (hf : Follows X threadId head f head')
    (hdata : file.data = pre ++ (f.bytes ++ rest)) (hlt : file.data.length < 2 ^ 64)
    (hmax : f.header.payloadLen ≤ maxPayloadBytes) :
    readPointer X (f.pointer pre.length) file path threadId maxPayloadBytes = .ok f.decoded := by
  have hlength : file.data.length = pre.length + (f.len + rest.length) := by
    rw [hdata, List.length_append, List.length_append, Frame.len]
  have hread : readExact file pre.length f.len = .ok f.bytes := by
    rw [readExact, if_pos (by omega), hdata, slice_frame]
  have hmax' : ¬ maxPayloadBytes < f.decoded.header.payloadLen := UInt64.not_lt.mpr hmax
  have hvalidate : validateStoredBatch X f.decoded.header f.decoded.stored threadId
      (f.pointer pre.length).previousHead = .ok head' := by
    rw [previousHead_pointer hf]
    exact hf
  have hoffset : (f.pointer pre.length).offset = pre.length := rfl
  have hlen : (f.pointer pre.length).len = f.len := rfl
  rw [readPointer, hoffset, hlen, hread]
  simp only [if_neg (show ¬ 2 ^ 64 ≤ pre.length + f.len by omega), f.decodes, hmax', if_false,
    hvalidate]

section

variable {d : Directory} {init rest : Log X} {s : LogSegment X} {as bs : List (Frame X)}
  {f : Frame X}

/-- The revisions of a segment lead to it. -/
theorem segmentIndexForRevision_infos (hvalid : Log.Valid X config threadId (init ++ s :: rest))
    (hframes : s.frames = as ++ f :: bs) :
    segmentIndexForRevision (Log.infos 0 .empty (init ++ s :: rest)) f.header.startRevision =
      some init.length := by
  obtain ⟨mid, hinit, htail⟩ := steps_append_iff.mp hvalid.segments
  obtain rfl : mid = Log.head init := endHead_of_steps (frames_of_segments hinit)
  obtain ⟨_, hs, -⟩ := steps_cons_iff.mp htail
  obtain ⟨before, has, hrest⟩ := steps_append_iff.mp (hframes ▸ hs.frames)
  obtain ⟨after, hf, hbs⟩ := steps_cons_iff.mp hrest
  have hstart : f.header.startRevision.toNat = before.revision.toNat + 1 := hf.spec.start_eq
  have hle := revision_le_of_steps has
  have hlt := hf.lt
  have hend := revision_le_of_steps hbs
  -- the segments in front end before the revision
  have hfront : ∀ info ∈ Log.infos 0 .empty init,
      info.lastRevision.toNat < f.header.startRevision.toNat := by
    intro info hmem
    have := lastRevision_le_of_mem_infos hinit hmem
    omega
  rw [endHead_of_steps hs.frames] at hend
  have hinfos : Log.infos 0 .empty (init ++ s :: rest) = Log.infos 0 .empty init ++
      s.info init.length (Log.head init) ::
        Log.infos (init.length + 1) (endHead (Log.head init) s.frames) rest := by
    rw [Log.infos_append, Nat.zero_add]
    rfl
  have hindex : ((Log.infos 0 .empty (init ++ s :: rest)).takeWhile fun segment ↦
      segment.lastRevision.toNat < f.header.startRevision.toNat).length = init.length := by
    rw [hinfos, List.takeWhile_append_of_pos (by simpa using hfront), List.takeWhile_cons_of_neg,
      List.append_nil, Log.infos_length]
    simp only [LogSegment.info, decide_eq_true_eq, hstart]
    omega
  have hget : (Log.infos 0 .empty (init ++ s :: rest))[init.length]? =
      some (s.info init.length (Log.head init)) := by
    rw [hinfos, List.getElem?_append_right (by simp)]
    simp
  have hfirst : (nextRevision (Log.head init)).toNat ≤ f.header.startRevision.toNat := by
    rw [nextRevision_toNat hs.room]
    omega
  simp only [segmentIndexForRevision, hindex, hget, LogSegment.info, hfirst, if_true]

/-- A pointer of a log reads back its frame. -/
theorem readCommittedCommand_frame {j : ThreadJournal}
    (hvalid : Log.Valid X j.config j.threadId (init ++ s :: rest))
    (hholds : Log.Holds d j.threadId (init ++ s :: rest))
    (hsegments : j.segments = Log.infos 0 .empty (init ++ s :: rest))
    (hframes : s.frames = as ++ f :: bs) :
    ∃ receipt, deriveReceipt X f.stored = .ok receipt ∧ ∀ readFails,
      j.readCommittedCommand X d readFails
          (f.pointer (segmentHeaderLen + (framesBytes as).length)) =
        if readFails then .error (.io .failed) else .ok (f.stored.commandDigest, receipt) := by
  have hindex := segmentIndexForRevision_infos hvalid hframes
  obtain ⟨mid, hinit, htail⟩ := steps_append_iff.mp hvalid.segments
  obtain rfl : mid = Log.head init := endHead_of_steps (frames_of_segments hinit)
  obtain ⟨_, hs, -⟩ := steps_cons_iff.mp htail
  obtain ⟨before, has, hrest⟩ := steps_append_iff.mp (hframes ▸ hs.frames)
  obtain ⟨after, hf, hbs⟩ := steps_cons_iff.mp hrest
  obtain ⟨receipt, hreceipt⟩ := hf.spec.receipt
  refine ⟨receipt, hreceipt, fun readFails ↦ ?_⟩
  have hstored := (Log.stored_append_iff.mp hholds.stored).2.1
  rw [Nat.zero_add] at hstored
  obtain ⟨file, hfile, hdata⟩ := Directory.contents_eq_some_iff.mp hstored
  have hget : j.segments[init.length]? = some (s.info init.length (Log.head init)) := by
    rw [hsegments, Log.infos_append, List.getElem?_append_right (by simp)]
    simp [Log.infos, Log.head]
  have hbytes : file.data = (encodeSegmentHeader X (segmentHeader j.threadId init.length
      (endHead .empty (Log.frames init))) ++ framesBytes as) ++ (f.bytes ++ framesBytes bs) := by
    rw [hdata, LogSegment.data, hframes, framesBytes_append, framesBytes_cons, List.append_assoc]
  have hpointer := readPointer_frame s.path hf hbytes
    (by rw [hdata, LogSegment.data_length]; exact hs.size_lt)
    (hs.payload_le f (by simp [hframes]))
  rw [List.length_append, encodeSegmentHeader_length] at hpointer
  have hfound : (segmentIndexForRevision j.segments
      (f.pointer (segmentHeaderLen + (framesBytes as).length)).startRevision).bind
        (j.segments[·]?) = some (s.info init.length (Log.head init)) := by
    rw [hsegments]
    refine (congrArg (Option.bind · _) hindex).trans ?_
    rw [← hsegments]
    exact hget
  have hpath : (s.info init.length (Log.head init)).path = s.path := rfl
  rw [ThreadJournal.readCommittedCommand, hfound]
  simp only [hpath, hfile, hpointer, hreceipt]
  rfl

end

end Praxis.Journal
