import Praxis.Journal.Lookup

/-!
# Journals that represent a log

`System.Represents` is the invariant of the writer: the directory holds a valid
log, and what the journal keeps in memory is what that log determines.  The
module derives from it what a lookup returns, and shows how the two ways a log
grows keep it:

* `Represents.rotate`: a new, empty segment;
* `Represents.push`: a frame at the end of the last segment.
-/

namespace Praxis.Journal

open Foundation Contracts

variable {X : Externals}

/-- The directory holds the log, and the journal has it in memory. -/
structure System.Represents (s : System) (log : Log X) : Prop where
  valid : log.Valid X s.journal.config s.journal.threadId
  holds : log.Holds s.dir s.journal.threadId
  head_eq : s.journal.head = log.head
  segments_eq : s.journal.segments = log.infos 0 .empty
  index_eq : s.journal.commandIndex = .ofPointers log.pointers
  /-- Batches are counted at most once since the log was empty. -/
  dirty_le : s.journal.dirtyBatchCount ≤ log.head.revision.toNat

namespace System.Represents

variable {s s' : System} {log : Log X}

/-- A recovered journal represents the log that was recovered. -/
theorem of_recovered {config : JournalConfig} {threadId : ThreadId} {d : Directory}
    (hvalid : log.Valid X config threadId) (hholds : log.Holds d threadId) :
    Represents { journal := openRecovered config threadId log.state, dir := d } log :=
  ⟨hvalid, hholds, rfl, rfl, rfl, Nat.zero_le _⟩

/-- An open journal has a number for each of its files. -/
theorem exists_file (h : s.Represents log) {i : Nat} (hi : i < s.journal.segments.length) :
    ∃ segment, s.journal.segments[i]? = some segment ∧ (s.dir.file? segment.path).isSome := by
  have hlog : i < log.length := by simpa [h.segments_eq] using hi
  have hstored := h.holds.stored.getElem hlog
  refine ⟨s.journal.segments[i], List.getElem?_eq_getElem hi, ?_⟩
  have hpath : s.journal.segments[i].path = log[i].path := by
    simp only [h.segments_eq, Log.infos_getElem hlog]
    rfl
  obtain ⟨file, hfile, -⟩ := Directory.contents_eq_some_iff.mp hstored
  rw [hpath, hfile]
  rfl

/-- Syncs change nothing a journal represents. -/
theorem harden (h : s.Represents log) (hjournal : s'.journal = s.journal)
    (hdir : s.dir.Hardens s'.dir) : s'.Represents log := by
  obtain ⟨j', d'⟩ := s'
  obtain rfl : j' = s.journal := hjournal
  refine ⟨h.valid, ⟨h.holds.lists.congr fun name ↦ ?_, h.holds.stored.congr fun t _ ↦ ?_⟩,
    h.head_eq, h.segments_eq, h.index_eq, h.dirty_le⟩
  · rw [hdir.contents_eq name]
  · rw [hdir.contents_eq t.path]

/-! ## Lookups -/

/-- Every frame has a pointer. -/
theorem exists_pointer_of_mem {f : Frame X} (hf : f ∈ log.frames) :
    ∃ pointer, (f.commandId, pointer) ∈ log.pointers := by
  obtain ⟨t, ht, hft⟩ := List.mem_flatMap.mp hf
  obtain ⟨as, bs, hframes⟩ := List.append_of_mem hft
  refine ⟨f.pointer (segmentHeaderLen + (framesBytes as).length),
    List.mem_flatMap.mpr ⟨t, ht, ?_⟩⟩
  rw [hframes, framePointers_append, framePointers]
  simp

theorem lookupPointer_of_mem {entries : List (CommandId × FramePointer)} {commandId : CommandId}
    {pointer : FramePointer} (h : (commandId, pointer) ∈ entries) :
    ∃ pointer', lookupPointer entries commandId = some pointer' := by
  cases hfind : entries.find? fun entry ↦ entry.1 = commandId with
  | none =>
    have hne := List.find?_eq_none.mp hfind _ h
    simp at hne
  | some entry => exact ⟨entry.2, by rw [lookupPointer, hfind]; rfl⟩

theorem mem_of_lookupPointer {entries : List (CommandId × FramePointer)} {commandId : CommandId}
    {pointer : FramePointer} (h : lookupPointer entries commandId = some pointer) :
    (commandId, pointer) ∈ entries := by
  obtain ⟨⟨id, p⟩, hfind, rfl⟩ := Option.map_eq_some_iff.mp h
  obtain rfl : id = commandId := by simpa using List.find?_some hfind
  exact List.mem_of_find?_eq_some hfind

/-- A lookup that succeeds returns a pointer of the log for the command, and
nothing only when the log has no frame of it. -/
theorem findCommandFrame_ok (h : s.Represents log) {readFails : Bool} {commandId : CommandId}
    {found : Option FramePointer}
    (hfind : s.journal.findCommandFrame X s.dir readFails commandId = .ok found) :
    (∃ pointer, found = some pointer ∧ (commandId, pointer) ∈ log.pointers) ∨
      (found = none ∧ ∀ f ∈ log.frames, f.commandId ≠ commandId) := by
  unfold ThreadJournal.findCommandFrame at hfind
  rw [h.index_eq] at hfind
  split at hfind
  · rename_i hmiss
    refine .inr ⟨(Except.ok.inj hfind).symm, ?_⟩
    rintro f hf rfl
    obtain ⟨pointer, hpointer⟩ := exists_pointer_of_mem hf
    simp [CommandIndex.maybeContains_ofPointers hpointer] at hmiss
  · split at hfind
    · rename_i pointer hrecent
      exact .inl ⟨pointer, (Except.ok.inj hfind).symm, CommandIndex.mem_of_recentFrame hrecent⟩
    · split at hfind
      · cases hfind
      · rw [h.segments_eq, findCommandPointer_infos h.valid.segments h.holds.stored] at hfind
        obtain rfl := Except.ok.inj hfind
        cases hlookup : lookupPointer log.pointers commandId with
        | some pointer => exact .inl ⟨pointer, rfl, mem_of_lookupPointer hlookup⟩
        | none =>
          refine .inr ⟨rfl, ?_⟩
          rintro f hf rfl
          obtain ⟨_, hpointer⟩ := exists_pointer_of_mem hf
          obtain ⟨_, hsome⟩ := lookupPointer_of_mem hpointer
          rw [hlookup] at hsome
          cases hsome

/-- A lookup fails only when a read does. -/
theorem findCommandFrame_error (h : s.Represents log) {readFails : Bool} {commandId : CommandId}
    {error : JournalError}
    (hfind : s.journal.findCommandFrame X s.dir readFails commandId = .error error) :
    readFails = true ∧ error = .io .failed := by
  unfold ThreadJournal.findCommandFrame at hfind
  split at hfind
  · cases hfind
  · split at hfind
    · cases hfind
    · split at hfind
      · rename_i hreads
        exact ⟨hreads, (Except.error.inj hfind).symm⟩
      · rw [h.segments_eq, findCommandPointer_infos h.valid.segments h.holds.stored] at hfind
        cases hfind

/-- A pointer of the log reads back the frame of its command. -/
theorem readCommittedCommand_pointer (h : s.Represents log) {commandId : CommandId}
    {pointer : FramePointer} (hpointer : (commandId, pointer) ∈ log.pointers) :
    ∃ f ∈ log.frames, f.commandId = commandId ∧ ∃ receipt, deriveReceipt X f.stored = .ok receipt ∧
      ∀ readFails, s.journal.readCommittedCommand X s.dir readFails pointer =
        if readFails then .error (.io .failed) else .ok (f.stored.commandDigest, receipt) := by
  obtain ⟨t, ht, hpt⟩ := List.mem_flatMap.mp hpointer
  obtain ⟨as, f, bs, hframes, hid, rfl⟩ := exists_of_mem_framePointers hpt
  obtain ⟨init, rest, rfl⟩ := List.append_of_mem ht
  obtain ⟨receipt, hreceipt, hread⟩ :=
    readCommittedCommand_frame h.valid h.holds h.segments_eq hframes
  exact ⟨f, List.mem_flatMap.mpr ⟨t, ht, by simp [hframes]⟩, hid, receipt, hreceipt, hread⟩

/-- Frames of a valid log with the same command are the same. -/
theorem frame_eq (h : s.Represents log) {f g : Frame X} (hf : f ∈ log.frames)
    (hg : g ∈ log.frames) (heq : f.commandId = g.commandId) : f = g :=
  List.inj_on_of_nodup_map h.valid.commands_nodup hf hg heq

/-- What `receipt` returns for every command. -/
theorem receipt_eq (h : s.Represents log) (commandId : CommandId) :
    (∃ f ∈ log.frames, f.commandId = commandId ∧ ∃ receipt, deriveReceipt X f.stored = .ok receipt ∧
      s.journal.receipt X s.dir commandId = .ok (some receipt)) ∨
    ((∀ f ∈ log.frames, f.commandId ≠ commandId) ∧
      s.journal.receipt X s.dir commandId = .ok none) := by
  unfold ThreadJournal.receipt
  cases hfind : s.journal.findCommandFrame X s.dir false commandId with
  | error error => exact absurd (h.findCommandFrame_error hfind).1 (by decide)
  | ok found =>
    rcases h.findCommandFrame_ok hfind with ⟨pointer, rfl, hpointer⟩ | ⟨rfl, hnone⟩
    · obtain ⟨f, hf, hid, receipt, hreceipt, hread⟩ := h.readCommittedCommand_pointer hpointer
      refine .inl ⟨f, hf, hid, receipt, hreceipt, ?_⟩
      simp [hread]
    · exact .inr ⟨hnone, rfl⟩

/-- Journals that represent logs with the same frames return the same receipts. -/
theorem receipt_congr_frames {log' : Log X} (h : s.Represents log) (h' : s'.Represents log')
    (hframes : log'.frames = log.frames) (commandId : CommandId) :
    s'.journal.receipt X s'.dir commandId = s.journal.receipt X s.dir commandId := by
  have heq' := h'.receipt_eq commandId
  rw [hframes] at heq'
  rcases h.receipt_eq commandId with ⟨f, hf, hid, receipt, hreceipt, heq⟩ | ⟨hnone, heq⟩ <;>
    rcases heq' with ⟨f', hf', hid', receipt', hreceipt', heq'⟩ | ⟨hnone', heq'⟩
  · obtain rfl := h.frame_eq hf hf' (hid.trans hid'.symm)
    rw [heq, heq', Except.ok.inj (hreceipt.symm.trans hreceipt')]
  · exact absurd hid (hnone' f hf)
  · exact absurd hid' (hnone f' hf')
  · rw [heq, heq']

/-- Journals that represent the same log return the same receipts. -/
theorem receipt_congr (h : s.Represents log) (h' : s'.Represents log) (commandId : CommandId) :
    s'.journal.receipt X s'.dir commandId = s.journal.receipt X s.dir commandId :=
  h.receipt_congr_frames h' rfl commandId

end System.Represents

/-! ## The empty journal -/

/-- The system that opening an empty directory gives. -/
def System.initial (config : JournalConfig) (threadId : ThreadId) : System :=
  { journal := openRecovered config threadId Scan.start.state, dir := ∅ }

theorem initial_represents (config : JournalConfig) (threadId : ThreadId) :
    (System.initial config threadId).Represents ([] : Log X) := by
  refine .of_recovered ⟨.nil _, by simp, by simp⟩ ⟨⟨fun _ ↦ rfl, fun i name ↦ ?_, .nil⟩, trivial⟩
  simp only [Log.paths, List.not_mem_nil, false_iff, not_and]
  exact fun h ↦ by cases h

/-! ## New segments -/

/-- A log with a new segment at its end. -/
def Log.rotate (log : Log X) : Log X := log ++ [⟨segmentName log.length, []⟩]

/-- The entry of a new segment behind a head. -/
def newSegmentInfo (sequence : Nat) (head : ThreadHead) : SegmentInfo :=
  { sequence
    firstRevision := nextRevision head
    lastRevision := head.revision
    path := segmentName sequence
    bytes := segmentHeaderLen }

section Rotate

variable {s : System} {log : Log X}

/-- A log whose segments are all in use has fewer segments than revisions. -/
theorem System.Represents.length_lt (h : s.Represents log) (hfull : ∀ t ∈ log, t.frames ≠ []) :
    log.length < 2 ^ 64 := by
  have hle := length_le_of_segments h.valid.segments hfull
  have hlt := log.head.revision.value.toNat_lt
  simp only [ThreadHead.empty, ThreadRevision.toNat] at hle
  omega

/-- A new segment behind a log whose segments are all in use. -/
theorem System.Represents.rotate (h : s.Represents log) (hfull : ∀ t ∈ log, t.frames ≠ [])
    (hroom : log.head.revision.toNat + 1 < 2 ^ 64) {s' : System}
    (hjournal : s'.journal = { s.journal with
      segments := s.journal.segments ++ [newSegmentInfo log.length log.head] })
    (hfile : s'.dir.contents (segmentName log.length) =
      some (encodeSegmentHeader X (segmentHeader s.journal.threadId log.length log.head)))
    (hnew : s.dir.contents (segmentName log.length) = none)
    (hother : ∀ name ≠ segmentName log.length, s'.dir.contents name = s.dir.contents name) :
    s'.Represents log.rotate := by
  obtain ⟨j', d'⟩ := s'
  obtain rfl : j' = _ := hjournal
  have hframes : log.rotate.frames = log.frames := by simp [Log.rotate]
  have hhead : log.rotate.head = log.head := by rw [Log.head, Log.head, hframes]
  have hpointers : log.rotate.pointers = log.pointers := by
    simp [Log.rotate, Log.pointers, framePointers]
  have hne : ∀ t ∈ log, t.path ≠ segmentName log.length := by
    intro t ht heq
    obtain ⟨i, hi⟩ := Log.path_mem_paths 0 ht
    have hsome := ((h.holds.lists.mem_iff i t.path).mp hi).1
    rw [heq, hnew] at hsome
    cases hsome
  refine ⟨?_, ⟨?_, Log.stored_append_iff.mpr ⟨?_, ?_, trivial⟩⟩, ?_, ?_, ?_, ?_⟩
  · have hempty : SegmentFollows X s.journal.config s.journal.threadId log.head
        ⟨segmentName log.length, []⟩ log.head :=
      ⟨hroom, .nil _, by simp, by simp [LogSegment.size, segmentHeaderLen]⟩
    refine .append_singleton h.valid.segments hempty ?_ hfull
    simpa using h.valid.commands_nodup
  · rw [Log.rotate, Log.paths_append, Nat.zero_add]
    refine h.holds.lists.append_singleton (segmentSequence_segmentName (h.length_lt hfull)) ?_ ?_
      hother
    · rintro ⟨i, name⟩ hp
      simpa using (Log.le_of_mem_paths hp).2
    · simp only [hfile, Option.isSome_some]
  · exact h.holds.stored.congr fun t ht ↦ hother _ (hne t ht)
  · rw [Nat.zero_add]
    simpa [LogSegment.data, Log.head] using hfile
  · rw [hhead]
    exact h.head_eq
  · simp only [h.segments_eq]
    rw [Log.rotate, Log.infos_append, Nat.zero_add]
    rfl
  · rw [hpointers]
    exact h.index_eq
  · rw [hhead]
    exact h.dirty_le

end Rotate

/-! ## New frames -/

/-- A segment with a frame at its end. -/
def LogSegment.push (t : LogSegment X) (f : Frame X) : LogSegment X :=
  { t with frames := t.frames ++ [f] }

section Push

variable {s : System} {init : Log X} {t : LogSegment X} {f : Frame X}

theorem frames_push : Log.frames (init ++ [t.push f]) = Log.frames (init ++ [t]) ++ [f] := by
  simp [LogSegment.push]

theorem head_push : Log.head (init ++ [t.push f]) = f.endHead := by
  rw [Log.head, frames_push, endHead_append]
  rfl

theorem size_push : (t.push f).size = t.size + f.len := by
  simp [LogSegment.push, LogSegment.size, Frame.len, Nat.add_assoc]

theorem pointers_push : Log.pointers (init ++ [t.push f]) =
    Log.pointers (init ++ [t]) ++ [(f.commandId, f.pointer t.size)] := by
  simp [Log.pointers, LogSegment.push, framePointers_append, framePointers, LogSegment.size]

/-- The entry of the last segment. -/
theorem getLast?_infos : (Log.infos 0 .empty (init ++ [t])).getLast? =
    some (t.info init.length (Log.head init)) := by
  rw [Log.infos_append, Nat.zero_add]
  exact List.getLast?_concat

/-- The last segment extended by a frame that follows the head. -/
theorem segmentFollows_push {config : JournalConfig} {threadId : ThreadId}
    {head mid head' : ThreadHead} (ht : SegmentFollows X config threadId head t mid)
    (hf : Follows X threadId mid f head')
    (hmax : f.header.payloadLen ≤ config.maxFramePayloadBytes)
    (hsize : t.size + f.len < 2 ^ 64) :
    SegmentFollows X config threadId head (t.push f) head' := by
  refine ⟨ht.room, steps_append_iff.mpr ⟨mid, ht.frames, .cons hf (.nil _)⟩, ?_, ?_⟩
  · intro g hg
    rcases List.mem_append.mp hg with hg | hg
    · exact ht.payload_le g hg
    · rwa [List.mem_singleton.mp hg]
  · rwa [size_push]

/-- A frame behind the last one. -/
theorem System.Represents.push (h : s.Represents (init ++ [t])) {head' : ThreadHead}
    (hf : Follows X s.journal.threadId s.journal.head f head')
    (hmax : f.header.payloadLen ≤ s.journal.config.maxFramePayloadBytes)
    (hsize : t.size + f.len < 2 ^ 64)
    (hfresh : ∀ g ∈ Log.frames (init ++ [t]), g.commandId ≠ f.commandId) {s' : System}
    (hconfig : s'.journal.config = s.journal.config)
    (hthread : s'.journal.threadId = s.journal.threadId)
    (hhead : s'.journal.head = head')
    (hsegments : s'.journal.segments = s.journal.segments.dropLast ++
      [{ t.info init.length (Log.head init) with
         bytes := t.size + f.len
         lastRevision := head'.revision }])
    (hindex : s'.journal.commandIndex =
      s.journal.commandIndex.insert f.commandId (f.pointer t.size))
    (hdirty : s'.journal.dirtyBatchCount ≤ s.journal.dirtyBatchCount + 1)
    (hfile : s'.dir.contents t.path =
      some (t.data s.journal.threadId init.length (Log.head init) ++ f.bytes))
    (hother : ∀ name ≠ t.path, s'.dir.contents name = s.dir.contents name) :
    s'.Represents (init ++ [t.push f]) := by
  obtain ⟨hinit, ht, hfull⟩ := h.valid.split
  obtain ⟨hstored, hlast⟩ := Log.stored_append_iff.mp h.holds.stored
  have hmid : endHead (Log.head init) t.frames = s.journal.head := by
    rw [h.head_eq, Log.head_append_singleton]
  obtain rfl : head' = f.endHead := hf.head_eq
  refine ⟨?_, ⟨?_, Log.stored_append_iff.mpr ⟨?_, ?_, trivial⟩⟩, ?_, ?_, ?_, ?_⟩
  · rw [hconfig, hthread]
    refine .append_singleton hinit (segmentFollows_push (hmid ▸ ht) hf hmax hsize) ?_ hfull
    rw [frames_push, List.map_append, List.nodup_append]
    refine ⟨h.valid.commands_nodup, by simp, ?_⟩
    rintro id hid id' hid' rfl
    obtain ⟨g, hg, rfl⟩ := List.mem_map.mp hid
    exact hfresh g hg (by simpa using hid')
  · have hpaths : Log.paths 0 (init ++ [t.push f]) = Log.paths 0 (init ++ [t]) := by
      rw [Log.paths_append, Log.paths_append]
      rfl
    rw [hpaths]
    refine h.holds.lists.congr fun name ↦ ?_
    by_cases hname : name = t.path
    · rw [hname, hfile, hlast.1]
      rfl
    · rw [hother name hname]
  · rw [hthread]
    exact hstored.congr fun u hu ↦ hother _ (Log.path_ne_of_mem h.holds.lists hu)
  · rw [hthread, Nat.zero_add]
    simpa [LogSegment.push, LogSegment.data, Log.head] using hfile
  · rw [hhead, head_push]
  · have hdrop : s.journal.segments.dropLast = Log.infos 0 .empty init := by
      rw [h.segments_eq, Log.infos_append, Log.infos]
      exact List.dropLast_concat
    have hend : endHead (Log.head init) (t.push f).frames = f.endHead := by
      rw [LogSegment.push, endHead_append]
      rfl
    have hinfo : (t.push f).info init.length (Log.head init) =
        { t.info init.length (Log.head init) with
          bytes := t.size + f.len
          lastRevision := f.endHead.revision } := by
      rw [LogSegment.info, hend, size_push]
      rfl
    rw [hsegments, hdrop, Log.infos_append, Nat.zero_add, ← hinfo]
    rfl
  · rw [hindex, h.index_eq, pointers_push, CommandIndex.ofPointers_append_singleton]
  · have hdirty' := h.dirty_le
    have hlt := hf.lt
    rw [← h.head_eq] at hdirty'
    rw [head_push]
    omega

end Push

end Praxis.Journal
