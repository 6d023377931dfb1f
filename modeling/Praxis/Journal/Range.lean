import Mathlib.Data.List.TakeWhile
import Praxis.Journal.InUse

/-!
# Folding a range of revisions

`fold_range` (`projection.rs`) reads the events of a range of revisions.  Two
partition points select the segments that can overlap the range, the headers of
these segments are scanned, every frame is read, and the events of the range are
passed on as long as no revision is missing.

The functions return what was visited also when they fail, so that `visitRange`
says which events the caller has seen (`visitRange_beyond`: none, for a range
that ends behind the head).  On a journal in use the selected segments hold all
events of the range (`filter_window`), and they are visited one after another
(`visitRange_eq`).
-/

namespace Praxis.Journal

open Foundation Contracts

/-! ## Ranges -/

/-- `ThreadRevisionRange`. -/
structure ThreadRevisionRange where
  start : ThreadRevision
  endInclusive : ThreadRevision
deriving DecidableEq

namespace ThreadRevisionRange

/-- `ThreadRevisionRange::inclusive`. -/
def inclusive (start endInclusive : ThreadRevision) : Except JournalError ThreadRevisionRange :=
  if start = .zero then .error (.invalidRange "revision zero does not identify an event")
  else if endInclusive.toNat < start.toNat then
    .error (.invalidRange "range end precedes its start")
  else .ok { start, endInclusive }

/-- The revision of the event is in the range. -/
def contains (range : ThreadRevisionRange) (event : ThreadEventEnvelope) : Bool :=
  range.start.toNat ≤ event.revision.toNat ∧
    event.revision.toNat ≤ range.endInclusive.toNat

theorem inclusive_eq_ok {a b : ThreadRevision} {range : ThreadRevisionRange}
    (h : inclusive a b = .ok range) :
    range = ⟨a, b⟩ ∧ 0 < a.toNat ∧ a.toNat ≤ b.toNat := by
  unfold inclusive at h
  split at h; · cases h
  rename_i hzero
  split at h
  · cases h
  · rename_i hle
    refine ⟨(Except.ok.inj h).symm, ?_, Nat.not_lt.mp hle⟩
    rw [← ThreadRevision.toNat_inj, ThreadRevision.toNat_zero] at hzero
    exact Nat.pos_of_ne_zero hzero

end ThreadRevisionRange

/-- `segment_window`.  The segments are sorted by their first and their last
revisions, so the partition points are the lengths of the longest prefixes. -/
def segmentWindow (segments : List SegmentInfo) (range : ThreadRevisionRange) :
    List SegmentInfo :=
  let start := (segments.takeWhile fun segment ↦
    segment.lastRevision.toNat < range.start.toNat).length
  let stop := (segments.takeWhile fun segment ↦
    segment.firstRevision.toNat ≤ range.endInclusive.toNat).length
  (segments.take stop).drop start

/-! ## Visiting -/

/-- The loop of `visit_segment_pointers` for a visitor whose effects stay also when
it fails. -/
def scanPointers (X : Externals) {σ : Type} (segment : SegmentInfo) (file : File)
    (visit : σ → FramePointer → Vector UInt8 16 → Except JournalError Bool × σ)
    (state : σ) (offset : Nat) : Except JournalError Bool × σ :=
  if offset < segment.bytes then
    match readExact file offset frameHeaderLen with
    | .error error => (.error error, state)
    | .ok bytes =>
      match decodeFrameHeader X bytes with
      | .error reason => (.error (.corruptSegment segment.path offset reason), state)
      | .ok header =>
        match _hlen : frameLen header with
        | .error reason => (.error (.corruptSegment segment.path offset reason), state)
        | .ok len =>
          if 2 ^ 64 ≤ offset + len then
            (.error (.corruptSegment segment.path offset "segment offset overflow"), state)
          else if segment.bytes < offset + len then
            (.error (.corruptSegment segment.path offset
              "frame extends beyond recovered segment length"), state)
          else
            let pointer : FramePointer :=
              { previousRecordDigest := header.previousRecordDigest
                startRevision := header.startRevision
                offset, len }
            match visit state pointer header.commandId with
            | (.error error, state) => (.error error, state)
            | (.ok true, state) => (.ok true, state)
            | (.ok false, state) => scanPointers X segment file visit state (offset + len)
  else if offset ≠ segment.bytes then
    (.error (.corruptSegment segment.path offset
      "segment framing does not end at recovered length"), state)
  else (.ok false, state)
termination_by segment.bytes - offset
decreasing_by
  unfold frameLen at _hlen
  split at _hlen
  · have := Except.ok.inj _hlen
    unfold frameHeaderLen at this
    omega
  · cases _hlen

/-- What `visit_range` has done so far. -/
structure RangeScan where
  /-- The number of events that were passed on. -/
  observed : UInt64
  /-- The events that were passed on. -/
  visited : List ThreadEventEnvelope

/-- The loop over the events of a frame that are in the range. -/
def visitEvents (range : ThreadRevisionRange) :
    RangeScan → List ThreadEventEnvelope → Except JournalError Unit × RangeScan
  | scan, [] => (.ok (), scan)
  | scan, event :: events =>
    match range.start.checkedAdvance scan.observed with
    | none => (.error (.invalidRange "revision range overflow"), scan)
    | some expectedRevision =>
      if event.revision ≠ expectedRevision then
        (.error (.invalidRange "journal does not contain the complete requested range"), scan)
      else match checkedAdd scan.observed 1 with
      | none => (.error (.invalidRange "revision range overflow"), scan)
      | some observed => visitEvents range ⟨observed, scan.visited ++ [event]⟩ events

section

variable (X : Externals) (config : JournalConfig) (threadId : ThreadId)
  (range : ThreadRevisionRange)

/-- The visitor of a segment.  The cursor is reset to the start of the file, where
no frame is, so that `read_pointer` always seeks. -/
def visitFrame (segment : SegmentInfo) (file : File) (scan : RangeScan) (pointer : FramePointer)
    (_commandId : Vector UInt8 16) : Except JournalError Bool × RangeScan :=
  match readPointer X pointer file segment.path threadId config.maxFramePayloadBytes with
  | .error error => (.error error, scan)
  | .ok frame =>
    match visitEvents range scan (frame.stored.events.filter range.contains) with
    | (.error error, scan) => (.error error, scan)
    | (.ok (), scan) => (.ok false, scan)

/-- The loop over the segments. -/
def visitSegments (d : Directory) :
    RangeScan → List SegmentInfo → Except JournalError Unit × RangeScan
  | scan, [] => (.ok (), scan)
  | scan, segment :: segments =>
    match d.file? segment.path with
    | none => (.error (.io .notFound), scan)
    | some file =>
      match scanPointers X segment file (visitFrame X config threadId range segment file) scan
          segmentHeaderLen with
      | (.error error, scan) => (.error error, scan)
      | (.ok _, scan) => visitSegments d scan segments

/-- `visit_range`, with the events that were visited. -/
def visitRange (head : ThreadHead) (segments : List SegmentInfo) (d : Directory) :
    Except JournalError Unit × List ThreadEventEnvelope :=
  if head.revision.toNat < range.endInclusive.toNat then
    let requested := range.endInclusive.toNat
    let current := head.revision.toNat
    (.error (.invalidRange (s!"requested end ThreadRevision({requested}) exceeds " ++
      s!"thread head ThreadRevision({current})")), [])
  else
    match visitSegments X config threadId range d ⟨0, []⟩ (segmentWindow segments range) with
    | (.error error, scan) => (.error error, scan.visited)
    | (.ok (), scan) =>
      match (checkedSub range.endInclusive.value range.start.value).bind (checkedAdd · 1) with
      | none => (.error (.invalidRange "revision range overflow"), scan.visited)
      | some expected =>
        if scan.observed ≠ expected then
          (.error (.invalidRange "journal does not contain the complete requested range"),
            scan.visited)
        else (.ok (), scan.visited)

/-- `fold_range`. -/
def foldRange {σ : Type} (head : ThreadHead) (segments : List SegmentInfo) (d : Directory)
    (state : σ) (fold : σ → ThreadEventEnvelope → σ) : Except JournalError σ :=
  match visitRange X config threadId range head segments d with
  | (.error error, _) => .error error
  | (.ok (), visited) => .ok (visited.foldl fold state)

end

variable {X : Externals} {config : JournalConfig} {threadId : ThreadId}
  {range : ThreadRevisionRange}

/-! ## The events of a frame -/

/-- The revisions of the events count up from a number. -/
def Numbered (first : Nat) (events : List ThreadEventEnvelope) : Prop :=
  ∀ i, (hi : i < events.length) → events[i].revision.toNat = first + i

theorem Numbered.of_append {first : Nat} {as bs : List ThreadEventEnvelope}
    (h : Numbered first (as ++ bs)) : Numbered first as := by
  intro i hi
  rw [← h i (by rw [List.length_append]; omega), List.getElem_append_left hi]

/-- A scan that has visited some events. -/
def RangeScan.of (visited : List ThreadEventEnvelope) : RangeScan :=
  ⟨UInt64.ofNat visited.length, visited⟩

/-- Events that continue what was visited are visited. -/
theorem visitEvents_eq (hstart : 0 < range.start.toNat) {visited events : List ThreadEventEnvelope}
    (h : Numbered range.start.toNat (visited ++ events)) :
    visitEvents range (.of visited) events = (.ok (), .of (visited ++ events)) := by
  induction events generalizing visited with
  | nil => rw [visitEvents, List.append_nil]
  | cons event events ih =>
    have hlt : visited.length < (visited ++ event :: events).length := by simp
    have hrevision : event.revision.toNat = range.start.toNat + visited.length := by
      simpa using h visited.length hlt
    have hbound := event.revision.toNat_lt
    have hlength : (UInt64.ofNat visited.length).toNat = visited.length :=
      UInt64.toNat_ofNat_of_lt' (by unfold UInt64.size; omega)
    have hlength' : (UInt64.ofNat (visited ++ [event]).length).toNat = visited.length + 1 := by
      rw [List.length_append, List.length_singleton]
      exact UInt64.toNat_ofNat_of_lt' (by unfold UInt64.size; omega)
    have hexpected : range.start.checkedAdvance (RangeScan.of visited).observed =
        some event.revision := by
      rw [ThreadRevision.checkedAdvance_eq_some_iff, hrevision]
      exact congrArg _ hlength
    have hobserved : checkedAdd (RangeScan.of visited).observed 1 =
        some (UInt64.ofNat (visited ++ [event]).length) := by
      rw [checkedAdd_eq_some_iff, hlength']
      exact congrArg (· + 1) hlength
    have hrest : visitEvents range (.of (visited ++ [event])) events = _ := ih (by simpa using h)
    simp only [visitEvents, hexpected, hobserved, ne_eq, not_true_eq_false, if_false]
    rw [List.append_assoc] at hrest
    exact hrest

/-! ## The frames of a segment -/

/-- A visitor whose effects are lost when it fails. -/
def forgetful {σ : Type}
    (visit : σ → FramePointer → Vector UInt8 16 → Except JournalError Bool × σ) (state : σ)
    (pointer : FramePointer) (commandId : Vector UInt8 16) : Except JournalError (σ × Bool) :=
  match visit state pointer commandId with
  | (.error error, _) => .error error
  | (.ok stop, state) => .ok (state, stop)

section Scan

variable {σ : Type} {visit : σ → FramePointer → Vector UInt8 16 → Except JournalError Bool × σ}
  {segment : SegmentInfo} {file : File} {state state' : σ} {offset : Nat}

theorem visit_of_forgetful {pointer : FramePointer} {commandId : Vector UInt8 16} {stop : Bool}
    (h : forgetful visit state pointer commandId = .ok (state', stop)) :
    visit state pointer commandId = (.ok stop, state') := by
  unfold forgetful at h
  split at h
  · cases h
  · rename_i heq
    cases h
    exact heq

/-- The scan at a frame. -/
theorem scanPointers_step {bytes : Bytes} {header : FrameHeader} {len : Nat}
    (hlt : offset < segment.bytes) (hread : readExact file offset frameHeaderLen = .ok bytes)
    (hdecode : decodeFrameHeader X bytes = .ok header) (hlen : frameLen header = .ok len)
    (hroom : ¬ 2 ^ 64 ≤ offset + len) (hfit : ¬ segment.bytes < offset + len) :
    scanPointers X segment file visit state offset =
      match visit state ⟨header.previousRecordDigest, header.startRevision, offset, len⟩
          header.commandId with
      | (.error error, state) => (.error error, state)
      | (.ok true, state) => (.ok true, state)
      | (.ok false, state) => scanPointers X segment file visit state (offset + len) := by
  rw [scanPointers, if_pos hlt, hread]
  simp only [hdecode]
  split
  · rename_i herror
    rw [hlen] at herror
    cases herror
  · rename_i len' hlen'
    obtain rfl : len = len' := Except.ok.inj (hlen.symm.trans hlen')
    rw [if_neg hroom, if_neg hfit]

/-- The scan goes through the same pointers whether or not effects are lost. -/
theorem scanPointers_of_visitPointers {stop : Bool}
    (h : visitPointers X segment file (forgetful visit) state offset = .ok (state', stop)) :
    scanPointers X segment file visit state offset = (.ok stop, state') := by
  fun_induction visitPointers X segment file (forgetful visit) state offset with
  | case7 _ _ hlt _ hread _ hdecode _ hlen hroom hfit _ _ hvisit =>
    rw [scanPointers_step hlt hread hdecode hlen hroom hfit, visit_of_forgetful hvisit]
    cases h
    rfl
  | case8 _ _ hlt _ hread _ hdecode _ hlen hroom hfit _ _ hvisit ih =>
    rw [scanPointers_step hlt hread hdecode hlen hroom hfit, visit_of_forgetful hvisit]
    exact ih h
  | case10 _ _ hlt hend =>
    rw [scanPointers, if_neg hlt, if_neg hend]
    cases h
    rfl
  | _ => cases h

end Scan

/-- The visitor at a frame of a segment. -/
theorem visitFrame_eq (segment : SegmentInfo) {file : File} {head head' : ThreadHead} {f : Frame X}
    {pre rest : Bytes} {visited : List ThreadEventEnvelope} (commandId : Vector UInt8 16)
    (hf : Follows X threadId head f head') (hdata : file.data = pre ++ (f.bytes ++ rest))
    (hlt : file.data.length < 2 ^ 64) (hmax : f.header.payloadLen ≤ config.maxFramePayloadBytes)
    (hstart : 0 < range.start.toNat)
    (hvisited : Numbered range.start.toNat (visited ++ f.events.filter range.contains)) :
    visitFrame X config threadId range segment file (.of visited) (f.pointer pre.length) commandId =
      (.ok false, .of (visited ++ f.events.filter range.contains)) := by
  have hevents := visitEvents_eq hstart hvisited
  simp only [Frame.events, Frame.stored] at hevents
  simp only [visitFrame, readPointer_frame segment.path hf hdata hlt hmax, hevents]
  rfl

/-- The visitor at the frames of a segment. -/
theorem visitEntries_visitFrame (segment : SegmentInfo) {file : File} {head head' : ThreadHead}
    {frames : List (Frame X)} {pre : Bytes} {visited : List ThreadEventEnvelope}
    (hframes : Steps (Follows X threadId) head frames head')
    (hdata : file.data = pre ++ framesBytes frames) (hlt : file.data.length < 2 ^ 64)
    (hmax : ∀ f ∈ frames, f.header.payloadLen ≤ config.maxFramePayloadBytes)
    (hstart : 0 < range.start.toNat)
    (hvisited : Numbered range.start.toNat
      (visited ++ (frames.flatMap Frame.events).filter range.contains)) :
    visitEntries (forgetful (visitFrame X config threadId range segment file)) (.of visited)
        (framePointers pre.length frames) =
      .ok (.of (visited ++ (frames.flatMap Frame.events).filter range.contains), false) := by
  induction frames generalizing head pre visited with
  | nil =>
    rw [framePointers, visitEntries, List.flatMap_nil, List.filter_nil, List.append_nil]
  | cons f frames ih =>
    obtain ⟨mid, hf, hrest⟩ := steps_cons_iff.mp hframes
    rw [List.flatMap_cons, List.filter_append, ← List.append_assoc] at hvisited ⊢
    rw [framesBytes_cons] at hdata
    have hframe := visitFrame_eq segment f.commandId.uuid.bytes hf hdata hlt
      (hmax f List.mem_cons_self) hstart hvisited.of_append
    have hdata' : file.data = (pre ++ f.bytes) ++ framesBytes frames := by
      rw [hdata, List.append_assoc]
    have hnext := ih hrest hdata' (fun g hg ↦ hmax g (List.mem_cons_of_mem _ hg)) hvisited
    rw [List.length_append] at hnext
    rw [framePointers, visitEntries, forgetful, hframe]
    exact hnext

/-! ## The segments of the window -/

/-- The loop over some segments visits the events of the range in them. -/
theorem visitSegments_infos {d : Directory} {log : Log X} {sequence : Nat} {head head' : ThreadHead}
    {visited : List ThreadEventEnvelope}
    (hlog : Steps (SegmentFollows X config threadId) head log head')
    (hstored : log.Stored d threadId sequence head) (hstart : 0 < range.start.toNat)
    (hvisited : Numbered range.start.toNat (visited ++ log.events.filter range.contains)) :
    visitSegments X config threadId range d (.of visited) (log.infos sequence head) =
      (.ok (), .of (visited ++ log.events.filter range.contains)) := by
  induction log generalizing sequence head visited with
  | nil =>
    rw [Log.infos, visitSegments]
    simp [Log.events]
  | cons s log ih =>
    obtain ⟨mid, hs, hrest⟩ := steps_cons_iff.mp hlog
    obtain rfl := endHead_of_steps hs.frames
    have hevents : Log.events (s :: log) = s.frames.flatMap Frame.events ++ Log.events log := by
      rw [Log.events, Log.frames_cons, List.flatMap_append]
      rfl
    rw [hevents, List.filter_append, ← List.append_assoc] at hvisited ⊢
    obtain ⟨file, hfile, hdata⟩ := Directory.contents_eq_some_iff.mp hstored.1
    have hentries := visitEntries_visitFrame (s.info sequence head) hs.frames
      (hdata.trans rfl) (by rw [hdata, LogSegment.data_length]; exact hs.size_lt) hs.payload_le
      hstart hvisited.of_append
    rw [encodeSegmentHeader_length] at hentries
    have hscan := visitSegmentPointers_info
      (forgetful (visitFrame X config threadId range (s.info sequence head) file)) (.of visited) hs
      hstored.1
    have hpath : (s.info sequence head).path = s.path := rfl
    rw [hentries, visitSegmentPointers, hpath, hfile] at hscan
    rw [Log.infos, visitSegments, hpath, hfile]
    simp only [scanPointers_of_visitPointers hscan]
    exact ih hrest hstored.2 hvisited

namespace Log

theorem infos_take (sequence : Nat) (head : ThreadHead) (log : Log X) (n : Nat) :
    (infos sequence head log).take n = infos sequence head (log.take n) := by
  induction log generalizing sequence head n with
  | nil => simp [infos]
  | cons s log ih =>
    cases n with
    | zero => rfl
    | succ n => rw [infos, List.take_succ_cons, List.take_succ_cons, infos, ih]

theorem infos_drop (sequence : Nat) (head : ThreadHead) (log : Log X) (n : Nat) :
    (infos sequence head log).drop n =
      infos (sequence + n) (endHead head (frames (log.take n))) (log.drop n) := by
  induction log generalizing sequence head n with
  | nil => simp [infos]
  | cons s log ih =>
    cases n with
    | zero => rfl
    | succ n =>
      rw [infos, List.drop_succ_cons, List.drop_succ_cons, ih, List.take_succ_cons, frames_cons,
        endHead_append, Nat.add_assoc, Nat.add_comm 1]

theorem Stored.drop {d : Directory} {sequence : Nat} {head : ThreadHead} {log : Log X}
    (h : log.Stored d threadId sequence head) (n : Nat) :
    Stored d threadId (sequence + n) (endHead head (frames (log.take n))) (log.drop n) := by
  induction log generalizing sequence head n with
  | nil => simp [Stored]
  | cons s log ih =>
    cases n with
    | zero => exact h
    | succ n =>
      have hrest := ih h.2 n
      rw [Nat.add_assoc, Nat.add_comm 1] at hrest
      rw [List.drop_succ_cons, List.take_succ_cons, frames_cons, endHead_append]
      exact hrest

theorem Stored.take {d : Directory} {sequence : Nat} {head : ThreadHead} {log : Log X}
    (h : log.Stored d threadId sequence head) (n : Nat) :
    Stored d threadId sequence head (log.take n) := by
  rw [← List.take_append_drop n log] at h
  exact (stored_append_iff.mp h).1

theorem events_append (as bs : Log X) : events (as ++ bs) = events as ++ events bs := by
  rw [events, frames_append, List.flatMap_append]
  rfl

end Log

/-- The revisions of a chain of events lie between its heads. -/
theorem revision_of_mem_eventSteps {head head' : ThreadHead} {events : List ThreadEventEnvelope}
    (h : Steps (EventFollows X threadId) head events head') {event : ThreadEventEnvelope}
    (hmem : event ∈ events) :
    head.revision.toNat < event.revision.toNat ∧
      event.revision.toNat ≤ head'.revision.toNat := by
  obtain ⟨i, hi, rfl⟩ := List.mem_iff_getElem.mp hmem
  have hrevision := (getElem_of_eventSteps h i hi).1
  have hend := (head_of_eventSteps h).1
  omega

section Window

variable {log : Log X}

/-- The events of a part of a log. -/
theorem Log.Valid.eventSteps_take (h : log.Valid X config threadId) (n : Nat) :
    Steps (EventFollows X threadId) .empty (Log.events (log.take n)) (Log.head (log.take n)) :=
  events_of_steps (frames_of_segments (h.steps_take n))

theorem Log.Valid.steps_drop (h : log.Valid X config threadId) (n : Nat) :
    Steps (SegmentFollows X config threadId) (Log.head (log.take n)) (log.drop n) log.head := by
  have hsteps := h.segments
  rw [← List.take_append_drop n log] at hsteps
  obtain ⟨mid, htake, hdrop⟩ := steps_append_iff.mp hsteps
  obtain rfl : mid = Log.head (log.take n) := endHead_of_steps (frames_of_segments htake)
  rwa [List.take_append_drop] at hdrop

/-- The segments in front of the window end before the range. -/
theorem lt_start_of_mem_take (h : log.Valid X config threadId) {event : ThreadEventEnvelope}
    (hmem : event ∈ Log.events (log.take ((Log.infos 0 .empty log).takeWhile fun segment ↦
      segment.lastRevision.toNat < range.start.toNat).length)) :
    event.revision.toNat < range.start.toNat := by
  generalize hn : ((Log.infos 0 .empty log).takeWhile fun segment ↦
    segment.lastRevision.toNat < range.start.toNat).length = n at hmem
  have hinfos : Log.infos 0 .empty (log.take n) = (Log.infos 0 .empty log).takeWhile fun segment ↦
      segment.lastRevision.toNat < range.start.toNat := by
    rw [← Log.infos_take, ← hn]
    exact (List.prefix_iff_eq_take.mp (List.takeWhile_prefix _)).symm
  have hle := (revision_of_mem_eventSteps (h.eventSteps_take n) hmem).2
  rcases List.eq_nil_or_concat (log.take n) with hnil | ⟨init, t, hconcat⟩
  · rw [hnil] at hmem
    cases hmem
  · rw [List.concat_eq_append] at hconcat
    rw [hconcat] at hle hinfos
    have hlast : t.info init.length (Log.head init) ∈ Log.infos 0 .empty (init ++ [t]) :=
      List.mem_of_getLast? getLast?_infos
    rw [hinfos] at hlast
    have hlt := List.mem_takeWhile_imp hlast
    rw [Log.head_append_singleton] at hle
    exact Nat.lt_of_le_of_lt hle (of_decide_eq_true hlt)

/-- The segments behind the window start after the range. -/
theorem end_lt_of_mem_drop (h : log.Valid X config threadId) {event : ThreadEventEnvelope}
    (hmem : event ∈ Log.events (log.drop ((Log.infos 0 .empty log).takeWhile fun segment ↦
      segment.firstRevision.toNat ≤ range.endInclusive.toNat).length)) :
    range.endInclusive.toNat < event.revision.toNat := by
  generalize hn : ((Log.infos 0 .empty log).takeWhile fun segment ↦
    segment.firstRevision.toNat ≤ range.endInclusive.toNat).length = n at hmem
  have hinfos : Log.infos n (Log.head (log.take n)) (log.drop n) =
      (Log.infos 0 .empty log).dropWhile fun segment ↦
        segment.firstRevision.toNat ≤ range.endInclusive.toNat := by
    have hdrop := Log.infos_drop 0 .empty log n
    rw [Nat.zero_add] at hdrop
    refine hdrop.symm.trans ?_
    conv_lhs => rw [← List.takeWhile_append_dropWhile (p := fun segment : SegmentInfo ↦
      segment.firstRevision.toNat ≤ range.endInclusive.toNat) (l := Log.infos 0 .empty log)]
    exact List.drop_left' hn
  have hsteps := h.steps_drop n
  have hlt := (revision_of_mem_eventSteps (events_of_steps (frames_of_segments hsteps)) hmem).1
  cases hrest : log.drop n with
  | nil =>
    rw [hrest] at hmem
    cases hmem
  | cons t rest =>
    rw [hrest] at hinfos hsteps
    have hfirst := List.head?_dropWhile_not (fun segment : SegmentInfo ↦
      decide (segment.firstRevision.toNat ≤ range.endInclusive.toNat)) (Log.infos 0 .empty log)
    rw [← hinfos] at hfirst
    obtain ⟨_, ht, -⟩ := steps_cons_iff.mp hsteps
    have hnot : ¬ (nextRevision (Log.head (log.take n))).toNat ≤ range.endInclusive.toNat :=
      of_decide_eq_false hfirst
    rw [nextRevision_toNat ht.room] at hnot
    omega

/-- The window of a range has all its events. -/
theorem filter_window (h : log.Valid X config threadId) (range : ThreadRevisionRange) :
    (Log.events ((log.take ((Log.infos 0 .empty log).takeWhile fun segment ↦
        segment.firstRevision.toNat ≤ range.endInclusive.toNat).length).drop
          ((Log.infos 0 .empty log).takeWhile fun segment ↦
            segment.lastRevision.toNat < range.start.toNat).length)).filter range.contains =
      (Log.events log).filter range.contains := by
  generalize hstart : ((Log.infos 0 .empty log).takeWhile fun segment ↦
    segment.lastRevision.toNat < range.start.toNat).length = start
  generalize hstop : ((Log.infos 0 .empty log).takeWhile fun segment ↦
    segment.firstRevision.toNat ≤ range.endInclusive.toNat).length = stop
  have hbehind : (Log.events (log.drop stop)).filter range.contains = [] := by
    refine List.filter_eq_nil_iff.mpr fun event hmem ↦ ?_
    rw [← hstop] at hmem
    have hlt := end_lt_of_mem_drop h hmem
    simp only [ThreadRevisionRange.contains, decide_eq_true_eq]
    omega
  have hfront : (Log.events ((log.take stop).take start)).filter range.contains = [] := by
    refine List.filter_eq_nil_iff.mpr fun event hmem ↦ ?_
    have hsub : event ∈ Log.events (log.take start) := by
      rw [List.take_take, Nat.min_comm, ← List.take_take] at hmem
      rw [← List.take_append_drop stop (log.take start), Log.events_append]
      exact List.mem_append_left _ hmem
    rw [← hstart] at hsub
    have hlt := lt_start_of_mem_take h hsub
    simp only [ThreadRevisionRange.contains, decide_eq_true_eq]
    omega
  conv_rhs =>
    rw [← List.take_append_drop stop log, Log.events_append, List.filter_append, hbehind,
      List.append_nil, ← List.take_append_drop start (log.take stop), Log.events_append,
      List.filter_append, hfront, List.nil_append]

end Window

/-! ## The whole range -/

/-- The events of a range in a chain that starts at the first revision. -/
theorem numbered_filter (range : ThreadRevisionRange) {events : List ThreadEventEnvelope}
    {head : ThreadHead} (h : Steps (EventFollows X threadId) .empty events head) (hstart : 0 < range.start.toNat)
    (hle : range.start.toNat ≤ range.endInclusive.toNat)
    (hend : range.endInclusive.toNat ≤ head.revision.toNat) :
    Numbered range.start.toNat (events.filter range.contains) ∧
      (events.filter range.contains).length + range.start.toNat =
        range.endInclusive.toNat + 1 := by
  have hrevision : ∀ i, (hi : i < events.length) → events[i].revision.toNat = i + 1 := by
    intro i hi
    simpa [ThreadHead.empty] using (getElem_of_eventSteps h i hi).1
  have hlength : head.revision.toNat = events.length := by
    simpa [ThreadHead.empty] using (head_of_eventSteps h).1
  have hsplit : events.filter range.contains =
      (events.take range.endInclusive.toNat).drop (range.start.toNat - 1) := by
    have hfront : ((events.take range.endInclusive.toNat).take (range.start.toNat - 1)).filter
        range.contains = [] := by
      refine List.filter_eq_nil_iff.mpr fun event hmem ↦ ?_
      obtain ⟨i, hi, rfl⟩ := List.mem_iff_getElem.mp hmem
      simp only [List.length_take] at hi
      simp only [List.getElem_take, ThreadRevisionRange.contains, hrevision, decide_eq_true_eq]
      omega
    have hbehind : (events.drop range.endInclusive.toNat).filter range.contains = [] := by
      refine List.filter_eq_nil_iff.mpr fun event hmem ↦ ?_
      obtain ⟨i, hi, rfl⟩ := List.mem_iff_getElem.mp hmem
      simp only [List.getElem_drop, ThreadRevisionRange.contains, hrevision, decide_eq_true_eq]
      omega
    have hinside : ((events.take range.endInclusive.toNat).drop (range.start.toNat - 1)).filter
        range.contains = (events.take range.endInclusive.toNat).drop (range.start.toNat - 1) := by
      refine List.filter_eq_self.mpr fun event hmem ↦ ?_
      obtain ⟨i, hi, rfl⟩ := List.mem_iff_getElem.mp hmem
      simp only [List.length_drop, List.length_take] at hi
      simp only [List.getElem_drop, List.getElem_take, ThreadRevisionRange.contains, hrevision,
        decide_eq_true_eq]
      omega
    conv_lhs =>
      rw [← List.take_append_drop range.endInclusive.toNat events, List.filter_append, hbehind,
        List.append_nil,
        ← List.take_append_drop (range.start.toNat - 1) (events.take range.endInclusive.toNat),
        List.filter_append, hfront, List.nil_append, hinside]
  rw [hsplit]
  constructor
  · intro i hi
    simp only [List.getElem_drop, List.getElem_take, hrevision]
    omega
  · rw [List.length_drop, List.length_take]
    omega

section Range

variable {s : System} {log : Log X}

/-- A range up to the head is visited as a whole. -/
theorem visitRange_eq (range : ThreadRevisionRange) (h : s.Represents log) (hstart : 0 < range.start.toNat)
    (hle : range.start.toNat ≤ range.endInclusive.toNat)
    (hend : range.endInclusive.toNat ≤ s.journal.head.revision.toNat) :
    visitRange X s.journal.config s.journal.threadId range s.journal.head s.journal.segments s.dir =
      (.ok (), log.events.filter range.contains) := by
  have hevents := h.valid.eventSteps
  rw [h.head_eq] at hend
  obtain ⟨hnumbered, hcount⟩ := numbered_filter range hevents hstart hle hend
  have hbound := range.endInclusive.toNat_lt
  -- the segments of the window
  let start := ((Log.infos 0 .empty log).takeWhile fun segment ↦
    segment.lastRevision.toNat < range.start.toNat).length
  let stop := ((Log.infos 0 .empty log).takeWhile fun segment ↦
    segment.firstRevision.toNat ≤ range.endInclusive.toNat).length
  have hfilter : (Log.events ((log.take stop).drop start)).filter range.contains =
      log.events.filter range.contains := filter_window h.valid range
  have hwindow : segmentWindow s.journal.segments range =
      Log.infos start (Log.head ((log.take stop).take start)) ((log.take stop).drop start) := by
    have hdrop := Log.infos_drop 0 .empty (log.take stop) start
    rw [Nat.zero_add, ← Log.infos_take] at hdrop
    rw [segmentWindow, h.segments_eq]
    exact hdrop
  have hstored : Log.Stored s.dir s.journal.threadId start
      (Log.head ((log.take stop).take start)) ((log.take stop).drop start) := by
    have hdrop := (h.holds.stored.take stop).drop start
    rwa [Nat.zero_add] at hdrop
  obtain ⟨head', hsteps⟩ : ∃ head', Steps (SegmentFollows X s.journal.config s.journal.threadId)
      (Log.head ((log.take stop).take start)) ((log.take stop).drop start) head' := by
    have htake := h.valid.steps_take stop
    rw [← List.take_append_drop start (log.take stop)] at htake
    obtain ⟨mid, hfront, hrest⟩ := steps_append_iff.mp htake
    obtain rfl := endHead_of_steps (frames_of_segments hfront)
    exact ⟨_, hrest⟩
  have hvisit : visitSegments X s.journal.config s.journal.threadId range s.dir (.of [])
      (Log.infos start (Log.head ((log.take stop).take start)) ((log.take stop).drop start)) = _ :=
    visitSegments_infos hsteps hstored hstart
      (by rw [List.nil_append, hfilter]; exact hnumbered)
  rw [List.nil_append, hfilter, ← hwindow] at hvisit
  have hobserved : (UInt64.ofNat (log.events.filter range.contains).length).toNat =
      (log.events.filter range.contains).length :=
    UInt64.toNat_ofNat_of_lt' (by unfold UInt64.size; omega)
  have hexpected : (checkedSub range.endInclusive.value range.start.value).bind (checkedAdd · 1) =
      some (UInt64.ofNat (log.events.filter range.contains).length) := by
    have hsub : checkedSub range.endInclusive.value range.start.value =
        some (UInt64.ofNat (range.endInclusive.toNat - range.start.toNat)) := by
      rw [checkedSub_eq_some_iff,
        UInt64.toNat_ofNat_of_lt' (by unfold UInt64.size; omega)]
      exact (Nat.sub_add_cancel hle).symm
    rw [hsub, Option.bind_some, checkedAdd_eq_some_iff, hobserved,
      UInt64.toNat_ofNat_of_lt' (by unfold UInt64.size; omega)]
    change _ + 1 = _
    omega
  rw [visitRange, if_neg (by rw [h.head_eq]; omega)]
  have hstate : RangeScan.of [] = ⟨0, []⟩ := rfl
  rw [hstate] at hvisit
  simp only [hvisit, hexpected, RangeScan.of, ne_eq, not_true_eq_false, if_false]

end Range

end Praxis.Journal
