import Praxis.Journal.Layout

/-!
# What a recovery makes of a log

Recovering files that hold a valid log gives the log back.  The module follows
the loops of the recovery from the inside out.

* `nextFrame` recognises a whole frame at the front of anything
  (`nextFrame_frame`), and calls a proper part of a frame torn
  (`nextFrame_torn`), since the header announces the length.
* `recoverFrames` takes over frame after frame (`recoverFrames_append`).
* `recoverSegments` does the same for the segments in front of the last one
  (`recoverSegments_append`), and cuts the last one down to its whole frames
  (`recoverSegments_last`).

What is taken over is given by `Scan.pushLog`, for both modes.
-/

namespace Praxis.Journal

open Foundation Contracts

variable {X : Externals} {config : JournalConfig} {threadId : ThreadId}

/-! ## Whole frames and torn ones -/

theorem nextFrame_frame {f : Frame X} (rest : Bytes)
    (hmax : f.header.payloadLen ≤ config.maxFramePayloadBytes) :
    nextFrame X config (f.bytes ++ rest) = .frame f.len f.decoded := by
  have hlen := f.frameHeaderLen_le
  have htake : (f.bytes ++ rest).take frameHeaderLen = f.bytes.take frameHeaderLen :=
    List.take_append_of_le_length hlen
  have hwhole : (f.bytes ++ rest).take f.len = f.bytes := List.take_left' rfl
  have hge : f.len ≤ (f.bytes ++ rest).length := by simp [Frame.len]
  rw [nextFrame, if_neg (by omega), htake, f.decodeFrameHeader_eq]
  simp only [UInt64.not_lt.mpr hmax, if_false, f.frameLen_eq, Nat.not_lt.mpr hge, hwhole, f.decodes]

/-- A proper part of a frame announces more bytes than are there. -/
theorem nextFrame_torn {f : Frame X} {part : Bytes}
    (hmax : f.header.payloadLen ≤ config.maxFramePayloadBytes) (hpart : part <+: f.bytes)
    (hlt : part.length < f.len) : nextFrame X config part = .torn := by
  by_cases hheader : part.length < frameHeaderLen
  · rw [nextFrame, if_pos hheader]
  · have htake : part.take frameHeaderLen = f.bytes.take frameHeaderLen := by
      obtain ⟨rest, hrest⟩ := hpart
      rw [← hrest, List.take_append_of_le_length (Nat.le_of_not_lt hheader)]
    rw [nextFrame, if_neg hheader, htake, f.decodeFrameHeader_eq]
    simp only [UInt64.not_lt.mpr hmax, if_false, f.frameLen_eq, hlt, if_true]

/-! ## Taking frames over -/

namespace Scan

/-- A scan that takes a frame over. -/
def push (mode : RecoveryMode) (scan : Scan) (offset : Nat) (f : Frame X) : Scan :=
  match mode with
  | .snapshot =>
    { scan with
      state := { scan.state with head := f.endHead }
      visited := scan.visited ++ f.events }
  | .writer =>
    { state :=
        { scan.state with
          head := f.endHead
          commandIndex := scan.state.commandIndex.insert f.commandId (f.pointer offset) }
      recoveredCommands := scan.recoveredCommands ++ [f.commandId]
      visited := scan.visited ++ f.events }

/-- A scan that takes frames in a row over. -/
def pushFrames (mode : RecoveryMode) (scan : Scan) : Nat → List (Frame X) → Scan
  | _, [] => scan
  | offset, f :: frames => pushFrames mode (scan.push mode offset f) (offset + f.len) frames

/-- A scan that takes a segment over. -/
def pushSegment (mode : RecoveryMode) (scan : Scan) (sequence : Nat) (s : LogSegment X) : Scan :=
  let scan' := scan.pushFrames mode segmentHeaderLen s.frames
  match mode with
  | .snapshot => scan'
  | .writer =>
    { scan' with
      state :=
        { scan'.state with
          segments := scan'.state.segments ++ [s.info sequence scan.state.head] } }

/-- A scan that takes segments in a row over. -/
def pushLog (mode : RecoveryMode) (scan : Scan) : Nat → Log X → Scan
  | _, [] => scan
  | sequence, s :: log => pushLog mode (scan.pushSegment mode sequence s) (sequence + 1) log

variable {mode : RecoveryMode} {scan : Scan}

@[simp] theorem push_head (offset : Nat) (f : Frame X) :
    (scan.push mode offset f).state.head = f.endHead := by
  cases mode <;> rfl

@[simp] theorem push_visited (offset : Nat) (f : Frame X) :
    (scan.push mode offset f).visited = scan.visited ++ f.events := by
  cases mode <;> rfl

@[simp] theorem push_segments (offset : Nat) (f : Frame X) :
    (scan.push mode offset f).state.segments = scan.state.segments := by
  cases mode <;> rfl

@[simp] theorem pushFrames_head (offset : Nat) (frames : List (Frame X)) :
    (scan.pushFrames mode offset frames).state.head = endHead scan.state.head frames := by
  induction frames generalizing scan offset with
  | nil => rfl
  | cons f frames ih => simp [pushFrames, ih]

@[simp] theorem pushFrames_visited (offset : Nat) (frames : List (Frame X)) :
    (scan.pushFrames mode offset frames).visited =
      scan.visited ++ frames.flatMap Frame.events := by
  induction frames generalizing scan offset with
  | nil => simp [pushFrames]
  | cons f frames ih => simp [pushFrames, ih]

@[simp] theorem pushFrames_segments (offset : Nat) (frames : List (Frame X)) :
    (scan.pushFrames mode offset frames).state.segments = scan.state.segments := by
  induction frames generalizing scan offset with
  | nil => rfl
  | cons f frames ih => simp [pushFrames, ih]

@[simp] theorem pushFrames_recoveredCommands (offset : Nat) (frames : List (Frame X)) :
    (scan.pushFrames .writer offset frames).recoveredCommands =
      scan.recoveredCommands ++ frames.map Frame.commandId := by
  induction frames generalizing scan offset with
  | nil => simp [pushFrames]
  | cons f frames ih => simp [pushFrames, ih, push]

@[simp] theorem pushFrames_commandIndex (offset : Nat) (frames : List (Frame X)) :
    (scan.pushFrames .writer offset frames).state.commandIndex =
      (framePointers offset frames).foldl (fun ix entry ↦ ix.insert entry.1 entry.2)
        scan.state.commandIndex := by
  induction frames generalizing scan offset with
  | nil => rfl
  | cons f frames ih => simp [pushFrames, ih, push, framePointers]

@[simp] theorem pushSegment_head (sequence : Nat) (s : LogSegment X) :
    (scan.pushSegment mode sequence s).state.head = endHead scan.state.head s.frames := by
  cases mode <;> simp [pushSegment]

@[simp] theorem pushSegment_visited (sequence : Nat) (s : LogSegment X) :
    (scan.pushSegment mode sequence s).visited =
      scan.visited ++ s.frames.flatMap Frame.events := by
  cases mode <;> simp [pushSegment]

@[simp] theorem pushSegment_recoveredCommands (sequence : Nat) (s : LogSegment X) :
    (scan.pushSegment .writer sequence s).recoveredCommands =
      scan.recoveredCommands ++ s.frames.map Frame.commandId := by
  simp [pushSegment]

theorem pushLog_append (sequence : Nat) (as bs : Log X) :
    scan.pushLog mode sequence (as ++ bs) =
      (scan.pushLog mode sequence as).pushLog mode (sequence + as.length) bs := by
  induction as generalizing scan sequence with
  | nil => rfl
  | cons s as ih =>
    simp only [List.cons_append, pushLog, ih, List.length_cons, Nat.add_assoc, Nat.add_comm 1]

@[simp] theorem pushLog_head (sequence : Nat) (log : Log X) :
    (scan.pushLog mode sequence log).state.head = endHead scan.state.head log.frames := by
  induction log generalizing scan sequence with
  | nil => rfl
  | cons s log ih => simp [pushLog, ih, endHead_append]

@[simp] theorem pushLog_visited (sequence : Nat) (log : Log X) :
    (scan.pushLog mode sequence log).visited = scan.visited ++ log.events := by
  induction log generalizing scan sequence with
  | nil => simp [pushLog, Log.events]
  | cons s log ih => simp [pushLog, ih, Log.events]

@[simp] theorem pushLog_recoveredCommands (sequence : Nat) (log : Log X) :
    (scan.pushLog .writer sequence log).recoveredCommands =
      scan.recoveredCommands ++ log.frames.map Frame.commandId := by
  induction log generalizing scan sequence with
  | nil => simp [pushLog]
  | cons s log ih => simp [pushLog, ih]

@[simp] theorem pushLog_segments (sequence : Nat) (log : Log X) :
    (scan.pushLog .writer sequence log).state.segments =
      scan.state.segments ++ log.infos sequence scan.state.head := by
  induction log generalizing scan sequence with
  | nil => simp [pushLog, Log.infos]
  | cons s log ih => simp [pushLog, ih, Log.infos, pushSegment]

@[simp] theorem pushLog_commandIndex (sequence : Nat) (log : Log X) :
    (scan.pushLog .writer sequence log).state.commandIndex =
      log.pointers.foldl (fun ix entry ↦ ix.insert entry.1 entry.2) scan.state.commandIndex := by
  induction log generalizing scan sequence with
  | nil => rfl
  | cons s log ih => simp [pushLog, ih, Log.pointers, pushSegment]

end Scan

/-- The state that recovering a log ends in. -/
def Log.state (log : Log X) : RecoveryState :=
  { head := log.head
    segments := log.infos 0 .empty
    commandIndex := .ofPointers log.pointers }

theorem pushLog_start_state (log : Log X) :
    (Scan.start.pushLog .writer 0 log).state = log.state := by
  apply RecoveryState.ext
  · simp [Scan.start, Log.state, Log.head]
  · simp [Scan.start, Log.state]
  · simp [Scan.start, Log.state, CommandIndex.ofPointers]

/-! ## The loop over the frames -/

section Frames

variable {path : FileName} {mode : RecoveryMode} {scan : Scan} {offset : Nat}

theorem recoverFrame_eq {f : Frame X} {head' : ThreadHead}
    (hf : Follows X threadId scan.state.head f head')
    (hfresh : mode = .writer → f.commandId ∉ scan.recoveredCommands) :
    recoverFrame X threadId path mode scan offset f.len f.decoded =
      .ok (scan.push mode offset f) := by
  have hvalidate : validateStoredBatch X f.decoded.header f.decoded.stored threadId
      scan.state.head = .ok f.endHead := hf.head_eq ▸ hf
  unfold recoverFrame
  rw [hvalidate]
  cases mode with
  | snapshot => rfl
  | writer =>
    have hid : f.decoded.stored.commandId ∉ scan.recoveredCommands := hfresh rfl
    simp only [if_neg hid, ← hf.previous_eq]
    rfl

variable (path offset) in
/-- The loop takes over frames that follow one another. -/
theorem recoverFrames_append {frames : List (Frame X)} {head' : ThreadHead} (tail : Bytes)
    (hfollows : Steps (Follows X threadId) scan.state.head frames head')
    (hmax : ∀ f ∈ frames, f.header.payloadLen ≤ config.maxFramePayloadBytes)
    (hnodup : mode = .writer → (scan.recoveredCommands ++ frames.map Frame.commandId).Nodup)
    (hsize : offset + (framesBytes frames).length < 2 ^ 64) :
    recoverFrames X config threadId path mode scan offset (framesBytes frames ++ tail) =
      recoverFrames X config threadId path mode (scan.pushFrames mode offset frames)
        (offset + (framesBytes frames).length) tail := by
  induction frames generalizing scan offset with
  | nil => simp [Scan.pushFrames]
  | cons f frames ih =>
    obtain ⟨mid, hf, hrest⟩ := steps_cons_iff.mp hfollows
    have hlen : (f.bytes ++ (framesBytes frames ++ tail)).drop f.len = framesBytes frames ++ tail :=
      List.drop_left' rfl
    have hne : f.bytes ++ (framesBytes frames ++ tail) ≠ [] := by
      have := f.len_pos
      rw [Frame.len] at this
      exact List.append_ne_nil_of_left_ne_nil (List.length_pos_iff.mp this) _
    have hfresh : mode = .writer → f.commandId ∉ scan.recoveredCommands := by
      intro hw hmem
      have := List.nodup_append.mp (hnodup hw)
      exact this.2.2 _ hmem _ (by simp) rfl
    simp only [framesBytes_cons, List.length_append] at hsize
    rw [framesBytes_cons, List.append_assoc, recoverFrames, if_neg hne]
    split
    · rename_i hnext
      rw [nextFrame_frame _ (hmax f (by simp))] at hnext
      cases hnext
    · rename_i hnext
      rw [nextFrame_frame _ (hmax f (by simp))] at hnext
      cases hnext
    · rename_i hnext
      rw [nextFrame_frame _ (hmax f (by simp))] at hnext
      cases hnext
      simp only [recoverFrame_eq hf hfresh, hlen]
      rw [if_pos (by rw [Frame.len]; omega), ih]
      · simp [Scan.pushFrames, Frame.len, Nat.add_assoc]
      · rw [Scan.push_head, ← hf.head_eq]
        exact hrest
      · exact fun g hg ↦ hmax g (List.mem_cons_of_mem _ hg)
      · intro hw
        subst hw
        simpa [Scan.push] using hnodup rfl
      · rw [Frame.len]
        omega

theorem recoverFrames_nil :
    recoverFrames X config threadId path mode scan offset [] = .ok (scan, offset, false) := by
  rw [recoverFrames, if_pos rfl]

/-- The loop stops at a torn frame. -/
theorem recoverFrames_torn {f : Frame X} {part : Bytes}
    (hmax : f.header.payloadLen ≤ config.maxFramePayloadBytes) (hne : part ≠ [])
    (hpart : part <+: f.bytes) (hlt : part.length < f.len) :
    recoverFrames X config threadId path mode scan offset part = .ok (scan, offset, true) := by
  rw [recoverFrames, if_neg hne]
  split
  · rfl
  · rename_i hnext
    rw [nextFrame_torn hmax hpart hlt] at hnext
    cases hnext
  · rename_i hnext
    rw [nextFrame_torn hmax hpart hlt] at hnext
    cases hnext

variable (path) in
/-- The loop over a part of the bytes of some frames takes over the whole frames
of that part, and stops where they end. -/
theorem recoverFrames_take {frames : List (Frame X)} {head' : ThreadHead} (n : Nat)
    (hfollows : Steps (Follows X threadId) scan.state.head frames head')
    (hmax : ∀ f ∈ frames, f.header.payloadLen ≤ config.maxFramePayloadBytes)
    (hnodup : mode = .writer → (scan.recoveredCommands ++ frames.map Frame.commandId).Nodup)
    (hsize : offset + (framesBytes frames).length < 2 ^ 64) :
    ∃ torn, recoverFrames X config threadId path mode scan offset
        ((framesBytes frames).take n) =
      .ok (scan.pushFrames mode offset (wholeChunks Frame.bytes n frames),
        offset + (framesBytes (wholeChunks Frame.bytes n frames)).length, torn) ∧
      framesBytes (wholeChunks Frame.bytes n frames) <+: (framesBytes frames).take n ∧
      (torn = false → (framesBytes frames).take n =
        framesBytes (wholeChunks Frame.bytes n frames)) := by
  obtain ⟨tail, htake, htail⟩ := take_flatMap_eq Frame.bytes n frames
  obtain ⟨rest, hwhole⟩ := wholeChunks_isPrefix Frame.bytes n frames
  generalize wholeChunks Frame.bytes n frames = whole at htake hwhole ⊢
  change (framesBytes frames).take n = framesBytes whole ++ tail at htake
  subst hwhole
  obtain ⟨mid, hmid, -⟩ := steps_append_iff.mp hfollows
  simp only [framesBytes_append, List.length_append, List.map_append, ← List.append_assoc]
    at hsize hnodup
  rw [htake, recoverFrames_append path offset tail hmid (fun f hf ↦ hmax f (List.mem_append_left _ hf))
    (fun hw ↦ (hnodup hw).of_append_left) (by omega)]
  rcases htail with rfl | ⟨f, hf, hne, hpart, hlt⟩
  · exact ⟨false, recoverFrames_nil, List.prefix_append _ _, fun _ ↦ List.append_nil _⟩
  · exact ⟨true, recoverFrames_torn (hmax f hf) hne hpart hlt, List.prefix_append _ _, nofun⟩

end Frames

/-! ## Segment headers -/

theorem checkedNext_eq_some {head : ThreadHead} (h : head.revision.toNat + 1 < 2 ^ 64) :
    head.revision.checkedNext = some (nextRevision head) := by
  rw [ThreadRevision.checkedNext_eq_some_iff, nextRevision, ThreadRevision.toNat,
    ThreadRevision.toNat, UInt64.toNat_add]
  exact (Nat.mod_eq_of_lt h).symm

theorem nextRevision_toNat {head : ThreadHead} (h : head.revision.toNat + 1 < 2 ^ 64) :
    (nextRevision head).toNat = head.revision.toNat + 1 :=
  (ThreadRevision.checkedNext_eq_some_iff.mp (checkedNext_eq_some h)).symm

/-- The header check accepts exactly the header the writer gives the segment. -/
theorem checkSegmentHeader_eq_ok_iff {path : FileName} {sequence : Nat} {file : File}
    {head : ThreadHead} {first : ThreadRevision} :
    checkSegmentHeader X threadId path sequence file head = .ok first ↔
      sequence < 2 ^ 64 ∧ head.revision.toNat + 1 < 2 ^ 64 ∧ first = nextRevision head ∧
        ∃ rest, file.data = encodeSegmentHeader X (segmentHeader threadId sequence head) ++ rest := by
  unfold checkSegmentHeader
  constructor
  · intro h
    split at h; · cases h
    split at h; · cases h
    rename_i header hheader
    split at h; · cases h
    rename_i expected hexpected
    split at h; · cases h
    rename_i hcontinuity
    simp only [not_or, ne_eq, not_not] at hcontinuity
    obtain ⟨hsequence, hfirst, hthread, hprevious⟩ := hcontinuity
    have hroom : head.revision.toNat + 1 < 2 ^ 64 := by
      rw [ThreadRevision.checkedNext_eq_some_iff.mp hexpected]
      exact expected.toNat_lt
    rw [checkedNext_eq_some hroom, Option.some.injEq] at hexpected
    have hheader' : header = segmentHeader threadId sequence head := by
      obtain ⟨s, r, t, p⟩ := header
      simp only at hsequence hfirst hthread hprevious
      rw [segmentHeader, hexpected, ← hsequence, UInt64.ofNat_toNat, ← hfirst, ← hthread,
        ← hprevious]
    refine ⟨hsequence ▸ header.sequence.toNat_lt, hroom, ?_, file.data.drop segmentHeaderLen, ?_⟩
    · rw [← Except.ok.inj h, hfirst, hexpected]
    · rw [← hheader', ← eq_encode_of_decodeSegmentHeader hheader, List.take_append_drop]
  · rintro ⟨hsequence, hroom, rfl, rest, hdata⟩
    have htake : file.data.take segmentHeaderLen =
        encodeSegmentHeader X (segmentHeader threadId sequence head) := by
      rw [hdata, List.take_left' (encodeSegmentHeader_length _)]
    have hlen : (segmentHeader threadId sequence head).sequence.toNat = sequence :=
      UInt64.toNat_ofNat_of_lt' hsequence
    rw [if_neg (by simp [hdata]), htake, decodeSegmentHeader_encode]
    simp only [checkedNext_eq_some hroom, hlen]
    simp [segmentHeader]

/-! ## The loop over the segments -/

section Segments

variable {mode : RecoveryMode} {scan : Scan} {d : Directory} {sequence : Nat}

theorem recoverSegment_eq {s : LogSegment X} {file : File} {rest : Bytes} {isLast : Bool}
    (hfile : d.file? s.path = some file)
    (hdata : file.data =
      encodeSegmentHeader X (segmentHeader threadId sequence scan.state.head) ++ rest)
    (hsequence : sequence < 2 ^ 64) (hroom : scan.state.head.revision.toNat + 1 < 2 ^ 64)
    {scan' : Scan} {offset : Nat} {torn : Bool}
    (hframes : recoverFrames X config threadId s.path mode scan segmentHeaderLen rest =
      .ok (scan', offset, torn)) :
    recoverSegment X config threadId s.path sequence isLast mode d scan =
      finishSegment s.path sequence isLast mode d file (nextRevision scan.state.head) scan' offset
        torn := by
  have hcheck : checkSegmentHeader X threadId s.path sequence file scan.state.head =
      .ok (nextRevision scan.state.head) :=
    checkSegmentHeader_eq_ok_iff.mpr ⟨hsequence, hroom, rfl, rest, hdata⟩
  have hdrop : file.data.drop segmentHeaderLen = rest := by
    rw [hdata, List.drop_left' (encodeSegmentHeader_length _)]
  simp only [recoverSegment, hfile, hcheck, hdrop, hframes]

/-- A whole segment is taken over, unless it is empty and another one follows. -/
theorem recoverSegment_whole {s : LogSegment X} {head' : ThreadHead} {isLast : Bool}
    (hs : SegmentFollows X config threadId scan.state.head s head')
    (hsequence : sequence < 2 ^ 64)
    (hstored : d.contents s.path = some (s.data threadId sequence scan.state.head))
    (hnodup : mode = .writer → (scan.recoveredCommands ++ s.frames.map Frame.commandId).Nodup)
    (hlast : isLast = true ∨ s.frames ≠ []) :
    recoverSegment X config threadId s.path sequence isLast mode d scan =
      .ok (d, scan.pushSegment mode sequence s) := by
  obtain ⟨file, hfile, hdata⟩ := Directory.contents_eq_some_iff.mp hstored
  have hframes := recoverFrames_append s.path segmentHeaderLen [] hs.frames hs.payload_le hnodup hs.size_lt
  rw [List.append_nil, recoverFrames_nil] at hframes
  rw [recoverSegment_eq hfile hdata hsequence hs.room hframes, finishSegment]
  have hfull : ¬ ((!isLast) = true ∧
      segmentHeaderLen + (framesBytes s.frames).length = segmentHeaderLen) := by
    rintro ⟨hnot, hlen⟩
    rcases hlast with rfl | hne
    · simp at hnot
    · obtain ⟨f, frames, hcons⟩ := List.exists_cons_of_ne_nil hne
      have hpos := f.len_pos
      rw [hcons, framesBytes_cons, List.length_append] at hlen
      rw [Frame.len] at hpos
      omega
  simp only [Bool.false_eq_true, if_false, hfull]
  cases mode with
  | snapshot => rfl
  | writer =>
    simp only [Scan.pushSegment, LogSegment.info, LogSegment.size, Scan.pushFrames_head]

/-- What a recovery leaves of the file of its last segment. -/
structure Repairs (mode : RecoveryMode) (d d' : Directory) (path : FileName)
    (contents : Option Bytes) : Prop where
  /-- A snapshot changes nothing. -/
  snapshot : mode = .snapshot → d' = d
  /-- A writer leaves the given contents. -/
  writer : mode = .writer → d'.contents path = contents
  /-- No other file changes. -/
  other : ∀ name ≠ path, d'.contents name = d.contents name

variable (mode scan d sequence) in
/-- The end of the loop over the last segment. -/
theorem finishSegment_last {s : LogSegment X} {file : File} (torn : Bool)
    (hle : s.size ≤ file.data.length) :
    ∃ d', finishSegment s.path sequence true mode d file (nextRevision scan.state.head)
          (scan.pushFrames mode segmentHeaderLen s.frames) s.size torn =
        .ok (d', scan.pushSegment mode sequence s) ∧
      Repairs mode d d' s.path
        (if torn then some (file.data.take s.size) else d.contents s.path) := by
  cases mode with
  | snapshot =>
    refine ⟨d, ?_, fun _ ↦ rfl, nofun, fun _ _ ↦ rfl⟩
    cases torn <;> rfl
  | writer =>
    have hpush : ∀ d', finishSegment s.path sequence true .writer d' file
        (nextRevision scan.state.head) (scan.pushFrames .writer segmentHeaderLen s.frames) s.size
          false = .ok (d', scan.pushSegment .writer sequence s) := by
      intro d'
      simp [finishSegment, Scan.pushSegment, LogSegment.info]
    cases torn with
    | false => exact ⟨d, hpush d, nofun, fun _ ↦ rfl, fun _ _ ↦ rfl⟩
    | true =>
      refine ⟨d.setFile s.path (file.setLen s.size).sync, hpush _, nofun, fun _ ↦ ?_,
        fun _ hne ↦ Directory.contents_setFile_ne hne⟩
      rw [Directory.contents_setFile_self, File.sync_data, File.setLen_data hle]
      rfl

/-- A last segment that was cut behind its header is taken over up to the last
whole frame, and a writer cuts its file there. -/
theorem recoverSegment_cut {s : LogSegment X} {head' : ThreadHead} {n : Nat}
    (hs : SegmentFollows X config threadId scan.state.head s head')
    (hsequence : sequence < 2 ^ 64) (hn : segmentHeaderLen ≤ n)
    (hstored : d.contents s.path = some ((s.data threadId sequence scan.state.head).take n))
    (hnodup : mode = .writer → (scan.recoveredCommands ++ s.frames.map Frame.commandId).Nodup) :
    ∃ d', recoverSegment X config threadId s.path sequence true mode d scan =
        .ok (d', scan.pushSegment mode sequence (s.cut n)) ∧
      Repairs mode d d' s.path (some ((s.cut n).data threadId sequence scan.state.head)) := by
  obtain ⟨file, hfile, hdata⟩ := Directory.contents_eq_some_iff.mp hstored
  rw [LogSegment.data, List.take_append, encodeSegmentHeader_length,
    List.take_of_length_le (by simp [hn])] at hdata
  obtain ⟨torn, hframes, hpre, hwhole⟩ := recoverFrames_take s.path
    (n - segmentHeaderLen) hs.frames hs.payload_le hnodup hs.size_lt
  rw [recoverSegment_eq hfile hdata hsequence hs.room hframes, finishSegment]
  -- the file up to the offset that was reached is the file of the cut segment
  have hcut : file.data.take (s.cut n).size = (s.cut n).data threadId sequence scan.state.head := by
    obtain ⟨tail, htail⟩ := hpre
    rw [hdata, ← htail, ← List.append_assoc]
    exact List.take_left' (LogSegment.data_length (s.cut n) _ _ _)
  have hle : (s.cut n).size ≤ file.data.length := by
    have := congrArg List.length hcut
    rw [LogSegment.data_length, List.length_take] at this
    omega
  obtain ⟨d', hfinish, hrepair⟩ := finishSegment_last mode scan d sequence torn hle
  refine ⟨d', hfinish, hrepair.snapshot, fun hw ↦ (hrepair.writer hw).trans ?_, hrepair.other⟩
  rw [hcut]
  cases torn with
  | true => rfl
  | false =>
    change d.contents s.path = _
    rw [hstored, LogSegment.data, List.take_append, encodeSegmentHeader_length,
      List.take_of_length_le (by simp [hn]), hwhole rfl]
    rfl

variable (mode scan d sequence) in
/-- The loop takes over segments that follow one another, as long as a segment
follows. -/
theorem recoverSegments_append {log : Log X} (rest : List (Nat × FileName)) {head' : ThreadHead}
    (hrest : rest ≠ [])
    (hsegments : Steps (SegmentFollows X config threadId) scan.state.head log head')
    (hstored : log.Stored d threadId sequence scan.state.head)
    (hnodup : mode = .writer →
      (scan.recoveredCommands ++ log.frames.map Frame.commandId).Nodup)
    (hfull : ∀ s ∈ log, s.frames ≠ []) (hsequence : sequence + log.length ≤ 2 ^ 64) :
    recoverSegments X config threadId mode sequence (log.paths sequence ++ rest) d scan =
      recoverSegments X config threadId mode (sequence + log.length) rest d
        (scan.pushLog mode sequence log) := by
  induction log generalizing scan sequence with
  | nil => rfl
  | cons s log ih =>
    obtain ⟨mid, hs, hlog⟩ := steps_cons_iff.mp hsegments
    obtain ⟨hhere, hthere⟩ := hstored
    obtain ⟨file, hfile, -⟩ := Directory.contents_eq_some_iff.mp hhere
    have hmid : mid = endHead scan.state.head s.frames := endHead_of_steps hs.frames
    have hmore : (Log.paths (sequence + 1) log ++ rest).isEmpty = false := by
      simp [hrest]
    rw [List.length_cons] at hsequence
    simp only [Log.paths, List.cons_append, recoverSegments, ne_eq, not_true_eq_false, hfile, hmore,
      Bool.false_eq_true, false_and, if_false]
    rw [recoverSegment_whole hs (by omega) hhere
      (fun hw ↦ (hnodup hw).sublist (by simp)) (.inr (hfull s (by simp)))]
    simp only [Scan.pushLog, List.length_cons]
    rw [ih _ _ (by simpa [hmid] using hlog) (by simpa using hthere) ?_
      (fun s hs ↦ hfull s (List.mem_cons_of_mem _ hs)) (by omega), Nat.add_assoc, Nat.add_comm 1]
    intro hw
    subst hw
    simpa using hnodup rfl

/-- What is left of the last segment of a log. -/
def Log.cutLast (s : LogSegment X) (n : Nat) : Log X :=
  if n < segmentHeaderLen then [] else [s.cut n]

variable (mode scan d sequence) in
/-- The last segment, cut at any length: it is dropped when not even its header is
left, and otherwise taken over up to the last whole frame. -/
theorem recoverSegments_last {s : LogSegment X} {head' : ThreadHead} {n : Nat}
    (hs : SegmentFollows X config threadId scan.state.head s head')
    (hsequence : sequence < 2 ^ 64)
    (hstored : d.contents s.path = some ((s.data threadId sequence scan.state.head).take n))
    (hnodup : mode = .writer → (scan.recoveredCommands ++ s.frames.map Frame.commandId).Nodup) :
    ∃ d', recoverSegments X config threadId mode sequence [(sequence, s.path)] d scan =
        .ok (d', scan.pushLog mode sequence (Log.cutLast s n)) ∧
      Repairs mode d d' s.path (if n < segmentHeaderLen then none
        else some ((s.cut n).data threadId sequence scan.state.head)) := by
  obtain ⟨file, hfile, hdata⟩ := Directory.contents_eq_some_iff.mp hstored
  have hlen : file.data.length < segmentHeaderLen ↔ n < segmentHeaderLen := by
    have hsize : segmentHeaderLen ≤ s.size := Nat.le_add_right _ _
    rw [hdata, List.length_take, LogSegment.data_length]
    omega
  simp only [recoverSegments, ne_eq, not_true_eq_false, if_false, hfile, List.isEmpty_nil,
    true_and, hlen, Log.cutLast]
  by_cases hn : n < segmentHeaderLen
  · simp only [hn, if_true]
    cases mode with
    | snapshot => exact ⟨d, rfl, fun _ ↦ rfl, nofun, fun _ _ ↦ rfl⟩
    | writer =>
      refine ⟨(d.remove s.path).sync, rfl, nofun, fun _ ↦ by simp, fun name hne ↦ ?_⟩
      rw [Directory.contents_sync, Directory.contents_remove_ne hne]
  · simp only [hn, if_false]
    obtain ⟨d', hrecover, hrepair⟩ :=
      recoverSegment_cut hs hsequence (Nat.le_of_not_lt hn) hstored hnodup
    exact ⟨d', by rw [hrecover]; rfl, hrepair⟩

end Segments

end Praxis.Journal
