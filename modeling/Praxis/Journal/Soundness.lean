import Praxis.Journal.Progress

/-!
# Soundness of recovery

Recovery accepts nothing but journals.  Whatever bytes a segments directory
holds, a recovery in writer mode that succeeds has found a valid log in them
(`exists_log_of_recoverWithMode`), and leaves exactly the files of that log
behind.

The proofs invert the loops of the recovery one by one; each inversion lemma is
the converse of a lemma of `Praxis.Journal.Scan`.
-/

namespace Praxis.Journal

open Foundation Contracts

variable {X : Externals} {config : JournalConfig} {threadId : ThreadId}

/-! ## Frames -/

/-- Bytes that are taken for a frame start with one. -/
theorem exists_frame_of_nextFrame {rest : Bytes} {length : Nat} {decoded : DecodedFrame}
    (h : nextFrame X config rest = .frame length decoded) :
    ∃ f : Frame X, f.decoded = decoded ∧ f.len = length ∧
      rest = f.bytes ++ rest.drop length ∧
      f.header.payloadLen ≤ config.maxFramePayloadBytes := by
  unfold nextFrame at h
  split at h; · cases h
  rename_i hshort
  split at h; · cases h
  rename_i header hheader
  split at h; · cases h
  rename_i hmax
  split at h; · cases h
  rename_i len hlen
  split at h; · cases h
  rename_i hfit
  split at h; · cases h
  rename_i decoded' hdecode
  cases h
  have hlen' : (rest.take length).length = length := by
    rw [List.length_take]
    omega
  refine ⟨⟨rest.take length, decoded, hdecode⟩, rfl, hlen', (List.take_append_drop _ _).symm, ?_⟩
  -- the header of the frame is the header that was compared with the maximum
  have hsame := (frameLen_of_decodeCompleteFrame hdecode).1
  have hbig := (frameLen_of_decodeCompleteFrame hdecode).2.2.1
  rw [List.take_take, Nat.min_eq_left (by omega), hheader] at hsame
  cases hsame
  exact UInt64.not_lt.mp hmax

section Frames

variable {path : FileName} {mode : RecoveryMode} {scan scan' : Scan} {offset offset' : Nat}

theorem of_recoverFrame {f : Frame X}
    (h : recoverFrame X threadId path mode scan offset f.len f.decoded = .ok scan') :
    Follows X threadId scan.state.head f f.endHead ∧ scan' = scan.push mode offset f ∧
      (mode = .writer → f.commandId ∉ scan.recoveredCommands) := by
  have horig := h
  unfold recoverFrame at h
  split at h
  · cases h
  · rename_i head hvalidate
    have hf : Follows X threadId scan.state.head f head := hvalidate
    have hfresh : mode = .writer → f.commandId ∉ scan.recoveredCommands := by
      rintro rfl
      simp only at h
      split at h
      · cases h
      · assumption
    rw [recoverFrame_eq hf hfresh] at horig
    exact ⟨hf.head_eq ▸ hf, (Except.ok.inj horig).symm, hfresh⟩

/-- What the loop has taken over are frames that follow one another. -/
theorem exists_frames_of_recoverFrames {rest : Bytes} {torn : Bool}
    (h : recoverFrames X config threadId path mode scan offset rest = .ok (scan', offset', torn))
    (hnodup : scan.recoveredCommands.Nodup) (hoffset : offset < 2 ^ 64) :
    ∃ (frames : List (Frame X)) (tail : Bytes), rest = framesBytes frames ++ tail ∧
      scan' = scan.pushFrames mode offset frames ∧
      offset' = offset + (framesBytes frames).length ∧ offset' < 2 ^ 64 ∧
      (torn = false → tail = []) ∧
      Steps (Follows X threadId) scan.state.head frames (endHead scan.state.head frames) ∧
      (∀ f ∈ frames, f.header.payloadLen ≤ config.maxFramePayloadBytes) ∧
      (mode = .writer → (scan.recoveredCommands ++ frames.map Frame.commandId).Nodup) := by
  fun_induction recoverFrames X config threadId path mode scan offset rest with
  | case1 scan offset =>
    obtain ⟨rfl, rfl, rfl⟩ : scan = scan' ∧ offset = offset' ∧ false = torn := by simpa using h
    exact ⟨[], [], rfl, rfl, rfl, hoffset, fun _ ↦ rfl, .nil _, by simp, fun _ ↦ by simpa⟩
  | case2 scan offset rest hne hnext =>
    obtain ⟨rfl, rfl, rfl⟩ : scan = scan' ∧ offset = offset' ∧ true = torn := by simpa using h
    exact ⟨[], rest, rfl, rfl, rfl, hoffset, nofun, .nil _, by simp, fun _ ↦ by simpa⟩
  | case3 => cases h
  | case4 => cases h
  | case5 scan offset rest hne length decoded hnext scan₁ hframe hlt ih =>
    obtain ⟨f, rfl, rfl, hrest, hmax⟩ := exists_frame_of_nextFrame hnext
    obtain ⟨hf, rfl, hfresh⟩ := of_recoverFrame hframe
    have hnodup' : (scan.push mode offset f).recoveredCommands.Nodup := by
      cases mode with
      | snapshot => exact hnodup
      | writer => simpa [Scan.push] using hnodup.concat (hfresh rfl)
    obtain ⟨frames, tail, hdrop, rfl, rfl, hlt', htail, hsteps, hmaxs, hnodups⟩ := ih h hnodup' hlt
    rw [Scan.push_head] at hsteps
    refine ⟨f :: frames, tail, ?_, rfl, ?_, ?_, htail, .cons hf hsteps, ?_, ?_⟩
    · rw [hrest, hdrop, framesBytes_cons, List.append_assoc]
    · rw [framesBytes_cons, List.length_append, Frame.len]
      omega
    · exact hlt'
    · simpa using ⟨hmax, hmaxs⟩
    · rintro rfl
      simpa [Scan.push] using hnodups rfl
  | case6 => cases h

end Frames

/-! ## Segments -/

/-- The files of the second directory are files of the first, some of them cut. -/
def Truncates (d d' : Directory) : Prop :=
  ∀ name bytes, d'.contents name = some bytes → ∃ tail, d.contents name = some (bytes ++ tail)

theorem Truncates.refl (d : Directory) : Truncates d d :=
  fun _ bytes h ↦ ⟨[], by rw [h, List.append_nil]⟩

theorem Truncates.trans {d d' d'' : Directory} (h : Truncates d d') (h' : Truncates d' d'') :
    Truncates d d'' := by
  intro name bytes hbytes
  obtain ⟨tail', htail'⟩ := h' name bytes hbytes
  obtain ⟨tail, htail⟩ := h name _ htail'
  exact ⟨tail' ++ tail, by rw [htail, List.append_assoc]⟩

section Segments

variable {mode : RecoveryMode} {scan scan' : Scan} {d d' : Directory} {sequence : Nat}

/-- What the recovery of a segment has taken over is a segment that follows the
head. -/
theorem exists_segment_of_recoverSegment {path : FileName} {isLast : Bool}
    (h : recoverSegment X config threadId path sequence isLast .writer d scan = .ok (d', scan'))
    (hnodup : scan.recoveredCommands.Nodup) :
    ∃ s : LogSegment X, s.path = path ∧
      SegmentFollows X config threadId scan.state.head s (endHead scan.state.head s.frames) ∧
      scan' = scan.pushSegment .writer sequence s ∧
      (scan.recoveredCommands ++ s.frames.map Frame.commandId).Nodup ∧
      d'.contents path = some (s.data threadId sequence scan.state.head) ∧
      (∀ name ≠ path, d'.contents name = d.contents name) ∧ Truncates d d' ∧
      (isLast = false → d' = d ∧ s.frames ≠ []) := by
  unfold recoverSegment at h
  split at h; · cases h
  rename_i file hfile
  split at h; · cases h
  rename_i first hcheck
  split at h; · cases h
  rename_i scan₁ offset torn hframes
  obtain ⟨hsequence, hroom, rfl, rest, hdata⟩ := checkSegmentHeader_eq_ok_iff.mp hcheck
  rw [hdata, List.drop_left' (encodeSegmentHeader_length _)] at hframes
  obtain ⟨frames, tail, rfl, rfl, rfl, hlt, htail, hsteps, hmax, hnodups⟩ :=
    exists_frames_of_recoverFrames hframes hnodup (by decide)
  let s : LogSegment X := ⟨path, frames⟩
  have hs : SegmentFollows X config threadId scan.state.head s (endHead scan.state.head s.frames) :=
    ⟨hroom, hsteps, hmax, hlt⟩
  have hle : s.size ≤ file.data.length := by
    simp [hdata, LogSegment.size, s]
  have htake : file.data.take s.size = s.data threadId sequence scan.state.head := by
    rw [hdata, ← List.append_assoc]
    exact List.take_left' (LogSegment.data_length s _ _ _)
  -- only the last segment may end in a torn frame
  have hcontents : d.contents path = some file.data :=
    Directory.contents_eq_some_iff.mpr ⟨file, hfile, rfl⟩
  cases isLast with
  | true =>
    obtain ⟨d₁, hfinish, hrepair⟩ := finishSegment_last .writer scan d sequence torn hle
    obtain ⟨rfl, rfl⟩ : d₁ = d' ∧ scan.pushSegment .writer sequence s = scan' := by
      simpa using hfinish.symm.trans h
    have hleft : d₁.contents path = some (s.data threadId sequence scan.state.head) := by
      refine (hrepair.writer rfl).trans ?_
      cases torn with
      | true => exact congrArg some htake
      | false =>
        change d.contents path = _
        rw [hcontents, hdata, htail rfl, List.append_nil]
        rfl
    refine ⟨s, rfl, hs, rfl, hnodups rfl, hleft, hrepair.other, ?_, fun hlast ↦ by cases hlast⟩
    intro name bytes hbytes
    by_cases hname : name = path
    · subst hname
      obtain rfl := Option.some.inj (hleft.symm.trans hbytes)
      refine ⟨tail, ?_⟩
      rw [hcontents, hdata, ← List.append_assoc]
      rfl
    · exact ⟨[], by rw [← hrepair.other _ hname, hbytes, List.append_nil]⟩
  | false =>
    unfold finishSegment at h
    cases torn with
    | true => simp [handleIncompleteTail] at h
    | false =>
      simp only [Bool.false_eq_true, if_false, Bool.not_false, true_and] at h
      split at h
      · cases h
      · rename_i hfull
        simp only [Except.ok.injEq, Prod.mk.injEq] at h
        obtain ⟨rfl, rfl⟩ := h
        refine ⟨s, rfl, hs, ?_, hnodups rfl, ?_, fun _ _ ↦ rfl, .refl d, fun _ ↦ ⟨rfl, ?_⟩⟩
        · simp [Scan.pushSegment, LogSegment.info, s, LogSegment.size]
        · rw [hcontents, hdata, htail rfl, List.append_nil]
          rfl
        · rintro hnil
          apply hfull
          have : frames = [] := hnil
          simp [this]

/-- What the loop over the segments has taken over is a log; all segments but the
last are not empty, and the files left behind are those of the log. -/
theorem exists_log_of_recoverSegments {paths : List (Nat × FileName)}
    (h : recoverSegments X config threadId .writer sequence paths d scan = .ok (d', scan'))
    (hnodup : scan.recoveredCommands.Nodup)
    (hnames : (paths.map Prod.snd).Nodup) :
    ∃ log : Log X, Steps (SegmentFollows X config threadId) scan.state.head log
        (endHead scan.state.head log.frames) ∧
      scan' = scan.pushLog .writer sequence log ∧
      (scan.recoveredCommands ++ log.frames.map Frame.commandId).Nodup ∧
      (∀ s ∈ log.dropLast, s.frames ≠ []) ∧
      log.Stored d' threadId sequence scan.state.head ∧ Truncates d d' ∧
      (∀ name ∉ paths.map Prod.snd, d'.contents name = d.contents name) ∧
      ((paths = log.paths sequence ∧ ∀ name, (d'.contents name).isSome = (d.contents name).isSome) ∨
        ∃ name, paths = log.paths sequence ++ [(sequence + log.length, name)] ∧
          d'.contents name = none ∧ ∀ other ≠ name, d'.contents other = d.contents other) := by
  induction paths generalizing scan sequence d with
  | nil =>
    obtain ⟨rfl, rfl⟩ : d = d' ∧ scan = scan' := by simpa [recoverSegments] using h
    exact ⟨[], .nil _, rfl, by simpa, by simp, trivial, .refl d, fun _ _ ↦ rfl,
      .inl ⟨rfl, fun _ ↦ rfl⟩⟩
  | cons entry paths ih =>
    obtain ⟨number, path⟩ := entry
    simp only [recoverSegments] at h
    split at h; · cases h
    rename_i hnumber
    obtain rfl : number = sequence := by simpa using hnumber
    split at h; · cases h
    rename_i file hfile
    split at h
    · -- a last file that is shorter than a header is dropped
      rename_i hshort
      obtain rfl : paths = [] := by simpa using hshort.1
      simp only [Except.ok.injEq, Prod.mk.injEq] at h
      obtain ⟨rfl, rfl⟩ := h
      refine ⟨[], .nil _, rfl, by simpa, by simp, trivial, fun name bytes hbytes ↦ ?_,
        fun name hname ↦ ?_, .inr ⟨path, rfl, by simp, fun other hother ↦ ?_⟩⟩
      · rw [Directory.contents_sync] at hbytes
        by_cases hname : name = path
        · rw [hname, Directory.contents_remove_self] at hbytes
          cases hbytes
        · rw [Directory.contents_remove_ne hname] at hbytes
          exact ⟨[], by rw [hbytes, List.append_nil]⟩
      · rw [Directory.contents_sync, Directory.contents_remove_ne (by simpa using hname)]
      · rw [Directory.contents_sync, Directory.contents_remove_ne hother]
    · split at h; · cases h
      rename_i d₁ scan₁ hsegment
      obtain ⟨s, rfl, hs, rfl, hnodup₁, hcontents, hother, hcut, hmore⟩ :=
        exists_segment_of_recoverSegment hsegment hnodup
      obtain ⟨hfresh, hnames'⟩ := List.nodup_cons.mp hnames
      obtain ⟨log, hlog, rfl, hnodups, hfull, hstored, hcuts, hsame, hpaths⟩ :=
        ih h (by simpa using hnodup₁) hnames'
      have hlast : paths = [] → log = [] := by
        rintro rfl
        rcases hpaths with ⟨hpaths, -⟩ | ⟨name, hpaths, -⟩
        · cases log with
          | nil => rfl
          | cons => cases hpaths
        · simp at hpaths
      have hfull' : ∀ t ∈ List.dropLast (s :: log), t.frames ≠ [] := by
        cases log with
        | nil => simp
        | cons t log =>
          have hne : paths.isEmpty = false := by
            rw [List.isEmpty_eq_false_iff]
            exact fun hnil ↦ by cases hlast hnil
          rw [List.dropLast_cons_cons]
          simpa using ⟨(hmore hne).2, hfull⟩
      refine ⟨s :: log, .cons hs ?_, rfl, by simpa using hnodups, hfull', ⟨?_, ?_⟩,
        hcut.trans hcuts, ?_, ?_⟩
      · simpa [endHead_append] using hlog
      · rw [hsame _ (by simpa using hfresh), hcontents]
      · simpa using hstored
      · intro name hname
        simp only [List.map_cons, List.mem_cons, not_or] at hname
        rw [hsame _ hname.2, hother _ hname.1]
      · rcases hpaths with ⟨rfl, hexists⟩ | ⟨name, rfl, hgone, hkept⟩
        · refine .inl ⟨rfl, fun name ↦ ?_⟩
          rw [hexists]
          by_cases hname : name = s.path
          · rw [hname, hcontents, Directory.isSome_contents, hfile]
            rfl
          · rw [hother _ hname]
        · obtain rfl := (hmore (by simp)).1
          refine .inr ⟨name, ?_, hgone, hkept⟩
          rw [Log.paths, List.cons_append, List.length_cons, Nat.add_assoc, Nat.add_comm 1]

end Segments

/-! ## Recovery -/

/-- A recovery that succeeds has found a valid log. -/
theorem exists_log_of_recoverWithMode {d : Directory} {r : Recovered}
    (h : recoverWithMode X config threadId d .writer = .ok r) :
    ∃ log : Log X, log.Valid X config threadId ∧ log.Holds r.dir threadId ∧
      r.state = log.state ∧ r.visited = log.events ∧ Truncates d r.dir := by
  unfold recoverWithMode at h
  split at h; · cases h
  rename_i paths hpaths
  split at h; · cases h
  rename_i dir scan hsegments
  obtain rfl := (Except.ok.inj h).symm
  obtain ⟨log, hlog, rfl, hnodup, hfull, hstored, hcut, -, hexists⟩ :=
    exists_log_of_recoverSegments hsegments (by simp [Scan.start]) (nodup_of_segmentPaths hpaths)
  refine ⟨log, ⟨hlog, by simpa [Scan.start] using hnodup, hfull⟩, ⟨?_, hstored⟩,
    pushLog_start_state log, by simp [Scan.start], hcut⟩
  rcases hexists with ⟨rfl, hsame⟩ | ⟨name, rfl, hgone, hkept⟩
  · exact ((segmentPaths_eq_ok_iff (Log.paths_pairwise 0 log)).mp hpaths).congr hsame
  · have hsorted : (log.paths 0 ++ [(0 + log.length, name)]).Pairwise fun a b ↦ a.1 < b.1 := by
      have h := Log.paths_pairwise 0 (log ++ [⟨name, []⟩])
      rwa [Log.paths_append] at h
    exact ((segmentPaths_eq_ok_iff hsorted).mp hpaths).of_append_singleton hgone hkept

/-! ## The chain of events -/

section Events

variable {head head' : ThreadHead} {events : List ThreadEventEnvelope}

/-- What a chain says about each of its events. -/
theorem getElem_of_eventSteps (h : Steps (EventFollows X threadId) head events head') (i : Nat)
    (hi : i < events.length) :
    events[i].revision.toNat = head.revision.toNat + i + 1 ∧
      events[i].previousRecordDigest =
        (if i = 0 then head.recordDigest else (events[i - 1]).recordDigest) ∧
      events[i].threadId = threadId ∧ events[i].hasValidDigests X.sha256 = true := by
  induction h generalizing i with
  | nil => cases hi
  | @cons head mid head' event events hevent hrest ih =>
    cases i with
    | zero =>
      exact ⟨hevent.revision_eq, hevent.previous_eq, hevent.threadId_eq, hevent.valid⟩
    | succ i =>
      obtain ⟨hrevision, hprevious, hthread, hvalid⟩ := ih i (by simpa using hi)
      have hmid := hevent.head_eq
      refine ⟨?_, ?_, hthread, hvalid⟩
      · rw [List.getElem_cons_succ, hrevision, hmid, hevent.revision_eq]
        omega
      · rw [List.getElem_cons_succ, hprevious, hmid]
        cases i with
        | zero => rfl
        | succ i => rfl

/-- A chain ends at the head after its events. -/
theorem headAfter_of_eventSteps (h : Steps (EventFollows X threadId) head events head')
    (hhead : head = .empty ∨ events ≠ []) : head' = headAfter events := by
  rcases List.eq_nil_or_concat events with rfl | ⟨init, event, rfl⟩
  · rcases hhead with rfl | hne
    · exact (steps_nil_iff.mp h).symm
    · exact absurd rfl hne
  · rw [List.concat_eq_append] at *
    obtain ⟨mid, -, hlast⟩ := steps_append_iff.mp h
    obtain ⟨_, hevent, hnil⟩ := steps_cons_iff.mp hlast
    rw [← steps_nil_iff.mp hnil, hevent.head_eq, headAfter, List.getLast?_concat]

/-- The head at the end of a chain. -/
theorem head_of_eventSteps (h : Steps (EventFollows X threadId) head events head') :
    head'.revision.toNat = head.revision.toNat + events.length ∧
      head'.recordDigest =
        (events.getLast?.map ThreadEventEnvelope.recordDigest).getD head.recordDigest := by
  constructor
  · have hsum := h.measure (fun h ↦ h.revision.toNat) (fun _ ↦ 1)
      fun _ _ _ hstep ↦ by rw [hstep.head_eq]; exact hstep.revision_eq
    simpa using hsum
  · induction h with
    | nil => rfl
    | @cons head mid head' event events hevent hrest ih =>
      rw [ih, hevent.head_eq]
      cases events with
      | nil => rfl
      | cons e es => simp [List.getLast?_cons]

end Events

/-- **Recovery is sound on arbitrary bytes.**  Whatever a segments directory
holds, a recovery in writer mode that succeeds has visited the events `1..n` of
the requested thread in order, each continuing the digest of the one before and
with valid digests; it returns the head of the last one; event identifiers are
distinct within a batch and command identifiers within the journal; and the
segments cover `1..n` in contiguous ranges, each file being a header followed by
exactly the whole frames of its range. -/
theorem recovery_sound (X : Externals) (config : JournalConfig) (threadId : ThreadId)
    (d : Directory) (r : Recovered) (h : recoverWithMode X config threadId d .writer = .ok r) :
    (∀ i, (hi : i < r.visited.length) →
      r.visited[i].revision.toNat = i + 1 ∧
      r.visited[i].previousRecordDigest =
        (if i = 0 then .zero else (r.visited[i - 1]).recordDigest) ∧
      r.visited[i].threadId = threadId ∧ r.visited[i].hasValidDigests X.sha256 = true) ∧
    r.state.head.revision.toNat = r.visited.length ∧
    r.state.head.recordDigest =
      (r.visited.getLast?.map ThreadEventEnvelope.recordDigest).getD .zero ∧
    ∃ log : Log X, log.length = r.state.segments.length ∧ r.visited = log.events ∧
      (∀ f ∈ log.frames, (f.events.map ThreadEventEnvelope.eventId).Nodup) ∧
      (log.frames.map Frame.commandId).Nodup ∧
      ∀ i, (hlog : i < log.length) → (hi : i < r.state.segments.length) →
        r.state.segments[i].sequence = i ∧
        r.state.segments[i].firstRevision.toNat = (Log.events (log.take i)).length + 1 ∧
        r.state.segments[i].lastRevision.toNat = (Log.events (log.take (i + 1))).length ∧
        (i + 1 < log.length → log[i].frames ≠ []) ∧
        ∃ header torn : Bytes, header.length = segmentHeaderLen ∧
          r.state.segments[i].bytes = header.length + (framesBytes log[i].frames).length ∧
          r.dir.contents r.state.segments[i].path = some (header ++ framesBytes log[i].frames) ∧
          d.contents r.state.segments[i].path =
            some (header ++ framesBytes log[i].frames ++ torn) := by
  obtain ⟨log, hvalid, hholds, hstate, hvisited, hcut⟩ := exists_log_of_recoverWithMode h
  have hframes := frames_of_segments hvalid.segments
  have hevents : Steps (EventFollows X threadId) .empty r.visited r.state.head := by
    rw [hvisited, hstate]
    exact events_of_steps hframes
  obtain ⟨hrevision, hdigest⟩ := head_of_eventSteps hevents
  refine ⟨fun i hi ↦ by simpa [ThreadHead.empty] using getElem_of_eventSteps hevents i hi,
    by simpa [ThreadHead.empty] using hrevision, by simpa [ThreadHead.empty] using hdigest,
    log, by simp [hstate, Log.state], hvisited, ?_, hvalid.commands_nodup, ?_⟩
  · intro f hf
    obtain ⟨_, _, hfollows⟩ := hframes.exists_of_mem hf
    exact hfollows.spec.eventIds_nodup
  · intro i hlog hi
    have hfollows := hvalid.follows_getElem hlog
    have hinfo : r.state.segments[i] = log[i].info i (Log.head (log.take i)) := by
      simp only [hstate, Log.state]
      rw [Log.infos_getElem hlog, Nat.zero_add]
      rfl
    have hfile : r.dir.contents log[i].path =
        some (log[i].data threadId i (Log.head (log.take i))) := by
      rw [hholds.stored.getElem hlog, Nat.zero_add]
      rfl
    obtain ⟨torn, htorn⟩ := hcut _ _ hfile
    rw [hinfo]
    refine ⟨rfl, ?_, ?_, ?_, _, torn, encodeSegmentHeader_length _, ?_, hfile, htorn⟩
    · rw [← hvalid.revision_take]
      exact nextRevision_toNat hfollows.room
    · rw [← hvalid.revision_take, endHead_of_steps hfollows.frames]
      rfl
    · intro hnext
      refine hvalid.full _ ?_
      have hmem := List.getElem_mem (l := log.dropLast) (n := i) (by simp; omega)
      rwa [List.getElem_dropLast] at hmem
    · simp [LogSegment.info, LogSegment.size]

/-- The journal of a created thread. -/
theorem recovery_sound_create : ∃ r,
    recoverWithMode crates Sample.config (Sample.id .thread 0)
      (append crates .none (.initial Sample.config (Sample.id .thread 0)) Sample.create .durable).2.dir
        .writer = .ok r ∧
    r.visited = Sample.create.events ∧ r.state.head.revision.toNat = 1 := by
  obtain ⟨receipt, s, f, happend, hevents, -, hstage⟩ := Sample.append_create
  have hvalid := hstage.represents.valid
  have hholds := hstage.represents.holds
  rw [hstage.config_eq, hstage.threadId_eq] at hvalid
  rw [hstage.threadId_eq] at hholds
  obtain ⟨r, hrecover, hvisited, -⟩ := recoverWithMode_holds .writer hvalid hholds
  have hvisited' : r.visited = Sample.create.events := by
    rw [hvisited, ← hevents]
    simp [Log.events, Log.frames]
  have hsound := recovery_sound crates Sample.config (Sample.id .thread 0) s.dir r hrecover
  refine ⟨r, by rw [happend]; exact hrecover, hvisited', ?_⟩
  rw [hsound.2.1, hvisited']
  rfl

end Praxis.Journal
