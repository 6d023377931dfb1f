import Praxis.Journal.InUse

/-!
# Failed appends

An append fails in one of two ways.  Its checks refuse the batch, or a file
operation fails, and then everything it has done to the files is undone, except
that a new empty segment may stay behind.  In both cases nobody can tell
afterwards that the call was made (`SameView`).

Trying again makes no difference for a refused batch: it is refused for the same
reason.  A batch that failed for a file operation is accepted by the checks of the
journal (`Acceptable`), and the second attempt commits it.
-/

namespace Praxis.Journal

open Foundation Contracts

variable {X : Externals}

/-! ## Errors of file operations -/

/-- A file operation failed. -/
def JournalError.IsIo : JournalError → Prop
  | .io _ => True
  | _ => False

section Errors

variable {faults : Faults} {d d' : Directory} {error : JournalError}

theorem syncFiles_isIo {segments : List SegmentInfo} {index : Nat} {sequences : List Nat}
    (h : syncFiles faults segments index sequences d = (.error error, d'))
    (hlt : ∀ i ∈ sequences, i < segments.length) : error.IsIo := by
  induction sequences generalizing index d with
  | nil => cases h
  | cons sequence sequences ih =>
    unfold syncFiles at h
    rw [List.getElem?_eq_getElem (hlt sequence List.mem_cons_self)] at h
    simp only at h
    split at h
    · cases h
      trivial
    · split at h
      · cases h
        trivial
      · exact ih h fun i hi ↦ hlt i (List.mem_cons_of_mem _ hi)

theorem syncPendingSegments_isIo {j : ThreadJournal} {current : Nat}
    (h : syncPendingSegments faults j d (some current) = (.error error, d'))
    (hcurrent : current < j.segments.length)
    (hpending : ∀ i ∈ j.pendingSyncs, i < j.segments.length) : error.IsIo := by
  unfold syncPendingSegments at h
  split at h
  · rename_i hsync
    cases h
    refine syncFiles_isIo hsync fun i hi ↦ ?_
    rcases mem_iterIncluding_iff.mp hi with hi | rfl
    · exact hpending i hi
    · exact hcurrent
  · split at h
    · split at h
      · cases h
        trivial
      · cases h
    · cases h

theorem truncateAndSync_isIo {path : FileName} {len : Nat}
    (h : truncateAndSync faults d path len = (.error error, d')) : error.IsIo := by
  unfold truncateAndSync at h
  split at h
  · cases h
    trivial
  · split at h
    · cases h
      trivial
    · split at h
      · cases h
        trivial
      · cases h

theorem writeFrame_isIo {path : FileName} {file : File} {bytes : Bytes}
    (h : writeFrame faults d path file.data.length bytes = (.error error, d'))
    (hfile : d.file? path = some file) : error.IsIo := by
  unfold writeFrame at h
  split at h
  · cases h
    trivial
  · simp only [hfile, ne_eq, not_true_eq_false, if_false] at h
    split at h
    · cases h
    · split at h
      · rename_i htruncate
        cases h
        exact truncateAndSync_isIo htruncate
      · cases h
        trivial

theorem selectSegment_isIo {s s' : System} {len : Nat}
    (h : selectSegment X faults s len = (.error error, s'))
    (hroom : s.journal.head.revision.toNat + 1 < 2 ^ 64) : error.IsIo := by
  unfold selectSegment at h
  split at h
  · simp only [createSegment, checkedNext_eq_some hroom] at h
    split at h
    · cases h
      trivial
    · split at h
      · cases h
        trivial
      · split at h
        · cases h
          trivial
        · cases h
  · cases h

theorem commitFrame_isIo {s s' : System} {init : Log X} {t : LogSegment X} {f : Frame X}
    {durability : JournalDurability} {nextHead : ThreadHead} (h : s.Sound (init ++ [t]))
    (hf : Follows X s.journal.threadId s.journal.head f nextHead)
    (hsize : t.size + f.len < 2 ^ 64)
    (hcommit : commitFrame X faults s f.encoded durability nextHead = (.error error, s')) :
    error.IsIo := by
  obtain ⟨receipt, hreceipt⟩ := hf.spec.receipt
  obtain ⟨file, hfile, hdata⟩ := h.represents.last_file
  have hbytes : file.data.length = t.size := by rw [hdata, LogSegment.data_length]
  have hlast : s.journal.segments.getLast? = some (t.info init.length (Log.head init)) := by
    rw [h.represents.segments_eq, getLast?_infos]
  have hlength : init.length < s.journal.segments.length := by
    rw [h.represents.segments_eq]
    simp
  have hfinish := fun j ↦ finishAppend_eq (X := X) j (t.info init.length (Log.head init)) f.encoded
    nextHead hsize hreceipt
  simp only [commitFrame, hlast] at hcommit
  split at hcommit
  · rename_i hwrite
    cases hcommit
    change writeFrame faults s.dir t.path t.size f.bytes = _ at hwrite
    rw [← hbytes] at hwrite
    exact writeFrame_isIo hwrite hfile
  · split at hcommit
    · split at hcommit
      · rename_i hsync
        have hio := syncPendingSegments_isIo hsync hlength h.pending_lt
        split at hcommit
        · rename_i htruncate
          cases hcommit
          exact truncateAndSync_isIo htruncate
        · cases hcommit
          exact hio
      · rw [hfinish] at hcommit
        cases hcommit
    · rw [if_neg (h.represents.not_dirty_overflow hf), hfinish] at hcommit
      cases hcommit

end Errors

/-! ## Two ways to fail -/

/-- The checks of the journal accept a batch. -/
structure Acceptable (s : System) (log : Log X) (batch : JournalBatch)
    (durability : JournalDurability) : Prop where
  fresh : ∀ f ∈ log.frames, f.commandId ≠ batch.commandId
  threadId_eq : batch.threadId = s.journal.threadId
  revision_eq : batch.expectedRevision = s.journal.head.revision
  valid : ∃ encoded nextHead,
    encodeBatch X batch durability s.journal.config.maxFramePayloadBytes.toNat = .ok encoded ∧
    validateStoredBatch X encoded.header encoded.stored s.journal.threadId s.journal.head =
      .ok nextHead

variable {s s' : System} {log log' : Log X} {batch : JournalBatch}
  {durability : JournalDurability} {faults : Faults} {error : JournalError}

/-- Whether a batch is accepted depends on the configuration, the thread, the head
and the frames. -/
theorem Acceptable.congr (h : Acceptable s log batch durability)
    (hconfig : s'.journal.config = s.journal.config)
    (hthread : s'.journal.threadId = s.journal.threadId)
    (hhead : s'.journal.head = s.journal.head) (hframes : log'.frames = log.frames) :
    Acceptable s' log' batch durability := by
  refine ⟨?_, ?_, ?_, ?_⟩
  · rw [hframes]
    exact h.fresh
  · rw [hthread]
    exact h.threadId_eq
  · rw [hhead]
    exact h.revision_eq
  · rw [hconfig, hthread, hhead]
    exact h.valid

/-- What is left of an append whose batch the checks accept. -/
theorem append_accepted {encoded : EncodedFrame} {nextHead : ThreadHead}
    (hfind : s.journal.findCommandFrame X s.dir faults.read batch.commandId = .ok none)
    (hthread : batch.threadId = s.journal.threadId)
    (hrevision : batch.expectedRevision = s.journal.head.revision)
    (hencode : encodeBatch X batch durability s.journal.config.maxFramePayloadBytes.toNat =
      .ok encoded)
    (hvalidate : validateStoredBatch X encoded.header encoded.stored s.journal.threadId
      s.journal.head = .ok nextHead) :
    append X faults s batch durability =
      match selectSegment X faults s encoded.bytes.length with
      | (.error error, s) => (.error error, s)
      | (.ok (), s) => commitFrame X faults s encoded durability nextHead := by
  simp only [append, hfind, ne_eq, hthread, hrevision, not_true_eq_false, if_false, hencode,
    hvalidate] <;> rfl

/-- A frame that cannot be written is not committed. -/
theorem commitFrame_write_error {encoded : EncodedFrame} {nextHead : ThreadHead}
    {segment : SegmentInfo} {d : Directory}
    (hlast : s.journal.segments.getLast? = some segment)
    (hwrite : writeFrame faults s.dir segment.path segment.bytes encoded.bytes =
      (.error error, d)) :
    commitFrame X faults s encoded durability nextHead = (.error error, { s with dir := d }) := by
  simp only [commitFrame, hlast, hwrite]

/-- The part of `append` behind the checks fails only for a file operation. -/
theorem selectAndCommit_isIo (hX : X.RoundTrips) (hfaults : faults.Compensated)
    (h : s.Sound log) {encoded : EncodedFrame} {nextHead : ThreadHead}
    (hencode : encodeBatch X batch durability s.journal.config.maxFramePayloadBytes.toNat =
      .ok encoded)
    (hvalidate : validateStoredBatch X encoded.header encoded.stored s.journal.threadId
      s.journal.head = .ok nextHead)
    (hfail : (match selectSegment X faults s encoded.bytes.length with
      | (.error error, s) => (.error error, s)
      | (.ok (), s) => commitFrame X faults s encoded durability nextHead) = (.error error, s')) :
    error.IsIo := by
  obtain ⟨-, hdecodes, -, hlength⟩ := encodeBatch_spec hencode
  let f : Frame X := ⟨encoded.bytes, ⟨encoded.header, encoded.stored⟩, hdecodes hX⟩
  have hf : Follows X s.journal.threadId s.journal.head f nextHead := hvalidate
  have hroom : s.journal.head.revision.toNat + 1 < 2 ^ 64 :=
    Nat.lt_of_le_of_lt hf.lt nextHead.revision.toNat_lt
  rcases selectSegment_spec hfaults h.represents hlength with
    ⟨error', s₁, hselect, -⟩ | ⟨s₁, init, t, hselect, hselects, hsize⟩
  · rw [hselect] at hfail
    obtain ⟨rfl, -⟩ : error' = error ∧ s₁ = s' := by simpa using hfail
    exact selectSegment_isIo hselect hroom
  · rw [hselect] at hfail
    obtain ⟨-, hthread, hhead⟩ := hselects.journal_eq
    refine commitFrame_isIo (h.select hselects) (f := f) ?_ hsize hfail
    rw [hthread, hhead]
    exact hf

/-- An append fails because a file operation does, or because the checks refuse the
batch.  In the second case it changes nothing and would fail again. -/
theorem append_error_cases (hX : X.RoundTrips) (hfaults : faults.Compensated) (h : s.Sound log)
    (hfail : append X faults s batch durability = (.error error, s')) :
    (error.IsIo ∧ ((faults.read = true ∧ s' = s) ∨ Acceptable s log batch durability)) ∨
      (¬ error.IsIo ∧ s' = s ∧ append X .none s batch durability = (.error error, s)) := by
  have hnone : Faults.none.read = false := rfl
  cases hfind : s.journal.findCommandFrame X s.dir faults.read batch.commandId with
  | error error' =>
    obtain ⟨hread, rfl⟩ := h.represents.findCommandFrame_error hfind
    simp only [append, hfind] at hfail
    cases hfail
    exact .inl ⟨trivial, .inl ⟨hread, rfl⟩⟩
  | ok found =>
    rcases h.represents.findCommandFrame_ok hfind with ⟨pointer, rfl, hpointer⟩ | ⟨rfl, hfresh⟩
    · -- the command is known
      obtain ⟨f, hf, hid, receipt, hreceipt, hread⟩ :=
        h.represents.readCommittedCommand_pointer hpointer
      cases hreads : faults.read with
      | true =>
        rw [hreads] at hfind
        simp only [append, hreads, hfind, hread, if_true] at hfail
        cases hfail
        exact .inl ⟨trivial, .inl ⟨rfl, rfl⟩⟩
      | false =>
        obtain ⟨receipt', -, heq⟩ := append_of_mem h.represents hf hid hreads durability
        obtain ⟨receipt'', -, heq'⟩ := append_of_mem h.represents hf hid hnone durability
        rw [heq] at hfail
        split at hfail
        · cases hfail
        · rename_i hdigest
          rw [if_neg hdigest] at heq'
          cases hfail
          exact .inr ⟨id, rfl, heq'⟩
    · have hfind' : s.journal.findCommandFrame X s.dir false batch.commandId = .ok none := by
        cases hfind' : s.journal.findCommandFrame X s.dir false batch.commandId with
        | error error => cases (h.represents.findCommandFrame_error hfind').1
        | ok found =>
          rcases h.represents.findCommandFrame_ok hfind' with ⟨pointer, rfl, hpointer⟩ | ⟨rfl, -⟩
          · obtain ⟨g, hg, hgid, -⟩ := h.represents.readCommittedCommand_pointer hpointer
            exact absurd hgid (hfresh g hg)
          · rfl
      simp only [append, hfind] at hfail
      simp only [append, hnone, hfind']
      split at hfail
      · rename_i hthread
        cases hfail
        exact .inr ⟨id, rfl, by rw [if_pos hthread]⟩
      rename_i hthread
      split at hfail
      · rename_i hrevision
        cases hfail
        exact .inr ⟨id, rfl, by rw [if_neg hthread, if_pos hrevision]⟩
      rename_i hrevision
      simp only [if_neg hthread, if_neg hrevision]
      split at hfail
      · cases hfail
        exact .inr ⟨id, rfl, rfl⟩
      rename_i encoded hencode
      split at hfail
      · cases hfail
        exact .inr ⟨id, rfl, rfl⟩
      rename_i nextHead hvalidate
      exact .inl ⟨selectAndCommit_isIo hX hfaults h hencode hvalidate hfail, .inr
        ⟨hfresh, not_not.mp hthread, not_not.mp hrevision, encoded, nextHead, hencode, hvalidate⟩⟩

/-! ## The second attempt -/

/-- A valid log has fewer segments than there are revisions. -/
theorem Log.Valid.segments_lt {config : JournalConfig} {threadId : ThreadId}
    (h : log.Valid X config threadId) : log.length < 2 ^ 64 := by
  rcases List.eq_nil_or_concat log with rfl | ⟨init, t, rfl⟩
  · exact Nat.two_pow_pos 64
  · rw [List.concat_eq_append] at *
    obtain ⟨hinit, ht, hfull⟩ := h.split
    have hle := length_le_of_segments hinit hfull
    have hroom := ht.room
    simp only [ThreadHead.empty, ThreadRevision.toNat_zero] at hle
    rw [List.length_append, List.length_singleton]
    omega

/-- The name of the next segment is free. -/
theorem System.Sound.lookup_next (h : s.Sound log) :
    s.dir.lookup (segmentName log.length) = none := by
  cases hlookup : s.dir.lookup (segmentName log.length) with
  | none => rfl
  | some node =>
    cases node with
    | other => exact absurd hlookup (h.unobstructed _)
    | file f =>
      have hsome : (s.dir.contents (segmentName log.length)).isSome := by
        rw [Directory.isSome_contents, Directory.file?_eq_some_iff.mpr hlookup]
        rfl
      have hmem := (h.represents.holds.lists.mem_iff _ _).mpr
        ⟨hsome, segmentSequence_segmentName h.represents.valid.segments_lt⟩
      have hlt := (Log.le_of_mem_paths hmem).2
      omega

/-- The frame of a batch that was committed. -/
theorem Appends.exists_frame {receipt : ThreadCommandReceipt} {events : List ThreadEventEnvelope}
    (h : Appends X batch durability s log (.ok (.committed receipt events)) s' log') :
    ∃ f ∈ log'.frames, f.commandId = batch.commandId ∧
      f.stored.commandDigest = batch.commandDigest ∧ deriveReceipt X f.stored = .ok receipt := by
  generalize hresult : Except.ok (AppendOutcome.committed receipt events) = result at h
  cases h with
  | found =>
    split at hresult
    · cases hresult
    · cases hresult
  | failed => cases hresult
  | committed _ f _ commandId_eq commandDigest_eq receipt_eq =>
    cases hresult
    exact ⟨f, by simp [LogSegment.push], commandId_eq, commandDigest_eq, receipt_eq⟩

/-- The frames after an append. -/
theorem Appends.mem_frames {result : Except JournalError AppendOutcome}
    (h : Appends X batch durability s log result s' log') {f : Frame X} (hf : f ∈ log'.frames) :
    f ∈ log.frames ∨ f.commandId = batch.commandId := by
  cases h with
  | found => exact .inl hf
  | failed selects =>
    rw [selects.frames_eq] at hf
    exact .inl hf
  | committed selects g _ commandId_eq =>
    rw [frames_push, selects.frames_eq] at hf
    rcases List.mem_append.mp hf with hf | hf
    · exact .inl hf
    · rw [List.mem_singleton.mp hf]
      exact .inr commandId_eq

/-- A batch that the checks accept is committed by a call that nothing disturbs. -/
theorem Acceptable.commits (hX : X.RoundTrips) (h : s.Sound log)
    (hbatch : Acceptable s log batch durability) :
    ∃ receipt s', ∃ log' : Log X, append X .none s batch durability =
        (.ok (.committed receipt batch.events), s') ∧ s'.Sound log' ∧
      s'.journal.config = s.journal.config ∧ s'.journal.threadId = s.journal.threadId ∧
      log'.events = log.events ++ batch.events ∧
      (∀ f ∈ log'.frames, f ∈ log.frames ∨ f.commandId = batch.commandId) ∧
      ∀ durability', append X .none s' batch durability' = (.ok (.duplicate receipt), s') := by
  obtain ⟨encoded, nextHead, hencode, hvalidate⟩ := hbatch.valid
  obtain ⟨receipt, s', -, -, -, -, happend, -⟩ := append_progress hX h.represents hbatch.fresh
    hbatch.threadId_eq hbatch.revision_eq hencode hvalidate h.pending_lt h.lookup_next
  obtain ⟨hstored, -⟩ := encodeBatch_spec hencode
  obtain ⟨log', happends, h'⟩ := append_spec hX (by decide : Faults.none.Compensated)
    h.represents batch durability
  rw [hstored] at happend
  rw [happend] at happends h'
  have hevents := happends.events_eq
  obtain ⟨hconfig, hthread⟩ := happends.journal_eq
  refine ⟨receipt, s', log', happend, h.append happends h', hconfig, hthread, hevents,
    fun f hf ↦ happends.mem_frames hf, ?_⟩
  obtain ⟨f, hf, hid, hdigest, hreceipt⟩ := happends.exists_frame
  intro durability'
  obtain ⟨receipt', hreceipt', heq⟩ := append_of_mem h' hf hid
    (rfl : Faults.none.read = false) durability'
  rw [heq, if_pos hdigest, Except.ok.inj (hreceipt'.symm.trans hreceipt)]

/-! ## The theorem -/

/-- Nobody can tell the two systems apart: not by the head, the receipts or what
waits for a sync, and not by recovering their files. -/
structure SameView (X : Externals) (s s' : System) : Prop where
  head_eq : s'.journal.head = s.journal.head
  receipt_eq : ∀ commandId,
    s'.journal.receipt X s'.dir commandId = s.journal.receipt X s.dir commandId
  pendingSyncs_eq : s'.journal.pendingSyncs = s.journal.pendingSyncs
  dirtyBatchCount_eq : s'.journal.dirtyBatchCount = s.journal.dirtyBatchCount
  recovery_eq : ∀ mode, ∃ view,
    recovery X s.journal.config s.journal.threadId s.dir mode = .ok view ∧
    recovery X s.journal.config s.journal.threadId s'.dir mode = .ok view

/-- A failed append cannot be told from no append. -/
theorem Appends.sameView (happends : Appends X batch durability s log (.error error) s' log')
    (h : s.Sound log) (h' : s'.Represents log') :
    SameView X s s' ∧ s'.Sound log' ∧ log'.frames = log.frames := by
  have hsound := h.append happends h'
  obtain ⟨hconfig, hthread⟩ := happends.journal_eq
  obtain ⟨hframes, hpending, hdirty⟩ : log'.frames = log.frames ∧
      s'.journal.pendingSyncs = s.journal.pendingSyncs ∧
      s'.journal.dirtyBatchCount = s.journal.dirtyBatchCount := by
    generalize hresult : Except.error error = result at happends
    cases happends with
    | found => exact ⟨rfl, rfl, rfl⟩
    | committed => cases hresult
    | failed selects _ journal_eq =>
      refine ⟨selects.frames_eq, ?_⟩
      rw [journal_eq]
      cases selects with
      | same => exact ⟨rfl, rfl⟩
      | rotated journal_eq =>
        rw [journal_eq]
        exact ⟨rfl, rfl⟩
  have hhead : log'.head = log.head := by rw [Log.head, Log.head, hframes]
  refine ⟨⟨?_, ?_, hpending, hdirty, fun mode ↦ ⟨_, h.recovery_eq mode, ?_⟩⟩, hsound, hframes⟩
  · rw [h'.head_eq, h.represents.head_eq, hhead]
  · intro commandId
    exact h.represents.receipt_congr_frames h' hframes commandId
  · rw [← hconfig, ← hthread, hsound.recovery_eq mode, hhead, Log.events, Log.events, hframes]

/-- **Failed appends are atomic.**  In every journal in use, an append that fails, with
the operations that undo it succeeding, leaves the head, the receipts, the pending
syncs, the dirty count and what a recovery produces as they were.  A batch that was
refused is refused again.  A batch that failed for a file operation, other than
reading the journal to look up its command, is committed by the next attempt that
nothing disturbs, once: a recovery then finds its events behind the earlier ones,
and further attempts are duplicates. -/
theorem failed_append_atomic (X : Externals) (hX : X.RoundTrips) (s : System) (h : InUse X s)
    (batch : JournalBatch) (durability : JournalDurability) (faults : Faults)
    (hfaults : faults.Compensated) (error : JournalError) (s' : System)
    (hfail : append X faults s batch durability = (.error error, s')) :
    SameView X s s' ∧
    (¬ error.IsIo → append X .none s' batch durability = (.error error, s')) ∧
    (error.IsIo → (faults.read = true ∧ s' = s) ∨ ∃ receipt s'',
      append X .none s' batch durability = (.ok (.committed receipt batch.events), s'') ∧
      (∀ mode, ∃ events head head',
        recovery X s.journal.config s.journal.threadId s'.dir mode = .ok (events, head) ∧
        recovery X s.journal.config s.journal.threadId s''.dir mode =
          .ok (events ++ batch.events, head')) ∧
      ∀ durability', append X .none s'' batch durability' = (.ok (.duplicate receipt), s'')) := by
  obtain ⟨log, hlog⟩ := h.sound hX
  obtain ⟨log', happends, h'⟩ := append_spec hX hfaults hlog.represents batch durability
  rw [hfail] at happends h'
  obtain ⟨hview, hlog', hframes⟩ := happends.sameView hlog h'
  obtain ⟨hconfig, hthread⟩ := happends.journal_eq
  refine ⟨hview, ?_, ?_⟩
  · intro hio
    rcases append_error_cases hX hfaults hlog hfail with ⟨hio', -⟩ | ⟨-, rfl, hagain⟩
    · exact absurd hio' hio
    · exact hagain
  · intro hio
    rcases append_error_cases hX hfaults hlog hfail with
      ⟨-, ⟨hread, rfl⟩ | hbatch⟩ | ⟨hio', -⟩
    · exact .inl ⟨hread, rfl⟩
    · right
      obtain ⟨receipt, s'', log'', hcommit, hlog'', hconfig', hthread', hevents, -, hagain⟩ :=
        (hbatch.congr hconfig hthread hview.head_eq hframes).commits hX hlog'
      refine ⟨receipt, s'', hcommit, fun mode ↦ ⟨log'.events, log'.head, log''.head, ?_, ?_⟩, hagain⟩
      · rw [← hconfig, ← hthread]
        exact hlog'.recovery_eq mode
      · rw [← hconfig, ← hthread, ← hconfig', ← hthread', ← hevents]
        exact hlog''.recovery_eq mode
    · exact absurd hio hio'

namespace Sample

/-- Writing the first frame fails after some bytes. -/
def partialWrite : Faults := { Faults.none with write := some 23 }

theorem append_create_partialWrite : ∃ s,
    Journal.append crates partialWrite (.initial config (id .thread 0)) create .durable =
      (.error (.io .failed), s) := by
  have hroom : ThreadHead.empty.revision.toNat + 1 < 2 ^ 64 := by decide
  obtain ⟨encoded, hencode, -, hvalidate⟩ :=
    accepts 1 createCommand createBody .durable hroom size_create
  have hfind : (System.initial config (id .thread 0)).journal.findCommandFrame crates ∅ false
      create.commandId = .ok none := rfl
  have hselect : selectSegment crates partialWrite (.initial config (id .thread 0))
      encoded.bytes.length = (.ok (),
        { dir := (∅ : Directory).setFile (segmentName 0) (.created (encodeSegmentHeader crates
            (segmentHeader (id .thread 0) 0 .empty)))
          journal := { (System.initial config (id .thread 0)).journal with
            segments := [newSegmentInfo 0 .empty] } }) := rfl
  obtain ⟨d, hwrite⟩ : ∃ d, writeFrame partialWrite ((∅ : Directory).setFile (segmentName 0)
      (.created (encodeSegmentHeader crates (segmentHeader (id .thread 0) 0 .empty))))
      (segmentName 0) segmentHeaderLen encoded.bytes = (.error (.io .failed), d) := by
    have hlength : (File.created (encodeSegmentHeader crates
        (segmentHeader (id .thread 0) 0 .empty))).data.length = segmentHeaderLen :=
      encodeSegmentHeader_length _
    simp only [writeFrame, truncateAndSync, partialWrite, Faults.none, Directory.file?_setFile_self,
      hlength, ne_eq, not_true_eq_false, Bool.false_eq_true, if_false]
    exact ⟨_, rfl⟩
  have happend : Journal.append crates partialWrite (.initial config (id .thread 0)) create
      .durable = _ := append_accepted hfind rfl rfl hencode hvalidate
  rw [hselect] at happend
  exact ⟨_, happend.trans (commitFrame_write_error rfl hwrite)⟩

end Sample

/-- Creating a thread at the second attempt, after writing its frame failed half way. -/
theorem failed_append_atomic_create : ∃ s s' receipt,
    append crates Sample.partialWrite (.initial Sample.config (Sample.id .thread 0)) Sample.create
      .durable = (.error (.io .failed), s) ∧
    s.journal.head = .empty ∧
    append crates .none s Sample.create .durable =
      (.ok (.committed receipt Sample.create.events), s') := by
  obtain ⟨s, hfail⟩ := Sample.append_create_partialWrite
  obtain ⟨hview, -, hretry⟩ := failed_append_atomic crates crates_roundTrips _
    (.initial (Sample.id .thread 0) rfl) Sample.create .durable Sample.partialWrite (by decide) _ s
    hfail
  rcases hretry trivial with ⟨hread, -⟩ | ⟨receipt, s', hcommit, -⟩
  · cases hread
  · exact ⟨s, s', receipt, hfail, hview.head_eq, hcommit⟩

/-- A batch that expects another revision is refused at every attempt, since the
refusal changes nothing. -/
theorem refused_append_never_commits :
    InUse crates (.initial Sample.config (Sample.id .thread 0)) ∧
    append crates .none (.initial Sample.config (Sample.id .thread 0)) Sample.rename .durable =
      (.error (.revisionConflict ⟨1⟩ .zero), .initial Sample.config (Sample.id .thread 0)) :=
  ⟨.initial (Sample.id .thread 0) rfl, rfl⟩

end Praxis.Journal
