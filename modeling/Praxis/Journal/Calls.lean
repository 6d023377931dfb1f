import Praxis.Journal.Represents

/-!
# What the calls of a writer do

One specification for each function of the writer, for calls whose compensating
operations succeed.  A step that fails leaves the contents of all files as they
were, though syncs may have brought more of them to disk (`Directory.Hardens`).
A step that succeeds does one of two things to the log: it starts a segment
(`Selects`), or it adds a frame to the last one (`Commits`).

`append_spec` and `sync_spec` put these together: `Appends` and `Syncs` list
everything a call can do, and the system a call leaves behind represents the log
it leaves behind.
-/

namespace Praxis.Journal

open Foundation Contracts

variable {X : Externals}

/-- The error is an idempotency collision. -/
def JournalError.IsCollision : JournalError → Prop
  | .idempotencyCollision _ => True
  | _ => False

/-! ## Syncing -/

section Sync

variable {faults : Faults} {d d' : Directory}

theorem syncFiles_spec {segments : List SegmentInfo} {index : Nat} {sequences : List Nat}
    {result : Except JournalError Unit}
    (h : syncFiles faults segments index sequences d = (result, d')) :
    d.Hardens d' ∧ (∀ error, result = .error error → ¬ error.IsCollision) ∧
      (result = .ok () → ∀ i ∈ sequences, ∀ segment, segments[i]? = some segment →
        ∃ f, d'.file? segment.path = some f ∧ f.synced = f.data.length) := by
  induction sequences generalizing index d with
  | nil =>
    cases h
    exact ⟨.refl _, nofun, fun _ ↦ by simp⟩
  | cons sequence sequences ih =>
    unfold syncFiles at h
    split at h
    · cases h
      exact ⟨.refl _, by rintro _ ⟨⟩; exact id, nofun⟩
    · rename_i segment hsegment
      split at h
      · cases h
        exact ⟨.refl _, by rintro _ ⟨⟩; exact id, nofun⟩
      · split at h
        · cases h
          exact ⟨.refl _, by rintro _ ⟨⟩; exact id, nofun⟩
        · rename_i file hfile
          obtain ⟨hharden, herror, hsynced⟩ := ih h
          refine ⟨(Directory.Hardens.setFile hfile (.sync file)).trans hharden, herror, ?_⟩
          intro hok i hi info hinfo
          rcases List.mem_cons.mp hi with rfl | hi
          · obtain rfl : segment = info := Option.some.inj (hsegment.symm.trans hinfo)
            obtain ⟨f', hf', hff'⟩ := hharden.file? Directory.file?_setFile_self
            exact ⟨f', hf', hff'.synced_eq rfl⟩
          · exact hsynced hok i hi info hinfo

theorem mem_markPending {sequences : List Nat} {sequence i : Nat}
    (h : i ∈ markPending sequences sequence) : i ∈ sequences ∨ i = sequence := by
  unfold markPending at h
  split at h
  · exact .inr (List.mem_singleton.mp h)
  · split at h
    · exact .inl h
    · split at h
      · simpa using h
      · split at h
        · exact .inl h
        · simpa [or_comm] using h

theorem markPending_ne_nil (sequences : List Nat) (sequence : Nat) :
    markPending sequences sequence ≠ [] := by
  unfold markPending
  split
  · simp
  · rename_i last hlast
    have hne : sequences ≠ [] := by
      rintro rfl
      cases hlast
    split
    · exact hne
    · split
      · simp
      · split
        · exact hne
        · exact List.ne_nil_of_length_pos (by simp [List.orderedInsert_length])

/-- The current segment is among those to sync. -/
theorem mem_iterIncluding (sequences : List Nat) (current : Nat) :
    current ∈ iterIncluding sequences (some current) := by
  rw [iterIncluding]
  split
  · assumption
  · simp

theorem syncPendingSegments_spec {j : ThreadJournal} {current : Option Nat}
    {result : Except JournalError Unit}
    (h : syncPendingSegments faults j d current = (result, d')) :
    d.Hardens d' ∧ (∀ error, result = .error error → ¬ error.IsCollision) ∧
      (result = .ok () → ∀ i ∈ iterIncluding j.pendingSyncs current, ∀ segment,
        j.segments[i]? = some segment → ∃ f, d'.file? segment.path = some f ∧ f.OnDisk) := by
  unfold syncPendingSegments at h
  split at h
  · rename_i hsync
    cases h
    obtain ⟨hharden, herror, -⟩ := syncFiles_spec hsync
    exact ⟨hharden, herror, nofun⟩
  · rename_i d₁ hsync
    obtain ⟨hharden, -, hsynced⟩ := syncFiles_spec hsync
    split at h
    · split at h
      · cases h
        exact ⟨hharden, by rintro _ ⟨⟩; exact id, nofun⟩
      · cases h
        refine ⟨hharden.trans (.sync d₁), nofun, fun _ i hi segment hsegment ↦ ?_⟩
        obtain ⟨f, hf, hsync⟩ := hsynced rfl i hi segment hsegment
        exact ⟨f.link, by rw [Directory.file?_sync, hf]; rfl, hsync, rfl⟩
    · rename_i hnone
      cases h
      refine ⟨hharden, nofun, fun _ i hi ↦ ?_⟩
      -- without a current segment and pending ones there is nothing to sync
      simp only [not_or, Bool.not_eq_true, Option.isSome_eq_false_iff, Option.isNone_iff_eq_none,
        ne_eq, not_not] at hnone
      rw [hnone.1, hnone.2] at hi
      cases hi

end Sync

/-! ## Frames -/

section Write

variable {faults : Faults} {d : Directory} {path : FileName} {file : File}

/-- Truncating a segment to where it ended before a frame was written undoes the
write, also when syncs happened in between. -/
theorem truncateAndSync_undo (hfaults : faults.Compensated) (hfile : d.file? path = some file)
    {bytes : Bytes} {d₁ : Directory} (hwrite : (d.setFile path (file.write bytes)).Hardens d₁) :
    ∃ d', truncateAndSync faults d₁ path file.data.length = (.ok (), d') ∧ d.Hardens d' := by
  obtain ⟨-, htruncate, hsync⟩ := hfaults
  obtain ⟨f₁, hf₁, hhard⟩ := hwrite.file? Directory.file?_setFile_self
  refine ⟨d₁.setFile path (f₁.setLen file.data.length).sync, ?_, ?_⟩
  · rw [truncateAndSync, htruncate, hsync, hf₁]
    rfl
  · intro name
    by_cases hname : name = path
    · subst hname
      have hdata : (f₁.setLen file.data.length).data = file.data := by
        rw [File.setLen_data (by rw [hhard.data_eq]; simp), hhard.data_eq, File.write_data,
          List.take_left' rfl]
      rw [Directory.file?_eq_some_iff.mp hfile, Directory.lookup_setFile_self]
      refine .some (.file ⟨hdata, ?_, fun hlinked ↦ hhard.linked hlinked⟩)
      change file.synced ≤ (f₁.setLen file.data.length).data.length
      rw [hdata]
      exact file.synced_le
    · rw [Directory.lookup_setFile_ne hname, ← Directory.lookup_setFile_ne (d := d) hname]
      exact hwrite name

theorem writeFrame_spec (hfaults : faults.Compensated) (hfile : d.file? path = some file)
    (bytes : Bytes) :
    (∃ error d', writeFrame faults d path file.data.length bytes = (.error error, d') ∧
      ¬ error.IsCollision ∧ d.Hardens d') ∨
    writeFrame faults d path file.data.length bytes =
      (.ok (), d.setFile path (file.write bytes)) := by
  cases hopen : faults.openAppend with
  | true =>
    refine .inl ⟨.io .failed, d, ?_, id, .refl d⟩
    simp only [writeFrame, hopen, if_true]
  | false =>
    cases hwrite : faults.write with
    | none =>
      right
      simp only [writeFrame, hopen, hfile, hwrite, ne_eq, not_true_eq_false, Bool.false_eq_true,
        if_false]
    | some written =>
      obtain ⟨d', htruncate, hharden⟩ :=
        truncateAndSync_undo hfaults hfile (.refl (d.setFile path (file.write (bytes.take written))))
      refine .inl ⟨.io .failed, d', ?_, id, hharden⟩
      simp only [writeFrame, hopen, hfile, hwrite, htruncate, ne_eq, not_true_eq_false,
        Bool.false_eq_true, if_false]

end Write

/-! ## Segments -/

theorem createSegment_spec {faults : Faults} (hfaults : faults.Compensated) (s : System) :
    (∃ error s', createSegment X faults s = (.error error, s') ∧ ¬ error.IsCollision ∧
      s'.journal = s.journal ∧ s.dir.Hardens s'.dir) ∨
    (s.journal.head.revision.toNat + 1 < 2 ^ 64 ∧
      s.dir.file? (segmentName s.journal.segments.length) = none ∧
      createSegment X faults s = (.ok (),
        { dir := s.dir.setFile (segmentName s.journal.segments.length)
            (.created (encodeSegmentHeader X (segmentHeader s.journal.threadId
              s.journal.segments.length s.journal.head)))
          journal := { s.journal with
            segments := s.journal.segments ++
              [newSegmentInfo s.journal.segments.length s.journal.head] } })) := by
  cases hnext : s.journal.head.revision.checkedNext with
  | none =>
    refine .inl ⟨.invalidBatch "thread revision overflow", s, ?_, id, rfl, .refl _⟩
    simp only [createSegment, hnext]
  | some first =>
    have hroom : s.journal.head.revision.toNat + 1 < 2 ^ 64 := by
      rw [ThreadRevision.checkedNext_eq_some_iff.mp hnext]
      exact first.value.toNat_lt
    obtain rfl : first = nextRevision s.journal.head :=
      Option.some.inj (hnext.symm.trans (checkedNext_eq_some hroom))
    cases hcreate : faults.create with
    | true =>
      refine .inl ⟨.io .failed, s, ?_, id, rfl, .refl _⟩
      simp only [createSegment, hnext, hcreate, if_true]
    | false =>
      cases hlookup : s.dir.lookup (segmentName s.journal.segments.length) with
      | some node =>
        refine .inl ⟨.io .alreadyExists, s, ?_, id, rfl, .refl _⟩
        simp only [createSegment, hnext, hcreate, hlookup, Option.isSome_some, Bool.false_eq_true,
          if_false, if_true]
      | none =>
        have hnone : s.dir.file? (segmentName s.journal.segments.length) = none := by
          rw [Directory.file?, hlookup]
        cases hheader : faults.header with
        | some written =>
          -- the new file is removed, so every name is looked up as before
          let dir := (s.dir.setFile (segmentName s.journal.segments.length)
            (.created ((encodeSegmentHeader X (segmentHeader s.journal.threadId
              s.journal.segments.length s.journal.head)).take written))).remove
                (segmentName s.journal.segments.length)
          have hsame : ∀ name, dir.lookup name = s.dir.lookup name := by
            intro name
            by_cases hname : name = segmentName s.journal.segments.length
            · rw [hname, hlookup, Directory.lookup_remove_self]
            · rw [Directory.lookup_remove_ne hname, Directory.lookup_setFile_ne hname]
          refine .inl ⟨.io .failed, { s with dir }, ?_, id, rfl, .of_lookup_eq hsame⟩
          simp only [createSegment, hnext, hcreate, hlookup, hheader, hfaults.1,
            Option.isSome_none, Bool.false_eq_true, if_false]
          rfl
        | none =>
          refine .inr ⟨hroom, hnone, ?_⟩
          simp only [createSegment, hnext, hcreate, hlookup, hheader, Option.isSome_none,
            Bool.false_eq_true, if_false]
          rfl

/-- What `select_segment` does to the log. -/
inductive Selects (X : Externals) (s : System) (log : Log X) : System → Log X → Prop
  /-- The last segment has room. -/
  | same : Selects X s log s log
  /-- A new one is created. -/
  | rotated {s' : System}
    (journal_eq : s'.journal = { s.journal with
      segments := s.journal.segments ++ [newSegmentInfo log.length log.head] })
    (dir_eq : s'.dir = s.dir.setFile (segmentName log.length)
      (.created (encodeSegmentHeader X
        (segmentHeader s.journal.threadId log.length log.head))))
    (new : s.dir.file? (segmentName log.length) = none)
    (full : ∀ t ∈ log, t.frames ≠ [])
    (room : log.head.revision.toNat + 1 < 2 ^ 64) : Selects X s log s' log.rotate

/-- Selecting a segment keeps the invariant. -/
theorem Selects.represents {s s' : System} {log log' : Log X} (hselects : Selects X s log s' log')
    (h : s.Represents log) : s'.Represents log' := by
  cases hselects with
  | same => exact h
  | rotated journal_eq dir_eq new full room =>
    refine h.rotate full room journal_eq ?_ ?_ fun name hname ↦ ?_
    · rw [dir_eq, Directory.contents_setFile_self]
      rfl
    · rw [Directory.contents, new]
      rfl
    · rw [dir_eq, Directory.contents_setFile_ne hname]

/-- A segment with more than its header has frames. -/
theorem frames_ne_nil_of_size {t : LogSegment X} (h : segmentHeaderLen < t.size) :
    t.frames ≠ [] := by
  intro hnil
  simp [LogSegment.size, hnil] at h

theorem selectSegment_spec {faults : Faults} (hfaults : faults.Compensated) {s : System}
    {log : Log X} (h : s.Represents log) {len : Nat} (hlen : len ≤ isizeMax) :
    (∃ error s', selectSegment X faults s len = (.error error, s') ∧ ¬ error.IsCollision ∧
      s'.journal = s.journal ∧ s.dir.Hardens s'.dir) ∨
    ∃ s' init t, selectSegment X faults s len = (.ok (), s') ∧
      Selects X s log s' (init ++ [t]) ∧ t.size + len < 2 ^ 64 := by
  have hlength : s.journal.segments.length = log.length := by simp [h.segments_eq]
  rcases hrotate : rotates s.journal len with _ | _
  · -- there is a last segment, and it has room
    rw [selectSegment, hrotate]
    rcases List.eq_nil_or_concat log with rfl | ⟨init, t, rfl⟩
    · simp [rotates, h.segments_eq, Log.infos] at hrotate
    · rw [List.concat_eq_append] at *
      refine .inr ⟨s, init, t, rfl, .same, ?_⟩
      rw [rotates, h.segments_eq, getLast?_infos] at hrotate
      have hroom := of_decide_eq_false hrotate
      simp only [LogSegment.info, segmentHeaderLen] at hroom
      unfold isizeMax at hlen
      omega
  · -- every segment of the log is in use
    have hfull : ∀ t ∈ log, t.frames ≠ [] := by
      rcases List.eq_nil_or_concat log with rfl | ⟨init, t, rfl⟩
      · simp
      · rw [List.concat_eq_append] at *
        rw [rotates, h.segments_eq, getLast?_infos] at hrotate
        have hused : segmentHeaderLen < t.size := (of_decide_eq_true hrotate).1
        intro u hu
        rcases List.mem_append.mp hu with hu | hu
        · exact h.valid.full u (by simpa using hu)
        · rw [List.mem_singleton.mp hu]
          exact frames_ne_nil_of_size hused
    rw [selectSegment, hrotate, if_pos rfl]
    rcases createSegment_spec (X := X) hfaults s with hfailed | ⟨hroom, hnew, hcreate⟩
    · exact .inl hfailed
    · rw [hlength] at hnew
      rw [hlength, h.head_eq] at hcreate
      rw [h.head_eq] at hroom
      refine .inr ⟨_, log, _, hcreate, .rotated rfl rfl hnew hfull hroom, ?_⟩
      simp only [LogSegment.size, framesBytes_nil, List.length_nil, segmentHeaderLen]
      unfold isizeMax at hlen
      omega

/-! ## Commits -/

/-- What a successful append does to the syncs and the files, given the last
segment and its number. -/
structure Commits (durability : JournalDurability) (s : System) (path : FileName) (sequence : Nat)
    (s' : System) : Prop where
  config_eq : s'.journal.config = s.journal.config
  threadId_eq : s'.journal.threadId = s.journal.threadId
  segments_length : s'.journal.segments.length = s.journal.segments.length
  pending_eq : s'.journal.pendingSyncs = match durability with
    | .durable => []
    | .buffered => markPending s.journal.pendingSyncs sequence
  dirty_eq : s'.journal.dirtyBatchCount = match durability with
    | .durable => 0
    | .buffered => s.journal.dirtyBatchCount + 1
  file : ∃ file file', s.dir.file? path = some file ∧ s'.dir.file? path = some file' ∧
    file.synced ≤ file'.synced ∧ (file.linked → file'.linked) ∧
    (durability = .durable → file'.OnDisk)
  other : ∀ name ≠ path, Option.Rel Node.Hardens (s.dir.lookup name) (s'.dir.lookup name)
  /-- Only a durable append brings directory entries to disk. -/
  linked_eq : durability = .buffered → ∀ name,
    (s'.dir.file? name).map File.linked = (s.dir.file? name).map File.linked

/-- The end of an append that goes well. -/
theorem finishAppend_eq (j : ThreadJournal) (segment : SegmentInfo) (encoded : EncodedFrame)
    (nextHead : ThreadHead) {receipt : ThreadCommandReceipt}
    (hsize : segment.bytes + encoded.bytes.length < 2 ^ 64)
    (hreceipt : deriveReceipt X encoded.stored = .ok receipt) :
    finishAppend X j segment encoded nextHead =
      (.ok (.committed receipt encoded.stored.events),
        { j with
          segments := j.segments.dropLast ++
            [{ segment with
               bytes := segment.bytes + encoded.bytes.length
               lastRevision := nextHead.revision }]
          head := nextHead
          commandIndex := j.commandIndex.insert encoded.stored.commandId
            { previousRecordDigest := j.head.recordDigest
              startRevision := encoded.header.startRevision
              offset := segment.bytes
              len := encoded.bytes.length } }) := by
  simp only [finishAppend, if_neg (Nat.not_le.mpr hsize), hreceipt]

/-- The frame as `encode_batch` returns it. -/
def Frame.encoded (f : Frame X) : EncodedFrame :=
  { bytes := f.bytes, header := f.header, stored := f.stored }

section Commit

variable {faults : Faults} {s : System} {init : Log X} {t : LogSegment X}

/-- The file of the last segment. -/
theorem System.Represents.last_file (h : s.Represents (init ++ [t])) :
    ∃ file, s.dir.file? t.path = some file ∧
      file.data = t.data s.journal.threadId init.length (Log.head init) := by
  have hlast := (Log.stored_append_iff.mp h.holds.stored).2.1
  rw [Nat.zero_add] at hlast
  exact Directory.contents_eq_some_iff.mp hlast

/-- There is a batch for every revision at most, so their count does not overflow. -/
theorem System.Represents.not_dirty_overflow {log : Log X} (h : s.Represents log) {f : Frame X}
    {nextHead : ThreadHead} (hf : Follows X s.journal.threadId s.journal.head f nextHead) :
    ¬ 2 ^ 64 ≤ s.journal.dirtyBatchCount + 1 := by
  have hle := h.dirty_le
  have hlt := hf.lt
  have hbound := nextHead.revision.value.toNat_lt
  rw [← h.head_eq] at hle
  simp only [ThreadRevision.toNat] at hle hlt
  omega

theorem commitFrame_spec (hfaults : faults.Compensated) (h : s.Represents (init ++ [t]))
    (f : Frame X) (durability : JournalDurability) {nextHead : ThreadHead}
    (hf : Follows X s.journal.threadId s.journal.head f nextHead)
    (hmax : f.header.payloadLen ≤ s.journal.config.maxFramePayloadBytes)
    (hsize : t.size + f.len < 2 ^ 64)
    (hfresh : ∀ g ∈ Log.frames (init ++ [t]), g.commandId ≠ f.commandId) :
    (∃ error s', commitFrame X faults s f.encoded durability nextHead =
        (.error error, s') ∧ ¬ error.IsCollision ∧ s'.journal = s.journal ∧
        s.dir.Hardens s'.dir) ∨
    ∃ receipt s', commitFrame X faults s f.encoded durability nextHead =
        (.ok (.committed receipt f.events), s') ∧ deriveReceipt X f.stored = .ok receipt ∧
      Commits durability s t.path init.length s' ∧ s'.Represents (init ++ [t.push f]) := by
  obtain ⟨receipt, hreceipt⟩ := hf.spec.receipt
  obtain ⟨file, hfile, hdata⟩ := h.last_file
  have hbytes : file.data.length = t.size := by rw [hdata, LogSegment.data_length]
  have hlast : s.journal.segments.getLast? = some (t.info init.length (Log.head init)) := by
    rw [h.segments_eq, getLast?_infos]
  have hlength : 0 < s.journal.segments.length := by
    rw [h.segments_eq]
    simp
  have hfinish := fun j ↦ finishAppend_eq (X := X) j (t.info init.length (Log.head init)) f.encoded
    nextHead hsize hreceipt
  simp only [LogSegment.info, Frame.encoded] at hlast hfinish
  have hpointer : f.pointer t.size =
      { previousRecordDigest := s.journal.head.recordDigest
        startRevision := f.header.startRevision
        offset := t.size
        len := f.len } := by
    rw [Frame.pointer, hf.previous_eq]
  have hcontents : (file.write f.bytes).data =
      t.data s.journal.threadId init.length (Log.head init) ++ f.bytes := by
    rw [File.write_data, hdata]
  rcases writeFrame_spec hfaults hfile f.bytes with ⟨error, d', hwrite, hcollision, hharden⟩ | hwrite
  · refine .inl ⟨error, { s with dir := d' }, ?_, hcollision, rfl, hharden⟩
    rw [hbytes] at hwrite
    simp only [commitFrame, Frame.encoded, hlast, hwrite]
  · rw [hbytes] at hwrite
    cases durability with
    | durable =>
      rcases hsync : syncPendingSegments faults s.journal
          (s.dir.setFile t.path (file.write f.bytes)) (some init.length) with ⟨_ | _, d'⟩
      · rename_i error
        obtain ⟨hharden, hcollision, -⟩ := syncPendingSegments_spec hsync
        obtain ⟨d'', htruncate, hundo⟩ := truncateAndSync_undo hfaults hfile hharden
        refine .inl ⟨error, { s with dir := d'' }, ?_, hcollision error rfl, rfl, hundo⟩
        rw [hbytes] at htruncate
        simp only [commitFrame, Frame.encoded, hlast, hwrite, hsync, htruncate]
      · obtain ⟨hharden, -, hondisk⟩ := syncPendingSegments_spec hsync
        obtain ⟨f', hf', hhard⟩ := hharden.file? Directory.file?_setFile_self
        refine .inr ⟨receipt, _, by
          simp only [commitFrame, Frame.encoded, hlast, hwrite, hsync, hfinish]; rfl, hreceipt,
          ?_, ?_⟩
        · refine ⟨rfl, rfl, by simp; omega, rfl, rfl, ⟨file, f', hfile, hf', hhard.synced_le,
            hhard.linked, fun _ ↦ ?_⟩, fun name hname ↦ ?_, fun hbuffered ↦ by cases hbuffered⟩
          · have hget : s.journal.segments[init.length]? =
                some (t.info init.length (Log.head init)) := by
              rw [h.segments_eq, Log.infos_append, List.getElem?_append_right (by simp)]
              simp [Log.infos, Log.head]
            obtain ⟨g, hg, hdisk⟩ := hondisk rfl _ (mem_iterIncluding _ _) _ hget
            obtain rfl : f' = g := Option.some.inj (hf'.symm.trans hg)
            exact hdisk
          · rw [← Directory.lookup_setFile_ne (d := s.dir) hname]
            exact hharden name
        · refine h.push hf hmax hsize hfresh rfl rfl rfl rfl (by rw [hpointer]; rfl)
            (Nat.zero_le _) ?_ fun name hname ↦ ?_
          · rw [hharden.contents_eq, Directory.contents_setFile_self, hcontents]
          · rw [hharden.contents_eq, Directory.contents_setFile_ne hname]
    | buffered =>
      have hdirty := h.not_dirty_overflow hf
      refine .inr ⟨receipt, _, by
        simp only [commitFrame, Frame.encoded, hlast, hwrite, hfinish, hdirty, if_false]; rfl,
        hreceipt, ?_, ?_⟩
      · refine ⟨rfl, rfl, by simp; omega, rfl, rfl, ⟨file, file.write f.bytes, hfile,
          Directory.file?_setFile_self, Nat.le_refl _, id, fun hdurable ↦ by cases hdurable⟩,
          fun name hname ↦ ?_, fun _ name ↦ ?_⟩
        · rw [Directory.lookup_setFile_ne hname]
          exact Directory.Hardens.refl s.dir name
        · by_cases hname : name = t.path
          · rw [hname, Directory.file?_setFile_self, hfile]
            rfl
          · rw [Directory.file?_setFile_ne hname]
      · refine h.push hf hmax hsize hfresh rfl rfl rfl rfl (by rw [hpointer]; rfl)
          (Nat.le_refl _) ?_ fun name hname ↦ ?_
        · rw [Directory.contents_setFile_self, hcontents]
        · rw [Directory.contents_setFile_ne hname]

end Commit

/-! ## The calls -/

/-- Everything an append can do. -/
inductive Appends (X : Externals) (batch : JournalBatch) (durability : JournalDurability)
    (s : System) (log : Log X) : Except JournalError AppendOutcome → System → Log X → Prop
  /-- The command was committed before, and nothing changes. -/
  | found (f : Frame X) (mem : f ∈ log.frames) (commandId_eq : f.commandId = batch.commandId)
    {receipt : ThreadCommandReceipt} (receipt_eq : deriveReceipt X f.stored = .ok receipt) :
    Appends X batch durability s log
      (if f.stored.commandDigest = batch.commandDigest then .ok (.duplicate receipt)
        else .error (.idempotencyCollision batch.commandId)) s log
  /-- A step failed.  A new segment may be left behind. -/
  | failed {s₁ s' : System} {log₁ : Log X} {error : JournalError}
    (selects : Selects X s log s₁ log₁) (not_collision : ¬ error.IsCollision)
    (journal_eq : s'.journal = s₁.journal) (hardens : s₁.dir.Hardens s'.dir) :
    Appends X batch durability s log (.error error) s' log₁
  /-- The batch is committed as a new frame. -/
  | committed {s₁ s' : System} {init : Log X} {t : LogSegment X}
    (selects : Selects X s log s₁ (init ++ [t])) (f : Frame X)
    (fresh : ∀ g ∈ log.frames, g.commandId ≠ batch.commandId)
    (commandId_eq : f.commandId = batch.commandId)
    (commandDigest_eq : f.stored.commandDigest = batch.commandDigest)
    {receipt : ThreadCommandReceipt} (receipt_eq : deriveReceipt X f.stored = .ok receipt)
    (commits : Commits durability s₁ t.path init.length s') :
    Appends X batch durability s log (.ok (.committed receipt f.events)) s' (init ++ [t.push f])

/-- Selecting a segment adds no frame. -/
theorem Selects.frames_eq {s s' : System} {log log' : Log X} (h : Selects X s log s' log') :
    log'.frames = log.frames := by
  cases h with
  | same => rfl
  | rotated => simp [Log.rotate]

/-- Selecting a segment keeps the configuration, the thread and the head. -/
theorem Selects.journal_eq {s s' : System} {log log' : Log X} (h : Selects X s log s' log') :
    s'.journal.config = s.journal.config ∧ s'.journal.threadId = s.journal.threadId ∧
      s'.journal.head = s.journal.head := by
  cases h with
  | same => exact ⟨rfl, rfl, rfl⟩
  | rotated journal_eq =>
    rw [journal_eq]
    exact ⟨rfl, rfl, rfl⟩

/-- An append keeps the configuration and the thread. -/
theorem Appends.journal_eq {batch : JournalBatch} {durability : JournalDurability} {s s' : System}
    {log log' : Log X} {result : Except JournalError AppendOutcome}
    (h : Appends X batch durability s log result s' log') :
    s'.journal.config = s.journal.config ∧ s'.journal.threadId = s.journal.threadId := by
  cases h with
  | found => exact ⟨rfl, rfl⟩
  | failed selects not_collision journal_eq =>
    obtain ⟨hconfig, hthread, -⟩ := selects.journal_eq
    rw [journal_eq]
    exact ⟨hconfig, hthread⟩
  | committed selects f fresh commandId_eq commandDigest_eq receipt_eq commits =>
    obtain ⟨hconfig, hthread, -⟩ := selects.journal_eq
    exact ⟨commits.config_eq.trans hconfig, commits.threadId_eq.trans hthread⟩

section Append

variable {faults : Faults} {s : System} {log : Log X}

/-- The part of `append` behind the checks. -/
theorem selectAndCommit_spec (hX : X.RoundTrips) (hfaults : faults.Compensated)
    (h : s.Represents log) {batch : JournalBatch} {durability : JournalDurability}
    {encoded : EncodedFrame} {nextHead : ThreadHead}
    (hfresh : ∀ f ∈ log.frames, f.commandId ≠ batch.commandId)
    (hencode : encodeBatch X batch durability s.journal.config.maxFramePayloadBytes.toNat =
      .ok encoded)
    (hvalidate : validateStoredBatch X encoded.header encoded.stored s.journal.threadId
      s.journal.head = .ok nextHead) :
    ∃ result s' log',
      (match selectSegment X faults s encoded.bytes.length with
        | (.error error, s) => (.error error, s)
        | (.ok (), s) => commitFrame X faults s encoded durability nextHead) = (result, s') ∧
      Appends X batch durability s log result s' log' ∧ s'.Represents log' := by
  obtain ⟨hstored, hdecodes, hpayload, hlength⟩ := encodeBatch_spec hencode
  let f : Frame X := ⟨encoded.bytes, ⟨encoded.header, encoded.stored⟩, hdecodes hX⟩
  have hid : f.commandId = batch.commandId := by
    change encoded.stored.commandId = _
    rw [hstored]
    rfl
  have hdigest : f.stored.commandDigest = batch.commandDigest := by
    change encoded.stored.commandDigest = _
    rw [hstored]
    rfl
  rcases selectSegment_spec hfaults h hlength with
    ⟨error, s₁, hselect, hcollision, hjournal, hdir⟩ | ⟨s₁, init, t, hselect, hselects, hsize⟩
  · exact ⟨.error error, s₁, log, by rw [hselect], .failed .same hcollision hjournal hdir,
      h.harden hjournal hdir⟩
  · have h₁ := hselects.represents h
    obtain ⟨hconfig, hthread, hhead⟩ := hselects.journal_eq
    have hframes := hselects.frames_eq
    have hf : Follows X s₁.journal.threadId s₁.journal.head f nextHead := by
      rw [hthread, hhead]
      exact hvalidate
    have hmax : f.header.payloadLen ≤ s₁.journal.config.maxFramePayloadBytes := by
      rw [hconfig]
      exact UInt64.le_iff_toNat_le.mpr hpayload
    rcases commitFrame_spec hfaults h₁ f durability hf hmax hsize
        (by rw [hframes, hid]; exact hfresh) with
      ⟨error, s', hcommit, hcollision, hjournal, hdir⟩ |
        ⟨receipt, s', hcommit, hreceipt, hcommits, h'⟩
    · exact ⟨.error error, s', init ++ [t], by rw [hselect]; exact hcommit,
        .failed hselects hcollision hjournal hdir, h₁.harden hjournal hdir⟩
    · exact ⟨.ok (.committed receipt f.events), s', init ++ [t.push f],
        by rw [hselect]; exact hcommit,
        .committed hselects f hfresh hid hdigest hreceipt hcommits, h'⟩

/-- Appending a command that was committed before, with reads that succeed, returns
its receipt or a collision, and changes nothing. -/
theorem append_of_mem (h : s.Represents log) {f : Frame X} (hf : f ∈ log.frames)
    {batch : JournalBatch} (hid : f.commandId = batch.commandId) (hreads : faults.read = false)
    (durability : JournalDurability) :
    ∃ receipt, deriveReceipt X f.stored = .ok receipt ∧
      append X faults s batch durability =
        (if f.stored.commandDigest = batch.commandDigest then .ok (.duplicate receipt)
          else .error (.idempotencyCollision batch.commandId), s) := by
  cases hfind : s.journal.findCommandFrame X s.dir faults.read batch.commandId with
  | error error =>
    rw [(h.findCommandFrame_error hfind).1] at hreads
    cases hreads
  | ok found =>
    rcases h.findCommandFrame_ok hfind with ⟨pointer, rfl, hpointer⟩ | ⟨rfl, hfresh⟩
    · obtain ⟨g, hg, hgid, receipt, hreceipt, hread⟩ := h.readCommittedCommand_pointer hpointer
      obtain rfl := h.frame_eq hf hg (hid.trans hgid.symm)
      refine ⟨receipt, hreceipt, ?_⟩
      rw [hreads] at hfind
      simp only [append, hfind, hread, hreads, Bool.false_eq_true, if_false]
      split <;> rfl
    · exact absurd hid (hfresh f hf)

/-- What an append can do, and that it keeps the invariant. -/
theorem append_spec (hX : X.RoundTrips) (hfaults : faults.Compensated) (h : s.Represents log)
    (batch : JournalBatch) (durability : JournalDurability) :
    ∃ log', Appends X batch durability s log (append X faults s batch durability).1
        (append X faults s batch durability).2 log' ∧
      (append X faults s batch durability).2.Represents log' := by
  -- a call that stops at a check changes nothing
  have hstop : ∀ error : JournalError, ¬ error.IsCollision →
      append X faults s batch durability = (.error error, s) →
      ∃ log', Appends X batch durability s log (append X faults s batch durability).1
          (append X faults s batch durability).2 log' ∧
        (append X faults s batch durability).2.Represents log' := by
    intro error hcollision heq
    rw [heq]
    exact ⟨log, .failed .same hcollision rfl (.refl _), h⟩
  cases hfind : s.journal.findCommandFrame X s.dir faults.read batch.commandId with
  | error error =>
    obtain ⟨-, rfl⟩ := h.findCommandFrame_error hfind
    exact hstop (.io .failed) id (by simp only [append, hfind])
  | ok found =>
    rcases h.findCommandFrame_ok hfind with ⟨pointer, rfl, hpointer⟩ | ⟨rfl, hfresh⟩
    · obtain ⟨f, hf, hid, receipt, hreceipt, hread⟩ := h.readCommittedCommand_pointer hpointer
      cases hfails : faults.read with
      | true =>
        rw [hfails] at hfind
        exact hstop (.io .failed) id (by simp only [append, hfails, hfind, hread, if_true])
      | false =>
        obtain ⟨receipt, hreceipt, heq⟩ := append_of_mem h hf hid hfails durability
        rw [heq]
        exact ⟨log, .found f hf hid hreceipt, h⟩
    · by_cases hthread : batch.threadId = s.journal.threadId
      swap
      · exact hstop (.invalidBatch "batch thread id does not match the open journal") id
          (by simp only [append, hfind, ne_eq, hthread, not_false_eq_true, if_true])
      by_cases hrevision : batch.expectedRevision = s.journal.head.revision
      swap
      · exact hstop (.revisionConflict batch.expectedRevision s.journal.head.revision) id
          (by simp only [append, hfind, ne_eq, hthread, not_true_eq_false, hrevision,
            not_false_eq_true, if_true, if_false])
      cases hencode : encodeBatch X batch durability
          s.journal.config.maxFramePayloadBytes.toNat with
      | error reason =>
        exact hstop (.invalidBatch reason) id (by simp only [append, hfind, ne_eq, hthread,
          hrevision, not_true_eq_false, if_false, hencode])
      | ok encoded =>
        cases hvalidate : validateStoredBatch X encoded.header encoded.stored s.journal.threadId
            s.journal.head with
        | error reason =>
          exact hstop (.invalidBatch reason) id (by simp only [append, hfind, ne_eq, hthread,
            hrevision, not_true_eq_false, if_false, hencode, hvalidate])
        | ok nextHead =>
          obtain ⟨result, s', log', heq, happends, h'⟩ :=
            selectAndCommit_spec hX hfaults h hfresh hencode hvalidate
          have happend : append X faults s batch durability = (result, s') := by
            simp only [append, hfind, ne_eq, hthread, hrevision, not_true_eq_false, if_false,
              hencode, hvalidate]
            exact heq
          rw [happend]
          exact ⟨log', happends, h'⟩

end Append

/-- Everything a sync can do. -/
inductive Syncs (s : System) : Except JournalError DurabilityBarrier → System → Prop
  /-- There was nothing to sync. -/
  | clean (dirty_eq : s.journal.dirtyBatchCount = 0) : Syncs s (.ok ⟨s.journal.head, 0⟩) s
  /-- All pending segments are on disk. -/
  | synced {s' : System}
    (journal_eq : s'.journal = { s.journal with pendingSyncs := [], dirtyBatchCount := 0 })
    (hardens : s.dir.Hardens s'.dir)
    (onDisk : ∀ i ∈ s.journal.pendingSyncs, ∀ segment, s.journal.segments[i]? = some segment →
      ∃ f, s'.dir.file? segment.path = some f ∧ f.OnDisk) :
    Syncs s (.ok ⟨s.journal.head, s.journal.dirtyBatchCount⟩) s'
  /-- A sync failed. -/
  | failed {s' : System} {error : JournalError} (journal_eq : s'.journal = s.journal)
    (hardens : s.dir.Hardens s'.dir) : Syncs s (.error error) s'

/-- What a sync can do. -/
theorem sync_spec (faults : Faults) (s : System) : Syncs s (sync faults s).1 (sync faults s).2 := by
  unfold sync
  simp only
  split
  · rcases hsync : syncPendingSegments faults s.journal s.dir none with ⟨_ | _, d'⟩
    · exact .failed rfl (syncPendingSegments_spec hsync).1
    · obtain ⟨hharden, -, hondisk⟩ := syncPendingSegments_spec hsync
      exact .synced rfl hharden (hondisk rfl)
  · rename_i hdirty
    have hzero : s.journal.dirtyBatchCount = 0 := by omega
    rw [hzero]
    exact .clean hzero

/-- A sync keeps the configuration and the thread. -/
theorem Syncs.journal_eq {s s' : System} {result : Except JournalError DurabilityBarrier}
    (h : Syncs s result s') :
    s'.journal.config = s.journal.config ∧ s'.journal.threadId = s.journal.threadId := by
  cases h with
  | clean => exact ⟨rfl, rfl⟩
  | synced journal_eq =>
    rw [journal_eq]
    exact ⟨rfl, rfl⟩
  | failed journal_eq =>
    rw [journal_eq]
    exact ⟨rfl, rfl⟩

/-- A sync keeps the invariant. -/
theorem Syncs.represents {s s' : System} {result : Except JournalError DurabilityBarrier}
    {log : Log X} (hsync : Syncs s result s') (h : s.Represents log) : s'.Represents log := by
  cases hsync with
  | clean => exact h
  | failed journal_eq hardens => exact h.harden journal_eq hardens
  | synced journal_eq hardens =>
    have hdir : System.Represents { s with dir := s'.dir } log := h.harden rfl hardens
    obtain ⟨j', d'⟩ := s'
    obtain rfl : j' = _ := journal_eq
    exact ⟨hdir.valid, hdir.holds, hdir.head_eq, hdir.segments_eq, hdir.index_eq, Nat.zero_le _⟩

end Praxis.Journal
