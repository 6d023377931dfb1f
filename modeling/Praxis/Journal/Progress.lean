import Praxis.Journal.Calls
import Praxis.Journal.Payload

/-!
# Progress

The specifications of the calls say what an append may do.  This module says when
it does it: an append that no file operation disturbs commits every batch that
encodes, continues the head and carries a new command (`append_progress`).
-/

namespace Praxis.Journal

open Foundation Contracts

variable {X : Externals}

/-! ## Steps that nothing disturbs -/

theorem syncFiles_none {segments : List SegmentInfo} (index : Nat) {sequences : List Nat}
    {d : Directory}
    (h : ∀ i ∈ sequences, ∃ segment, segments[i]? = some segment ∧
      (d.file? segment.path).isSome) :
    ∃ d', syncFiles .none segments index sequences d = (.ok (), d') := by
  induction sequences generalizing index d with
  | nil => exact ⟨d, rfl⟩
  | cons sequence sequences ih =>
    obtain ⟨segment, hsegment, hsome⟩ := h sequence List.mem_cons_self
    obtain ⟨file, hfile⟩ := Option.isSome_iff_exists.mp hsome
    obtain ⟨d', hd'⟩ := ih (index + 1) (d := d.setFile segment.path file.sync) fun i hi ↦ by
      obtain ⟨other, hother, hsome⟩ := h i (List.mem_cons_of_mem _ hi)
      refine ⟨other, hother, ?_⟩
      by_cases hpath : other.path = segment.path
      · rw [hpath, Directory.file?_setFile_self]
        rfl
      · rwa [Directory.file?_setFile_ne hpath]
    refine ⟨d', ?_⟩
    have hsync : Faults.none.syncFile ≠ some index := nofun
    simp only [syncFiles, hsegment, hfile, hd', if_neg hsync]

theorem syncPendingSegments_none {j : ThreadJournal} {d : Directory} {current : Option Nat}
    (h : ∀ i ∈ iterIncluding j.pendingSyncs current, ∃ segment, j.segments[i]? = some segment ∧
      (d.file? segment.path).isSome) :
    ∃ d', syncPendingSegments .none j d current = (.ok (), d') := by
  obtain ⟨d', hd'⟩ := syncFiles_none 0 h
  have hsync : ¬ Faults.none.syncDirectory := nofun
  simp only [syncPendingSegments, hd', if_neg hsync]
  split
  · exact ⟨_, rfl⟩
  · exact ⟨_, rfl⟩

theorem mem_iterIncluding_iff {sequences : List Nat} {current i : Nat} :
    i ∈ iterIncluding sequences (some current) ↔ i ∈ sequences ∨ i = current := by
  rw [iterIncluding]
  split
  · rename_i hmem
    exact ⟨.inl, fun h ↦ h.elim id fun heq ↦ heq ▸ hmem⟩
  · simp

section Append

variable {s : System} {log init : Log X} {t : LogSegment X} {durability : JournalDurability}
  {nextHead : ThreadHead}

variable (durability) in
theorem commitFrame_none (h : s.Represents (init ++ [t])) (f : Frame X)
    (hf : Follows X s.journal.threadId s.journal.head f nextHead)
    (hmax : f.header.payloadLen ≤ s.journal.config.maxFramePayloadBytes)
    (hsize : t.size + f.len < 2 ^ 64)
    (hfresh : ∀ g ∈ Log.frames (init ++ [t]), g.commandId ≠ f.commandId)
    (hpending : ∀ i ∈ s.journal.pendingSyncs, i < s.journal.segments.length) :
    ∃ receipt s', commitFrame X .none s f.encoded durability nextHead =
        (.ok (.committed receipt f.events), s') ∧
      Commits durability s t.path init.length s' ∧ s'.Represents (init ++ [t.push f]) := by
  have hfaults : Faults.none.Compensated := by decide
  rcases commitFrame_spec hfaults h f durability hf hmax hsize hfresh with
    ⟨error, s', hfail, -⟩ | ⟨receipt, s', hcommit, -, hcommits, h'⟩
  swap
  · exact ⟨receipt, s', hcommit, hcommits, h'⟩
  -- no step can have failed
  exfalso
  obtain ⟨receipt, hreceipt⟩ := hf.spec.receipt
  obtain ⟨file, hfile, hdata⟩ := h.last_file
  have hbytes : file.data.length = t.size := by rw [hdata, LogSegment.data_length]
  have hlast : s.journal.segments.getLast? = some (t.info init.length (Log.head init)) := by
    rw [h.segments_eq, getLast?_infos]
  have hlength : init.length < s.journal.segments.length := by
    rw [h.segments_eq]
    simp
  have hwrite : writeFrame .none s.dir t.path t.size f.bytes =
      (.ok (), s.dir.setFile t.path (file.write f.bytes)) := by
    rw [← hbytes]
    simp [writeFrame, Faults.none, hfile]
  have hfinish := fun j ↦ finishAppend_eq (X := X) j (t.info init.length (Log.head init)) f.encoded
    nextHead hsize hreceipt
  have hfirst := congrArg Prod.fst hfail
  cases durability with
  | durable =>
    obtain ⟨d', hsync⟩ : ∃ d', syncPendingSegments .none s.journal
        (s.dir.setFile t.path (file.write f.bytes)) (some init.length) = (.ok (), d') := by
      refine syncPendingSegments_none fun i hi ↦ ?_
      obtain ⟨segment, hsegment, hsome⟩ := h.exists_file (i := i) <| by
        rcases mem_iterIncluding_iff.mp hi with hi | rfl
        · exact hpending i hi
        · exact hlength
      refine ⟨segment, hsegment, ?_⟩
      by_cases hpath : segment.path = t.path
      · rw [hpath, Directory.file?_setFile_self]
        rfl
      · rwa [Directory.file?_setFile_ne hpath]
    simp only [commitFrame, hlast, LogSegment.info, Frame.encoded, hwrite, hsync] at hfirst
    simp only [LogSegment.info, Frame.encoded] at hfinish
    rw [hfinish] at hfirst
    cases hfirst
  | buffered =>
    have hdirty := h.not_dirty_overflow hf
    simp only [commitFrame, hlast, LogSegment.info, Frame.encoded, hwrite, hdirty, if_false]
      at hfirst
    simp only [LogSegment.info, Frame.encoded] at hfinish
    rw [hfinish] at hfirst
    cases hfirst

/-- A segment can be selected when the name of the next one is free. -/
theorem selectSegment_none (h : s.Represents log) {len : Nat} (hlen : len ≤ isizeMax)
    (hroom : s.journal.head.revision.toNat + 1 < 2 ^ 64)
    (hfree : s.dir.lookup (segmentName log.length) = none) :
    ∃ s₁ init t, selectSegment X .none s len = (.ok (), s₁) ∧ Selects X s log s₁ (init ++ [t]) ∧
      t.size + len < 2 ^ 64 ∧
      (rotates s.journal len = true → init = log ∧ t = ⟨segmentName log.length, []⟩) := by
  have hfaults : Faults.none.Compensated := by decide
  have hlength : s.journal.segments.length = log.length := by simp [h.segments_eq]
  rcases selectSegment_spec hfaults h hlen with
    ⟨error, s', hfail, -⟩ | ⟨s₁, init, t, hselect, hselects, hsize⟩
  · exfalso
    rw [← hlength] at hfree
    rw [selectSegment] at hfail
    split at hfail
    · simp [createSegment, checkedNext_eq_some hroom, Faults.none, hfree] at hfail
    · cases hfail
  · refine ⟨s₁, init, t, hselect, hselects, hsize, fun hrotates ↦ ?_⟩
    generalize hlog : init ++ [t] = log' at hselects
    cases hselects with
    | same =>
      -- a segment was created, so there is one more
      rw [← hlength] at hfree
      rw [selectSegment, if_pos hrotates] at hselect
      simp only [createSegment, checkedNext_eq_some hroom, Faults.none, hfree, Option.isSome_none,
        Bool.false_eq_true, if_false, Prod.mk.injEq, true_and] at hselect
      have hmore := congrArg (fun s : System ↦ s.journal.segments.length) hselect
      simp at hmore
    | rotated =>
      obtain ⟨hinit, ht⟩ := List.append_inj' hlog rfl
      exact ⟨hinit, List.singleton_inj.mp ht⟩

/-- Selecting a segment leaves the syncs that are pending as they are. -/
theorem Selects.pending_lt {s₁ : System} {log₁ : Log X} (h : Selects X s log s₁ log₁)
    (hpending : ∀ i ∈ s.journal.pendingSyncs, i < s.journal.segments.length) :
    ∀ i ∈ s₁.journal.pendingSyncs, i < s₁.journal.segments.length := by
  cases h with
  | same => exact hpending
  | rotated journal_eq =>
    rw [journal_eq]
    intro i hi
    simpa using Nat.lt_succ_of_lt (hpending i hi)

/-- The syncs that are pending after a commit. -/
theorem Commits.pending_lt {s' : System} {path : FileName} {sequence : Nat}
    (h : Commits durability s path sequence s') (hsequence : sequence < s.journal.segments.length)
    (hpending : ∀ i ∈ s.journal.pendingSyncs, i < s.journal.segments.length) :
    ∀ i ∈ s'.journal.pendingSyncs, i < s'.journal.segments.length := by
  rw [h.pending_eq, h.segments_length]
  cases durability with
  | durable => exact nofun
  | buffered =>
    intro i hi
    rcases mem_markPending hi with hi | rfl
    · exact hpending i hi
    · exact hsequence

/-- **Progress.**  An append that nothing disturbs commits a batch with a new command
that encodes and continues the head. -/
theorem append_progress (hX : X.RoundTrips) (h : s.Represents log) {batch : JournalBatch}
    {encoded : EncodedFrame} (hfresh : ∀ f ∈ log.frames, f.commandId ≠ batch.commandId)
    (hthread : batch.threadId = s.journal.threadId)
    (hrevision : batch.expectedRevision = s.journal.head.revision)
    (hencode : encodeBatch X batch durability s.journal.config.maxFramePayloadBytes.toNat =
      .ok encoded)
    (hvalidate : validateStoredBatch X encoded.header encoded.stored s.journal.threadId
      s.journal.head = .ok nextHead)
    (hpending : ∀ i ∈ s.journal.pendingSyncs, i < s.journal.segments.length)
    (hfree : s.dir.lookup (segmentName log.length) = none) :
    ∃ receipt s' s₁ init t f,
      append X .none s batch durability = (.ok (.committed receipt encoded.stored.events), s') ∧
      Selects X s log s₁ (init ++ [t]) ∧
      (rotates s.journal encoded.bytes.length = true →
        init = log ∧ t = ⟨segmentName log.length, []⟩) ∧
      Commits durability s₁ t.path init.length s' ∧ s'.Represents (init ++ [t.push f]) ∧
      f.events = encoded.stored.events ∧ f.commandId = batch.commandId ∧ f.endHead = nextHead := by
  obtain ⟨hstored, hdecodes, hpayload, hlength⟩ := encodeBatch_spec hencode
  let f : Frame X := ⟨encoded.bytes, ⟨encoded.header, encoded.stored⟩, hdecodes hX⟩
  have hid : f.commandId = batch.commandId := by
    change encoded.stored.commandId = _
    rw [hstored]
    rfl
  have hf : Follows X s.journal.threadId s.journal.head f nextHead := hvalidate
  have hroom : s.journal.head.revision.toNat + 1 < 2 ^ 64 := by
    have hlt := hf.lt
    have hbound := nextHead.revision.toNat_lt
    omega
  have hfind : s.journal.findCommandFrame X s.dir false batch.commandId = .ok none := by
    cases hfind : s.journal.findCommandFrame X s.dir false batch.commandId with
    | error error => cases (h.findCommandFrame_error hfind).1
    | ok found =>
      rcases h.findCommandFrame_ok hfind with ⟨pointer, rfl, hpointer⟩ | ⟨rfl, -⟩
      · obtain ⟨g, hg, hgid, -⟩ := h.readCommittedCommand_pointer hpointer
        exact absurd hgid (hfresh g hg)
      · rfl
  obtain ⟨s₁, init, t, hselect, hselects, hsize, hrotates⟩ :=
    selectSegment_none h hlength hroom hfree
  obtain ⟨hconfig₁, hthread₁, hhead₁⟩ := hselects.journal_eq
  obtain ⟨receipt, s', hcommit, hcommits, h'⟩ := commitFrame_none durability
    (hselects.represents h) f
    (by rw [hthread₁, hhead₁]; exact hf) (by rw [hconfig₁]; exact UInt64.le_iff_toNat_le.mpr hpayload)
    hsize (by rw [hselects.frames_eq, hid]; exact hfresh) (hselects.pending_lt hpending)
  refine ⟨receipt, s', s₁, init, t, f, ?_, hselects, hrotates, hcommits, h', rfl, hid,
    hf.head_eq.symm⟩
  have hread : Faults.none.read = false := rfl
  simp only [append, hread, hfind, ne_eq, hthread, hrevision, not_true_eq_false, if_false, hencode,
    hvalidate, hselect]
  exact hcommit

end Append

/-! ## A small journal

One-event batches behind a head, and the batches of a thread that is created and
then renamed twice.  With a limit of eighty-one bytes every append starts a segment. -/

namespace Sample

def id (k : IdKind) (n : UInt8) : Id k := ⟨⟨Vector.replicate 16 n⟩⟩

def event (n : UInt8) (head : ThreadHead) (body : ThreadEventBody) : ThreadEventEnvelope :=
  .new sha256Digest
    { threadId := id .thread 0
      revision := nextRevision head
      eventId := id .event n
      batchId := id .batch n
      sequence := 0
      recordedAtUnixMs := 0
      actor := .user
      correlationId := none
      causationId := none
      body
      previousRecordDigest := head.recordDigest }

def batch (n : UInt8) (head : ThreadHead) (command : ThreadCommand) (body : ThreadEventBody) :
    JournalBatch :=
  .new (.new sha256Digest (id .command n) (id .thread 0) head.revision .user none command)
    (id .batch n) 0 [event n head body]

def config : JournalConfig :=
  { maxSegmentBytes := 81, maxFramePayloadBytes := 256 * 1024 * 1024 }

def createCommand : ThreadCommand := .create (.lit "cli") (.lit "/work") none

def createBody : ThreadEventBody := .threadCreated (.lit "cli") (.lit "/work") none

def create : JournalBatch := batch 1 .empty createCommand createBody

def rename : JournalBatch :=
  batch 2 (headAfter create.events) (.setName none) (.threadNameSet none)

def renameAgain : JournalBatch :=
  batch 3 (headAfter rename.events) (.setName none) (.threadNameSet none)

theorem size_create :
    (serialize (storedBatch crates (batch 1 .empty createCommand createBody) .durable)).size ≤
      20000 := by
  decide +kernel

theorem size_rename :
    (serialize (storedBatch crates rename .buffered)).size ≤ 20000 := by
  decide +kernel

theorem size_renameAgain :
    (serialize (storedBatch crates renameAgain .buffered)).size ≤ 20000 := by
  decide +kernel

/-- The journal accepts a batch of one event behind its head. -/
theorem accepts {head : ThreadHead} (n : UInt8) (command : ThreadCommand) (body : ThreadEventBody)
    (durability : JournalDurability) (hroom : head.revision.toNat + 1 < 2 ^ 64)
    (hsize : (serialize (storedBatch crates (batch n head command body) durability)).size ≤
      20000) :
    ∃ encoded, encodeBatch crates (batch n head command body) durability
        config.maxFramePayloadBytes.toNat = .ok encoded ∧
      encoded.stored.events = [event n head body] ∧
      validateStoredBatch crates encoded.header encoded.stored (id .thread 0) head =
        .ok (headAfter [event n head body]) := by
  have hlength : (payloadText (storedBatch crates (batch n head command body) durability)).length ≤
      20000 := (Json.render_length_le _).trans hsize
  have hfirst : (batch n head command body).events.head? = some (event n head body) := rfl
  have hlast : (batch n head command body).events.getLast? = some (event n head body) := rfl
  have hone : (batch n head command body).events.length = 1 := rfl
  have hmax : 20000 ≤ config.maxFramePayloadBytes.toNat := by decide
  have hcapacity : frameHeaderLen + 20000 + frameTrailerLen ≤ isizeMax := by decide
  have hnext := checkedNext_eq_some hroom
  obtain ⟨encoded, hencode, hstored, hheader⟩ := encodeBatch_eq_ok (X := crates) hfirst hlast
    (by rw [hone]; decide) (hlength.trans hmax)
    ((Nat.add_le_add_right (Nat.add_le_add_left hlength _) _).trans hcapacity)
  refine ⟨encoded, hencode, by rw [hstored]; rfl, ?_⟩
  rw [hstored, hheader]
  refine validateStoredBatch_storedBatch rfl rfl (by rw [hone]; decide) rfl hnext hlast ?_
  have hevents : (batch n head command body).events = [event n head body] := rfl
  have hadvance : head.revision.checkedAdvance (UInt64.ofNat (0 + 1)) =
      some (nextRevision head) := hnext
  have hdigests : (event n head body).hasValidDigests crates.sha256 = true :=
    ThreadEventEnvelope.new_hasValidDigests _ _
  simp only [hevents, validateEvents, hadvance, hdigests, List.not_mem_nil, and_false, if_false]
  rw [if_neg]
  simp only [not_or, ne_eq, not_not]
  exact ⟨rfl, rfl, rfl, rfl, rfl, by decide⟩

/-- A journal in which every segment is full and no name is in the way of a new one. -/
structure Stage (s : System) (log : Log crates) (head : ThreadHead) : Prop where
  represents : s.Represents log
  config_eq : s.journal.config = config
  threadId_eq : s.journal.threadId = id .thread 0
  head_eq : s.journal.head = head
  full : ∀ t ∈ log, t.frames ≠ []
  pending_lt : ∀ i ∈ s.journal.pendingSyncs, i < s.journal.segments.length
  free : ∀ n < 2 ^ 64, log.length ≤ n → s.dir.lookup (segmentName n) = none

theorem Stage.initial : Stage (.initial config (id .thread 0)) [] .empty :=
  ⟨initial_represents _ _, rfl, rfl, rfl, nofun, nofun, fun _ _ _ ↦ rfl⟩

/-- Every append starts a segment. -/
theorem Stage.rotates {s : System} {log : Log crates} {head : ThreadHead} (h : Stage s log head)
    {len : Nat} (hlen : 0 < len) : rotates s.journal len = true := by
  rcases List.eq_nil_or_concat log with rfl | ⟨init, t, rfl⟩
  · simp [Journal.rotates, h.represents.segments_eq, Log.infos]
  · rw [List.concat_eq_append] at h
    have hframes := h.full t (by simp)
    obtain ⟨f, rest, hcons⟩ := List.exists_cons_of_ne_nil hframes
    have hpos := f.len_pos
    have hsize : segmentHeaderLen < t.size := by
      rw [LogSegment.size, hcons, framesBytes, List.flatMap_cons, List.length_append]
      change 0 < f.bytes.length at hpos
      omega
    have hmax : s.journal.config.maxSegmentBytes.toNat = segmentHeaderLen + 1 := by
      rw [h.config_eq]
      rfl
    simp only [Journal.rotates, h.represents.segments_eq, getLast?_infos, hmax, LogSegment.info,
      decide_eq_true_eq]
    exact ⟨hsize, .inr (by omega)⟩

/-- What one more append does. -/
theorem Stage.append {s : System} {log : Log crates} {head : ThreadHead} (h : Stage s log head)
    (n : UInt8) (command : ThreadCommand) (body : ThreadEventBody) (durability : JournalDurability)
    (hfresh : ∀ f ∈ log.frames, f.commandId ≠ id .command n)
    (hroom : head.revision.toNat + 1 < 2 ^ 64)
    (hsize : (serialize (storedBatch crates (batch n head command body) durability)).size ≤
      20000) :
    ∃ receipt s' f,
      Journal.append crates .none s (batch n head command body) durability =
        (.ok (.committed receipt [event n head body]), s') ∧
      f.events = [event n head body] ∧ f.commandId = id .command n ∧
      Stage s' (log ++ [⟨segmentName log.length, [f]⟩]) (headAfter [event n head body]) ∧
      (durability = .buffered → ∀ name, (s'.dir.file? name).map File.linked =
        if name = segmentName log.length then some false
        else (s.dir.file? name).map File.linked) := by
  obtain ⟨encoded, hencode, hevents, hvalidate⟩ := accepts n command body durability hroom hsize
  have hlength := h.represents.length_lt h.full
  have hnew := h.free log.length hlength (Nat.le_refl _)
  have hexpected : (batch n head command body).expectedRevision = s.journal.head.revision := by
    rw [h.head_eq]
    rfl
  obtain ⟨receipt, s', s₁, init, t, f, happend, hselects, hrotates, hcommits, h', hfevents, hid,
      hend⟩ := append_progress crates_roundTrips h.represents hfresh h.threadId_eq.symm hexpected
    (by rw [h.config_eq]; exact hencode) (by rw [h.threadId_eq, h.head_eq]; exact hvalidate)
    h.pending_lt hnew
  have hpos : 0 < encoded.bytes.length := by
    have hdecode := (encodeBatch_spec hencode).decodes crates_roundTrips
    obtain ⟨-, -, hlen, -⟩ := frameLen_of_decodeCompleteFrame hdecode
    rw [hlen, frameHeaderLen]
    omega
  obtain ⟨hinit, ht⟩ := hrotates (h.rotates hpos)
  subst init t
  rw [hevents] at happend
  obtain ⟨hconfig, hthread, -⟩ := hselects.journal_eq
  have hpending := hselects.pending_lt h.pending_lt
  have hsegments : s₁.journal.segments.length = log.length + 1 := by
    simp [(hselects.represents h.represents).segments_eq]
  -- the new segment has a file of its own, and the others are left alone
  have hdir : s₁.dir = s.dir.setFile (segmentName log.length)
      (.created (encodeSegmentHeader crates
        (segmentHeader s.journal.threadId log.length log.head))) := by
    generalize hlog : log ++ [⟨segmentName log.length, []⟩] = log' at hselects
    cases hselects with
    | same => simp at hlog
    | rotated _ dir_eq => exact dir_eq
  refine ⟨receipt, s', f, happend, hfevents.trans hevents, hid, ⟨h', hcommits.config_eq.trans (hconfig.trans h.config_eq),
    hcommits.threadId_eq.trans (hthread.trans h.threadId_eq), ?_, ?_, ?_, ?_⟩, ?_⟩
  · rw [h'.head_eq, head_push, hend]
  · intro t ht
    rcases List.mem_append.mp ht with ht | ht
    · exact h.full t ht
    · rw [List.mem_singleton.mp ht]
      simp
  · exact hcommits.pending_lt (by omega) hpending
  · intro m hm hle
    rw [List.length_append, List.length_singleton] at hle
    have hne : segmentName m ≠ segmentName log.length := by
      intro heq
      have hnumber := segmentSequence_segmentName hm
      rw [heq, segmentSequence_segmentName hlength, Option.some.injEq] at hnumber
      omega
    have hrel := hcommits.other _ hne
    rw [hdir, Directory.lookup_setFile_ne hne, h.free m hm (by omega)] at hrel
    generalize s'.dir.lookup (segmentName m) = node at hrel ⊢
    cases hrel
    rfl
  · intro hbuffered name
    rw [hcommits.linked_eq hbuffered name, hdir]
    split
    · rename_i hname
      rw [hname, Directory.file?_setFile_self]
      rfl
    · rename_i hname
      rw [Directory.file?_setFile_ne hname]

/-- The thread is created. -/
theorem append_create : ∃ receipt s f,
    Journal.append crates .none (.initial config (id .thread 0)) create .durable =
      (.ok (.committed receipt create.events), s) ∧
    f.events = create.events ∧ f.commandId = id .command 1 ∧
    Stage s [⟨segmentName 0, [f]⟩] (headAfter create.events) := by
  obtain ⟨receipt, s, f, happend, hevents, hid, hstage, -⟩ :=
    Stage.initial.append 1 createCommand createBody .durable
      (fun _ hf ↦ absurd hf List.not_mem_nil) (by decide) size_create
  exact ⟨receipt, s, f, happend, hevents, hid, hstage⟩

end Sample

end Praxis.Journal
