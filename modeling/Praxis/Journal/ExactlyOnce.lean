import Praxis.Journal.Runs

/-!
# Commands are committed exactly once

`Reachable` is every system that appends, syncs and reopenings of one thread's
journal can lead to, with the history of committed batches and their receipts.
The configuration may change with every reopening.

The invariant is that the frames of the represented log are the batches of the
history (`Records`).  A journal thus knows every command that was ever committed,
whether it is still among the recent ones or not, and `commands_exactly_once`
follows from the lookups on a log.
-/

namespace Praxis.Journal

open Foundation Contracts

variable {X : Externals} {config config' : JournalConfig} {threadId : ThreadId}

/-! ## Reopening with another configuration -/

/-- A frame above the configured maximum stops the recovery. -/
theorem payload_le_of_recoverFrames {path : FileName} {mode : RecoveryMode} {scan : Scan}
    {offset : Nat} {frames : List (Frame X)} {out : Scan × Nat × Bool}
    (h : recoverFrames X config threadId path mode scan offset (framesBytes frames) = .ok out) :
    ∀ f ∈ frames, f.header.payloadLen ≤ config.maxFramePayloadBytes := by
  induction frames generalizing scan offset with
  | nil => simp
  | cons f frames ih =>
    have hlen := f.frameHeaderLen_le
    have hge : ¬ (f.bytes ++ framesBytes frames).length < frameHeaderLen := by
      rw [List.length_append]
      unfold Frame.len at hlen
      omega
    have hne : f.bytes ++ framesBytes frames ≠ [] := by
      rintro hnil
      simp [hnil, frameHeaderLen] at hge
    have htake : (f.bytes ++ framesBytes frames).take frameHeaderLen =
        f.bytes.take frameHeaderLen := List.take_append_of_le_length hlen
    have hmax : f.header.payloadLen ≤ config.maxFramePayloadBytes := by
      by_contra hlt
      have hcorrupt : nextFrame X config (f.bytes ++ framesBytes frames) =
          .corrupt "frame payload exceeds configured maximum" := by
        rw [nextFrame, if_neg hge, htake, f.decodeFrameHeader_eq]
        simp only [UInt64.not_le.mp hlt, if_true]
      rw [framesBytes_cons, recoverFrames, if_neg hne] at h
      split at h
      · rename_i hnext
        rw [hcorrupt] at hnext
        cases hnext
      · cases h
      · rename_i hnext
        rw [hcorrupt] at hnext
        cases hnext
    rw [framesBytes_cons, recoverFrames, if_neg hne] at h
    split at h
    · rename_i hnext
      rw [nextFrame_frame _ hmax] at hnext
      cases hnext
    · cases h
    · rename_i hnext
      rw [nextFrame_frame _ hmax] at hnext
      cases hnext
      split at h
      · cases h
      · split at h
        · rw [List.drop_left' (by rfl : f.bytes.length = f.len)] at h
          intro g hg
          rcases List.mem_cons.mp hg with rfl | hg
          · exact hmax
          · exact ih h g hg
        · cases h

/-- A recovery that succeeds has seen no frame above its configured maximum. -/
theorem payload_le_of_recoverSegments {log : Log X} {d : Directory} {sequence : Nat}
    {head : ThreadHead} {scan : Scan} {out : Directory × Scan}
    (hstored : log.Stored d threadId sequence head)
    (h : recoverSegments X config threadId .writer sequence (log.paths sequence) d scan = .ok out) :
    ∀ f ∈ log.frames, f.header.payloadLen ≤ config.maxFramePayloadBytes := by
  induction log generalizing sequence head scan with
  | nil => simp
  | cons s log ih =>
    obtain ⟨file, hfile, hdata⟩ := Directory.contents_eq_some_iff.mp hstored.1
    have hlen : ¬ file.data.length < segmentHeaderLen := by
      rw [hdata, LogSegment.data_length]
      exact Nat.not_lt.mpr (Nat.le_add_right _ _)
    have hdrop : file.data.drop segmentHeaderLen = framesBytes s.frames := by
      rw [hdata, LogSegment.data, List.drop_left' (encodeSegmentHeader_length _)]
    simp only [Log.paths, recoverSegments, ne_eq, not_true_eq_false, if_false, hfile, hlen,
      and_false] at h
    split at h
    · cases h
    · rename_i d' scan' hsegment
      simp only [recoverSegment, hfile] at hsegment
      split at hsegment
      · cases hsegment
      · split at hsegment
        · cases hsegment
        · rename_i hframes
          rw [hdrop] at hframes
          have hs := payload_le_of_recoverFrames hframes
          intro f hf
          rcases List.mem_append.mp hf with hf | hf
          · exact hs f hf
          cases log with
          | nil => cases hf
          | cons t log =>
            -- in front of another segment no file changes
            have hsame : d' = d := by
              simp only [Log.paths, List.isEmpty_cons] at hsegment
              unfold finishSegment handleIncompleteTail at hsegment
              split at hsegment
              · cases hsegment
              · rename_i hd
                split at hsegment
                · cases hsegment
                · split at hd
                  · cases hd
                  · cases hd
                    cases hsegment
                    rfl
            rw [hsame] at h
            exact ih hstored.2 h f hf

/-- Whether a log is valid depends on the configuration through the maximum only. -/
theorem Log.Valid.of_payload_le {log : Log X} (h : log.Valid X config threadId)
    (hmax : ∀ f ∈ log.frames, f.header.payloadLen ≤ config'.maxFramePayloadBytes) :
    log.Valid X config' threadId := by
  have hsteps : ∀ {head head' : ThreadHead} {log : Log X},
      Steps (SegmentFollows X config threadId) head log head' →
      (∀ f ∈ log.frames, f.header.payloadLen ≤ config'.maxFramePayloadBytes) →
      Steps (SegmentFollows X config' threadId) head log head' := by
    intro head head' log hlog
    induction hlog with
    | nil => exact fun _ ↦ .nil _
    | cons hs _ ih =>
      intro hmax
      refine .cons ⟨hs.room, hs.frames, fun f hf ↦ hmax f (List.mem_append_left _ hf), hs.size_lt⟩
        (ih fun f hf ↦ hmax f (List.mem_append_right _ hf))
  exact ⟨hsteps h.segments hmax, h.commands_nodup, h.full⟩

/-- A directory that holds a log and opens under some configuration opens with that
log. -/
theorem openAndFold_represents {log : Log X} {d : Directory} {s : System}
    {events : List ThreadEventEnvelope} (hvalid : log.Valid X config threadId)
    (hholds : log.Holds d threadId) (h : openAndFold X config' threadId d = .ok (s, events)) :
    s.journal.threadId = threadId ∧ s.Represents log := by
  unfold openAndFold at h
  split at h
  · cases h
  · split at h
    · cases h
    · rename_i r hrecover
      have hpaths := (segmentPaths_eq_ok_iff (Log.paths_pairwise 0 log)).mpr hholds.lists
      have hsegments := hrecover
      simp only [recoverWithMode, hpaths] at hsegments
      split at hsegments
      · cases hsegments
      · rename_i hok
        have hvalid' : log.Valid X config' threadId :=
          hvalid.of_payload_le (payload_le_of_recoverSegments hholds.stored hok)
        obtain ⟨r', hrecover', -, -, hwriter, -⟩ := recoverWithMode_holds .writer hvalid' hholds
        obtain rfl : r = r' := Except.ok.inj (hrecover.symm.trans hrecover')
        obtain ⟨hstate, hdir⟩ := hwriter rfl
        cases h
        rw [hstate]
        exact ⟨rfl, .of_recovered hvalid' hdir⟩

/-! ## Histories -/

/-- What a call adds to the history. -/
def Call.committed : Call → Outcome → List (JournalBatch × ThreadCommandReceipt)
  | .append batch _ _, .appended (.ok (.committed receipt _)) => [(batch, receipt)]
  | _, _ => []

/-- The systems that calls and reopenings lead to, with the committed batches and
the receipts that were returned for them. -/
inductive Reachable (X : Externals) (threadId : ThreadId) :
    System → List (JournalBatch × ThreadCommandReceipt) → Prop
  | opened {config : JournalConfig} {s : System} {events : List ThreadEventEnvelope}
    (open_eq : openAndFold X config threadId ∅ = .ok (s, events)) : Reachable X threadId s []
  | called {s : System} {history : List (JournalBatch × ThreadCommandReceipt)} (call : Call)
    (reachable : Reachable X threadId s history) (compensated : call.faults.Compensated) :
    Reachable X threadId (call.exec X s).2 (history ++ call.committed (call.exec X s).1)
  | reopened {s s' : System} {history : List (JournalBatch × ThreadCommandReceipt)}
    {config : JournalConfig} {d : Directory} {events : List ThreadEventEnvelope}
    (reachable : Reachable X threadId s history)
    (same : ∀ name, d.contents name = s.dir.contents name)
    (open_eq : openAndFold X config threadId d = .ok (s', events)) : Reachable X threadId s' history

/-- A batch that is committed is added to the history. -/
theorem Reachable.append {threadId : ThreadId} {s s' : System}
    {history : List (JournalBatch × ThreadCommandReceipt)} (h : Reachable X threadId s history)
    {batch : JournalBatch} {durability : JournalDurability} {faults : Faults}
    (hfaults : faults.Compensated) {receipt : ThreadCommandReceipt}
    {events : List ThreadEventEnvelope}
    (happend : Journal.append X faults s batch durability = (.ok (.committed receipt events), s')) :
    Reachable X threadId s' (history ++ [(batch, receipt)]) := by
  have hcalled := h.called (.append batch durability faults) hfaults
  rwa [exec_append_eq happend] at hcalled

/-- The frame of a committed batch. -/
structure RecordOf (f : Frame X) (entry : JournalBatch × ThreadCommandReceipt) : Prop where
  commandId_eq : f.commandId = entry.1.commandId
  commandDigest_eq : f.stored.commandDigest = entry.1.commandDigest
  receipt_eq : deriveReceipt X f.stored = .ok entry.2

/-- The frames of a log are the batches of a history. -/
abbrev Records (log : Log X) (history : List (JournalBatch × ThreadCommandReceipt)) : Prop :=
  List.Forall₂ RecordOf log.frames history

/-- An append adds to the log what it adds to the history. -/
theorem Appends.records {batch : JournalBatch} {durability : JournalDurability} {faults : Faults}
    {s s' : System} {log log' : Log X} {result : Except JournalError AppendOutcome}
    {history : List (JournalBatch × ThreadCommandReceipt)}
    (h : Appends X batch durability s log result s' log') (hrecords : Records log history) :
    Records log' (history ++ (Call.append batch durability faults).committed (.appended result)) := by
  cases h with
  | found f =>
    split <;> simpa [Call.committed] using hrecords
  | failed selects =>
    rw [Records, selects.frames_eq]
    simpa [Call.committed] using hrecords
  | committed selects f fresh commandId_eq commandDigest_eq receipt_eq =>
    rw [Records, frames_push, selects.frames_eq]
    exact List.rel_append hrecords (.cons ⟨commandId_eq, commandDigest_eq, receipt_eq⟩ .nil)

/-- Every reachable system represents a log of its history. -/
theorem Reachable.represents (hX : X.RoundTrips) {s : System}
    {history : List (JournalBatch × ThreadCommandReceipt)} (h : Reachable X threadId s history) :
    s.journal.threadId = threadId ∧ ∃ log : Log X, s.Represents log ∧ Records log history := by
  induction h with
  | @opened config s events open_eq =>
    obtain ⟨hthread, hs⟩ := openAndFold_represents (initial_represents (X := X) config threadId).valid
      (initial_represents config threadId).holds open_eq
    exact ⟨hthread, [], hs, .nil⟩
  | called call _ compensated ih =>
    obtain ⟨hthread, log, hlog, hrecords⟩ := ih
    cases call with
    | append batch durability faults =>
      obtain ⟨log', happends, hlog'⟩ := append_spec hX compensated hlog batch durability
      exact ⟨happends.journal_eq.2.trans hthread, log', hlog', happends.records hrecords⟩
    | sync faults =>
      have hsync := sync_spec faults ‹System›
      exact ⟨hsync.journal_eq.2.trans hthread, log, hsync.represents hlog,
        by simpa [Call.committed] using hrecords⟩
  | @reopened s s' history config d events _ same open_eq ih =>
    obtain ⟨hthread, log, hlog, hrecords⟩ := ih
    rw [← hthread] at open_eq
    have hholds : log.Holds d s.journal.threadId :=
      ⟨hlog.holds.lists.congr fun name ↦ by rw [same],
        hlog.holds.stored.congr fun _ _ ↦ same _⟩
    obtain ⟨hthread', hs'⟩ := openAndFold_represents hlog.valid hholds open_eq
    exact ⟨hthread'.trans hthread, log, hs', hrecords⟩

/-! ## Commands on file -/

/-- The command identifiers of all frames of some segments, in order. -/
def commandIdsOnFile (X : Externals) (d : Directory) :
    List SegmentInfo → Except JournalError (List (Vector UInt8 16))
  | [] => .ok []
  | segment :: segments =>
    match visitSegmentPointers X d segment (fun ids _ id ↦ .ok (ids ++ [id], false)) [] with
    | .error error => .error error
    | .ok (ids, _) =>
      match commandIdsOnFile X d segments with
      | .error error => .error error
      | .ok rest => .ok (ids ++ rest)

theorem visitEntries_collect (entries : List (CommandId × FramePointer))
    (ids : List (Vector UInt8 16)) :
    visitEntries (fun ids _ id ↦ .ok (ids ++ [id], false)) ids entries =
      .ok (ids ++ entries.map fun entry ↦ entry.1.uuid.bytes, false) := by
  induction entries generalizing ids with
  | nil => simp [visitEntries]
  | cons entry entries ih => simp [visitEntries, ih]

theorem map_framePointers (offset : Nat) (frames : List (Frame X)) :
    (framePointers offset frames).map (fun entry ↦ entry.1.uuid.bytes) =
      frames.map fun f ↦ f.commandId.uuid.bytes := by
  induction frames generalizing offset with
  | nil => rfl
  | cons f frames ih => simp [framePointers, ih]

theorem commandIdsOnFile_infos {log : Log X} {d : Directory} {head head' : ThreadHead}
    {sequence : Nat} (hsegments : Steps (SegmentFollows X config threadId) head log head')
    (hstored : log.Stored d threadId sequence head) :
    commandIdsOnFile X d (log.infos sequence head) =
      .ok (log.frames.map fun f ↦ f.commandId.uuid.bytes) := by
  induction log generalizing head sequence with
  | nil => rfl
  | cons s log ih =>
    obtain ⟨mid, hs, hlog⟩ := steps_cons_iff.mp hsegments
    obtain rfl := endHead_of_steps hs.frames
    have hvisit := visitSegmentPointers_info (fun ids _ id ↦ .ok (ids ++ [id], false)) [] hs hstored.1
    rw [visitEntries_collect, map_framePointers] at hvisit
    simp only [Log.infos, commandIdsOnFile, hvisit, ih hlog hstored.2]
    simp

/-! ## The theorem -/

theorem Records.map_commandId {log : Log X}
    {history : List (JournalBatch × ThreadCommandReceipt)} (h : Records log history) :
    history.map (fun entry ↦ entry.1.commandId) = log.frames.map Frame.commandId := by
  unfold Records at h
  generalize log.frames = frames at *
  induction h with
  | nil => rfl
  | cons hrecord _ ih => simp [ih, hrecord.commandId_eq]

theorem Records.exists_frame {log : Log X}
    {history : List (JournalBatch × ThreadCommandReceipt)} (h : Records log history)
    {entry : JournalBatch × ThreadCommandReceipt} (hentry : entry ∈ history) :
    ∃ f ∈ log.frames, RecordOf f entry := by
  unfold Records at h
  generalize log.frames = frames at *
  induction h with
  | nil => cases hentry
  | cons hrecord _ ih =>
    rcases List.mem_cons.mp hentry with rfl | hentry
    · exact ⟨_, List.mem_cons_self, hrecord⟩
    · obtain ⟨f, hf, hf'⟩ := ih hentry
      exact ⟨f, List.mem_cons_of_mem _ hf, hf'⟩

/-- An append of a command that is not in the log finds none. -/
theorem Appends.not_found {batch : JournalBatch} {durability : JournalDurability}
    {s s' : System} {log log' : Log X} {result : Except JournalError AppendOutcome}
    (h : Appends X batch durability s log result s' log')
    (hfresh : ∀ f ∈ log.frames, f.commandId ≠ batch.commandId) :
    (∀ receipt, result ≠ .ok (.duplicate receipt)) ∧
      ∀ commandId, result ≠ .error (.idempotencyCollision commandId) := by
  cases h with
  | found f mem commandId_eq => exact absurd commandId_eq (hfresh f mem)
  | failed selects not_collision =>
    refine ⟨nofun, fun commandId heq ↦ not_collision ?_⟩
    rw [Except.error.inj heq]
    trivial
  | committed => exact ⟨nofun, nofun⟩

/-- **Commands are committed exactly once.**  In every reachable system, the frames
on file carry the commands of the history, each at most once.  Appending a batch
whose command is in the history changes nothing: it returns the receipt of the
original commit as a duplicate when the digests agree, and an idempotency
collision when they do not.  A command that was never committed is reported as
neither. -/
theorem commands_exactly_once (X : Externals) (hX : X.RoundTrips) (threadId : ThreadId)
    (s : System) (history : List (JournalBatch × ThreadCommandReceipt))
    (h : Reachable X threadId s history) :
    commandIdsOnFile X s.dir s.journal.segments =
      .ok (history.map fun entry ↦ entry.1.commandId.uuid.bytes) ∧
    (history.map fun entry ↦ entry.1.commandId).Nodup ∧
    (∀ entry ∈ history, ∀ batch durability faults, batch.commandId = entry.1.commandId →
      faults.read = false →
      append X faults s batch durability =
        (if batch.commandDigest = entry.1.commandDigest then .ok (.duplicate entry.2)
          else .error (.idempotencyCollision batch.commandId), s)) ∧
    ∀ batch durability faults, (∀ entry ∈ history, entry.1.commandId ≠ batch.commandId) →
      faults.Compensated →
      (∀ receipt, (append X faults s batch durability).1 ≠ .ok (.duplicate receipt)) ∧
      ∀ commandId,
        (append X faults s batch durability).1 ≠ .error (.idempotencyCollision commandId) := by
  obtain ⟨-, log, hlog, hrecords⟩ := h.represents hX
  have hids : history.map (fun entry ↦ entry.1.commandId) = log.frames.map Frame.commandId :=
    hrecords.map_commandId
  refine ⟨?_, ?_, ?_, ?_⟩
  · have hbytes := congrArg (List.map fun id : CommandId ↦ id.uuid.bytes) hids
    rw [List.map_map, List.map_map] at hbytes
    rw [hlog.segments_eq, commandIdsOnFile_infos hlog.valid.segments hlog.holds.stored]
    exact congrArg _ hbytes.symm
  · rw [hids]
    exact hlog.valid.commands_nodup
  · intro entry hentry batch durability faults hid hreads
    obtain ⟨f, hf, hrecord⟩ := hrecords.exists_frame hentry
    obtain ⟨receipt, hreceipt, happend⟩ :=
      append_of_mem hlog hf (hrecord.commandId_eq.trans hid.symm) hreads durability
    obtain rfl : receipt = entry.2 := Except.ok.inj (hreceipt.symm.trans hrecord.receipt_eq)
    rw [happend, hrecord.commandDigest_eq]
    simp only [eq_comm]
  · intro batch durability faults hfresh hfaults
    obtain ⟨log', happends, -⟩ := append_spec hX hfaults hlog batch durability
    refine happends.not_found fun f hf hid ↦ ?_
    have hmem : batch.commandId ∈ history.map fun entry ↦ entry.1.commandId := by
      rw [hids, ← hid]
      exact List.mem_map_of_mem hf
    obtain ⟨entry, hentry, heq⟩ := List.mem_map.mp hmem
    exact hfresh entry hentry heq

/-- Creating a thread a second time. -/
theorem commands_exactly_once_create : ∃ s receipt,
    append crates .none (.initial Sample.config (Sample.id .thread 0)) Sample.create .durable =
      (.ok (.committed receipt Sample.create.events), s) ∧
    append crates .none s Sample.create .durable = (.ok (.duplicate receipt), s) := by
  obtain ⟨receipt, s, f, happend, -⟩ := Sample.append_create
  refine ⟨s, receipt, happend, ?_⟩
  have hreachable : Reachable crates (Sample.id .thread 0) s [(Sample.create, receipt)] := by
    have hopened : Reachable crates (Sample.id .thread 0)
        (.initial Sample.config (Sample.id .thread 0)) [] := .opened (openAndFold_empty _ rfl)
    exact hopened.append (by decide) happend
  obtain ⟨-, -, hduplicate, -⟩ := commands_exactly_once crates crates_roundTrips
    (Sample.id .thread 0) s _ hreachable
  simpa using hduplicate _ (List.mem_singleton_self _) Sample.create .durable .none rfl rfl

end Praxis.Journal
