import Praxis.Journal.Scan

/-!
# Recovering the files of a log

The loops of the recovery, put together.  `Log.Holds` says that a directory holds
exactly the files of a log, and `Log.HoldsCut` that it holds them except for the
last one, which is cut at some length.  Recovering such a directory gives the log
without the frames that the cut destroyed (`recoverWithMode_cut`), and for a
directory that holds the whole log the log itself (`recoverWithMode_holds`).
-/

namespace Praxis.Journal

open Foundation Contracts

variable {X : Externals} {config : JournalConfig} {threadId : ThreadId}

/-! ## Directories that hold a log -/

namespace Log

/-- The directory holds the files of the log and no other segment file. -/
structure Holds (d : Directory) (threadId : ThreadId) (log : Log X) : Prop where
  lists : Lists d (log.paths 0)
  stored : log.Stored d threadId 0 .empty

/-- The directory holds the files of the log, the last one cut at a length. -/
structure HoldsCut (d : Directory) (threadId : ThreadId) (log : Log X) (s : LogSegment X)
    (n : Nat) : Prop where
  lists : Lists d ((log ++ [s]).paths 0)
  stored : log.Stored d threadId 0 .empty
  last : d.contents s.path = some ((s.data threadId log.length log.head).take n)

theorem le_of_mem_paths {sequence i : Nat} {name : FileName} {log : Log X}
    (h : (i, name) ∈ log.paths sequence) : sequence ≤ i ∧ i < sequence + log.length := by
  induction log generalizing sequence with
  | nil => cases h
  | cons s log ih =>
    rw [List.length_cons]
    rcases List.mem_cons.mp h with h | h
    · cases h
      omega
    · have := ih h
      omega

/-- The numbers of the segments increase. -/
theorem paths_pairwise (sequence : Nat) (log : Log X) :
    (log.paths sequence).Pairwise fun a b ↦ a.1 < b.1 := by
  induction log generalizing sequence with
  | nil => exact .nil
  | cons s log ih =>
    refine .cons ?_ (ih _)
    rintro ⟨i, name⟩ h
    exact (le_of_mem_paths h).1

/-- Whether the files of a log are stored depends on their contents only. -/
theorem Stored.congr {d d' : Directory} {log : Log X} {sequence : Nat} {head : ThreadHead}
    (h : log.Stored d threadId sequence head)
    (hsame : ∀ s ∈ log, d'.contents s.path = d.contents s.path) :
    log.Stored d' threadId sequence head := by
  induction log generalizing sequence head with
  | nil => trivial
  | cons s log ih =>
    exact ⟨(hsame s (by simp)).trans h.1, ih h.2 fun s hs ↦ hsame s (List.mem_cons_of_mem _ hs)⟩

/-- A path and its number determine each other. -/
theorem path_mem_paths {log : Log X} {s : LogSegment X} (sequence : Nat) (h : s ∈ log) :
    ∃ i, (i, s.path) ∈ log.paths sequence := by
  induction log generalizing sequence with
  | nil => cases h
  | cons t log ih =>
    rcases List.mem_cons.mp h with rfl | h
    · exact ⟨sequence, List.mem_cons_self⟩
    · obtain ⟨i, hi⟩ := ih (sequence + 1) h
      exact ⟨i, List.mem_cons_of_mem _ hi⟩

/-- A listed path is the path of a segment. -/
theorem exists_of_mem_paths {sequence i : Nat} {name : FileName} {log : Log X}
    (h : (i, name) ∈ log.paths sequence) : ∃ s ∈ log, s.path = name := by
  induction log generalizing sequence with
  | nil => cases h
  | cons s log ih =>
    rcases List.mem_cons.mp h with h | h
    · cases h
      exact ⟨s, List.mem_cons_self, rfl⟩
    · obtain ⟨t, ht, hname⟩ := ih h
      exact ⟨t, List.mem_cons_of_mem _ ht, hname⟩

/-- The path of a segment is not the path of an earlier one. -/
theorem path_ne_of_mem {d : Directory} {log rest : Log X} {s t : LogSegment X}
    (h : Lists d (Log.paths 0 (log ++ s :: rest))) (ht : t ∈ log) : t.path ≠ s.path := by
  intro heq
  obtain ⟨i, hi⟩ := path_mem_paths 0 ht
  rw [paths_append] at h
  have hti := ((h.mem_iff i t.path).mp (List.mem_append_left _ hi)).2
  have hsi := ((h.mem_iff _ s.path).mp (List.mem_append_right _ List.mem_cons_self)).2
  rw [heq, hsi, Option.some.injEq] at hti
  have := (le_of_mem_paths hi).2
  omega

theorem HoldsCut.of_holds {d : Directory} {log : Log X} {s : LogSegment X}
    (h : Holds d threadId (log ++ [s])) : HoldsCut d threadId log s s.size := by
  obtain ⟨hlog, hs⟩ := stored_append_iff.mp h.stored
  refine ⟨h.lists, hlog, ?_⟩
  rw [List.take_of_length_le (by simp)]
  simpa [head] using hs.1

end Log

/-! ## Parts of valid logs -/

namespace Log.Valid

variable {log : Log X} {s : LogSegment X}

/-- A valid log from its last segment and the ones in front of it. -/
theorem append_singleton (hlog : Steps (SegmentFollows X config threadId) .empty log log.head)
    {head' : ThreadHead} (hs : SegmentFollows X config threadId log.head s head')
    (hnodup : ((log ++ [s]).frames.map Frame.commandId).Nodup) (hfull : ∀ t ∈ log, t.frames ≠ []) :
    Valid X config threadId (log ++ [s]) := by
  have hhead : head' = Log.head (log ++ [s]) := by
    rw [endHead_of_steps hs.frames, Log.head_append_singleton]
  refine ⟨steps_append_iff.mpr ⟨_, hlog, ?_⟩, hnodup, ?_⟩
  · exact hhead ▸ .cons hs (.nil _)
  · rwa [List.dropLast_concat]

/-- The segments in front of the last one, and the last one. -/
theorem split (h : Valid X config threadId (log ++ [s])) :
    Steps (SegmentFollows X config threadId) .empty log log.head ∧
      SegmentFollows X config threadId log.head s (endHead log.head s.frames) ∧
      ∀ t ∈ log, t.frames ≠ [] := by
  obtain ⟨mid, hlog, hs⟩ := steps_append_iff.mp h.segments
  obtain rfl : mid = log.head := endHead_of_steps (frames_of_segments hlog)
  obtain ⟨_, hs, -⟩ := steps_cons_iff.mp hs
  refine ⟨hlog, endHead_of_steps hs.frames ▸ hs, ?_⟩
  simpa using h.full

/-- A valid log without its last segment. -/
theorem of_append_singleton (h : Valid X config threadId (log ++ [s])) :
    Valid X config threadId log := by
  obtain ⟨hlog, -, hfull⟩ := h.split
  refine ⟨hlog, h.commands_nodup.sublist ?_, fun t ht ↦ hfull t (List.dropLast_subset _ ht)⟩
  simp

/-- The segments in front of a position. -/
theorem steps_take (h : Valid X config threadId log) (i : Nat) :
    Steps (SegmentFollows X config threadId) .empty (log.take i) (Log.head (log.take i)) := by
  obtain ⟨mid, hmid, -⟩ := steps_append_iff.mp ((List.take_append_drop i log).symm ▸ h.segments)
  obtain rfl : mid = Log.head (log.take i) := endHead_of_steps (frames_of_segments hmid)
  exact hmid

/-- A segment of a valid log follows the ones in front of it. -/
theorem follows_getElem (h : Valid X config threadId log) {i : Nat} (hi : i < log.length) :
    SegmentFollows X config threadId (Log.head (log.take i)) log[i]
      (Log.head (log.take (i + 1))) := by
  have hsteps := h.steps_take (i + 1)
  rw [List.take_succ_eq_append_getElem hi] at hsteps
  obtain ⟨mid, hmid, hs⟩ := steps_append_iff.mp hsteps
  obtain rfl : mid = Log.head (log.take i) := endHead_of_steps (frames_of_segments hmid)
  obtain ⟨_, hs, hnil⟩ := steps_cons_iff.mp hs
  obtain rfl := steps_nil_iff.mp hnil
  rwa [← List.take_succ_eq_append_getElem hi] at hs

/-- The events of a log follow one another. -/
theorem eventSteps (h : Valid X config threadId log) :
    Steps (EventFollows X threadId) .empty log.events log.head :=
  events_of_steps (frames_of_segments h.segments)

/-- The revision of a head is the number of events in front of it. -/
theorem revision_take (h : Valid X config threadId log) (i : Nat) :
    (Log.head (log.take i)).revision.toNat = (Log.events (log.take i)).length := by
  have hsum := revision_of_steps (frames_of_segments (h.steps_take i))
  simpa [ThreadHead.empty, Log.events, List.length_flatMap] using hsum

/-- The number of the last segment is a `u64`. -/
theorem length_lt (h : Valid X config threadId (log ++ [s])) : log.length < 2 ^ 64 := by
  obtain ⟨hlog, hs, hfull⟩ := h.split
  have hle := length_le_of_segments hlog hfull
  have := hs.room
  simp only [ThreadHead.empty, ThreadRevision.toNat_zero] at hle
  omega

/-- What is left of a segment follows the same head. -/
theorem segmentFollows_cut {head head' : ThreadHead}
    (hs : SegmentFollows X config threadId head s head') (n : Nat) :
    SegmentFollows X config threadId head (s.cut n) (endHead head (s.cut n).frames) := by
  obtain ⟨rest, hwhole⟩ := wholeChunks_isPrefix Frame.bytes (n - segmentHeaderLen) s.frames
  have hframes : s.frames = (s.cut n).frames ++ rest := hwhole.symm
  obtain ⟨mid, hmid, -⟩ := steps_append_iff.mp (hframes ▸ hs.frames)
  refine ⟨hs.room, endHead_of_steps hmid ▸ hmid, fun f hf ↦ hs.payload_le f ?_, ?_⟩
  · rw [hframes]
    exact List.mem_append_left _ hf
  · refine Nat.lt_of_le_of_lt ?_ hs.size_lt
    rw [LogSegment.size, LogSegment.size, hframes, framesBytes_append, List.length_append]
    omega

/-- A valid log whose last file was cut is valid. -/
theorem cutLast (h : Valid X config threadId (log ++ [s])) (n : Nat) :
    Valid X config threadId (log ++ Log.cutLast s n) := by
  unfold Log.cutLast
  split
  · rw [List.append_nil]
    exact h.of_append_singleton
  · obtain ⟨hlog, hs, hfull⟩ := h.split
    refine append_singleton hlog (segmentFollows_cut hs n) (h.commands_nodup.sublist ?_) hfull
    have hsub : (s.cut n).frames.Sublist s.frames := (wholeChunks_isPrefix _ _ _).sublist
    simpa using hsub.map Frame.commandId

end Log.Valid

/-! ## Recovery -/

/-- Recovering a log whose last file was cut gives the log without the frames
that are no longer whole. -/
theorem recoverWithMode_cut {log : Log X} {s : LogSegment X} {n : Nat} {d : Directory}
    (mode : RecoveryMode) (hvalid : (log ++ [s]).Valid X config threadId)
    (hholds : log.HoldsCut d threadId s n) :
    ∃ r, recoverWithMode X config threadId d mode = .ok r ∧
      r.visited = (log ++ Log.cutLast s n).events ∧
      r.state.head = (log ++ Log.cutLast s n).head ∧
      (mode = .writer → r.state = (log ++ Log.cutLast s n).state ∧
        (log ++ Log.cutLast s n).Holds r.dir threadId) ∧
      (mode = .snapshot → r.dir = d) := by
  obtain ⟨hlog, hs, hfull⟩ := hvalid.split
  have hpaths := (segmentPaths_eq_ok_iff (Log.paths_pairwise 0 (log ++ [s]))).mpr hholds.lists
  have hnodup := hvalid.commands_nodup
  rw [Log.frames_append, List.map_append] at hnodup
  have hlt := hvalid.length_lt
  have happend := recoverSegments_append mode .start d 0 [(log.length, s.path)] (by simp)
    hlog hholds.stored (fun _ ↦ hnodup.of_append_left) hfull (by omega)
  obtain ⟨d', hlast, hrepair⟩ := recoverSegments_last mode (Scan.start.pushLog mode 0 log) d
    log.length (by rw [Scan.pushLog_head]; exact hs) hlt
    (by rw [Scan.pushLog_head]; exact hholds.last)
    (fun hw ↦ by subst hw; simpa [Scan.start] using hnodup)
  rw [Log.paths_append, Nat.zero_add] at hpaths
  rw [Nat.zero_add] at happend
  have hrecover : recoverWithMode X config threadId d mode =
      .ok { state := (Scan.start.pushLog mode 0 (log ++ Log.cutLast s n)).state
            visited := (Scan.start.pushLog mode 0 (log ++ Log.cutLast s n)).visited
            dir := d' } := by
    simp only [recoverWithMode, hpaths, Log.paths, happend, hlast, Scan.pushLog_append,
      Nat.zero_add]
  refine ⟨_, hrecover, by simp [Scan.start], by simp [Scan.start, Log.head], fun hw ↦ ?_,
    fun hm ↦ hrepair.snapshot hm⟩
  subst hw
  refine ⟨pushLog_start_state _, ?_⟩
  have hstored : log.Stored d' threadId 0 .empty :=
    hholds.stored.congr fun t ht ↦ hrepair.other _ (Log.path_ne_of_mem hholds.lists ht)
  have hlists := hholds.lists
  rw [Log.paths_append, Nat.zero_add] at hlists
  have hcontents := hrepair.writer rfl
  by_cases hn : n < segmentHeaderLen
  · -- not even the header is left: the file is gone
    rw [if_pos hn] at hcontents
    rw [Log.cutLast, if_pos hn, List.append_nil]
    exact ⟨hlists.of_append_singleton hcontents hrepair.other, hstored⟩
  · rw [if_neg hn] at hcontents
    rw [Log.cutLast, if_neg hn]
    refine ⟨?_, Log.stored_append_iff.mpr ⟨hstored, ?_, trivial⟩⟩
    · rw [Log.paths_append, Nat.zero_add]
      refine hlists.congr fun name ↦ ?_
      by_cases hname : name = s.path
      · rw [hname, hcontents, hholds.last]
        rfl
      · rw [hrepair.other _ hname]
    · simpa [LogSegment.cut, Scan.start] using hcontents

/-- Recovering the files of a log gives the log. -/
theorem recoverWithMode_holds {log : Log X} {d : Directory} (mode : RecoveryMode)
    (hvalid : log.Valid X config threadId) (hholds : log.Holds d threadId) :
    ∃ r, recoverWithMode X config threadId d mode = .ok r ∧ r.visited = log.events ∧
      r.state.head = log.head ∧
      (mode = .writer → r.state = log.state ∧ log.Holds r.dir threadId) ∧
      (mode = .snapshot → r.dir = d) := by
  rcases List.eq_nil_or_concat log with rfl | ⟨init, s, rfl⟩
  · have hpaths := (segmentPaths_eq_ok_iff (Log.paths_pairwise (X := X) 0 [])).mpr hholds.lists
    have hrecover : recoverWithMode X config threadId d mode =
        .ok { state := Scan.start.state, visited := [], dir := d } := by
      simp only [recoverWithMode, hpaths, Log.paths, recoverSegments]
      rfl
    exact ⟨_, hrecover, rfl, rfl, fun _ ↦ ⟨rfl, hholds⟩, fun _ ↦ rfl⟩
  · rw [List.concat_eq_append] at *
    have hcut : Log.cutLast s s.size = [s] := by
      rw [Log.cutLast, if_neg (by simp [LogSegment.size]), LogSegment.cut_of_le (Nat.le_refl _)]
    have h := recoverWithMode_cut mode hvalid (.of_holds hholds)
    rwa [hcut] at h

end Praxis.Journal
