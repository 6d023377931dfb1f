import Praxis.Journal.Runs

/-!
# Power loss

A power failure leaves of every segment file a prefix that is at least as long as
what its last sync covered, and may take away files whose directory entry was not
synced (`Crash`).

Recovery forgives a torn tail in the last segment only.  An append that starts a
new segment while an earlier one still waits for its sync can therefore leave a
journal that does not open after a power failure.  `OrderlyRun` are the runs in
which no append does this, and for them durable batches survive
(`power_loss_recovery`): at every moment all segments but the last one are on disk
as a whole, and what was acknowledged lies within the synced part (`Guarded`).
-/

namespace Praxis.Journal

open Foundation Contracts

variable {X : Externals} {config : JournalConfig} {threadId : ThreadId}

/-! ## Acknowledgements -/

/-- The heads a call acknowledges as durable. -/
def Call.acknowledged : Call → Outcome → List ThreadHead
  | .append _ .durable _, .appended (.ok (.committed _ events)) => [headAfter events]
  | .sync _, .synced (.ok barrier) => [barrier.through]
  | _, _ => []

/-- The runs from an empty directory in which failed calls are undone and no call
starts a segment while another one waits for its sync, with the heads they have
acknowledged and the events they have committed. -/
inductive OrderlyRun (X : Externals) (config : JournalConfig) (threadId : ThreadId) :
    System → List ThreadHead → List ThreadEventEnvelope → Prop
  | opened : OrderlyRun X config threadId (System.initial config threadId) [] []
  | called {s : System} {acked : List ThreadHead} {events : List ThreadEventEnvelope} (call : Call)
    (run : OrderlyRun X config threadId s acked events) (compensated : call.faults.Compensated)
    (orderly : (call.exec X s).2.journal.segments.length = s.journal.segments.length ∨
      s.journal.pendingSyncs = []) :
    OrderlyRun X config threadId (call.exec X s).2
      (acked ++ call.acknowledged (call.exec X s).1) (events ++ (call.exec X s).1.committed)

/-- A durable append with nothing left to sync. -/
theorem OrderlyRun.append_durable {s s' : System} {acked : List ThreadHead}
    {events : List ThreadEventEnvelope} (h : OrderlyRun X config threadId s acked events)
    {batch : JournalBatch} {faults : Faults} (hfaults : faults.Compensated)
    (hpending : s.journal.pendingSyncs = []) {receipt : ThreadCommandReceipt}
    {new : List ThreadEventEnvelope}
    (happend : append X faults s batch .durable = (.ok (.committed receipt new), s')) :
    OrderlyRun X config threadId s' (acked ++ [headAfter new]) (events ++ new) := by
  have hcalled := h.called (.append batch .durable faults) hfaults (.inr hpending)
  rwa [exec_append_eq happend] at hcalled

/-! ## What is on disk -/

/-- A head that a power failure cannot take away: it is covered by the segments in
front of the last one, or by frames in the synced part of the last one. -/
def Secured (d : Directory) (log : Log X) (head : ThreadHead) : Prop :=
  head.revision.toNat ≤ (Log.head log.dropLast).revision.toNat ∨
  ∃ init t kept file, log = init ++ [t] ∧ kept <+: t.frames ∧ d.file? t.path = some file ∧
    file.linked = true ∧ segmentHeaderLen + (framesBytes kept).length ≤ file.synced ∧
    head.revision.toNat ≤ (endHead (Log.head init) kept).revision.toNat

/-- Nothing behind the last segment waits to get to disk. -/
def Settled (d : Directory) (log : Log X) : Prop :=
  ∀ init t, log = init ++ [t] → t.frames = [] ∨ d.OnDisk t.path

/-- The invariant of orderly runs. -/
structure Guarded (s : System) (log : Log X) (acked : List ThreadHead) : Prop where
  represents : s.Represents log
  /-- Only the last segment waits for a sync. -/
  pending_last : ∀ i ∈ s.journal.pendingSyncs, i + 1 = log.length
  clean : s.journal.dirtyBatchCount = 0 → s.journal.pendingSyncs = []
  settled : s.journal.pendingSyncs = [] → Settled s.dir log
  /-- The segments in front of the last one are on disk. -/
  front : ∀ t ∈ log.dropLast, s.dir.OnDisk t.path
  secured : ∀ head ∈ acked, Secured s.dir log head

/-! ## How what is on disk changes -/

section Disk

variable {d d' : Directory} {log init : Log X} {t : LogSegment X} {f : Frame X} {head : ThreadHead}

theorem Secured.harden (h : Secured d log head) (hdir : d.Hardens d') : Secured d' log head := by
  rcases h with h | ⟨init, t, kept, file, rfl, hkept, hfile, hlinked, hsynced, hle⟩
  · exact .inl h
  · obtain ⟨file', hfile', hhard⟩ := hdir.file? hfile
    exact .inr ⟨init, t, kept, file', rfl, hkept, hfile', hhard.linked hlinked,
      hsynced.trans hhard.synced_le, hle⟩

theorem Settled.harden (h : Settled d log) (hdir : d.Hardens d') : Settled d' log :=
  fun init t hlog ↦ (h init t hlog).imp_right fun hdisk ↦ .of_rel (hdir t.path) hdisk

/-- The head after some of the last frames is not behind the head of the log. -/
theorem revision_le_of_kept (hvalid : Log.Valid X config threadId (init ++ [t]))
    {kept : List (Frame X)} (hkept : kept <+: t.frames) :
    (endHead (Log.head init) kept).revision.toNat ≤ (Log.head (init ++ [t])).revision.toNat := by
  obtain ⟨-, ht, -⟩ := hvalid.split
  obtain ⟨rest, hrest⟩ := hkept
  obtain ⟨mid, hmid, hafter⟩ := steps_append_iff.mp (hrest ▸ ht.frames)
  have hle := revision_le_of_steps hafter
  rw [endHead_of_steps hmid] at hle
  rwa [hrest, ← Log.head_append_singleton] at hle

theorem Secured.le_head (h : Secured d log head) (hvalid : log.Valid X config threadId) :
    head.revision.toNat ≤ log.head.revision.toNat := by
  rcases h with h | ⟨init, t, kept, file, rfl, hkept, -, -, -, hle⟩
  · rcases List.eq_nil_or_concat log with rfl | ⟨init, t, rfl⟩
    · exact h
    · rw [List.concat_eq_append] at *
      rw [List.dropLast_concat] at h
      exact h.trans (revision_le_of_kept hvalid List.nil_prefix)
  · exact hle.trans (revision_le_of_kept hvalid hkept)

/-- The head of a log that is settled is secured. -/
theorem Settled.secured (h : Settled d log) (hvalid : log.Valid X config threadId)
    (hholds : log.Holds d threadId) : Secured d log log.head := by
  rcases List.eq_nil_or_concat log with rfl | ⟨init, t, rfl⟩
  · exact .inl (Nat.le_refl _)
  · rw [List.concat_eq_append] at *
    have hhead := Log.head_append_singleton init t
    rcases h init t rfl with hnil | ⟨file, hfile, hsynced, hlinked⟩
    · left
      rw [hhead, hnil, List.dropLast_concat]
      exact Nat.le_refl _
    · have hlast := (Log.stored_append_iff.mp hholds.stored).2.1
      obtain ⟨file', hfile', hdata⟩ := Directory.contents_eq_some_iff.mp hlast
      obtain rfl : file = file' := Option.some.inj (hfile.symm.trans hfile')
      refine .inr ⟨init, t, t.frames, file, rfl, List.prefix_rfl, hfile, hlinked, ?_,
        Nat.le_of_eq (by rw [hhead])⟩
      rw [hsynced, hdata, LogSegment.data_length]
      exact Nat.le_refl _

/-- A new segment in use behind settled ones. -/
theorem Secured.rotate (h : Secured d log head) (hvalid : log.Valid X config threadId) :
    Secured d' log.rotate head := by
  left
  rw [Log.rotate, List.dropLast_concat]
  exact h.le_head hvalid

/-- A frame behind the last one takes no security away. -/
theorem Secured.push {file file' : File} (h : Secured d (init ++ [t]) head)
    (hfile : d.file? t.path = some file) (hfile' : d'.file? t.path = some file')
    (hsynced : file.synced ≤ file'.synced) (hlinked : file.linked → file'.linked) :
    Secured d' (init ++ [t.push f]) head := by
  rcases h with h | ⟨init', t', kept, g, hlog, hkept, hg, hlink, hsync, hle⟩
  · left
    rw [List.dropLast_concat] at h ⊢
    exact h
  · obtain ⟨rfl, ht⟩ := List.append_inj' hlog rfl
    obtain rfl : t = t' := List.singleton_inj.mp ht
    obtain rfl : file = g := Option.some.inj (hfile.symm.trans hg)
    exact .inr ⟨init, t.push f, kept, file', rfl, hkept.trans (List.prefix_append _ _), hfile',
      hlinked hlink, hsync.trans hsynced, hle⟩

end Disk

/-! ## Orderly steps -/

section Steps

variable {s s' : System} {log log' : Log X} {acked : List ThreadHead}

/-- Selecting a segment in an orderly run. -/
theorem Guarded.select (h : Guarded s log acked) (hselects : Selects X s log s' log')
    (horderly : s'.journal.segments.length = s.journal.segments.length ∨
      s.journal.pendingSyncs = []) : Guarded s' log' acked := by
  have hs' := hselects.represents h.represents
  cases hselects with
  | same => exact h
  | rotated journal_eq dir_eq new full room =>
    have hempty : s.journal.pendingSyncs = [] := by
      rcases horderly with hlength | hempty
      · simp [journal_eq] at hlength
      · exact hempty
    have hempty' : s'.journal.pendingSyncs = [] := by rw [journal_eq]; exact hempty
    -- the file of no segment changes
    have hkeep : ∀ name, s.dir.OnDisk name → s'.dir.OnDisk name := by
      rintro name ⟨f, hf, hdisk⟩
      refine ⟨f, ?_, hdisk⟩
      rw [dir_eq, Directory.file?_setFile_ne, hf]
      rintro rfl
      rw [new] at hf
      cases hf
    refine ⟨hs', by simp [hempty'], fun _ ↦ hempty', fun _ init t hlog ↦ .inl ?_, ?_, ?_⟩
    · obtain ⟨-, ht⟩ := List.append_inj' hlog rfl
      rw [← List.singleton_inj.mp ht]
    · intro t ht
      rw [Log.rotate, List.dropLast_concat] at ht
      apply hkeep
      rcases List.eq_nil_or_concat log with rfl | ⟨init, u, rfl⟩
      · cases ht
      · rw [List.concat_eq_append] at *
        rcases List.mem_append.mp ht with ht | ht
        · exact h.front t (by simpa using ht)
        · rw [List.mem_singleton.mp ht]
          exact (h.settled hempty init u rfl).resolve_left (full u (by simp))
    · exact fun head hhead ↦ (h.secured head hhead).rotate h.represents.valid

/-- Syncs leave a guarded journal guarded. -/
theorem Guarded.harden (h : Guarded s log acked) (hjournal : s'.journal = s.journal)
    (hdir : s.dir.Hardens s'.dir) : Guarded s' log acked := by
  refine ⟨h.represents.harden hjournal hdir, ?_, ?_, ?_, fun t ht ↦ .of_rel (hdir _) (h.front t ht),
    fun head hhead ↦ (h.secured head hhead).harden hdir⟩
  · rw [hjournal]
    exact h.pending_last
  · rw [hjournal]
    exact h.clean
  · rw [hjournal]
    exact fun hempty ↦ (h.settled hempty).harden hdir

/-- A commit to the last segment. -/
theorem Guarded.commit {init : Log X} {t : LogSegment X} {f : Frame X}
    {durability : JournalDurability} (h : Guarded s (init ++ [t]) acked)
    (hcommits : Commits durability s t.path init.length s')
    (hs' : s'.Represents (init ++ [t.push f])) : Guarded s' (init ++ [t.push f]) acked := by
  obtain ⟨file, file', hfile, hfile', hsynced, hlinked, hdurable⟩ := hcommits.file
  refine ⟨hs', ?_, ?_, ?_, ?_, fun head hhead ↦
    (h.secured head hhead).push hfile hfile' hsynced hlinked⟩
  · rw [hcommits.pending_eq]
    cases durability with
    | durable => simp
    | buffered =>
      intro i hi
      rcases mem_markPending hi with hi | rfl
      · simpa using h.pending_last i hi
      · simp
  · rw [hcommits.pending_eq, hcommits.dirty_eq]
    cases durability with
    | durable => exact fun _ ↦ rfl
    | buffered => exact fun hzero ↦ absurd hzero (Nat.succ_ne_zero _)
  · rw [hcommits.pending_eq]
    cases durability with
    | durable =>
      rintro - init' t' hlog
      obtain ⟨-, ht⟩ := List.append_inj' hlog rfl
      rw [← List.singleton_inj.mp ht]
      exact .inr ⟨file', hfile', hdurable rfl⟩
    | buffered => exact fun hempty ↦ absurd hempty (markPending_ne_nil _ _)
  · intro u hu
    rw [List.dropLast_concat] at hu
    refine .of_rel (hcommits.other _ ?_) (h.front u (by rwa [List.dropLast_concat]))
    exact Log.path_ne_of_mem h.represents.holds.lists hu

/-- The head a durable append acknowledges is the head of the journal. -/
theorem headAfter_push {init : Log X} {t : LogSegment X} {f : Frame X}
    (hs : s.Represents (init ++ [t.push f])) :
    headAfter f.events = Log.head (init ++ [t.push f]) := by
  have hframes := frames_of_segments hs.valid.segments
  rw [frames_push] at hframes
  obtain ⟨mid, -, hlast⟩ := steps_append_iff.mp hframes
  obtain ⟨_, hf, hnil⟩ := steps_cons_iff.mp hlast
  obtain rfl := steps_nil_iff.mp hnil
  exact (headAfter_of_eventSteps hf.spec.events (.inr hf.spec.events_ne)).symm

/-- Acknowledging the head of a settled journal. -/
theorem Guarded.acknowledge (h : Guarded s log acked) (hempty : s.journal.pendingSyncs = [])
    {head : ThreadHead} (hhead : head = log.head) : Guarded s log (acked ++ [head]) := by
  refine ⟨h.represents, h.pending_last, h.clean, h.settled, h.front, fun head' hmem ↦ ?_⟩
  rcases List.mem_append.mp hmem with hmem | hmem
  · exact h.secured head' hmem
  · rw [List.mem_singleton.mp hmem, hhead]
    exact (h.settled hempty).secured h.represents.valid h.represents.holds

/-- An orderly append keeps the invariant. -/
theorem Guarded.append (h : Guarded s log acked) {batch : JournalBatch}
    {durability : JournalDurability} {faults : Faults}
    {result : Except JournalError AppendOutcome}
    (happends : Appends X batch durability s log result s' log') (hs' : s'.Represents log')
    (horderly : s'.journal.segments.length = s.journal.segments.length ∨
      s.journal.pendingSyncs = []) :
    Guarded s' log'
      (acked ++ (Call.append batch durability faults).acknowledged (.appended result)) := by
  cases happends with
  | found f =>
    split <;> cases durability <;> simpa [Call.acknowledged] using h
  | failed selects not_collision journal_eq hardens =>
    have hguarded := (h.select selects (journal_eq ▸ horderly)).harden journal_eq hardens
    cases durability <;> simpa [Call.acknowledged] using hguarded
  | committed selects f fresh commandId_eq commandDigest_eq receipt_eq commits =>
    have hguarded :=
      (h.select selects (commits.segments_length ▸ horderly)).commit commits hs'
    cases durability with
    | buffered => simpa [Call.acknowledged] using hguarded
    | durable => exact hguarded.acknowledge commits.pending_eq (headAfter_push hs')

/-- An orderly sync keeps the invariant. -/
theorem Guarded.sync (h : Guarded s log acked) {faults : Faults}
    {result : Except JournalError DurabilityBarrier} (hsyncs : Syncs s result s') :
    Guarded s' log (acked ++ (Call.sync faults).acknowledged (.synced result)) := by
  have hs' := hsyncs.represents h.represents
  cases hsyncs with
  | clean dirty_eq => exact h.acknowledge (h.clean dirty_eq) h.represents.head_eq
  | failed journal_eq hardens =>
    simpa [Call.acknowledged] using h.harden journal_eq hardens
  | synced journal_eq hardens onDisk =>
    have hempty : s'.journal.pendingSyncs = [] := by rw [journal_eq]
    have hsettled : Settled s'.dir log := by
      intro init t hlog
      cases hpending : s.journal.pendingSyncs with
      | nil => exact (h.settled hpending).harden hardens init t hlog
      | cons i rest =>
        -- the pending segment is the last one
        have hlast := h.pending_last i (by simp [hpending])
        subst hlog
        obtain rfl : i = init.length := by simpa using hlast
        have hget : s.journal.segments[init.length]? =
            some (t.info init.length (Log.head init)) := by
          rw [h.represents.segments_eq, Log.infos_append, List.getElem?_append_right (by simp)]
          simp [Log.infos, Log.head]
        exact .inr (onDisk _ (by simp [hpending]) _ hget)
    have hguarded : Guarded s' log acked :=
      ⟨hs', by simp [hempty], fun _ ↦ hempty, fun _ ↦ hsettled,
        fun t ht ↦ .of_rel (hardens _) (h.front t ht),
        fun head hhead ↦ (h.secured head hhead).harden hardens⟩
    exact hguarded.acknowledge hempty h.represents.head_eq

end Steps

/-- Every orderly run keeps the invariant. -/
theorem OrderlyRun.guarded (hX : X.RoundTrips) {s : System} {acked : List ThreadHead}
    {events : List ThreadEventEnvelope} (h : OrderlyRun X config threadId s acked events) :
    s.journal.config = config ∧ s.journal.threadId = threadId ∧
      ∃ log : Log X, Guarded s log acked ∧ log.events = events := by
  induction h with
  | opened =>
    refine ⟨rfl, rfl, [], ⟨initial_represents config threadId, ?_, ?_, ?_, ?_, ?_⟩, rfl⟩
    · exact fun _ hi ↦ absurd hi List.not_mem_nil
    · exact fun _ ↦ rfl
    · exact fun _ init t hlog ↦ absurd hlog (by simp)
    · exact fun _ ht ↦ absurd ht List.not_mem_nil
    · exact fun _ hhead ↦ absurd hhead List.not_mem_nil
  | called call _ compensated orderly ih =>
    obtain ⟨hconfig, hthread, log, hguarded, hevents⟩ := ih
    cases call with
    | append batch durability faults =>
      obtain ⟨log', happends, hlog'⟩ :=
        append_spec hX compensated hguarded.represents batch durability
      exact ⟨happends.journal_eq.1.trans hconfig, happends.journal_eq.2.trans hthread, log',
        hguarded.append happends hlog' orderly, hevents ▸ happends.events_eq⟩
    | sync faults =>
      have hsync := sync_spec faults ‹System›
      exact ⟨hsync.journal_eq.1.trans hconfig, hsync.journal_eq.2.trans hthread, log,
        hguarded.sync hsync, by simp [hevents, Call.exec, Outcome.committed]⟩

/-! ## Crashes -/

section Crash

variable {d d' : Directory} {log init : Log X} {t : LogSegment X}

/-- What a crash leaves of a log whose front segments are on disk: all of it but
the last file, or the last file cut somewhere. -/
theorem holds_of_crash (h : Crash d d') (hholds : Log.Holds d threadId (init ++ [t]))
    (hfront : ∀ u ∈ init, d.OnDisk u.path) :
    (d'.file? t.path = none ∧ Log.Holds d' threadId init) ∨
      ∃ file', d'.file? t.path = some file' ∧
        Log.HoldsCut d' threadId init t file'.data.length := by
  obtain ⟨hstored, hlast⟩ := Log.stored_append_iff.mp hholds.stored
  rw [Nat.zero_add] at hlast
  have hstored' : Log.Stored d' threadId 0 .empty init :=
    hstored.congr fun u hu ↦ h.contents_eq (hfront u hu)
  have hpaths : Log.paths 0 (init ++ [t]) = Log.paths 0 init ++ [(init.length, t.path)] := by
    rw [Log.paths_append, Nat.zero_add]
    rfl
  -- the files in front are all still there
  have hthere : ∀ p ∈ Log.paths 0 init, (d'.contents p.2).isSome := by
    rintro ⟨i, name⟩ hp
    obtain ⟨u, hu, rfl⟩ := Log.exists_of_mem_paths hp
    rw [h.contents_eq (hfront u hu), Directory.isSome_contents]
    obtain ⟨f, hf, -⟩ := hfront u hu
    rw [hf]
    rfl
  cases hfile' : d'.file? t.path with
  | none =>
    refine .inl ⟨rfl, hholds.lists.of_lost (hpaths ▸ List.sublist_append_left _ _) ?_
      (fun _ ↦ h.isSome_of_isSome), hstored'⟩
    rintro ⟨i, name⟩ hp
    rw [hpaths] at hp
    rcases List.mem_append.mp hp with hp | hp
    · exact iff_of_true hp (hthere _ hp)
    · obtain ⟨rfl, rfl⟩ : i = init.length ∧ name = t.path := by simpa using hp
      refine iff_of_false (fun hmem ↦ ?_) ?_
      · have := (Log.le_of_mem_paths hmem).2
        omega
      · rw [Directory.isSome_contents, hfile']
        decide
  | some file' =>
    obtain ⟨f, hf, hprefix, -⟩ := h.of_file _ _ hfile'
    have hlast' := hlast.1
    rw [Directory.contents, hf, Option.map_some, Option.some.injEq] at hlast'
    refine .inr ⟨file', rfl, hholds.lists.of_lost (List.Sublist.refl _) ?_
      (fun _ ↦ h.isSome_of_isSome), hstored', ?_⟩
    · rintro ⟨i, name⟩ hp
      refine iff_of_true hp ?_
      rw [hpaths] at hp
      rcases List.mem_append.mp hp with hp | hp
      · exact hthere _ hp
      · obtain ⟨rfl, rfl⟩ : i = init.length ∧ name = t.path := by simpa using hp
        rw [Directory.isSome_contents, hfile']
        rfl
    · rw [Directory.contents, hfile', Option.map_some, Option.some.injEq]
      rw [hlast'] at hprefix
      exact List.prefix_iff_eq_take.mp hprefix

end Crash

/-- A guarded journal recovers from every crash, behind everything that was
acknowledged. -/
theorem Guarded.recover {s : System} {log : Log X} {acked : List ThreadHead}
    (h : Guarded s log acked) {d : Directory} (hcrash : Crash s.dir d) :
    ∃ r, recoverWithMode X s.journal.config s.journal.threadId d .writer = .ok r ∧
      r.visited <+: log.events ∧
      ∀ head ∈ acked, head.revision.toNat ≤ r.state.head.revision.toNat := by
  rcases List.eq_nil_or_concat log with rfl | ⟨init, t, rfl⟩
  · have hholds : Log.Holds d s.journal.threadId ([] : Log X) := by
      refine ⟨h.represents.holds.lists.of_lost (List.Sublist.refl _) ?_
        (fun _ ↦ hcrash.isSome_of_isSome), trivial⟩
      exact fun p hp ↦ absurd hp List.not_mem_nil
    obtain ⟨r, hrecover, hvisited, hhead, -⟩ :=
      recoverWithMode_holds .writer h.represents.valid hholds
    refine ⟨r, hrecover, hvisited ▸ List.prefix_rfl, fun head hmem ↦ ?_⟩
    rw [hhead]
    exact (h.secured head hmem).le_head h.represents.valid
  rw [List.concat_eq_append] at *
  have hfront : ∀ u ∈ init, s.dir.OnDisk u.path := fun u hu ↦
    h.front u (by rwa [List.dropLast_concat])
  rcases holds_of_crash hcrash h.represents.holds hfront with ⟨hgone, hholds⟩ | ⟨file', hfile', hcut⟩
  · -- the last file is gone, so its entry was not on disk
    obtain ⟨r, hrecover, hvisited, hhead, -⟩ :=
      recoverWithMode_holds .writer h.represents.valid.of_append_singleton hholds
    refine ⟨r, hrecover, ?_, fun head hmem ↦ ?_⟩
    · rw [hvisited]
      simp [Log.events]
    · rw [hhead]
      rcases h.secured head hmem with hle | ⟨init', t', kept, file, hlog, -, hfile, hlinked, -, -⟩
      · rwa [List.dropLast_concat] at hle
      · obtain ⟨rfl, ht⟩ := List.append_inj' hlog rfl
        obtain rfl : t = t' := List.singleton_inj.mp ht
        obtain ⟨f', hf'⟩ := hcrash.of_linked _ _ hfile hlinked
        rw [hgone] at hf'
        cases hf'
  · obtain ⟨r, hrecover, hvisited, hhead, -⟩ :=
      recoverWithMode_cut .writer h.represents.valid hcut
    have hwhole := wholeChunks_isPrefix Frame.bytes (file'.data.length - segmentHeaderLen) t.frames
    have hend : r.state.head = endHead (Log.head init)
        (wholeChunks Frame.bytes (file'.data.length - segmentHeaderLen) t.frames) := by
      rw [hhead, Log.head, frames_cutLast, endHead_append]
      rfl
    refine ⟨r, hrecover, ?_, fun head hmem ↦ ?_⟩
    · obtain ⟨rest, hrest⟩ := hwhole
      refine ⟨rest.flatMap Frame.events, ?_⟩
      rw [hvisited, Log.events, Log.events, frames_cutLast, ← List.flatMap_append,
        List.append_assoc, hrest]
      simp
    · rw [hend]
      -- the frames that were kept follow the head of the segments in front
      obtain ⟨-, ht, -⟩ := h.represents.valid.split
      obtain ⟨rest, hrest⟩ := hwhole
      obtain ⟨mid, hmid, -⟩ := steps_append_iff.mp (hrest ▸ ht.frames)
      rw [endHead_of_steps hmid] at hmid
      rcases h.secured head hmem with
        hle | ⟨init', t', kept, file, hlog, hkept, hfile, hlinked, hsynced, hle⟩
      · rw [List.dropLast_concat] at hle
        exact hle.trans (revision_le_of_steps hmid)
      · obtain ⟨rfl, ht'⟩ := List.append_inj' hlog rfl
        obtain rfl : t = t' := List.singleton_inj.mp ht'
        obtain ⟨f, hf, -, hlength⟩ := hcrash.of_file _ _ hfile'
        obtain rfl : file = f := Option.some.inj (hfile.symm.trans hf)
        have hlen := hlength hlinked
        obtain ⟨more, hmore⟩ : kept <+: wholeChunks Frame.bytes
            (file'.data.length - segmentHeaderLen) t.frames :=
          isPrefix_wholeChunks hkept (by change (framesBytes kept).length ≤ _; omega)
        rw [← hmore] at hmid ⊢
        obtain ⟨mid', hmid', hafter⟩ := steps_append_iff.mp hmid
        obtain rfl := endHead_of_steps hmid'
        exact hle.trans (revision_le_of_steps hafter)

/-- **Durable batches survive power loss in orderly runs.**  When failed calls are
undone and no call starts a segment while another one waits for its sync, a writer
recovers from every crash; the events it visits are the first ones that were
committed, and its head is at or after every head that a durable append or a sync
has acknowledged. -/
theorem power_loss_recovery (X : Externals) (hX : X.RoundTrips) (config : JournalConfig)
    (threadId : ThreadId) (s : System) (acked : List ThreadHead)
    (events : List ThreadEventEnvelope) (h : OrderlyRun X config threadId s acked events)
    (d : Directory) (hcrash : Crash s.dir d) :
    ∃ r, recoverWithMode X config threadId d .writer = .ok r ∧ r.visited <+: events ∧
      ∀ head ∈ acked, head.revision.toNat ≤ r.state.head.revision.toNat := by
  obtain ⟨rfl, rfl, log, hguarded, rfl⟩ := h.guarded hX
  exact hguarded.recover hcrash

/-- A thread that was created survives a power failure right after. -/
theorem power_loss_recovery_create : ∃ receipt s,
    append crates .none (.initial Sample.config (Sample.id .thread 0)) Sample.create .durable =
      (.ok (.committed receipt Sample.create.events), s) ∧
    ∀ d, Crash s.dir d → ∃ r,
      recoverWithMode crates Sample.config (Sample.id .thread 0) d .writer = .ok r ∧
        1 ≤ r.state.head.revision.toNat := by
  obtain ⟨receipt, s, f, happend, -⟩ := Sample.append_create
  refine ⟨receipt, s, happend, fun d hcrash ↦ ?_⟩
  have hrun : OrderlyRun crates Sample.config (Sample.id .thread 0) s
      [headAfter Sample.create.events] Sample.create.events := by
    have hopened : OrderlyRun crates Sample.config (Sample.id .thread 0) _ [] [] := .opened
    exact hopened.append_durable (by decide) rfl happend
  obtain ⟨r, hrecover, -, hacked⟩ := power_loss_recovery crates crates_roundTrips Sample.config
    (Sample.id .thread 0) s _ _ hrun d hcrash
  exact ⟨r, hrecover, hacked _ (List.mem_singleton_self _)⟩

/-! ## Segments that wait for their sync -/

/-- Recovery does not get past a segment without a whole header, unless it is the
last one. -/
theorem recoverWithMode_short {init rest : Log X} {t : LogSegment X} {d : Directory} {bytes : Bytes}
    (hvalid : Log.Valid X config threadId (init ++ t :: rest)) (hrest : rest ≠ [])
    (hlists : Lists d (Log.paths 0 (init ++ t :: rest))) (hstored : Log.Stored d threadId 0 .empty init)
    (hbytes : d.contents t.path = some bytes) (hshort : bytes.length < segmentHeaderLen) :
    recoverWithMode X config threadId d .writer =
      .error (.corruptSegment t.path 0 "incomplete segment header") := by
  have hpaths := (segmentPaths_eq_ok_iff (Log.paths_pairwise 0 _)).mpr hlists
  rw [Log.paths_append, Nat.zero_add, Log.paths] at hpaths
  have hmore : (Log.paths (init.length + 1) rest).isEmpty = false := by
    obtain ⟨u, us, rfl⟩ := List.exists_cons_of_ne_nil hrest
    rfl
  obtain ⟨file, hfile, rfl⟩ := Directory.contents_eq_some_iff.mp hbytes
  have hfull : ∀ u ∈ init, u.frames ≠ [] := by
    intro u hu
    refine hvalid.full u ?_
    rw [List.dropLast_append_of_ne_nil (by simp)]
    exact List.mem_append_left _ hu
  have hsteps := hvalid.steps_take init.length
  rw [List.take_left' rfl] at hsteps
  have hlength := length_le_of_segments hsteps hfull
  have hnodup := hvalid.commands_nodup
  rw [Log.frames_append, List.map_append] at hnodup
  have happend := recoverSegments_append .writer .start d 0
    ((init.length, t.path) :: Log.paths (init.length + 1) rest) (by simp) hsteps hstored
    (fun _ ↦ hnodup.of_append_left) hfull (by
      have hbound := (Log.head init).revision.toNat_lt
      rw [Nat.zero_add]
      exact Nat.le_of_lt (Nat.lt_of_le_of_lt ((Nat.le_add_left _ _).trans hlength) hbound))
  rw [Nat.zero_add] at happend
  simp only [recoverWithMode, hpaths, happend, recoverSegments, recoverSegment, checkSegmentHeader,
    hfile, hmore, hshort, ne_eq, not_true_eq_false, Bool.false_eq_true, false_and, if_true, if_false]

/-- A power failure can take the header of a segment whose entry is not on disk. -/
theorem exists_crash_of_unlinked {s : System} {file : File} (init : Log X) {t : LogSegment X}
    (rest : Log X) (h : s.Represents (init ++ t :: rest)) (hrest : rest ≠ [])
    (hfile : s.dir.file? t.path = some file) (hunlinked : file.linked = false) :
    ∃ d, Crash s.dir d ∧
      recoverWithMode X s.journal.config s.journal.threadId d .writer =
        .error (.corruptSegment t.path 0 "incomplete segment header") := by
  have hother : ∀ name ≠ t.path,
      (s.dir.setFile t.path (.created [])).contents name = s.dir.contents name :=
    fun _ ↦ Directory.contents_setFile_ne
  have hsame : (s.dir.contents t.path).isSome := by
    rw [Directory.isSome_contents, hfile]
    rfl
  refine ⟨s.dir.setFile t.path (.created []), ⟨?_, ?_, ?_⟩, ?_⟩
  · intro name f' hf'
    by_cases hname : name = t.path
    · subst hname
      obtain rfl := Option.some.inj (Directory.file?_setFile_self.symm.trans hf')
      exact ⟨file, hfile, List.nil_prefix, fun hlinked ↦ by rw [hunlinked] at hlinked; cases hlinked⟩
    · rw [Directory.file?_setFile_ne hname] at hf'
      exact ⟨f', hf', List.prefix_rfl, fun _ ↦ f'.synced_le⟩
  · intro name f hf _
    by_cases hname : name = t.path
    · exact ⟨_, by rw [hname, Directory.file?_setFile_self]⟩
    · exact ⟨f, by rwa [Directory.file?_setFile_ne hname]⟩
  · intro name
    by_cases hname : name = t.path
    · rw [hname, Directory.lookup_setFile_self, Directory.file?_eq_some_iff.mp hfile]
      exact ⟨nofun, nofun⟩
    · rw [Directory.lookup_setFile_ne hname]
  · refine recoverWithMode_short h.valid hrest ?_ ?_ Directory.contents_setFile_self (by decide)
    · refine h.holds.lists.congr fun name ↦ ?_
      by_cases hname : name = t.path
      · rw [hname, Directory.contents_setFile_self, hsame]
        rfl
      · rw [hother name hname]
    · refine (Log.stored_append_iff.mp h.holds.stored).1.congr fun u hu ↦ hother _ ?_
      exact Log.path_ne_of_mem h.holds.lists hu

/-- **A durable batch can be lost.**  A thread is created durably and renamed twice
in the buffer, each time in a new segment.  A power failure that takes the bytes of
the second segment, whose entry was never synced, leaves a journal that does not
open any more. -/
theorem durable_batch_lost :
    ∃ receipt outcomes s d,
      run crates (.initial Sample.config (Sample.id .thread 0)) Sample.calls =
        (.appended (.ok (.committed receipt Sample.create.events)) :: outcomes, s) ∧
      Sample.calls.head? = some (.append Sample.create .durable .none) ∧
      Crash s.dir d ∧
      recoverWithMode crates Sample.config (Sample.id .thread 0) d .writer =
        .error (.corruptSegment (segmentName 1) 0 "incomplete segment header") := by
  obtain ⟨r₁, r₂, r₃, s, t₀, t₁, t₂, hrun, hstage, hpath, hlinked⟩ := Sample.run_calls
  obtain ⟨file, hfile, hunlinked⟩ := Option.map_eq_some_iff.mp hlinked
  obtain ⟨d, hcrash, hfails⟩ := exists_crash_of_unlinked [t₀] [t₂] hstage.represents
    (by simp) (hpath ▸ hfile) hunlinked
  rw [hstage.config_eq, hstage.threadId_eq, hpath] at hfails
  exact ⟨r₁, _, s, d, hrun, rfl, hcrash, hfails⟩

end Praxis.Journal
