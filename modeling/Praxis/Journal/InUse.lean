import Praxis.Journal.ExactlyOnce
import Praxis.Journal.Soundness

/-!
# Journals in use

`InUse` is every system a journal can be in: it was opened on a directory with
whatever files, and calls were made on it whose compensating operations
succeeded.  Recovery accepts nothing but journals, so such a system represents a
log (`InUse.sound`), also when the directory comes from a power failure.

The only thing asked of the directory is that nothing but a file has the name of
a segment, or else no new segment could be created under that name.
-/

namespace Praxis.Journal

open Foundation Contracts

variable {X : Externals}

/-! ## Names of segments -/

/-- Nothing but a file has the name of a segment. -/
def Unobstructed (d : Directory) : Prop := ∀ n, d.lookup (segmentName n) ≠ some .other

namespace Unobstructed

variable {d d' : Directory}

theorem setFile (h : Unobstructed d) (name : FileName) (f : File) :
    Unobstructed (d.setFile name f) := by
  intro n
  by_cases hname : segmentName n = name
  · rw [hname, Directory.lookup_setFile_self]
    exact nofun
  · rw [Directory.lookup_setFile_ne hname]
    exact h n

theorem remove (h : Unobstructed d) (name : FileName) : Unobstructed (d.remove name) := by
  intro n
  by_cases hname : segmentName n = name
  · rw [hname, Directory.lookup_remove_self]
    exact nofun
  · rw [Directory.lookup_remove_ne hname]
    exact h n

theorem harden (h : Unobstructed d) (hdir : d.Hardens d') : Unobstructed d' := by
  intro n hother
  have hrel := hdir (segmentName n)
  rw [hother] at hrel
  generalize hnode : d.lookup (segmentName n) = node at hrel
  rcases hrel with (_ | _) | _
  exact h n hnode

end Unobstructed

section Recover

variable {config : JournalConfig} {threadId : ThreadId} {d d' : Directory} {scan scan' : Scan}

theorem Unobstructed.recoverSegment {path : FileName} {sequence : Nat} {isLast : Bool}
    {mode : RecoveryMode} (hd : Unobstructed d)
    (h : recoverSegment X config threadId path sequence isLast mode d scan = .ok (d', scan')) :
    Unobstructed d' := by
  unfold Journal.recoverSegment at h
  split at h; · cases h
  split at h; · cases h
  split at h; · cases h
  unfold finishSegment at h
  split at h
  · cases h
  · rename_i dir htail
    have hdir : Unobstructed dir := by
      split at htail
      · unfold handleIncompleteTail at htail
        split at htail
        · cases htail
        · cases mode with
          | writer =>
            obtain rfl := Except.ok.inj htail
            exact hd.setFile _ _
          | snapshot =>
            obtain rfl := Except.ok.inj htail
            exact hd
      · obtain rfl := Except.ok.inj htail
        exact hd
    split at h
    · cases h
    · cases mode with
      | writer =>
        obtain ⟨rfl, -⟩ := Prod.mk.inj (Except.ok.inj h)
        exact hdir
      | snapshot =>
        obtain ⟨rfl, -⟩ := Prod.mk.inj (Except.ok.inj h)
        exact hdir

/-- A recovery puts nothing but files in place. -/
theorem Unobstructed.recoverSegments {sequence : Nat} {paths : List (Nat × FileName)}
    {mode : RecoveryMode} (hd : Unobstructed d)
    (h : recoverSegments X config threadId mode sequence paths d scan = .ok (d', scan')) :
    Unobstructed d' := by
  induction paths generalizing sequence d scan with
  | nil =>
    obtain ⟨rfl, -⟩ := Prod.mk.inj (Except.ok.inj h)
    exact hd
  | cons path paths ih =>
    unfold Journal.recoverSegments at h
    split at h; · cases h
    split at h; · cases h
    split at h
    · cases mode with
      | writer =>
        obtain ⟨rfl, -⟩ := Prod.mk.inj (Except.ok.inj h)
        exact (hd.remove _).harden (.sync _)
      | snapshot =>
        obtain ⟨rfl, -⟩ := Prod.mk.inj (Except.ok.inj h)
        exact hd
    · split at h
      · cases h
      · rename_i hsegment
        exact ih (hd.recoverSegment hsegment) h

end Recover

/-! ## The invariant -/

/-- The systems that an open journal can be in. -/
inductive InUse (X : Externals) : System → Prop
  /-- A journal that was opened on whatever files its directory holds. -/
  | opened {config : JournalConfig} {threadId : ThreadId} {d : Directory} {s : System}
    {events : List ThreadEventEnvelope} (unobstructed : Unobstructed d)
    (open_eq : openAndFold X config threadId d = .ok (s, events)) : InUse X s
  /-- A call whose compensating operations succeeded. -/
  | called {s : System} (call : Call) (inUse : InUse X s) (compensated : call.faults.Compensated) :
    InUse X (call.exec X s).2

/-- What holds of a journal in use. -/
structure System.Sound (s : System) (log : Log X) : Prop where
  represents : s.Represents log
  pending_lt : ∀ i ∈ s.journal.pendingSyncs, i < s.journal.segments.length
  unobstructed : Unobstructed s.dir

namespace System.Sound

variable {s s' : System} {log log' : Log X}

theorem harden (h : s.Sound log) (hjournal : s'.journal = s.journal)
    (hdir : s.dir.Hardens s'.dir) : s'.Sound log :=
  ⟨h.represents.harden hjournal hdir, hjournal ▸ h.pending_lt, h.unobstructed.harden hdir⟩

theorem select (h : s.Sound log) (hselects : Selects X s log s' log') : s'.Sound log' := by
  refine ⟨hselects.represents h.represents, hselects.pending_lt h.pending_lt, ?_⟩
  cases hselects with
  | same => exact h.unobstructed
  | rotated _ dir_eq =>
    rw [dir_eq]
    exact h.unobstructed.setFile _ _

theorem commit {init : Log X} {t : LogSegment X} {durability : JournalDurability}
    (h : s.Sound (init ++ [t])) (hcommits : Commits durability s t.path init.length s')
    (h' : s'.Represents log') : s'.Sound log' := by
  have hlength : init.length < s.journal.segments.length := by
    rw [h.represents.segments_eq]
    simp
  refine ⟨h', hcommits.pending_lt hlength h.pending_lt, fun n hother ↦ ?_⟩
  obtain ⟨_, file', _, hfile', -⟩ := hcommits.file
  by_cases hname : segmentName n = t.path
  · rw [hname, Directory.file?_eq_some_iff.mp hfile'] at hother
    cases hother
  · have hrel := hcommits.other _ hname
    rw [hother] at hrel
    generalize hnode : s.dir.lookup (segmentName n) = node at hrel
    rcases hrel with (_ | _) | _
    exact h.unobstructed n hnode

theorem append {batch : JournalBatch} {durability : JournalDurability}
    {result : Except JournalError AppendOutcome} (h : s.Sound log)
    (happends : Appends X batch durability s log result s' log') (h' : s'.Represents log') :
    s'.Sound log' := by
  cases happends with
  | found => exact h
  | failed selects _ journal_eq hardens => exact (h.select selects).harden journal_eq hardens
  | committed selects f _ _ _ _ commits => exact (h.select selects).commit commits h'

theorem sync {result : Except JournalError DurabilityBarrier} (h : s.Sound log)
    (hsync : Syncs s result s') : s'.Sound log := by
  refine ⟨hsync.represents h.represents, ?_, ?_⟩
  · cases hsync with
    | clean => exact h.pending_lt
    | synced journal_eq =>
      rw [journal_eq]
      exact nofun
    | failed journal_eq =>
      rw [journal_eq]
      exact h.pending_lt
  · cases hsync with
    | clean => exact h.unobstructed
    | synced _ hardens => exact h.unobstructed.harden hardens
    | failed _ hardens => exact h.unobstructed.harden hardens

end System.Sound

/-- Whatever a directory held, a journal opened on it represents the log whose events
were visited. -/
theorem represents_of_openAndFold {config : JournalConfig} {threadId : ThreadId} {d : Directory}
    {s : System} {events : List ThreadEventEnvelope}
    (h : openAndFold X config threadId d = .ok (s, events)) :
    ∃ log : Log X, s.Represents log ∧ log.events = events := by
  unfold openAndFold at h
  split at h; · cases h
  split at h
  · cases h
  · rename_i r hrecover
    obtain ⟨log, hvalid, hholds, hstate, hvisited, -⟩ := exists_log_of_recoverWithMode hrecover
    obtain ⟨rfl, rfl⟩ := Prod.mk.inj (Except.ok.inj h)
    rw [hstate]
    exact ⟨log, .of_recovered hvalid hholds, hvisited.symm⟩

/-- A journal that was just opened has nothing to sync and nothing in the way of its
segments. -/
theorem sound_of_openAndFold {config : JournalConfig} {threadId : ThreadId} {d : Directory}
    {s : System} {events : List ThreadEventEnvelope} (hd : Unobstructed d)
    (h : openAndFold X config threadId d = .ok (s, events)) : ∃ log : Log X, s.Sound log := by
  obtain ⟨log, hrepresents, -⟩ := represents_of_openAndFold h
  refine ⟨log, hrepresents, ?_, ?_⟩
  all_goals
    unfold openAndFold at h
    split at h; · cases h
    split at h; · cases h
    rename_i r hrecover
    obtain ⟨rfl, -⟩ := Prod.mk.inj (Except.ok.inj h)
  · exact nofun
  · unfold recoverWithMode at hrecover
    split at hrecover; · cases hrecover
    split at hrecover
    · cases hrecover
    · rename_i hsegments
      obtain rfl := Except.ok.inj hrecover
      exact hd.recoverSegments hsegments

/-- A journal in use represents a log. -/
theorem InUse.sound (hX : X.RoundTrips) {s : System} (h : InUse X s) :
    ∃ log : Log X, s.Sound log := by
  induction h with
  | opened unobstructed open_eq => exact sound_of_openAndFold unobstructed open_eq
  | @called s call _ compensated ih =>
    obtain ⟨log, hlog⟩ := ih
    cases call with
    | append batch durability faults =>
      obtain ⟨log', happends, hlog'⟩ :=
        append_spec hX compensated hlog.represents batch durability
      exact ⟨log', hlog.append happends hlog'⟩
    | sync faults => exact ⟨log, hlog.sync (sync_spec faults s)⟩

/-! ## Recovering -/

/-- What a recovery makes of a directory: the events it visits and the head. -/
def recovery (X : Externals) (config : JournalConfig) (threadId : ThreadId) (d : Directory)
    (mode : RecoveryMode) : Except JournalError (List ThreadEventEnvelope × ThreadHead) :=
  (recoverWithMode X config threadId d mode).map fun r ↦ (r.visited, r.state.head)

/-- Recovering the files of a journal in use gives its log. -/
theorem System.Sound.recovery_eq {s : System} {log : Log X} (h : s.Sound log) (mode : RecoveryMode) :
    recovery X s.journal.config s.journal.threadId s.dir mode = .ok (log.events, log.head) := by
  obtain ⟨r, hrecover, hvisited, hhead, -⟩ :=
    recoverWithMode_holds mode h.represents.valid h.represents.holds
  rw [recovery, hrecover, ← hvisited, ← hhead]
  rfl

/-- A journal that was opened on an empty directory. -/
theorem InUse.initial {config : JournalConfig} (threadId : ThreadId)
    (hconfig : validateConfig config = .ok ()) : InUse X (.initial config threadId) := by
  refine .opened (d := ∅) (fun n ↦ ?_) (openAndFold_empty threadId hconfig)
  rw [AList.lookup_empty]
  exact nofun

/-- A journal in use that a batch was appended to. -/
theorem InUse.of_append {s s' : System} {batch : JournalBatch} {durability : JournalDurability}
    {faults : Faults} {result : Except JournalError AppendOutcome} (h : InUse X s)
    (hfaults : faults.Compensated)
    (happend : append X faults s batch durability = (result, s')) : InUse X s' := by
  have hcalled := h.called (.append batch durability faults) hfaults
  rwa [exec_append_eq happend] at hcalled

end Praxis.Journal
