import Praxis.Journal.Calls
import Praxis.Journal.Soundness

/-!
# Runs of a writer

A run is a list of calls on one open journal.  From the specification of a single
call follows that every run from an empty directory, whose compensating operations
succeed, ends in a system that represents a log with exactly the committed events
(`run_represents`).

Two results about the files of such a run follow.

* `reopen_refines_writer`: recovering them gives back what the writer had in
  memory.
* `torn_tail_recovery`: recovering them with the last file cut anywhere gives back
  the batches that are still whole.
-/

namespace Praxis.Journal

open Foundation Contracts

variable {X : Externals}

/-! ## Calls -/

/-- A call on an open journal, with the file operations that fail in it. -/
inductive Call where
  | append (batch : JournalBatch) (durability : JournalDurability) (faults : Faults)
  | sync (faults : Faults)
deriving DecidableEq

/-- What a call returns. -/
inductive Outcome where
  | appended (result : Except JournalError AppendOutcome)
  | synced (result : Except JournalError DurabilityBarrier)

namespace Call

def faults : Call → Faults
  | append _ _ faults => faults
  | sync faults => faults

/-- Run a call. -/
def exec (X : Externals) (s : System) : Call → Outcome × System
  | append batch durability faults =>
    let (result, s) := Journal.append X faults s batch durability
    (.appended result, s)
  | sync faults =>
    let (result, s) := Journal.sync faults s
    (.synced result, s)

end Call

/-- The events a call has committed. -/
def Outcome.committed : Outcome → List ThreadEventEnvelope
  | .appended (.ok (.committed _ events)) => events
  | _ => []

/-- Run calls one after another. -/
def run (X : Externals) (s : System) : List Call → List Outcome × System
  | [] => ([], s)
  | call :: calls =>
    let (outcome, s) := call.exec X s
    let (outcomes, s) := run X s calls
    (outcome :: outcomes, s)

theorem exec_append_eq {s s' : System} {batch : JournalBatch} {durability : JournalDurability}
    {faults : Faults} {result : Except JournalError AppendOutcome}
    (h : append X faults s batch durability = (result, s')) :
    (Call.append batch durability faults).exec X s = (.appended result, s') := by
  simp only [Call.exec, h]

theorem run_cons_eq {s s' s'' : System} {call : Call} {calls : List Call} {outcome : Outcome}
    {outcomes : List Outcome} (h : call.exec X s = (outcome, s'))
    (hcalls : run X s' calls = (outcomes, s'')) :
    run X s (call :: calls) = (outcome :: outcomes, s'') := by
  simp only [run, h, hcalls]

/-- The events of the committed batches of a run, in commit order. -/
def committedEvents (outcomes : List Outcome) : List ThreadEventEnvelope :=
  outcomes.flatMap Outcome.committed

theorem events_append_frames {log log' : Log X} {frames : List (Frame X)}
    (h : log'.frames = log.frames ++ frames) :
    log'.events = log.events ++ frames.flatMap Frame.events := by
  rw [Log.events, Log.events, h, List.flatMap_append]

/-- The log after an append has the events the append has committed. -/
theorem Appends.events_eq {batch : JournalBatch} {durability : JournalDurability} {s s' : System}
    {log log' : Log X} {result : Except JournalError AppendOutcome}
    (h : Appends X batch durability s log result s' log') :
    log'.events = log.events ++ (Outcome.appended result).committed := by
  cases h with
  | found f =>
    split <;> simp [Outcome.committed]
  | failed selects => simp [Outcome.committed, Log.events, selects.frames_eq]
  | @committed s₁ s' init t selects f =>
    have hframes : Log.frames (init ++ [t.push f]) = log.frames ++ [f] := by
      rw [frames_push, selects.frames_eq]
    simp [events_append_frames hframes, Outcome.committed]

/-- What one call does to a log. -/
theorem exec_represents (hX : X.RoundTrips) {s : System} {log : Log X} (h : s.Represents log)
    {call : Call} (hfaults : call.faults.Compensated) :
    (call.exec X s).2.journal.config = s.journal.config ∧
      (call.exec X s).2.journal.threadId = s.journal.threadId ∧
      ∃ log' : Log X, (call.exec X s).2.Represents log' ∧
        log'.events = log.events ++ (call.exec X s).1.committed := by
  cases call with
  | append batch durability faults =>
    obtain ⟨log', happends, h'⟩ := append_spec hX hfaults h batch durability
    exact ⟨happends.journal_eq.1, happends.journal_eq.2, log', h', happends.events_eq⟩
  | sync faults =>
    have hsync := sync_spec faults s
    exact ⟨hsync.journal_eq.1, hsync.journal_eq.2, log, hsync.represents h,
      by simp [Call.exec, Outcome.committed]⟩

/-- What a run does to a log. -/
theorem run_represents (hX : X.RoundTrips) {calls : List Call}
    (hcalls : ∀ call ∈ calls, call.faults.Compensated) {s : System} {log : Log X}
    (h : s.Represents log) :
    (run X s calls).2.journal.config = s.journal.config ∧
      (run X s calls).2.journal.threadId = s.journal.threadId ∧
      ∃ log' : Log X, (run X s calls).2.Represents log' ∧
        log'.events = log.events ++ committedEvents (run X s calls).1 := by
  induction calls generalizing s log with
  | nil => exact ⟨rfl, rfl, log, h, by simp [run, committedEvents]⟩
  | cons call calls ih =>
    obtain ⟨hconfig, hthread, log₁, h₁, hevents₁⟩ := exec_represents hX h (hcalls call (by simp))
    obtain ⟨hconfig', hthread', log', h', hevents'⟩ :=
      ih (fun c hc ↦ hcalls c (List.mem_cons_of_mem _ hc)) h₁
    refine ⟨hconfig'.trans hconfig, hthread'.trans hthread, log', h', ?_⟩
    rw [hevents', hevents₁, List.append_assoc]
    rfl

/-! ## Runs from an empty directory -/

section Initial

variable (config : JournalConfig) (threadId : ThreadId)

variable {config} in
theorem openAndFold_empty (hconfig : validateConfig config = .ok ()) :
    openAndFold X config threadId ∅ = .ok (System.initial config threadId, []) := by
  simp only [openAndFold, hconfig]
  rfl

/-- The log of a run from an empty directory. -/
theorem run_initial_represents (hX : X.RoundTrips) {calls : List Call}
    (hcalls : ∀ call ∈ calls, call.faults.Compensated) :
    (run X (System.initial config threadId) calls).2.journal.config = config ∧
      (run X (System.initial config threadId) calls).2.journal.threadId = threadId ∧
      ∃ log : Log X, (run X (System.initial config threadId) calls).2.Represents log ∧
        log.events = committedEvents (run X (System.initial config threadId) calls).1 := by
  obtain ⟨hconfig, hthread, log, hlog, hevents⟩ := run_represents hX hcalls
    (initial_represents (X := X) config threadId)
  exact ⟨hconfig, hthread, log, hlog, by simpa [Log.events] using hevents⟩

end Initial

/-- A thread is created durably and renamed twice in the buffer. -/
def Sample.calls : List Call :=
  [.append create .durable .none, .append rename .buffered .none, .append renameAgain .buffered .none]

theorem Sample.run_calls : ∃ r₁ r₂ r₃ s t₀ t₁ t₂,
    run crates (.initial config (id .thread 0)) calls =
      ([.appended (.ok (.committed r₁ create.events)),
        .appended (.ok (.committed r₂ rename.events)),
        .appended (.ok (.committed r₃ renameAgain.events))], s) ∧
    Stage s [t₀, t₁, t₂] (headAfter renameAgain.events) ∧ t₁.path = segmentName 1 ∧
    (s.dir.file? (segmentName 1)).map File.linked = some false := by
  obtain ⟨r₁, s₁, f₁, happend₁, -, hid₁, hstage₁⟩ := append_create
  obtain ⟨r₂, s₂, f₂, happend₂, -, hid₂, hstage₂, hlinked₂⟩ :=
    hstage₁.append 2 (.setName none) (.threadNameSet none) .buffered
      (by simp [Log.frames, hid₁]; decide) (by decide +kernel) size_rename
  obtain ⟨r₃, s₃, f₃, happend₃, -, -, hstage₃, hlinked₃⟩ :=
    hstage₂.append 3 (.setName none) (.threadNameSet none) .buffered
      (by simp [Log.frames, hid₁, hid₂]; decide) (by decide +kernel) size_renameAgain
  replace happend₂ : append crates .none s₁ rename .buffered =
      (.ok (.committed r₂ rename.events), s₂) := happend₂
  replace happend₃ : append crates .none s₂ renameAgain .buffered =
      (.ok (.committed r₃ renameAgain.events), s₃) := happend₃
  refine ⟨r₁, r₂, r₃, s₃, _, _, _, ?_, hstage₃, rfl, ?_⟩
  · exact run_cons_eq (exec_append_eq happend₁) (run_cons_eq (exec_append_eq happend₂)
      (run_cons_eq (exec_append_eq happend₃) rfl))
  · have hne : segmentName 1 ≠ segmentName 2 := by decide
    calc (s₃.dir.file? (segmentName 1)).map File.linked
        = (s₂.dir.file? (segmentName 1)).map File.linked := (hlinked₃ rfl _).trans (if_neg hne)
      _ = some false := (hlinked₂ rfl _).trans (if_pos rfl)

/-- **Reopening refines the writer.**  Whatever calls are made on a journal opened
on an empty directory, as long as failed calls are undone: recovering any
directory with the same contents succeeds, gives the head and the segment list
the writer has, visits exactly the committed events in commit order, and leads to
the same receipt for every command. -/
theorem reopen_refines_writer (X : Externals) (hX : X.RoundTrips) (config : JournalConfig)
    (threadId : ThreadId) (hconfig : validateConfig config = .ok ()) (calls : List Call)
    (hcalls : ∀ call ∈ calls, call.faults.Compensated) :
    openAndFold X config threadId ∅ = .ok (System.initial config threadId, []) ∧
    ∀ d : Directory,
      (∀ name, d.contents name =
        (run X (System.initial config threadId) calls).2.dir.contents name) →
      ∃ r, recoverWithMode X config threadId d .writer = .ok r ∧
        r.state.head = (run X (System.initial config threadId) calls).2.journal.head ∧
        r.state.segments = (run X (System.initial config threadId) calls).2.journal.segments ∧
        r.visited = committedEvents (run X (System.initial config threadId) calls).1 ∧
        ∀ commandId, (openRecovered config threadId r.state).receipt X r.dir commandId =
          (run X (System.initial config threadId) calls).2.journal.receipt X
            (run X (System.initial config threadId) calls).2.dir commandId := by
  refine ⟨openAndFold_empty threadId hconfig, ?_⟩
  obtain ⟨hconf, hthread, log, hlog, hevents⟩ := run_initial_represents config threadId hX hcalls
  generalize run X (System.initial config threadId) calls = result at *
  obtain ⟨outcomes, s⟩ := result
  simp only at *
  intro d hd
  have hvalid : log.Valid X config threadId := hconf ▸ hthread ▸ hlog.valid
  have hholds : log.Holds d threadId := by
    rw [← hthread]
    exact ⟨hlog.holds.lists.congr fun name ↦ by rw [hd], hlog.holds.stored.congr fun _ _ ↦ hd _⟩
  obtain ⟨r, hrecover, hvisited, hhead, hwriter, -⟩ := recoverWithMode_holds .writer hvalid hholds
  obtain ⟨hstate, hdir⟩ := hwriter rfl
  refine ⟨r, hrecover, hhead.trans hlog.head_eq.symm, ?_, hvisited.trans hevents, fun id ↦ ?_⟩
  · rw [hstate]
    exact hlog.segments_eq.symm
  · rw [hstate]
    exact hlog.receipt_congr (.of_recovered hvalid hdir) id

/-- The journal of a thread that is created and renamed twice. -/
theorem reopen_refines_writer_calls : ∃ r,
    recoverWithMode crates Sample.config (Sample.id .thread 0)
      (run crates (.initial Sample.config (Sample.id .thread 0)) Sample.calls).2.dir .writer =
        .ok r ∧
    r.visited = Sample.create.events ++ Sample.rename.events ++ Sample.renameAgain.events := by
  obtain ⟨-, hreopen⟩ := reopen_refines_writer crates crates_roundTrips Sample.config
    (Sample.id .thread 0) rfl Sample.calls (by decide)
  obtain ⟨r, hrecover, -, -, hvisited, -⟩ := hreopen _ fun _ ↦ rfl
  refine ⟨r, hrecover, hvisited.trans ?_⟩
  obtain ⟨r₁, r₂, r₃, s, t₀, t₁, t₂, hrun, -⟩ := Sample.run_calls
  rw [hrun]
  simp [committedEvents, Outcome.committed]

/-! ## Torn tails -/

/-- The longest run of whole frames within a number of bytes. -/
structure LongestWhole (frames : List (Frame X)) (n : Nat) (kept : List (Frame X)) : Prop where
  isPrefix : kept <+: frames
  fits : (framesBytes kept).length ≤ n
  longest : ∀ whole, whole <+: frames → (framesBytes whole).length ≤ n → whole <+: kept

theorem longestWhole_wholeChunks (frames : List (Frame X)) (n : Nat) :
    LongestWhole frames n (wholeChunks Frame.bytes n frames) :=
  ⟨wholeChunks_isPrefix _ _ _, wholeChunks_length_le _ _, fun _ ↦ isPrefix_wholeChunks⟩

/-- The second directory is the first one with a file cut at a length. -/
structure CutFile (d : Directory) (path : FileName) (n : Nat) (d' : Directory) : Prop where
  cut : d'.contents path = (d.contents path).map (List.take n)
  other : ∀ name ≠ path, d'.contents name = d.contents name

/-- What is left of a log whose last file was cut: its whole frames. -/
theorem frames_cutLast (init : Log X) (t : LogSegment X) (n : Nat) :
    Log.frames (init ++ Log.cutLast t n) =
      Log.frames init ++ wholeChunks Frame.bytes (n - segmentHeaderLen) t.frames := by
  rw [Log.frames_append, Log.cutLast]
  split
  · rename_i hn
    -- not even the header is left, and no frame fits into nothing
    have hnil : wholeChunks Frame.bytes (n - segmentHeaderLen) t.frames = [] := by
      rw [Nat.sub_eq_zero_of_le (Nat.le_of_lt hn)]
      cases t.frames with
      | nil => rfl
      | cons f frames =>
        have hpos := f.len_pos
        rw [Frame.len] at hpos
        rw [wholeChunks, if_neg (by omega)]
    rw [hnil]
    rfl
  · simp [LogSegment.cut]

/-- **Recovery of a torn tail is exact.**  The last file of a run holds a header
and the frames of the last committed batches.  When it is cut at any length, a
writer recovers exactly the batches whose frames are still whole, with the head
behind them; recovering the repaired files once more gives the same; and a
snapshot visits the same events and changes no file. -/
theorem torn_tail_recovery (X : Externals) (hX : X.RoundTrips) (config : JournalConfig)
    (threadId : ThreadId) (hconfig : validateConfig config = .ok ()) (calls : List Call)
    (hcalls : ∀ call ∈ calls, call.faults.Compensated) (last : SegmentInfo)
    (hlast : (run X (System.initial config threadId) calls).2.journal.segments.getLast? =
      some last) :
    openAndFold X config threadId ∅ = .ok (System.initial config threadId, []) ∧
    ∃ (header : Bytes) (before : List ThreadEventEnvelope) (frames : List (Frame X)),
      header.length = segmentHeaderLen ∧
      (run X (System.initial config threadId) calls).2.dir.contents last.path =
        some (header ++ framesBytes frames) ∧
      before ++ frames.flatMap Frame.events =
        committedEvents (run X (System.initial config threadId) calls).1 ∧
      ∀ n d, CutFile (run X (System.initial config threadId) calls).2.dir last.path n d →
        ∃ kept, LongestWhole frames (n - segmentHeaderLen) kept ∧
        ∃ r, recoverWithMode X config threadId d .writer = .ok r ∧
          r.visited = before ++ kept.flatMap Frame.events ∧
          r.state.head = headAfter r.visited ∧
          (∃ again, recoverWithMode X config threadId r.dir .writer = .ok again ∧
            again.state = r.state ∧ again.visited = r.visited) ∧
          ∃ seen, recoverWithMode X config threadId d .snapshot = .ok seen ∧
            seen.visited = r.visited ∧ seen.dir = d := by
  refine ⟨openAndFold_empty threadId hconfig, ?_⟩
  obtain ⟨hconf, hthread, log, hlog, hevents⟩ := run_initial_represents config threadId hX hcalls
  generalize run X (System.initial config threadId) calls = result at *
  obtain ⟨outcomes, s⟩ := result
  simp only at *
  rcases List.eq_nil_or_concat log with rfl | ⟨init, t, rfl⟩
  · rw [hlog.segments_eq] at hlast
    cases hlast
  rw [List.concat_eq_append] at *
  obtain rfl : t.info init.length (Log.head init) = last := by
    rw [hlog.segments_eq, getLast?_infos] at hlast
    exact Option.some.inj hlast
  have hvalid : Log.Valid X config threadId (init ++ [t]) := hconf ▸ hthread ▸ hlog.valid
  have hholds : Log.Holds s.dir threadId (init ++ [t]) := hthread ▸ hlog.holds
  have hcut := Log.HoldsCut.of_holds hholds
  have hfile : s.dir.contents t.path = some (t.data threadId init.length (Log.head init)) := by
    rw [hcut.last, List.take_of_length_le (by simp)]
  refine ⟨_, Log.events init, t.frames, encodeSegmentHeader_length _, hfile, ?_, ?_⟩
  · rw [← hevents]
    simp [Log.events]
  intro n d hd
  replace hd : CutFile s.dir t.path n d := hd
  have hcutd : Log.HoldsCut d threadId init t n := by
    refine ⟨hholds.lists.congr fun name ↦ ?_, hcut.stored.congr fun u hu ↦ ?_, ?_⟩
    · by_cases hname : name = t.path
      · rw [hname, hd.cut]
        exact Option.isSome_map
      · rw [hd.other name hname]
    · exact hd.other _ (Log.path_ne_of_mem hholds.lists hu)
    · rw [hd.cut]
      exact congrArg _ hfile
  have hkept : Log.events (init ++ Log.cutLast t n) = Log.events init ++
      (wholeChunks Frame.bytes (n - segmentHeaderLen) t.frames).flatMap Frame.events := by
    rw [Log.events, frames_cutLast, List.flatMap_append]
    rfl
  have hvalid' := hvalid.cutLast n
  obtain ⟨r, hrecover, hvisited, hhead, hwriter, -⟩ := recoverWithMode_cut .writer hvalid hcutd
  obtain ⟨hstate, hdir⟩ := hwriter rfl
  obtain ⟨again, hagain, hvisited', -, hwriter', -⟩ := recoverWithMode_holds .writer hvalid' hdir
  obtain ⟨seen, hseen, hvisited'', -, -, hsame⟩ := recoverWithMode_cut .snapshot hvalid hcutd
  refine ⟨_, longestWhole_wholeChunks _ _, r, hrecover, hvisited.trans hkept, ?_,
    ⟨again, hagain, ?_, hvisited'.trans hvisited.symm⟩,
    seen, hseen, hvisited''.trans hvisited.symm, hsame rfl⟩
  · rw [hhead, hvisited]
    exact headAfter_of_eventSteps (events_of_steps (frames_of_segments hvalid'.segments)) (.inl rfl)
  · rw [hstate, (hwriter' rfl).1]

/-- The last file of the journal of a thread that is created and renamed twice. -/
theorem torn_tail_recovery_calls : ∃ last,
    (run crates (.initial Sample.config (Sample.id .thread 0)) Sample.calls).2.journal.segments.getLast? =
      some last ∧
    ∀ n d, CutFile (run crates (.initial Sample.config (Sample.id .thread 0)) Sample.calls).2.dir
      last.path n d →
      ∃ r, recoverWithMode crates Sample.config (Sample.id .thread 0) d .writer = .ok r ∧
        r.state.head = headAfter r.visited := by
  obtain ⟨last, hlast⟩ : ∃ last, (run crates (.initial Sample.config (Sample.id .thread 0))
      Sample.calls).2.journal.segments.getLast? = some last := by
    obtain ⟨r₁, r₂, r₃, s, t₀, t₁, t₂, hrun, hstage, -⟩ := Sample.run_calls
    rw [hrun, hstage.represents.segments_eq]
    exact ⟨_, rfl⟩
  refine ⟨last, hlast, fun n d hcut ↦ ?_⟩
  obtain ⟨-, header, before, frames, -, -, -, hrecover⟩ := torn_tail_recovery crates
    crates_roundTrips Sample.config (Sample.id .thread 0) rfl Sample.calls (by decide) last hlast
  obtain ⟨kept, -, r, hr, -, hhead, -⟩ := hrecover n d hcut
  exact ⟨r, hr, hhead⟩

end Praxis.Journal
