import Praxis.Journal.Range
import Praxis.Store.Resume

/-!
# Opening a thread

`open_thread_and_fold_with_projection` (`store.rs`) opens the journal of a thread
and folds its events into two accumulators: the state of the caller, and the
projection of the thread.  The second starts with the projection that is stored in
the index, if there is one.  A stored projection that is ahead of the journal is
dropped, and the projection is rebuilt with a second pass over the journal.

Wherever the stored projection stands, the thread ends up with the projection of
the events that were recovered (`projection_resume_law`).
-/

namespace Praxis.Live

open Foundation Contracts Journal Store

/-! ## The call -/

/-- `ThreadSessionMetadataState`. -/
structure ThreadSessionMetadataState where
  name : Option Str
  model : Option Str
  modelProvider : Option Str
  reasoningEffort : Option Str
  dynamicToolsDigest : Option Digest
deriving DecidableEq

/-- `ModelContextFoldCoverage`. -/
inductive ModelContextFoldCoverage where
  | complete
  | checkpointed
  | checkpointInvalidated
deriving DecidableEq

/-- `model_context_fold_coverage`. -/
def modelContextFoldCoverage (opened recovered : Option ThreadRevision) :
    ModelContextFoldCoverage :=
  match opened with
  | none => .complete
  | some opened =>
    if recovered.any fun current ↦ opened.toNat ≤ current.toNat then .checkpointed
    else .checkpointInvalidated

/-- `RecoveredThreadState`. -/
structure RecoveredThreadState where
  summary : ThreadSummary
  nextAgentEventSequence : UInt64
deriving DecidableEq

/-- What opening a thread returns: the journal and the session metadata of the live
thread, the state of the caller, the coverage and the summary. -/
structure OpenedThread (σ : Type) where
  system : System
  sessionMetadata : ThreadSessionMetadataState
  state : σ
  coverage : ModelContextFoldCoverage
  summary : Option RecoveredThreadState

variable (X : Externals)

/-- `rebuild_index`. -/
def rebuildIndex (s : System) : Except JournalError ThreadIndexAccumulator :=
  let head := s.journal.head.revision
  if head = .zero then .ok .awaitingCreation
  else match ThreadRevisionRange.inclusive ⟨1⟩ head with
  | .error error => .error error
  | .ok range =>
    foldRange X s.journal.config s.journal.threadId range s.journal.head s.journal.segments s.dir
      .awaitingCreation (ThreadIndexAccumulator.push X.sha256)

/-- `ThreadIndexAccumulator::revision`. -/
def accumulatorRevision : ThreadIndexAccumulator → Option ThreadRevision
  | .projected projection => some projection.summary.revision
  | .awaitingCreation | .rejected => none

/-- The part of `open_thread_and_fold_with_projection` that reads the journal. -/
def recoverThread {σ : Type} (config : JournalConfig) (threadId : ThreadId) (d : Directory)
    (indexed : Option ThreadIndexProjection) (state : σ) (fold : σ → ThreadEventEnvelope → σ) :
    Except JournalError (System × ThreadIndexAccumulator × σ) :=
  match openAndFold X config threadId d with
  | .error error => .error error
  | .ok (s, events) =>
    let index := events.foldl (ThreadIndexAccumulator.push X.sha256)
      (indexed.elim .awaitingCreation .projected)
    let state := events.foldl fold state
    if (accumulatorRevision index).any fun revision ↦
        s.journal.head.revision.toNat < revision.toNat then
      match rebuildIndex X s with
      | .error error => .error error
      | .ok index => .ok (s, index, state)
    else .ok (s, index, state)

/-- The metadata of a thread that was recovered. -/
def sessionMetadataOf : Option ThreadIndexProjection → ThreadSessionMetadataState
  | none => ⟨none, none, none, none, none⟩
  | some projection =>
    { name := projection.summary.name
      model := projection.summary.model
      modelProvider := projection.summary.modelProvider
      reasoningEffort := projection.summary.reasoningEffort
      dynamicToolsDigest := projection.dynamicToolsDigest }

/-- The part of `open_thread_and_fold_with_projection` behind the recovery: the index is
brought up to date, and the thread is returned. -/
def finishOpen {sql : Sqlite} {σ : Type} (index : Index sql) (threadId : ThreadId)
    (indexed : Option ThreadIndexProjection) (s : System)
    (recovered : Option ThreadIndexProjection) (state : σ) :
    Except ThreadStoreError (OpenedThread σ × Index sql) := do
  let coverage := modelContextFoldCoverage (indexed.bind (·.modelContextCheckpoint))
    (recovered.bind (·.modelContextCheckpoint))
  let indexedRevision := indexed.map (·.summary.revision)
  let index ← match recovered with
    | some projection =>
      if indexedRevision ≠ some projection.summary.revision then index.synchronize projection
      else .ok index
    | none => .ok (if indexedRevision.isSome then index.remove threadId else index)
  return (
    { system := s
      sessionMetadata := sessionMetadataOf recovered
      state
      coverage
      summary := recovered.map fun projection ↦
        { summary := projection.summary
          nextAgentEventSequence := max (saturatingAdd projection.lastAgentSequence 1) 1 } },
    index)

/-- `open_thread_and_fold_with_projection`. -/
def openThreadAndFoldWithProjection {sql : Sqlite} {σ : Type} (index : Index sql)
    (config : JournalConfig) (threadId : ThreadId) (d : Directory)
    (indexed : Option ThreadIndexProjection) (initial : Option ThreadIndexProjection → σ)
    (fold : σ → ThreadEventEnvelope → σ) :
    Except ThreadStoreError (OpenedThread σ × Index sql) :=
  match recoverThread X config threadId d indexed (initial indexed) fold with
  | .error error => .error (.journal error)
  | .ok (s, accumulator, state) => finishOpen index threadId indexed s accumulator.finish state

/-! ## Where the stored projection stands -/

variable {X}

/-- The events of a log are numbered from one. -/
theorem contiguous_events {s : System} {log : Log X} (h : s.Represents log) :
    Contiguous log.events := by
  intro i hi
  simpa [ThreadHead.empty] using (getElem_of_eventSteps h.valid.eventSteps i hi).1

/-- The head of a journal is the number of its events. -/
theorem head_revision {s : System} {log : Log X} (h : s.Represents log) :
    s.journal.head.revision.toNat = log.events.length := by
  rw [h.head_eq]
  simpa [ThreadHead.empty] using (head_of_eventSteps h.valid.eventSteps).1

/-- Rebuilding folds all events. -/
theorem rebuildIndex_eq {s : System} {log : Log X} (h : s.Represents log) :
    rebuildIndex X s = .ok (ThreadIndexAccumulator.fold X.sha256 log.events) := by
  have hhead := head_revision h
  simp only [rebuildIndex]
  split
  · rename_i hzero
    rw [hzero, ThreadRevision.toNat_zero] at hhead
    rw [List.eq_nil_of_length_eq_zero hhead.symm]
    rfl
  · rename_i hzero
    have hpos : 1 ≤ s.journal.head.revision.toNat := by
      refine Nat.one_le_iff_ne_zero.mpr fun h0 ↦ hzero ?_
      rw [← ThreadRevision.toNat_inj, h0]
      rfl
    have hone : (ThreadRevision.mk 1).toNat = 1 := rfl
    have hrange : ThreadRevisionRange.inclusive ⟨1⟩ s.journal.head.revision =
        .ok ⟨⟨1⟩, s.journal.head.revision⟩ := by
      rw [ThreadRevisionRange.inclusive, if_neg (by decide), hone, if_neg (by omega)]
    have hall : log.events.filter
        (ThreadRevisionRange.contains ⟨⟨1⟩, s.journal.head.revision⟩) = log.events := by
      refine List.filter_eq_self.mpr fun event hmem ↦ ?_
      obtain ⟨i, hi, rfl⟩ := List.mem_iff_getElem.mp hmem
      rw [ThreadRevisionRange.contains, decide_eq_true_eq, contiguous_events h i hi, hhead]
      exact ⟨Nat.le_add_left 1 i, hi⟩
    have hvisit := visitRange_eq ⟨⟨1⟩, s.journal.head.revision⟩ h Nat.one_pos hpos (Nat.le_refl _)
    rw [hall] at hvisit
    simp only [hrange, foldRange, hvisit]
    rfl

/-- A stored projection: it belongs to the first events of the journal, or it is ahead of
all of them. -/
def Stored (sha256 : Bytes → Digest) (events : List ThreadEventEnvelope) (head : ThreadHead)
    (p : ThreadIndexProjection) : Prop :=
  (∃ k, (ThreadIndexAccumulator.fold sha256 (events.take k)).finish = some p) ∨
    head.revision.toNat < p.summary.revision.toNat

/-- Recovering a thread ends with the projection of its events. -/
theorem recoverThread_eq {σ : Type} {config : JournalConfig} {threadId : ThreadId} {d : Directory}
    {s : System} {events : List ThreadEventEnvelope}
    (hopen : openAndFold X config threadId d = .ok (s, events))
    {indexed : Option ThreadIndexProjection}
    (hindexed : ∀ p ∈ indexed, Stored X.sha256 events s.journal.head p)
    (state : σ) (fold : σ → ThreadEventEnvelope → σ) :
    recoverThread X config threadId d indexed state fold =
      .ok (s, ThreadIndexAccumulator.fold X.sha256 events, events.foldl fold state) := by
  obtain ⟨log, hrepresents, rfl⟩ := represents_of_openAndFold hopen
  have hcontiguous := contiguous_events hrepresents
  have hhead := head_revision hrepresents
  -- a fold of the events is never ahead of them
  have hnot : ¬ (accumulatorRevision (ThreadIndexAccumulator.fold X.sha256 log.events)).any
      (fun revision ↦ s.journal.head.revision.toNat < revision.toNat) = true := by
    cases hfold : ThreadIndexAccumulator.fold X.sha256 log.events with
    | projected p =>
      have hrevision := ThreadIndexAccumulator.fold_revision hcontiguous hfold
      simp only [accumulatorRevision, Option.any_some, decide_eq_true_eq]
      omega
    | awaitingCreation => exact nofun
    | rejected => exact nofun
  simp only [recoverThread, hopen]
  cases indexed with
  | none =>
    rw [Option.elim_none]
    exact if_neg hnot
  | some p =>
    rw [Option.elim_some]
    rcases hindexed p rfl with ⟨k, hk⟩ | hahead
    · rw [ThreadIndexAccumulator.fold_resume hcontiguous hk]
      exact if_neg hnot
    · have hsame : log.events.foldl (ThreadIndexAccumulator.push X.sha256) (.projected p) =
          .projected p := by
        refine ThreadIndexAccumulator.foldl_push_of_le X.sha256 fun event hmem ↦ ?_
        obtain ⟨i, hi, rfl⟩ := List.mem_iff_getElem.mp hmem
        rw [hcontiguous i hi]
        omega
      rw [hsame, if_pos (by simpa [accumulatorRevision] using hahead), rebuildIndex_eq hrepresents]

/-- **Projections resume.**  Seeding the accumulator with the projection of the first events
of a contiguous sequence and pushing all events gives what folding them gives.  So a thread
that is opened with a stored projection of a part of its journal, or with one that is ahead
of the journal, ends with the projection of all recovered events, as it does without one:
this projection is what the index is brought up to, and what the session metadata and the
summary are read from. -/
theorem projection_resume_law (X : Externals) :
    (∀ events k p, Contiguous events → k ≤ events.length →
      (ThreadIndexAccumulator.fold X.sha256 (events.take k)).finish = some p →
      events.foldl (ThreadIndexAccumulator.push X.sha256) (.projected p) =
        ThreadIndexAccumulator.fold X.sha256 events) ∧
    ∀ (sql : Sqlite) (index : Index sql) (config : JournalConfig) (threadId : ThreadId)
      (d : Directory) (s : System) (events : List ThreadEventEnvelope),
      openAndFold X config threadId d = .ok (s, events) →
      ∀ indexed : Option ThreadIndexProjection,
        (∀ p ∈ indexed, Stored X.sha256 events s.journal.head p) →
        ∀ (σ : Type) (initial : Option ThreadIndexProjection → σ)
          (fold : σ → ThreadEventEnvelope → σ),
          openThreadAndFoldWithProjection X index config threadId d indexed initial fold =
            finishOpen index threadId indexed s
              (ThreadIndexAccumulator.fold X.sha256 events).finish
              (events.foldl fold (initial indexed)) := by
  constructor
  · intro events k p hcontiguous _ hk
    exact ThreadIndexAccumulator.fold_resume hcontiguous hk
  · intro sql index config threadId d s events hopen indexed hindexed σ initial fold
    rw [openThreadAndFoldWithProjection, recoverThread_eq hopen hindexed]

/-- The projection of a created thread, before and after its journal is lost. -/
theorem projection_resume_law_create : ∃ p,
    (ThreadIndexAccumulator.fold crates.sha256 Sample.create.events).finish = some p ∧
    Sample.create.events.foldl (ThreadIndexAccumulator.push crates.sha256) (.projected p) =
      .projected p ∧
    ∀ (sql : Sqlite) (index : Index sql), ∃ opened,
      openThreadAndFoldWithProjection crates index Sample.config (Sample.id .thread 0) ∅ (some p)
        (fun _ ↦ ()) (fun _ _ ↦ ()) = .ok (opened, index.remove (Sample.id .thread 0)) ∧
      opened.summary = none := by
  have hcontiguous : Contiguous Sample.create.events := by
    intro i hi
    obtain rfl : i = 0 := Nat.lt_one_iff.mp hi
    rfl
  obtain ⟨hresume, hopen⟩ := projection_resume_law crates
  refine ⟨_, rfl, hresume _ 1 _ hcontiguous (Nat.le_refl _) rfl, fun sql index ↦ ?_⟩
  rw [hopen sql index _ _ _ _ _ (openAndFold_empty (Sample.id .thread 0) rfl) _
    (by rintro p ⟨⟩; exact .inr (by decide))]
  exact ⟨_, rfl, rfl⟩

end Praxis.Live
