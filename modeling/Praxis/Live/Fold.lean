import Praxis.Journal.Range
import Praxis.Store.Index

/-!
# Folding the events of a live thread

`LiveThreadStore::fold_window` (`live_thread.rs`) folds the events between two
revisions.  It takes a snapshot of the journal under its lock and reads the files
of the snapshot.

What is folded is what a recovery of the same files visits, restricted to the
revisions that were asked for (`range_folds_exact`).
-/

namespace Praxis.Live

open Foundation Contracts Journal Store

variable (X : Externals)

/-- `LiveThreadStore::fold_window`, on the journal and the files at the time of the
snapshot. -/
def foldWindow {σ : Type} (s : System) (after : ThreadRevision) (through : Option ThreadRevision)
    (state : σ) (fold : σ → ThreadEventEnvelope → σ) : Except ThreadStoreError σ :=
  let head := s.journal.head
  let through := through.getD head.revision
  if head.revision.toNat < through.toNat then .error (.revisionNotFound through.value)
  else if through.toNat < after.toNat then .error (.revisionNotFound after.value)
  else if after = through then .ok state
  else
    match after.checkedNext with
    | none => .error .revisionOverflow
    | some start =>
      match ThreadRevisionRange.inclusive start through with
      | .error error => .error (.journal error)
      | .ok range =>
        match foldRange X s.journal.config s.journal.threadId range head s.journal.segments s.dir
            state fold with
        | .error error => .error (.journal error)
        | .ok state => .ok state

variable {X}

/-- The events of a log behind one revision and up to another. -/
def between (after through : ThreadRevision) (events : List ThreadEventEnvelope) :
    List ThreadEventEnvelope :=
  events.filter fun event ↦
    after.toNat < event.revision.toNat ∧ event.revision.toNat ≤ through.toNat

/-- The window between two revisions that exist. -/
theorem foldWindow_eq {s : System} {log : Log X} (h : s.Represents log) {σ : Type}
    {after : ThreadRevision} {through : Option ThreadRevision}
    (hthrough : (through.getD s.journal.head.revision).toNat ≤ s.journal.head.revision.toNat)
    (hafter : after.toNat ≤ (through.getD s.journal.head.revision).toNat)
    (state : σ) (fold : σ → ThreadEventEnvelope → σ) :
    foldWindow X s after through state fold =
      .ok ((between after (through.getD s.journal.head.revision) log.events).foldl fold state) := by
  generalize hend : through.getD s.journal.head.revision = last at *
  simp only [foldWindow, hend, if_neg (Nat.not_lt.mpr hthrough), if_neg (Nat.not_lt.mpr hafter)]
  split
  · rename_i heq
    subst heq
    have hnil : between after after log.events = [] := by
      refine List.filter_eq_nil_iff.mpr fun event _ ↦ ?_
      simp only [decide_eq_true_eq]
      omega
    rw [hnil]
    rfl
  · rename_i hne
    have hlt : after.toNat < last.toNat := by
      refine Nat.lt_of_le_of_ne hafter fun heq ↦ hne ?_
      exact ThreadRevision.toNat_inj.mp heq
    have hbound := last.toNat_lt
    let start : ThreadRevision := ⟨UInt64.ofNat (after.toNat + 1)⟩
    have hstart : start.toNat = after.toNat + 1 :=
      UInt64.toNat_ofNat_of_lt' (by unfold UInt64.size; omega)
    have hnext : after.checkedNext = some start := by
      rw [ThreadRevision.checkedNext_eq_some_iff, hstart]
    have hrange : ThreadRevisionRange.inclusive start last = .ok ⟨start, last⟩ := by
      have hzero : start ≠ .zero := by
        intro heq
        rw [heq, ThreadRevision.toNat_zero] at hstart
        omega
      rw [ThreadRevisionRange.inclusive, if_neg hzero, if_neg (by omega)]
    have hvisit := visitRange_eq ⟨start, last⟩ h (by rw [hstart]; omega)
      (by rw [hstart]; exact hlt) hthrough
    have hbetween : log.events.filter (ThreadRevisionRange.contains ⟨start, last⟩) =
        between after last log.events := by
      refine List.filter_congr fun event _ ↦ ?_
      simp only [ThreadRevisionRange.contains, hstart, Nat.succ_le_iff]
    rw [hbetween] at hvisit
    simp only [hnext, hrange, foldRange, hvisit]

/-- **Range folds are exact.**  A recovery of the files of a journal in use finds events
up to its head.  For every range from `a` to `b`, the journal visits exactly the events
of the recovery with these revisions, which count up from `a` to `b`, and folds them in
this order; for a range that ends behind the head it returns an error and visits
nothing.  The window between two revisions of a live thread folds the events of the
recovery behind the first one and up to the second one. -/
theorem range_folds_exact (X : Externals) (hX : X.RoundTrips) (s : System) (h : InUse X s) :
    ∃ events, (∀ mode, recovery X s.journal.config s.journal.threadId s.dir mode =
        .ok (events, s.journal.head)) ∧
      (∀ a b range, ThreadRevisionRange.inclusive a b = .ok range →
        (b.toNat ≤ s.journal.head.revision.toNat →
          ∃ visited, visited = events.filter (fun event ↦
              a.toNat ≤ event.revision.toNat ∧ event.revision.toNat ≤ b.toNat) ∧
            visited.map (fun event ↦ event.revision.toNat) =
              List.range' a.toNat (b.toNat + 1 - a.toNat) ∧
            visitRange X s.journal.config s.journal.threadId range s.journal.head
              s.journal.segments s.dir = (.ok (), visited) ∧
            ∀ (σ : Type) (state : σ) (fold : σ → ThreadEventEnvelope → σ),
              foldRange X s.journal.config s.journal.threadId range s.journal.head
                s.journal.segments s.dir state fold = .ok (visited.foldl fold state)) ∧
        (s.journal.head.revision.toNat < b.toNat → ∃ reason,
          visitRange X s.journal.config s.journal.threadId range s.journal.head
            s.journal.segments s.dir = (.error (.invalidRange reason), []) ∧
          ∀ (σ : Type) (state : σ) (fold : σ → ThreadEventEnvelope → σ),
            foldRange X s.journal.config s.journal.threadId range s.journal.head
              s.journal.segments s.dir state fold = .error (.invalidRange reason))) ∧
      ∀ (after : ThreadRevision) (through : Option ThreadRevision),
        (through.getD s.journal.head.revision).toNat ≤ s.journal.head.revision.toNat →
        after.toNat ≤ (through.getD s.journal.head.revision).toNat →
        ∀ (σ : Type) (state : σ) (fold : σ → ThreadEventEnvelope → σ),
          foldWindow X s after through state fold =
            .ok ((between after (through.getD s.journal.head.revision) events).foldl fold
              state) := by
  obtain ⟨log, hlog⟩ := h.sound hX
  have hrepresents := hlog.represents
  refine ⟨log.events, ?_, ?_, ?_⟩
  · intro mode
    rw [hrepresents.head_eq]
    exact hlog.recovery_eq mode
  · intro a b range hrange
    obtain ⟨rfl, hpos, hle⟩ := ThreadRevisionRange.inclusive_eq_ok hrange
    constructor
    · intro hend
      have hvisit := visitRange_eq ⟨a, b⟩ hrepresents hpos hle hend
      rw [hrepresents.head_eq] at hend
      obtain ⟨hnumbered, hcount⟩ :=
        numbered_filter ⟨a, b⟩ hrepresents.valid.eventSteps hpos hle hend
      refine ⟨_, rfl, ?_, hvisit, ?_⟩
      · refine List.ext_getElem ?_ fun i hi hi' ↦ ?_
        · rw [List.length_map, List.length_range']
          change _ + a.toNat = b.toNat + 1 at hcount
          exact Nat.eq_sub_of_add_eq hcount
        · rw [List.getElem_map, List.getElem_range', Nat.one_mul]
          rw [List.length_map] at hi
          exact hnumbered i hi
      · intro σ state fold
        simp only [foldRange, hvisit]
        rfl
    · intro hend
      have hvisit : ∃ reason, visitRange X s.journal.config s.journal.threadId ⟨a, b⟩
          s.journal.head s.journal.segments s.dir = (.error (.invalidRange reason), []) := by
        rw [visitRange, if_pos hend]
        exact ⟨_, rfl⟩
      obtain ⟨reason, hvisit⟩ := hvisit
      exact ⟨reason, hvisit, fun σ state fold ↦ by simp only [foldRange, hvisit]⟩
  · intro after through hthrough hafter σ state fold
    exact foldWindow_eq hrepresents hthrough hafter state fold

/-- The range of a thread that was just created. -/
theorem range_folds_exact_create : ∃ receipt s visited,
    append crates .none (.initial Sample.config (Sample.id .thread 0)) Sample.create .durable =
      (.ok (.committed receipt Sample.create.events), s) ∧
    visited.map (fun event : ThreadEventEnvelope ↦ event.revision.toNat) = [1] ∧
    visitRange crates s.journal.config s.journal.threadId ⟨⟨1⟩, ⟨1⟩⟩ s.journal.head
      s.journal.segments s.dir = (.ok (), visited) := by
  obtain ⟨receipt, s, f, happend, -, -, hstage⟩ := Sample.append_create
  have hopened : InUse crates (.initial Sample.config (Sample.id .thread 0)) := .initial _ rfl
  have hinUse := hopened.of_append (by decide) happend
  obtain ⟨events, -, hranges, -⟩ := range_folds_exact crates crates_roundTrips s hinUse
  have hhead : (ThreadRevision.mk 1).toNat ≤ s.journal.head.revision.toNat := by
    rw [hstage.head_eq]
    exact Nat.le_refl _
  obtain ⟨visited, -, hrevisions, hvisit, -⟩ := (hranges ⟨1⟩ ⟨1⟩ _ rfl).1 hhead
  exact ⟨receipt, s, visited, happend, hrevisions, hvisit⟩

end Praxis.Live
