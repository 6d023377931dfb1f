import Praxis.Foundation.Steps
import Praxis.Journal.Progress
import Praxis.Store.Index

/-!
# Resuming a fold from a projection

A journal is replayed from its first event on, also when a projection of some of
its events is at hand.  The accumulator is then seeded with the projection, and
the revision guard of `push` skips the events it has seen (`foldl_push_of_le`).
On events that are numbered from one, the revision of the projection is the
number of events it has seen (`fold_revision`), so nothing is counted twice and
nothing is left out (`fold_resume`).
-/

namespace Praxis.Store

open Foundation Contracts

/-- The revisions of the events count up from one. -/
def Contiguous (events : List ThreadEventEnvelope) : Prop :=
  ∀ i, (hi : i < events.length) → events[i].revision.toNat = i + 1

theorem Contiguous.take {events : List ThreadEventEnvelope} (h : Contiguous events) (k : Nat) :
    Contiguous (events.take k) := by
  intro i hi
  rw [List.getElem_take]
  exact h i (by rw [List.length_take] at hi; omega)

@[simp] theorem ThreadIndexProjection.apply_revision (sha256 : Bytes → Digest)
    (p : ThreadIndexProjection) (m : ThreadIndexMutation) (revision : ThreadRevision) :
    (m.apply sha256 p revision).summary.revision = p.summary.revision := by
  cases m <;> rfl

namespace ThreadIndexAccumulator

variable {sha256 : Bytes → Digest} {p : ThreadIndexProjection} {event : ThreadEventEnvelope}
  {events : List ThreadEventEnvelope}

/-- Events up to the revision of a projection do not change it. -/
theorem foldl_push_of_le (sha256 : Bytes → Digest)
    (h : ∀ event ∈ events, event.revision.toNat ≤ p.summary.revision.toNat) :
    events.foldl (push sha256) (.projected p) = .projected p := by
  induction events with
  | nil => rfl
  | cons event events ih =>
    have hpush : push sha256 (.projected p) event = .projected p := by
      change projected (p.push sha256 event) = _
      rw [ThreadIndexProjection.push, if_pos (h event List.mem_cons_self)]
    rw [List.foldl_cons, hpush]
    exact ih fun e he ↦ h e (List.mem_cons_of_mem _ he)

theorem finish_eq_some_iff {accumulator : ThreadIndexAccumulator} :
    accumulator.finish = some p ↔ accumulator = .projected p := by
  cases accumulator with
  | projected q => simp [finish]
  | awaitingCreation => simp [finish]
  | rejected => simp [finish]

/-- A projection that was pushed to is at the revision of the event, unless it was
ahead of it. -/
theorem push_revision_eq {accumulator : ThreadIndexAccumulator}
    (h : accumulator.push sha256 event = .projected p)
    (hlt : ∀ q, accumulator = .projected q →
      q.summary.revision.toNat < event.revision.toNat) :
    p.summary.revision = event.revision := by
  cases accumulator with
  | rejected => cases h
  | projected q =>
    obtain rfl : q.push sha256 event = p := by simpa [push] using h
    rw [ThreadIndexProjection.push, if_neg (Nat.not_le.mpr (hlt q rfl)),
      ThreadIndexProjection.apply_revision]
  | awaitingCreation =>
    unfold push ThreadIndexProjection.fromCreated at h
    simp only at h
    split at h
    · rename_i heq
      split at heq
      · rename_i hcreated
        split at hcreated
        · cases hcreated
          cases heq
          obtain rfl := projected.inj h
          rw [ThreadIndexProjection.push, if_pos (Nat.le_refl _)]
        · cases hcreated
      · cases heq
    · rename_i hne
      exact absurd h (hne p)

/-- The revision of a projection is the number of events it was folded from. -/
theorem fold_revision (hevents : Contiguous events) (h : fold sha256 events = .projected p) :
    p.summary.revision.toNat = events.length := by
  induction events using List.reverseRecOn generalizing p with
  | nil => cases h
  | append_singleton events event ih =>
    have hevent : event.revision.toNat = events.length + 1 := by
      have hlast := hevents events.length (by simp)
      simpa using hlast
    have hfront : Contiguous events := by
      have htake := hevents.take events.length
      rwa [List.take_left' rfl] at htake
    rw [fold, List.foldl_append] at h
    have hrevision := push_revision_eq h fun q hq ↦ by
      rw [ih hfront hq, hevent]
      exact Nat.lt_succ_self _
    rw [hrevision, hevent, List.length_append, List.length_singleton]

/-- **Resuming.**  An accumulator that is seeded with the projection of the first events
ends, after all events, where the fold of all events ends. -/
theorem fold_resume (hevents : Contiguous events) {k : Nat}
    (h : (fold sha256 (events.take k)).finish = some p) :
    events.foldl (push sha256) (.projected p) = fold sha256 events := by
  have hp := finish_eq_some_iff.mp h
  have hseen : (events.take k).foldl (push sha256) (.projected p) = .projected p := by
    refine foldl_push_of_le sha256 fun event hmem ↦ ?_
    obtain ⟨i, hi, rfl⟩ := List.mem_iff_getElem.mp hmem
    rw [fold_revision (hevents.take k) hp, hevents.take k i hi]
    exact hi
  calc events.foldl (push sha256) (.projected p)
      = (events.take k ++ events.drop k).foldl (push sha256) (.projected p) := by
        rw [List.take_append_drop]
    _ = (events.drop k).foldl (push sha256) (.projected p) := by
        rw [List.foldl_append, hseen]
    _ = (events.drop k).foldl (push sha256) (fold sha256 (events.take k)) := by rw [hp]
    _ = fold sha256 events := by
        rw [fold, ← List.foldl_append, List.take_append_drop, fold]

end ThreadIndexAccumulator

end Praxis.Store
