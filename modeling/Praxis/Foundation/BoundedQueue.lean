import Praxis.Foundation.Steps

/-!
# Queues of bounded length

A queue takes entries at its end and gives all of them out at once.  When it has grown beyond its
capacity the first entries are pushed out.  Since entries leave a queue at its front only, those
that have left it and those that are in it are together, in their order, all that were recorded
(`Steps.fates`).
-/

namespace Praxis.Foundation

universe u

variable {α : Type u} {capacity : Nat} {queue rest : List α}

/-- An entry is recorded, or the entries are given out. -/
inductive QueueEvent (α : Type u) where
  | recorded (entry : α)
  | returned (entries : List α)

/-- The entry takes its place, and the first entries go if there are too many. -/
def pushBounded (capacity : Nat) (queue : List α) (entry : α) : List α :=
  (queue ++ [entry]).drop ((queue ++ [entry]).length - capacity)

def QueueStep (capacity : Nat) (queue : List α) : QueueEvent α → List α → Prop
  | .recorded entry, rest => rest = pushBounded capacity queue entry
  | .returned entries, rest => entries = queue ∧ rest = []

theorem QueueStep.record {entry : α} :
    QueueStep capacity queue (.recorded entry) (pushBounded capacity queue entry) := rfl

theorem QueueStep.return : QueueStep capacity queue (.returned queue) [] := ⟨rfl, rfl⟩

/-- What has become of an entry that is not in the queue any more. -/
inductive Fate where
  | pushedOut
  | returned
  deriving DecidableEq

def recordedEntries (events : List (QueueEvent α)) : List α :=
  events.filterMap fun
    | .recorded entry => some entry
    | .returned _ => none

def returnedEntries (events : List (QueueEvent α)) : List α :=
  events.flatMap fun
    | .recorded _ => []
    | .returned entries => entries

/-- Every entry has left the queue once, or is in it. -/
theorem Steps.fates {events : List (QueueEvent α)}
    (h : Steps (QueueStep capacity) queue events rest) :
    ∃ fates : List (Fate × α), queue ++ recordedEntries events = fates.map Prod.snd ++ rest ∧
      returnedEntries events = (fates.filter (·.1 = .returned)).map Prod.snd := by
  induction h with
  | nil queue => exact ⟨[], List.append_nil queue, rfl⟩
  | @cons queue next rest event events head tail ih =>
    obtain ⟨fates, hrecorded, hreturned⟩ := ih
    cases event with
    | recorded entry =>
      obtain rfl : next = pushBounded capacity queue entry := head
      refine ⟨((queue ++ [entry]).take ((queue ++ [entry]).length - capacity)).map
        (Prod.mk .pushedOut) ++ fates, ?_, ?_⟩
      · rw [List.map_append, List.append_assoc, ← hrecorded, pushBounded, ← List.append_assoc,
          List.map_map]
        change queue ++ entry :: recordedEntries events =
          ((queue ++ [entry]).take _).map id ++ _ ++ recordedEntries events
        rw [List.map_id, List.take_append_drop, List.append_assoc, List.singleton_append]
      · rw [List.filter_append, List.filter_eq_nil_iff.mpr, List.nil_append]
        · exact hreturned
        · intro fate hfate
          obtain ⟨entry, -, rfl⟩ := List.mem_map.mp hfate
          exact of_decide_eq_false rfl
    | returned entries =>
      obtain ⟨rfl, rfl⟩ := head
      refine ⟨entries.map (Prod.mk .returned) ++ fates, ?_, ?_⟩
      · rw [List.map_append, List.append_assoc, ← hrecorded, List.map_map]
        change entries ++ recordedEntries events = entries.map id ++ _
        rw [List.map_id, List.nil_append]
      · rw [List.filter_append, List.filter_eq_self.mpr, List.map_append, ← hreturned,
          List.map_map]
        · change entries ++ returnedEntries events = entries.map id ++ _
          rw [List.map_id]
        · intro fate hfate
          obtain ⟨entry, -, rfl⟩ := List.mem_map.mp hfate
          exact decide_eq_true rfl

end Praxis.Foundation
