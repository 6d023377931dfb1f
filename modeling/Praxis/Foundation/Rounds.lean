import Mathlib.Data.List.Basic

/-!
# Loops that are fed answers

A loop asks for an answer in each round, and the answer decides whether there is another
round.  `feed` runs it on the answers that have arrived: it has a result, or it waits for the
next answer.

A loop whose rounds count a measure down has a result after as many answers and one more
(`isSome_feed`).  What a result is like is seen from the round that gives it, where what every
round keeps still holds (`exists_round_of_feed`).
-/

namespace Praxis.Foundation

variable {σ α ρ : Type}

/-- How a round ends. -/
inductive LoopStep (σ ρ : Type) where
  | again (s : σ)
  | done (result : ρ)

/-- Run a loop on answers. -/
def feed (round : σ → α → LoopStep σ ρ) : σ → List α → Option ρ
  | _, [] => none
  | s, answer :: answers =>
    match round s answer with
    | .again s => feed round s answers
    | .done result => some result

variable {round : σ → α → LoopStep σ ρ} {I : σ → Prop} {s : σ} {answers : List α}

theorem isSome_feed (measure : σ → Nat)
    (hround : ∀ s answer t, I s → round s answer = .again t → I t ∧ measure t < measure s)
    (hs : I s) (hlength : measure s < answers.length) : (feed round s answers).isSome := by
  induction answers generalizing s with
  | nil => exact absurd hlength (Nat.not_lt_zero _)
  | cons answer answers ih =>
    rw [feed]
    split
    next t hagain =>
      obtain ⟨ht, hlt⟩ := hround s answer t hs hagain
      exact ih ht (Nat.lt_of_lt_of_le hlt (Nat.le_of_lt_succ hlength))
    next => rfl

theorem exists_round_of_feed {result : ρ}
    (hround : ∀ s answer t, I s → round s answer = .again t → I t) (hs : I s)
    (h : feed round s answers = some result) :
    ∃ t, ∃ answer ∈ answers, I t ∧ round t answer = .done result := by
  induction answers generalizing s with
  | nil => cases h
  | cons answer answers ih =>
    rw [feed] at h
    split at h
    next t hagain =>
      obtain ⟨t', answer', hmem, ht', hdone⟩ := ih (hround s answer t hs hagain) h
      exact ⟨t', answer', List.mem_cons_of_mem answer hmem, ht', hdone⟩
    next result' hdone =>
      cases h
      exact ⟨s, answer, List.mem_cons_self, hs, hdone⟩

end Praxis.Foundation
