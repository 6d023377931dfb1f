import Mathlib.Data.List.Basic

/-!
# Truncating a concatenation of chunks

A file that is a sequence of chunks, cut at an arbitrary length, is a number of
whole chunks followed by a proper part of the next one (`take_flatMap_eq`).
`wholeChunks` says which chunks are whole.
-/

namespace Praxis.Foundation

universe u v

variable {α : Type u} {β : Type v} (enc : α → List β)

/-- The longest run of chunks at the front that fits the given length. -/
def wholeChunks : Nat → List α → List α
  | _, [] => []
  | n, a :: as => if (enc a).length ≤ n then a :: wholeChunks (n - (enc a).length) as else []

variable {enc}

variable (enc) in
theorem wholeChunks_isPrefix (n : Nat) (as : List α) : wholeChunks enc n as <+: as := by
  induction as generalizing n with
  | nil => exact List.prefix_rfl
  | cons a as ih =>
    unfold wholeChunks
    split
    · exact (List.prefix_cons_inj a).mpr (ih _)
    · exact List.nil_prefix

/-- The whole chunks fit. -/
theorem wholeChunks_length_le (n : Nat) (as : List α) :
    ((wholeChunks enc n as).flatMap enc).length ≤ n := by
  induction as generalizing n with
  | nil => exact Nat.zero_le n
  | cons a as ih =>
    unfold wholeChunks
    split
    · have := ih (n - (enc a).length)
      rw [List.flatMap_cons, List.length_append]
      omega
    · exact Nat.zero_le n

/-- No longer run of chunks fits. -/
theorem isPrefix_wholeChunks {n : Nat} {as bs : List α} (hpre : bs <+: as)
    (hfit : (bs.flatMap enc).length ≤ n) : bs <+: wholeChunks enc n as := by
  induction as generalizing n bs with
  | nil => exact hpre
  | cons a as ih =>
    cases bs with
    | nil => exact List.nil_prefix
    | cons b bs =>
      obtain ⟨rfl, hrest⟩ := List.cons_prefix_cons.mp hpre
      rw [List.flatMap_cons, List.length_append] at hfit
      rw [wholeChunks, if_pos (by omega)]
      exact (List.prefix_cons_inj b).mpr (ih hrest (by omega))

/-- A length that holds everything keeps everything. -/
theorem wholeChunks_of_le {n : Nat} {as : List α} (h : (as.flatMap enc).length ≤ n) :
    wholeChunks enc n as = as := by
  induction as generalizing n with
  | nil => rfl
  | cons a as ih =>
    rw [List.flatMap_cons, List.length_append] at h
    rw [wholeChunks, if_pos (by omega), ih (by omega)]

variable (enc) in
/-- A cut through a sequence of chunks: whole chunks, then nothing or a proper
nonempty part of the next one. -/
theorem take_flatMap_eq (n : Nat) (as : List α) :
    ∃ tail, (as.flatMap enc).take n = (wholeChunks enc n as).flatMap enc ++ tail ∧
      (tail = [] ∨ ∃ a ∈ as, tail ≠ [] ∧ tail <+: enc a ∧ tail.length < (enc a).length) := by
  induction as generalizing n with
  | nil => exact ⟨[], by simp [wholeChunks], .inl rfl⟩
  | cons a as ih =>
    by_cases hfit : (enc a).length ≤ n
    · obtain ⟨tail, htake, htail⟩ := ih (n - (enc a).length)
      refine ⟨tail, ?_, ?_⟩
      · rw [wholeChunks, if_pos hfit, List.flatMap_cons, List.flatMap_cons, List.take_append,
          List.take_of_length_le hfit, htake, List.append_assoc]
      · rcases htail with hnil | ⟨b, hb, h⟩
        · exact .inl hnil
        · exact .inr ⟨b, List.mem_cons_of_mem _ hb, h⟩
    · have hlt : n < (enc a).length := Nat.lt_of_not_le hfit
      refine ⟨(enc a).take n, ?_, ?_⟩
      · rw [wholeChunks, if_neg hfit, List.flatMap_cons, List.take_append_of_le_length (Nat.le_of_lt hlt)]
        rfl
      · by_cases hn : n = 0
        · exact .inl (by simp [hn])
        · refine .inr ⟨a, List.mem_cons_self, ?_, List.take_prefix _ _, ?_⟩
          · intro hnil
            have hlen := congrArg List.length hnil
            rw [List.length_take, List.length_nil] at hlen
            omega
          · rw [List.length_take]
            omega

end Praxis.Foundation
