import Mathlib.Data.List.DropRight

/-!
# The last turns of a list

Some elements of a list start a turn.  A list is split in front of its last `n`
turns, or in front of its first turn when it has fewer (`SplitsTurns`).  In front
of a turn that is cut off, elements that belong to it are cut off too, but nothing
in front of the first turn (`trimmed`).

Cutting off turns twice is cutting off as many at once (`SplitsTurns.append`).
-/

namespace Praxis.Foundation

variable {α : Type} (starts update : α → Bool)

/-- `l` is split in front of its last `n` turns, or its first one when it has fewer. -/
structure SplitsTurns (n : Nat) (l front : List α) (turn : α) (back : List α) : Prop where
  eq_append : l = front ++ turn :: back
  starts_turn : starts turn = true
  count_lt : back.countP starts < n
  full : back.countP starts + 1 = n ∨ front.countP starts = 0

/-- What is left in front of turns that are cut off. -/
def trimmed (front : List α) : List α :=
  if front.countP starts = 0 then front else front.rdropWhile update

/-- What is cut off in front of the turns. -/
def trimmings (front : List α) : List α :=
  if front.countP starts = 0 then [] else front.rtakeWhile update

variable {starts update} {n m : Nat} {l front back : List α} {turn : α}

variable (starts update) in
theorem trimmed_append_trimmings (front : List α) :
    trimmed starts update front ++ trimmings starts update front = front := by
  unfold trimmed trimmings
  split
  · exact List.append_nil front
  · exact List.rdropWhile_append_rtakeWhile

theorem trimmed_of_count_eq_zero (h : front.countP starts = 0) :
    trimmed starts update front = front := if_pos h

theorem trimmings_of_count_eq_zero (h : front.countP starts = 0) :
    trimmings starts update front = [] := if_pos h

theorem trimmings_of_count_pos (h : 0 < front.countP starts) :
    trimmings starts update front = front.rtakeWhile update := if_neg h.ne'

theorem update_of_mem_trimmings {x : α} (h : x ∈ trimmings starts update front) :
    update x = true := by
  unfold trimmings at h
  split at h
  · cases h
  · exact List.mem_rtakeWhile_imp h

/-- A list with turns can be split. -/
theorem exists_splitsTurns (hn : 0 < n) (h : 0 < l.countP starts) :
    ∃ front turn back, SplitsTurns starts n l front turn back := by
  induction l with
  | nil => exact absurd h (Nat.lt_irrefl 0)
  | cons x l ih =>
    by_cases hcount : n ≤ l.countP starts
    · obtain ⟨front, turn, back, hsplit⟩ := ih (hn.trans_le hcount)
      refine ⟨x :: front, turn, back, by rw [hsplit.eq_append]; rfl, hsplit.starts_turn,
        hsplit.count_lt, .inl ?_⟩
      rcases hsplit.full with hfull | hzero
      · exact hfull
      · have htotal : l.countP starts = back.countP starts + 1 := by
          rw [hsplit.eq_append, List.countP_append, hzero, List.countP_cons_of_pos
            hsplit.starts_turn, Nat.zero_add]
        have := hsplit.count_lt
        omega
    · by_cases hx : starts x
      · exact ⟨[], x, l, rfl, hx, Nat.lt_of_not_le hcount, .inr rfl⟩
      · rw [List.countP_cons_of_neg hx] at h
        obtain ⟨front, turn, back, hsplit⟩ := ih h
        refine ⟨x :: front, turn, back, by rw [hsplit.eq_append]; rfl, hsplit.starts_turn,
          hsplit.count_lt, hsplit.full.imp_right fun hzero ↦ ?_⟩
        rw [List.countP_cons_of_neg hx, hzero]

theorem countP_trimmed (hupdate : ∀ x, update x = true → starts x = false) (front : List α) :
    (trimmed starts update front).countP starts = front.countP starts := by
  have hnone : (trimmings starts update front).countP starts = 0 :=
    List.countP_eq_zero.mpr fun x hx ↦ by simp [hupdate x (update_of_mem_trimmings hx)]
  conv_rhs => rw [← trimmed_append_trimmings starts update front, List.countP_append, hnone]
  rfl

/-- Splitting what is left of a list splits the list. -/
theorem SplitsTurns.append (hupdate : ∀ x, update x = true → starts x = false)
    (h : SplitsTurns starts n l front turn back) (hpos : 0 < front.countP starts)
    {front' back' : List α} {turn' : α}
    (h' : SplitsTurns starts m (trimmed starts update front) front' turn' back') :
    SplitsTurns starts (n + m) l front' turn'
      (back' ++ trimmings starts update front ++ turn :: back) := by
  have hback : back.countP starts + 1 = n := h.full.resolve_right hpos.ne'
  have hnone : (trimmings starts update front).countP starts = 0 :=
    List.countP_eq_zero.mpr fun x hx ↦ by simp [hupdate x (update_of_mem_trimmings hx)]
  have hcount : (back' ++ trimmings starts update front ++ turn :: back).countP starts =
      back'.countP starts + n := by
    rw [List.countP_append, List.countP_append, hnone, List.countP_cons_of_pos h.starts_turn, hback,
      Nat.add_zero]
  refine ⟨?_, h'.starts_turn, ?_, ?_⟩
  · rw [h.eq_append]
    conv_lhs => rw [← trimmed_append_trimmings starts update front, h'.eq_append]
    simp only [List.append_assoc, List.cons_append]
  · rw [hcount, Nat.add_comm]
    exact Nat.add_lt_add_left h'.count_lt n
  · rw [hcount]
    exact h'.full.imp_left fun hfull ↦ by omega

/-- The index of the first turn that is cut off. -/
theorem SplitsTurns.elim_getElem? (h : SplitsTurns starts n l front turn back) {first : Nat}
    (hfirst : front.countP starts = 0 → first = front.length) :
    ((l.zipIdx.reverse.filter fun entry ↦ starts entry.1)[n - 1]?).elim first
      (fun entry ↦ entry.2) = front.length := by
  have hlength (l : List α) (k : Nat) :
      ((l.zipIdx k).reverse.filter fun entry ↦ starts entry.1).length = l.countP starts := by
    rw [List.filter_reverse, List.length_reverse, ← List.countP_eq_length_filter]
    conv_rhs => rw [← List.zipIdx_map_fst k l, List.countP_map]
    rfl
  have hlist : (l.zipIdx.reverse.filter fun entry ↦ starts entry.1) =
      ((back.zipIdx (front.length + 1)).reverse.filter fun entry ↦ starts entry.1) ++
        (turn, front.length) :: (front.zipIdx.reverse.filter fun entry ↦ starts entry.1) := by
    rw [h.eq_append, List.zipIdx_append, List.zipIdx_cons]
    simp [List.filter_append, h.starts_turn]
  rw [hlist]
  have hcount := h.count_lt
  rcases Nat.lt_or_ge (back.countP starts + 1) n with hlt | hge
  · have hzero := h.full.resolve_left hlt.ne
    rw [List.getElem?_eq_none, Option.elim_none, hfirst hzero]
    rw [List.length_append, List.length_cons, hlength, hlength, hzero]
    omega
  · have hindex : n - 1 = ((back.zipIdx (front.length + 1)).reverse.filter
        fun entry ↦ starts entry.1).length := by
      rw [hlength]
      omega
    rw [hindex, List.getElem?_append_right le_rfl, Nat.sub_self]
    rfl

end Praxis.Foundation
