import Mathlib

/-!
# Lists cut at an offset

The elements of a list have widths, and a place in the list is told by the width of what
stands in front of it: characters and byte offsets are the case in mind.  `cut` takes a list
apart at an offset and fails inside an element.  `LongestPrefix` and `LongestSuffix` say
what the most is that fits a budget at either end, and `exists_middle` takes a list apart
into the two and what neither has room for.
-/

namespace Praxis.Foundation

variable {α : Type*} (w : α → Nat)

/-- The width of a list. -/
def width (l : List α) : Nat := (l.map w).sum

@[simp] theorem width_nil : width w [] = 0 := rfl

@[simp] theorem width_cons (x : α) (l : List α) : width w (x :: l) = w x + width w l := by
  simp [width]

@[simp] theorem width_append (l r : List α) : width w (l ++ r) = width w l + width w r := by
  simp [width]

/-- The elements with their offsets. -/
def offsets (start : Nat) : List α → List (Nat × α)
  | [] => []
  | x :: l => (start, x) :: offsets (start + w x) l

theorem offsets_append (start : Nat) (l r : List α) :
    offsets w start (l ++ r) = offsets w start l ++ offsets w (start + width w l) r := by
  induction l generalizing start with
  | nil => simp [offsets]
  | cons x l ih => simp [offsets, ih, Nat.add_assoc]

theorem length_offsets (start : Nat) (l : List α) : (offsets w start l).length = l.length := by
  induction l generalizing start with
  | nil => rfl
  | cons x l ih => rw [offsets, List.length_cons, ih, List.length_cons]

/-- The offset of an element is the width of what stands in front of it. -/
theorem exists_append_of_mem_offsets {start : Nat} {l : List α} {i : Nat} {x : α}
    (h : (i, x) ∈ offsets w start l) : ∃ a b, l = a ++ x :: b ∧ i = start + width w a := by
  induction l generalizing start with
  | nil => cases h
  | cons y l ih =>
    rcases List.mem_cons.mp h with heq | htail
    · cases heq
      exact ⟨[], l, rfl, rfl⟩
    · obtain ⟨a, b, rfl, rfl⟩ := ih htail
      exact ⟨y :: a, b, rfl, by rw [width_cons, Nat.add_assoc]⟩

/-- What stands in front of an offset and what stands behind it, unless it falls inside an
element or beyond the end. -/
def cut (n : Nat) : List α → Option (List α × List α)
  | [] => if n = 0 then some ([], []) else none
  | x :: l =>
    if n = 0 then some ([], x :: l)
    else if w x ≤ n then (cut (n - w x) l).map fun (a, b) ↦ (x :: a, b)
    else none

variable {w}

theorem cut_append (hw : ∀ x, 0 < w x) (l r : List α) :
    cut w (width w l) (l ++ r) = some (l, r) := by
  induction l with
  | nil => cases r <;> simp [cut]
  | cons x l ih =>
    have hx := hw x
    have hne : w x + width w l ≠ 0 := by omega
    rw [width_cons, List.cons_append, cut, if_neg hne, if_pos (by omega),
      Nat.add_sub_cancel_left, ih]
    rfl

variable (w)

/-- The longest prefix of a list that has room in a budget. -/
structure LongestPrefix (n : Nat) (l p : List α) : Prop where
  isPrefix : p <+: l
  fits : width w p ≤ n
  longest : ∀ q, q <+: l → width w q ≤ n → q <+: p

/-- The longest suffix of a list that has room in a budget. -/
structure LongestSuffix (n : Nat) (l q : List α) : Prop where
  isSuffix : q <:+ l
  fits : width w q ≤ n
  longest : ∀ r, r <:+ l → width w r ≤ n → r <:+ q

theorem exists_longestPrefix (n : Nat) (l : List α) : ∃ p, LongestPrefix w n l p := by
  induction l generalizing n with
  | nil => exact ⟨[], List.prefix_refl _, Nat.zero_le _, fun q hq _ ↦ hq⟩
  | cons x l ih =>
    by_cases hx : w x ≤ n
    · obtain ⟨p, hp⟩ := ih (n - w x)
      have hfits := hp.fits
      refine ⟨x :: p, (List.prefix_cons_inj x).mpr hp.isPrefix, ?_, ?_⟩
      · rw [width_cons]
        omega
      · intro q hq hn
        cases q with
        | nil => exact List.nil_prefix
        | cons y q =>
          obtain ⟨rfl, htail⟩ := List.cons_prefix_cons.mp hq
          rw [width_cons] at hn
          exact (List.prefix_cons_inj y).mpr (hp.longest q htail (by omega))
    · refine ⟨[], List.nil_prefix, Nat.zero_le _, fun q hq hn ↦ ?_⟩
      cases q with
      | nil => exact List.prefix_refl _
      | cons y q =>
        obtain ⟨rfl, -⟩ := List.cons_prefix_cons.mp hq
        rw [width_cons] at hn
        omega

theorem width_reverse (l : List α) : width w l.reverse = width w l := by
  simp [width, List.sum_reverse]

theorem exists_longestSuffix (n : Nat) (l : List α) : ∃ q, LongestSuffix w n l q := by
  obtain ⟨p, hp⟩ := exists_longestPrefix w n l.reverse
  refine ⟨p.reverse, ?_, ?_, ?_⟩
  · rw [← List.reverse_prefix, List.reverse_reverse]
    exact hp.isPrefix
  · rw [width_reverse]
    exact hp.fits
  · intro r hr hn
    rw [← List.reverse_prefix, List.reverse_reverse]
    refine hp.longest _ (List.reverse_prefix.mpr hr) ?_
    rwa [width_reverse]

variable {w}

/-- No element behind the longest prefix ends within the budget. -/
theorem LongestPrefix.lt_of_mem {n : Nat} {l p k : List α} {i : Nat} {x : α}
    (h : LongestPrefix w n l p) (hl : p ++ k <+: l) (hmem : (i, x) ∈ offsets w (width w p) k) :
    n < i + w x := by
  obtain ⟨a, b, rfl, rfl⟩ := exists_append_of_mem_offsets w hmem
  by_contra hle
  have hq : p ++ (a ++ [x]) <+: l := by
    refine List.IsPrefix.trans ⟨b, ?_⟩ hl
    simp
  have hlen := (h.longest _ hq (by simp; omega)).length_le
  simp only [List.length_append, List.length_singleton] at hlen
  omega

/-- Every element in front of the longest suffix starts outside the budget. -/
theorem LongestSuffix.lt_of_mem {n start : Nat} {l k q : List α} {i : Nat} {x : α}
    (h : LongestSuffix w n l q) (hl : k ++ q <:+ l) (hmem : (i, x) ∈ offsets w start k) :
    i + n < start + width w k + width w q := by
  obtain ⟨a, b, rfl, rfl⟩ := exists_append_of_mem_offsets w hmem
  by_contra hle
  have hq : x :: b ++ q <:+ l := by
    refine List.IsSuffix.trans ⟨a, ?_⟩ hl
    simp
  rw [width_append, width_cons] at hle
  have hlen := (h.longest _ hq (by simp; omega)).length_le
  simp only [List.length_append, List.length_cons] at hlen
  omega

/-- Where the budgets do not cover the list, the longest prefix and the longest suffix do
not overlap. -/
theorem exists_middle {m n : Nat} {l : List α} (h : m + n < width w l) :
    ∃ p k q, l = p ++ k ++ q ∧ LongestPrefix w m l p ∧ LongestSuffix w n l q ∧ k ≠ [] := by
  obtain ⟨p, hp⟩ := exists_longestPrefix w m l
  obtain ⟨q, hq⟩ := exists_longestSuffix w n l
  obtain ⟨b, hb⟩ := hp.isPrefix
  obtain ⟨a, ha⟩ := hq.isSuffix
  have hpm := hp.fits
  have hqn := hq.fits
  rcases List.append_eq_append_iff.mp (hb.trans ha.symm) with ⟨k, rfl, rfl⟩ | ⟨k, rfl, rfl⟩
  · refine ⟨p, k, q, ha.symm, hp, hq, ?_⟩
    rintro rfl
    rw [← ha, List.append_nil, width_append] at h
    omega
  · rw [← hb, width_append, width_append] at h
    rw [width_append] at hpm hqn
    omega

end Praxis.Foundation
