import Mathlib.Data.List.Basic
import Mathlib.Data.List.Infix

/-!
# Looking for a pattern in a text that is still growing

`findSub?` is the offset of the first occurrence of a pattern.  Where there is none, a
reader that will see more text keeps the longest suffix that could still become one
(`partialSuffixLen`).

Both are described one letter at a time.  Against a text that starts here a pattern is in
one of three positions: it occurs here, the text is a proper part of it (`Starts`), or the
two disagree (`Differs`).  The last is settled for good (`Differs.append`), and then the
letter can be passed over (`findSub?_cons`, `partialSuffixLen_cons`).
-/

namespace Praxis.Foundation

variable {α : Type} [DecidableEq α] {a : α} {pat text more : List α}

/-- The offset of the first occurrence of the pattern. -/
def findSub? (pat : List α) : List α → Option Nat
  | [] => if pat.isPrefixOf [] then some 0 else none
  | a :: text => if pat.isPrefixOf (a :: text) then some 0 else (findSub? pat text).map (· + 1)

/-- The length of the longest suffix of the text that is a proper, nonempty prefix of the
pattern. -/
def partialSuffixLen (text pat : List α) : Nat :=
  ((List.range' 1 (min text.length (pat.length - 1))).reverse.find?
    fun len ↦ (pat.take len).isSuffixOf text).getD 0

/-! ## The position of a pattern against a text -/

/-- The text is a proper prefix of the pattern: the pattern may still come. -/
def Starts (pat text : List α) : Prop := text <+: pat ∧ text.length < pat.length

instance : Decidable (Starts pat text) := inferInstanceAs (Decidable (_ ∧ _))

/-- Neither is a prefix of the other: the pattern does not come here. -/
def Differs (pat text : List α) : Prop := ¬ pat <+: text ∧ ¬ text <+: pat

omit [DecidableEq α] in
theorem Starts.not_prefix (h : Starts pat text) : ¬ pat <+: text := fun hpre ↦
  Nat.lt_irrefl _ (Nat.lt_of_lt_of_le h.2 hpre.length_le)

omit [DecidableEq α] in
theorem starts_of_prefix (h : text <+: pat) (hnot : ¬ pat <+: text) : Starts pat text := by
  refine ⟨h, Nat.lt_of_le_of_ne h.length_le fun hlen ↦ hnot ?_⟩
  rw [h.eq_of_length hlen]

omit [DecidableEq α] in
theorem Differs.not_starts (h : Differs pat text) : ¬ Starts pat text := fun hs ↦ h.2 hs.1

omit [DecidableEq α] in
/-- A pattern that is a prefix of a longer text is one of the text or starts with it. -/
theorem prefix_or_starts (h : pat <+: text ++ more) : pat <+: text ∨ Starts pat text := by
  rcases List.prefix_or_prefix_of_prefix h (List.prefix_append text more) with hpat | htext
  · exact .inl hpat
  · by_cases hpat : pat <+: text
    · exact .inl hpat
    · exact .inr ( starts_of_prefix htext hpat)

omit [DecidableEq α] in
/-- A pattern that differs from a text differs from what the text grows into. -/
theorem Differs.append (h : Differs pat text) (more : List α) : Differs pat (text ++ more) := by
  constructor
  · intro hpat
    rcases prefix_or_starts hpat with hpat | hs
    · exact h.1 hpat
    · exact h.not_starts hs
  · intro htext
    exact h.2 ((List.prefix_append text more).trans htext)

/-! ## The first occurrence -/

@[simp] theorem findSub?_of_prefix (h : pat <+: text) : findSub? pat text = some 0 := by
  cases text with
  | nil => rw [findSub?, if_pos (List.isPrefixOf_iff_prefix.mpr h)]
  | cons a text => rw [findSub?, if_pos (List.isPrefixOf_iff_prefix.mpr h)]

theorem findSub?_cons (h : ¬ pat <+: a :: text) :
    findSub? pat (a :: text) = (findSub? pat text).map (· + 1) := by
  rw [findSub?, if_neg fun hpre ↦ h (List.isPrefixOf_iff_prefix.mp hpre)]

theorem findSub?_eq_zero_iff : findSub? pat text = some 0 ↔ pat <+: text := by
  refine ⟨fun h ↦ ?_, findSub?_of_prefix⟩
  by_contra hnot
  cases text with
  | nil =>
    rw [findSub?, if_neg fun hpre ↦ hnot (List.isPrefixOf_iff_prefix.mp hpre)] at h
    cases h
  | cons a text =>
    rw [findSub?_cons hnot, Option.map_eq_some_iff] at h
    obtain ⟨_, _, hzero⟩ := h
    exact Nat.succ_ne_zero _ hzero

/-- The pattern stands where it was found. -/
theorem prefix_of_findSub? {i : Nat} (h : findSub? pat text = some i) : pat <+: text.drop i := by
  induction text generalizing i with
  | nil =>
    unfold findSub? at h
    split at h
    · next hpre =>
      cases h
      exact List.isPrefixOf_iff_prefix.mp hpre
    · cases h
  | cons a text ih =>
    by_cases hpre : pat <+: a :: text
    · rw [ findSub?_of_prefix hpre] at h
      cases h
      exact hpre
    · rw [findSub?_cons hpre, Option.map_eq_some_iff] at h
      obtain ⟨j, hj, rfl⟩ := h
      exact ih hj

omit [DecidableEq α] in
/-- Less is left behind an occurrence. -/
theorem length_drop_lt_of_prefix {i : Nat} (hne : pat ≠ []) (h : pat <+: text.drop i) :
    (text.drop (i + pat.length)).length < text.length := by
  have hle : pat.length ≤ (text.drop i).length := h.length_le
  have hpos : 0 < pat.length := List.length_pos_iff.mpr hne
  rw [List.length_drop] at hle ⊢
  omega

/-- What stands before an occurrence, the occurrence, and what stands behind it. -/
theorem take_append_findSub? {i : Nat} (h : findSub? pat text = some i) :
    text.take i ++ (pat ++ text.drop (i + pat.length)) = text := by
  obtain ⟨back, hback⟩ := prefix_of_findSub? h
  have hdrop : text.drop (i + pat.length) = back := by
    rw [← List.drop_drop, ← hback, List.drop_left]
  rw [hdrop, hback, List.take_append_drop]

/-- An occurrence is found. -/
theorem findSub?_eq_none_iff : findSub? pat text = none ↔ ¬ pat <:+: text := by
  constructor
  · rintro hnone hinfix
    induction text with
    | nil =>
      rw [ findSub?_of_prefix (List.infix_nil.mp hinfix ▸ List.prefix_rfl)] at hnone
      cases hnone
    | cons a text ih =>
      rcases List.infix_cons_iff.mp hinfix with hpre | hinfix
      · rw [ findSub?_of_prefix hpre] at hnone
        cases hnone
      · refine ih ?_ hinfix
        by_cases hpre : pat <+: a :: text
        · rw [ findSub?_of_prefix hpre] at hnone
          cases hnone
        · rwa [findSub?_cons hpre, Option.map_eq_none_iff] at hnone
  · intro hinfix
    by_contra hsome
    obtain ⟨i, hi⟩ := Option.ne_none_iff_exists'.mp hsome
    exact hinfix ((prefix_of_findSub? hi).isInfix.trans (List.drop_suffix i text).isInfix)

theorem findSub?_of_starts (h : Starts pat text) : findSub? pat text = none := by
  by_contra hsome
  obtain ⟨i, hi⟩ := Option.ne_none_iff_exists'.mp hsome
  have hlen : pat.length ≤ (text.drop i).length := (prefix_of_findSub? hi).length_le
  have hlt : text.length < pat.length := h.2
  rw [List.length_drop] at hlen
  omega

/-! ## The suffix that is kept -/

private theorem find?_range'_reverse_eq (p : Nat → Bool) (n : Nat) :
    (List.range' 1 (n + 1)).reverse.find? p =
      if p (n + 1) then some (n + 1) else (List.range' 1 n).reverse.find? p := by
  rw [List.range'_concat, List.reverse_append, List.reverse_singleton, List.singleton_append,
    List.find?_cons]
  simp only [Nat.one_mul, Nat.add_comm 1 n]
  cases p (n + 1) <;> rfl

/-- A text that is a proper part of the pattern is kept whole. -/
theorem partialSuffixLen_of_starts (h : Starts pat text) :
    partialSuffixLen text pat = text.length := by
  have hmin : min text.length (pat.length - 1) = text.length := Nat.min_eq_left (by
    have := h.2
    omega)
  rw [partialSuffixLen, hmin]
  cases hn : text.length with
  | zero => rfl
  | succ n =>
    have htake : pat.take (n + 1) = text := by rw [← hn]; exact (List.prefix_iff_eq_take.mp h.1).symm
    rw [find?_range'_reverse_eq, htake, if_pos (List.isSuffixOf_iff_suffix.mpr List.suffix_rfl)]
    rfl

private theorem find?_suffix_cons {n : Nat} (hn : n ≤ text.length) (hpat : n < pat.length) :
    (List.range' 1 n).reverse.find? (fun len ↦ (pat.take len).isSuffixOf (a :: text)) =
      (List.range' 1 n).reverse.find? (fun len ↦ (pat.take len).isSuffixOf text) := by
  induction n with
  | zero => rfl
  | succ n ih =>
    have hiff : (pat.take (n + 1)).isSuffixOf (a :: text) = (pat.take (n + 1)).isSuffixOf text := by
      rw [Bool.eq_iff_iff, List.isSuffixOf_iff_suffix, List.isSuffixOf_iff_suffix,
        List.suffix_cons_iff]
      refine ⟨fun h ↦ h.resolve_left fun heq ↦ ?_, .inr⟩
      have hlen := congrArg List.length heq
      rw [List.length_take, List.length_cons] at hlen
      omega
    rw [find?_range'_reverse_eq, find?_range'_reverse_eq, hiff, ih (by omega) (by omega)]

/-- A letter at which the pattern can no longer start is not kept. -/
theorem partialSuffixLen_cons (h : ¬ Starts pat (a :: text)) :
    partialSuffixLen (a :: text) pat = partialSuffixLen text pat := by
  unfold partialSuffixLen
  by_cases hlen : (a :: text).length < pat.length
  · have hfull : min (a :: text).length (pat.length - 1) = text.length + 1 := by
      rw [List.length_cons] at hlen ⊢
      omega
    have htail : min text.length (pat.length - 1) = text.length := by
      rw [List.length_cons] at hlen
      omega
    have hno : ¬ (pat.take (text.length + 1)).isSuffixOf (a :: text) = true := by
      intro hsuf
      refine h ⟨?_, hlen⟩
      have heq : pat.take (text.length + 1) = a :: text :=
        (List.isSuffixOf_iff_suffix.mp hsuf).eq_of_length (by
          rw [List.length_cons] at hlen
          rw [List.length_take, List.length_cons]
          omega)
      rw [← heq]
      exact List.take_prefix _ _
    rw [hfull, htail, find?_range'_reverse_eq, if_neg hno,
      find?_suffix_cons (Nat.le_refl _) (by rw [List.length_cons] at hlen; omega)]
  · have hsame : min (a :: text).length (pat.length - 1) = min text.length (pat.length - 1) := by
      rw [List.length_cons] at hlen ⊢
      omega
    rw [hsame]
    cases hpat : pat.length with
    | zero => simp
    | succ m =>
      rw [find?_suffix_cons (Nat.min_le_left _ _) (by omega)]

theorem partialSuffixLen_le (text pat : List α) : partialSuffixLen text pat ≤ text.length := by
  induction text with
  | nil => simp [partialSuffixLen]
  | cons a text ih =>
    by_cases hs : Starts pat (a :: text)
    · rw [partialSuffixLen_of_starts hs]
    · rw [partialSuffixLen_cons hs, List.length_cons]
      exact Nat.le_succ_of_le ih

end Praxis.Foundation
