import Mathlib.Data.List.Infix

/-!
# Wildcard patterns

A pattern over characters, in which `*` stands for any text, the empty one included, and `?`
for any one character.  The matches of two patterns in a row are the matches of the first
followed by the matches of the second (`wild_append`), which is all that is needed to
compare patterns that have a common end.
-/

namespace Praxis.Foundation

/-- The text matches the pattern. -/
def wild : List Char → List Char → Bool
  | [], text => text.isEmpty
  | p :: pattern, text =>
    if p = '*' then text.tails.any fun rest ↦ wild pattern rest
    else
      match text with
      | [] => false
      | c :: text => (p = '?' || p = c) && wild pattern text

@[simp] theorem wild_nil {text : List Char} : wild [] text = true ↔ text = [] := by
  rw [wild, List.isEmpty_iff]

theorem wild_star {pattern text : List Char} :
    wild ('*' :: pattern) text = true ↔ ∃ a b, text = a ++ b ∧ wild pattern b = true := by
  rw [wild.eq_def]
  dsimp only
  rw [if_pos rfl, List.any_eq_true]
  constructor
  · rintro ⟨b, hb, hwild⟩
    obtain ⟨a, rfl⟩ := (List.mem_tails ..).mp hb
    exact ⟨a, b, rfl, hwild⟩
  · rintro ⟨a, b, rfl, hwild⟩
    exact ⟨b, (List.mem_tails ..).mpr (List.suffix_append a b), hwild⟩

theorem wild_cons {p : Char} (hp : p ≠ '*') {pattern text : List Char} :
    wild (p :: pattern) text = true ↔
      ∃ c rest, text = c :: rest ∧ (p = '?' ∨ p = c) ∧ wild pattern rest = true := by
  rw [wild.eq_def]
  dsimp only
  rw [if_neg hp]
  cases text with
  | nil => simp
  | cons c text => simp

/-- A text matches two patterns in a row if it can be cut in two that match them. -/
theorem wild_append {pattern more text : List Char} :
    wild (pattern ++ more) text = true ↔
      ∃ a b, text = a ++ b ∧ wild pattern a = true ∧ wild more b = true := by
  induction pattern generalizing text with
  | nil =>
    constructor
    · intro h
      exact ⟨[], text, rfl, wild_nil.mpr rfl, h⟩
    · rintro ⟨a, b, rfl, ha, hb⟩
      rw [wild_nil.mp ha]
      exact hb
  | cons p pattern ih =>
    rw [List.cons_append]
    by_cases hp : p = '*'
    · subst hp
      rw [wild_star]
      constructor
      · rintro ⟨a, b, rfl, h⟩
        obtain ⟨u, v, rfl, hu, hv⟩ := ih.mp h
        exact ⟨a ++ u, v, (List.append_assoc a u v).symm, wild_star.mpr ⟨a, u, rfl, hu⟩, hv⟩
      · rintro ⟨w, v, rfl, hw, hv⟩
        obtain ⟨a, u, rfl, hu⟩ := wild_star.mp hw
        exact ⟨a, u ++ v, List.append_assoc a u v, ih.mpr ⟨u, v, rfl, hu, hv⟩⟩
    · rw [wild_cons hp]
      constructor
      · rintro ⟨c, rest, rfl, hc, h⟩
        obtain ⟨u, v, rfl, hu, hv⟩ := ih.mp h
        exact ⟨c :: u, v, rfl, (wild_cons hp).mpr ⟨c, u, rfl, hc, hu⟩, hv⟩
      · rintro ⟨w, v, rfl, hw, hv⟩
        obtain ⟨c, u, rfl, hc, hu⟩ := (wild_cons hp).mp hw
        exact ⟨c, u ++ v, rfl, hc, ih.mpr ⟨u, v, rfl, hu, hv⟩⟩

/-- A pattern with a character other than `*` matches no empty text. -/
theorem ne_nil_of_wild {pattern text : List Char} (h : wild pattern text = true)
    (hne : ∃ p ∈ pattern, p ≠ '*') : text ≠ [] := by
  induction pattern generalizing text with
  | nil => simp at hne
  | cons p pattern ih =>
    by_cases hp : p = '*'
    · subst hp
      obtain ⟨a, b, rfl, hb⟩ := wild_star.mp h
      have hrest : ∃ p ∈ pattern, p ≠ '*' := by
        obtain ⟨p, hmem, hstar⟩ := hne
        exact ⟨p, (List.mem_cons.mp hmem).resolve_left hstar, hstar⟩
      exact List.append_ne_nil_of_right_ne_nil a (ih hb hrest)
    · obtain ⟨c, rest, rfl, -, -⟩ := (wild_cons hp).mp h
      exact List.cons_ne_nil c rest

/-- `?*` stands for any text but the empty one. -/
theorem wild_some {text : List Char} : wild ['?', '*'] text = true ↔ text ≠ [] := by
  rw [wild_cons (by decide)]
  constructor
  · rintro ⟨c, rest, rfl, -, -⟩
    exact List.cons_ne_nil c rest
  · intro h
    obtain ⟨c, rest, rfl⟩ := List.exists_cons_of_ne_nil h
    exact ⟨c, rest, rfl, .inl rfl, wild_star.mpr ⟨rest, [], (List.append_nil rest).symm, rfl⟩⟩

/-- A pattern without wildcards matches itself only. -/
theorem wild_of_plain {pattern text : List Char} (h : ∀ p ∈ pattern, p ≠ '*' ∧ p ≠ '?') :
    wild pattern text = true ↔ text = pattern := by
  induction pattern generalizing text with
  | nil => exact wild_nil
  | cons p pattern ih =>
    obtain ⟨hstar, hany⟩ := h p List.mem_cons_self
    have hrest := fun q hq ↦ h q (List.mem_cons_of_mem p hq)
    rw [wild_cons hstar]
    constructor
    · rintro ⟨c, rest, rfl, hc, hwild⟩
      rw [hc.resolve_left hany, (ih hrest).mp hwild]
    · rintro rfl
      exact ⟨p, pattern, rfl, .inr rfl, (ih hrest).mpr rfl⟩

end Praxis.Foundation
