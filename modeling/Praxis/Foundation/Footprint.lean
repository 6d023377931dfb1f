import Mathlib.Data.List.Nodup

/-!
# Updates with footprints

A list of updates of a function, each of which reads and writes the arguments in its
footprint only.  When the footprints are disjoint, the order of the updates does not
matter: at an argument the result is that of the one update that has it in its footprint.
-/

namespace Praxis.Foundation

variable {ι ν σ : Type} {step : (ι → ν) → σ → ι → ν} {foot : σ → List ι}

variable (step foot) in
/-- A step changes nothing outside its footprint, and what it does there depends on nothing
outside. -/
structure HasFootprint : Prop where
  frame : ∀ f s x, x ∉ foot s → step f s x = f x
  congr : ∀ f g s, (∀ x ∈ foot s, f x = g x) → ∀ x ∈ foot s, step f s x = step g s x

namespace HasFootprint

variable {l : List σ} {f : ι → ν} {x : ι} {s : σ}

theorem foldl_of_notMem (h : HasFootprint step foot) (hx : ∀ s ∈ l, x ∉ foot s) :
    l.foldl step f x = f x := by
  induction l generalizing f with
  | nil => rfl
  | cons t l ih =>
    rw [List.foldl_cons, ih fun s hs ↦ hx s (List.mem_cons_of_mem t hs)]
    exact h.frame f t x (hx t List.mem_cons_self)

/-- **At an argument** the updates do what the one that has it does alone. -/
theorem foldl_of_mem (h : HasFootprint step foot)
    (hdisjoint : l.Pairwise fun s t ↦ (foot s).Disjoint (foot t)) (hs : s ∈ l) (hx : x ∈ foot s) :
    l.foldl step f x = step f s x := by
  induction l generalizing f with
  | nil => cases hs
  | cons t l ih =>
    obtain ⟨hfirst, hrest⟩ := List.pairwise_cons.mp hdisjoint
    rw [List.foldl_cons]
    rcases List.mem_cons.mp hs with rfl | hs
    · exact h.foldl_of_notMem fun t ht ↦ List.disjoint_left.mp (hfirst t ht) hx
    · rw [ih hrest hs]
      refine h.congr (step f t) f s (fun y hy ↦ h.frame f t y ?_) x hx
      exact List.disjoint_right.mp (hfirst s hs) hy

end HasFootprint

end Praxis.Foundation
