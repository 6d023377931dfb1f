import Mathlib

/-!
# Runs of a labelled transition relation

`Steps step s as t` says that the labels `as`, taken one after another, lead from
`s` to `t`.  The same notion serves for a writer that takes calls, for a chain of
records each of which continues the one before, and for a scan that consumes a
file: what differs is the state and the label.

The rules are the usual ones.  Runs compose and split along the concatenation of
their labels (`steps_append_iff`), a property that every step keeps holds at the
end of every run (`Steps.invariant`), and a quantity that every step changes by a
known amount changes along a run by the sum (`Steps.measure`).  Where a step is a function under a guard, the
guards along the labels make the run (`steps_foldl`); and where a guard decides at each label
whether a property stays, they decide for the whole run (`foldl_of_allowed`,
`foldl_of_not_allowed`).
-/

namespace Praxis.Foundation

universe u v

variable {σ : Type u} {α : Type v} {step : σ → α → σ → Prop} {s t w : σ} {a : α} {as bs : List α}

/-- The labels lead from the first state to the second. -/
inductive Steps (step : σ → α → σ → Prop) : σ → List α → σ → Prop where
  | nil (s : σ) : Steps step s [] s
  | cons {s t w : σ} {a : α} {as : List α} (head : step s a t) (tail : Steps step t as w) :
      Steps step s (a :: as) w

@[simp] theorem steps_nil_iff : Steps step s [] t ↔ s = t :=
  ⟨fun h ↦ by cases h; rfl, fun h ↦ h ▸ .nil s⟩

@[simp] theorem steps_cons_iff :
    Steps step s (a :: as) w ↔ ∃ t, step s a t ∧ Steps step t as w :=
  ⟨fun h ↦ by cases h with | cons head tail => exact ⟨_, head, tail⟩,
    fun ⟨_, head, tail⟩ ↦ .cons head tail⟩

/-- Runs split along their labels. -/
theorem steps_append_iff :
    Steps step s (as ++ bs) w ↔ ∃ t, Steps step s as t ∧ Steps step t bs w := by
  induction as generalizing s with
  | nil => simp
  | cons a as ih =>
    simp only [List.cons_append, steps_cons_iff, ih]
    constructor
    · rintro ⟨t, head, w', has, hbs⟩
      exact ⟨w', ⟨t, head, has⟩, hbs⟩
    · rintro ⟨w', ⟨t, head, has⟩, hbs⟩
      exact ⟨t, head, w', has, hbs⟩

/-- A run is a run of every relation that has its steps. -/
theorem Steps.mono {step' : σ → α → σ → Prop}
    (hstep : ∀ s, ∀ a ∈ as, ∀ t, step s a t → step' s a t) (h : Steps step s as t) :
    Steps step' s as t := by
  induction h with
  | nil s => exact .nil s
  | cons head tail ih =>
    refine .cons (hstep _ _ List.mem_cons_self _ head) (ih fun s a ha t h ↦ ?_)
    exact hstep s a (List.mem_cons_of_mem _ ha) t h

/-- Every label of a run is the label of a step. -/
theorem Steps.exists_of_mem (h : Steps step s as t) (ha : a ∈ as) : ∃ s' t', step s' a t' := by
  induction h with
  | nil => cases ha
  | cons head _ ih =>
    rcases List.mem_cons.mp ha with rfl | ha
    · exact ⟨_, _, head⟩
    · exact ih ha

/-- What every step keeps holds after every run. -/
theorem Steps.invariant {P : σ → Prop} (hstep : ∀ s a t, P s → step s a t → P t)
    (hs : P s) (h : Steps step s as t) : P t := by
  induction h with
  | nil s => exact hs
  | cons head tail ih => exact ih (hstep _ _ _ hs head)

/-- What a step adds to a quantity adds up along a run. -/
theorem Steps.measure (m : σ → Nat) (cost : α → Nat)
    (hstep : ∀ s a t, step s a t → m t = m s + cost a) (h : Steps step s as t) :
    m t = m s + (as.map cost).sum := by
  induction h with
  | nil s => simp
  | cons head tail ih =>
    rw [ih, hstep _ _ _ head, List.map_cons, List.sum_cons]
    omega

/-- A run of a step that is a function. -/
theorem steps_of_foldlM (next : σ → α → Option σ) (hnext : ∀ s a t, next s a = some t → step s a t)
    (h : as.foldlM next s = some t) : Steps step s as t := by
  induction as generalizing s with
  | nil =>
    obtain rfl := Option.some.inj h
    exact .nil s
  | cons a as ih =>
    rw [List.foldlM_cons] at h
    obtain ⟨w, hw, hrest⟩ := Option.bind_eq_some_iff.mp h
    exact .cons (hnext s a w hw) (ih hrest)

/-! ## Functions under a guard -/

section Guarded

variable {next : σ → α → σ} {guard : σ → α → Prop}

/-- The guard holds wherever a label is taken. -/
def Allowed (next : σ → α → σ) (guard : σ → α → Prop) : σ → List α → Prop
  | _, [] => True
  | s, a :: as => guard s a ∧ Allowed next guard (next s a) as

instance decidableAllowed [∀ s a, Decidable (guard s a)] :
    (s : σ) → (as : List α) → Decidable (Allowed next guard s as)
  | _, [] => .isTrue trivial
  | s, a :: as =>
    let _ : Decidable (Allowed next guard (next s a) as) := decidableAllowed (next s a) as
    inferInstanceAs (Decidable (guard s a ∧ Allowed next guard (next s a) as))

theorem steps_foldl (hstep : ∀ s a, guard s a → step s a (next s a))
    (h : Allowed next guard s as) : Steps step s as (as.foldl next s) := by
  induction as generalizing s with
  | nil => exact .nil s
  | cons a as ih => exact .cons (hstep s a h.1) (ih h.2)

theorem foldl_of_allowed {P : σ → Prop} (hkeep : ∀ s a, P s → guard s a → P (next s a))
    (hs : P s) (h : Allowed next guard s as) : P (as.foldl next s) := by
  induction as generalizing s with
  | nil => exact hs
  | cons a as ih => exact ih (hkeep s a hs h.1) h.2

/-- The first guard that fails loses the property, and no label brings it back. -/
theorem foldl_of_not_allowed {P Q : σ → Prop} (hkeep : ∀ s a, P s → guard s a → P (next s a))
    (hlose : ∀ s a, P s → ¬ guard s a → Q (next s a)) (hlost : ∀ s a, Q s → Q (next s a))
    (hs : P s) (h : ¬ Allowed next guard s as) : Q (as.foldl next s) := by
  induction as generalizing s with
  | nil => exact absurd trivial h
  | cons a as ih =>
    by_cases hguard : guard s a
    · exact ih (hkeep s a hs hguard) fun hrest ↦ h ⟨hguard, hrest⟩
    · exact List.foldlRecOn as next (hlose s a hs hguard) fun t ht b _ ↦ hlost t b ht

end Guarded

end Praxis.Foundation
