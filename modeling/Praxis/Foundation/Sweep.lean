import Mathlib.Data.List.Nodup

/-!
# Sweeps

A loop goes through distinct keys, changes the value of each key and may drop the key from an
index.  If the visit of a key looks at no other key, the order of the visits does not matter:
`foldl_sweep` says what the loop leaves of each key in terms of the state before the loop.
-/

namespace Praxis.Foundation

variable {σ κ ν : Type} [DecidableEq κ] {visit : σ → κ → σ} (look : σ → κ → Option ν)
  (gone : σ → κ → Prop) (change : ν → ν) (Drops : Option ν → Prop) {keys : List κ}

/-- What a visit does at its key the sweep does at every key it visits. -/
theorem foldl_sweep
    (hlook : ∀ s k k', look (visit s k) k' = if k' = k then (look s k).map change else look s k')
    (hgone : ∀ s k k', gone (visit s k) k' ↔ gone s k' ∨ (k' = k ∧ Drops (look s k)))
    (hkeys : keys.Nodup) (s : σ) (k : κ) :
    look (keys.foldl visit s) k = (if k ∈ keys then (look s k).map change else look s k) ∧
      (gone (keys.foldl visit s) k ↔ gone s k ∨ (k ∈ keys ∧ Drops (look s k))) := by
  induction keys generalizing s with
  | nil => simp
  | cons key keys ih =>
    obtain ⟨hkey, hkeys⟩ := List.nodup_cons.mp hkeys
    obtain ⟨ihlook, ihgone⟩ := ih hkeys (visit s key)
    rw [List.foldl_cons, ihlook, ihgone, hlook, hgone]
    by_cases hk : k = key
    · subst hk
      simp [hkey]
    · simp [hk]

end Praxis.Foundation
