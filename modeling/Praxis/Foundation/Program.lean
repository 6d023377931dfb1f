import Mathlib.Data.List.Basic

/-!
# Programs on a state

A program works on a state and ends with a value or with an error; an error keeps what was
done to the state.  It is given no faults: what it asks of its surroundings is part of the
state, and so is the answer.

What a program does from a state is stated by `Ends`, with one rule for each construct.  A
property that a program keeps, however it ends, is `Keeps`.
-/

namespace Praxis.Foundation

universe u

variable {σ τ ε γ α β : Type}

/-- A computation on a state that ends with a value or an error. -/
def Program (σ ε α : Type) := σ → Except ε α × σ

namespace Program

instance : Monad (Program σ ε) where
  pure a := fun s ↦ (.ok a, s)
  bind c next := fun s ↦
    match c s with
    | (.ok a, t) => next a t
    | (.error e, t) => (.error e, t)

/-- Stops with an error. -/
def fail (e : ε) : Program σ ε α := fun s ↦ (.error e, s)

/-- The state. -/
def state : Program σ ε σ := fun s ↦ (.ok s, s)

/-- Changes the state. -/
def update (f : σ → σ) : Program σ ε Unit := fun s ↦ (.ok (), f s)

/-- A computation on a part of the state. -/
def within (get : σ → τ) (set : τ → σ → σ) (c : StateM τ α) : Program σ ε α := fun s ↦
  match c (get s) with
  | (a, t) => (.ok a, set t s)

/-- The `?` of a result. -/
def ofExcept : Except ε α → Program σ ε α
  | .ok a => pure a
  | .error e => fail e

/-- Goes on with an error. -/
def handle (c : Program σ ε α) (handler : ε → Program σ γ α) : Program σ γ α := fun s ↦
  match c s with
  | (.ok a, t) => (.ok a, t)
  | (.error e, t) => handler e t

/-! ## What a program does -/

variable {c : Program σ ε α} {Q Q' : α → σ → Prop} {E E' : ε → σ → Prop} {P : σ → Prop} {s t : σ}
  {a : α} {e : ε}

/-- From the state `s` the program ends with a value and a state of which `Q` holds, or with
an error and a state of which `E` holds. -/
def Ends (c : Program σ ε α) (Q : α → σ → Prop) (E : ε → σ → Prop) (s : σ) : Prop :=
  match c s with
  | (.ok a, t) => Q a t
  | (.error e, t) => E e t

namespace Ends

theorem pure (h : Q a s) : Ends (Pure.pure a : Program σ ε α) Q E s := h

theorem fail (h : E e s) : Ends (fail e : Program σ ε α) Q E s := h

theorem update {f : σ → σ} {Q : Unit → σ → Prop} (h : Q () (f s)) :
    Ends (update f : Program σ ε Unit) Q E s := h

theorem bind {next : α → Program σ ε β} {Q : β → σ → Prop}
    (h : Ends c (fun a t ↦ Ends (next a) Q E t) E s) : Ends (c >>= next) Q E s := by
  unfold Ends at h ⊢
  change match (match c s with
    | (.ok a, t) => next a t
    | (.error e, t) => (.error e, t)) with
    | (.ok a, t) => Q a t
    | (.error e, t) => E e t
  rcases hc : c s with ⟨_ | a, t⟩ <;> rw [hc] at h <;> exact h

theorem weaken (h : Ends c Q E s) (hok : ∀ a t, Q a t → Q' a t) (herror : ∀ e t, E e t → E' e t) :
    Ends c Q' E' s := by
  unfold Ends at h ⊢
  rcases hc : c s with ⟨_ | a, t⟩ <;> rw [hc] at h
  · exact herror _ _ h
  · exact hok _ _ h

theorem state {Q : σ → σ → Prop} (h : Q s s) : Ends (state : Program σ ε σ) Q E s := h

theorem within {get : σ → τ} {set : τ → σ → σ} {c : StateM τ α}
    (h : ∀ a t, c (get s) = (a, t) → Q a (set t s)) :
    Ends (within get set c : Program σ ε α) Q E s := h _ _ rfl

theorem ofExcept {r : Except ε α} (hok : ∀ a, r = .ok a → Q a s)
    (herror : ∀ e, r = .error e → E e s) : Ends (ofExcept r : Program σ ε α) Q E s := by
  cases r with
  | ok a => exact hok a rfl
  | error e => exact herror e rfl

end Ends

/-- The property holds afterwards if it held before. -/
def Keeps (P : σ → Prop) (c : Program σ ε α) : Prop := ∀ s, P s → P (c s).2

theorem Keeps.ends (h : Keeps P c) (hs : P s) : Ends c (fun _ ↦ P) (fun _ ↦ P) s := by
  unfold Ends
  have ht := h s hs
  rcases hc : c s with ⟨_ | a, t⟩ <;> rw [hc] at ht <;> exact ht

theorem Ends.after (h : Ends c (fun _ ↦ P) (fun _ ↦ P) s) : P (c s).2 := by
  unfold Ends at h
  rcases hc : c s with ⟨_ | a, t⟩ <;> rw [hc] at h <;> exact h

theorem keeps_of_ends (h : ∀ s, P s → Ends c (fun _ ↦ P) (fun _ ↦ P) s) : Keeps P c :=
  fun s hs ↦ (h s hs).after

namespace Keeps

theorem pure (a : α) : Keeps P (Pure.pure a : Program σ ε α) := fun _ h ↦ h

theorem fail (e : ε) : Keeps P (fail e : Program σ ε α) := fun _ h ↦ h

theorem state : Keeps P (state : Program σ ε σ) := fun _ h ↦ h

theorem update {f : σ → σ} (h : ∀ s, P s → P (f s)) : Keeps P (update f : Program σ ε Unit) := h

theorem within {get : σ → τ} {set : τ → σ → σ} {c : StateM τ α} (h : ∀ s t, P s → P (set t s)) :
    Keeps P (within get set c : Program σ ε α) := fun s ↦ h s _

theorem ofExcept (r : Except ε α) : Keeps P (ofExcept r : Program σ ε α) := by
  cases r with
  | ok a => exact pure a
  | error e => exact fail e

theorem bind {next : α → Program σ ε β} (h : Keeps P c) (hnext : ∀ a, Keeps P (next a)) :
    Keeps P (c >>= next) := by
  intro s hs
  change P (match c s with
    | (.ok a, t) => next a t
    | (.error e, t) => (.error e, t)).2
  have ht := h s hs
  rcases hc : c s with ⟨_ | a, t⟩ <;> rw [hc] at ht
  · exact ht
  · exact hnext a t ht

theorem handle {handler : ε → Program σ γ α} (h : Keeps P c) (hnext : ∀ e, Keeps P (handler e)) :
    Keeps P (handle c handler) := by
  intro s hs
  have ht := h s hs
  unfold Program.handle
  rcases hc : c s with ⟨e | _, t⟩ <;> rw [hc] at ht
  · exact hnext e t ht
  · exact ht

end Keeps

end Program

end Praxis.Foundation
