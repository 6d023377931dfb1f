import Mathlib.Data.List.Basic
import Mathlib.Logic.Function.Basic
import Praxis.Foundation.Bytes

/-!
# Self-delimiting encoders

An encoder is *self-delimiting* when its output can be split off the front of
any longer string in only one way.  Concatenating self-delimiting encodings of
the fields of a record is then injective, and again self-delimiting, however
many fields there are and whatever follows.  This is the whole theory of formats
that are written field after field without separators: the one thing to check of
a record is that each field but the last is self-delimiting, and that the last
one is injective.

Closure properties are stated for the constructions such formats use: a
fixed-width field, a field behind an injection, an optional field behind a
presence byte, a sequence behind its count, and a length-prefixed string.
-/

namespace Praxis.Foundation

universe u v w

variable {α : Type u} {β : Type v} {γ : Type w}

/-- The output of `enc` can be split off the front of a longer string in only
one way. -/
def SelfDelimiting (enc : α → List γ) : Prop :=
  ∀ a b s t, enc a ++ s = enc b ++ t → a = b ∧ s = t

namespace SelfDelimiting

/-- Splitting off one field: the form in which the property is used. -/
theorem append_eq_iff {enc : α → List γ} (h : SelfDelimiting enc) (a b : α) (s t : List γ) :
    enc a ++ s = enc b ++ t ↔ a = b ∧ s = t :=
  ⟨h a b s t, fun e ↦ by rw [e.1, e.2]⟩

theorem injective {enc : α → List γ} (h : SelfDelimiting enc) : Function.Injective enc := by
  intro a b hab
  exact (h a b [] [] (by rw [hab])).1

/-- An injective encoder of fixed width. -/
theorem of_width {enc : α → List γ} (w : Nat) (hw : ∀ a, (enc a).length = w)
    (hinj : Function.Injective enc) : SelfDelimiting enc := by
  intro a b s t h
  obtain ⟨hab, hst⟩ := List.append_inj h ((hw a).trans (hw b).symm)
  exact ⟨hinj hab, hst⟩

/-- Encoding through an injection. -/
theorem comp {enc : β → List γ} (h : SelfDelimiting enc) {f : α → β}
    (hf : Function.Injective f) : SelfDelimiting fun a ↦ enc (f a) := by
  intro a b s t e
  obtain ⟨hab, hst⟩ := h _ _ _ _ e
  exact ⟨hf hab, hst⟩

/-- A sequence of known length, element after element. -/
theorem flatMap_of_length {enc : α → List γ} (h : SelfDelimiting enc) :
    ∀ (as bs : List α) (s t : List γ), as.length = bs.length →
      as.flatMap enc ++ s = bs.flatMap enc ++ t → as = bs ∧ s = t := by
  intro as
  induction as with
  | nil =>
    intro bs s t hl e
    have hbs : bs = [] := List.length_eq_zero_iff.mp hl.symm
    subst hbs
    exact ⟨rfl, by simpa using e⟩
  | cons a as ih =>
    intro bs s t hl e
    cases bs with
    | nil => simp at hl
    | cons b bs =>
      simp only [List.flatMap_cons, List.append_assoc] at e
      obtain ⟨rfl, e'⟩ := h _ _ _ _ e
      obtain ⟨rfl, rfl⟩ := ih bs s t (by simpa using hl) e'
      exact ⟨rfl, rfl⟩

/-- A sequence behind which a terminator stands that no element starts with. -/
theorem flatMap_terminated {enc : α → List γ} {stop : γ} (h : SelfDelimiting enc)
    (hstop : ∀ a s t, enc a ++ s ≠ stop :: t) :
    ∀ (as bs : List α) (s t : List γ),
      as.flatMap enc ++ stop :: s = bs.flatMap enc ++ stop :: t → as = bs ∧ s = t := by
  intro as
  induction as with
  | nil =>
    intro bs s t e
    cases bs with
    | nil => exact ⟨rfl, (List.cons.inj e).2⟩
    | cons b bs =>
      rw [List.flatMap_cons, List.append_assoc] at e
      exact absurd e.symm (hstop _ _ _)
  | cons a as ih =>
    intro bs s t e
    rw [List.flatMap_cons, List.append_assoc] at e
    cases bs with
    | nil => exact absurd e (hstop _ _ _)
    | cons b bs =>
      rw [List.flatMap_cons, List.append_assoc] at e
      obtain ⟨rfl, e'⟩ := h _ _ _ _ e
      obtain ⟨rfl, rfl⟩ := ih bs s t e'
      exact ⟨rfl, rfl⟩

end SelfDelimiting

/-! ## Tagged alternatives -/

/-- A presence byte, and the value when there is one. -/
def optionBytes (enc : α → Bytes) : Option α → Bytes
  | some a => 1 :: enc a
  | none => [0]

theorem SelfDelimiting.optionBytes {enc : α → Bytes} (h : SelfDelimiting enc) :
    SelfDelimiting (optionBytes enc) := by
  rintro (_ | a) (_ | b) s t e
  · simpa [Foundation.optionBytes] using e
  · simp [Foundation.optionBytes] at e
  · simp [Foundation.optionBytes] at e
  · simp only [Foundation.optionBytes, List.cons_append, List.cons.injEq, true_and] at e
    obtain ⟨rfl, rfl⟩ := h _ _ _ _ e
    exact ⟨rfl, rfl⟩

/-! ## Length-prefixed strings and counted sequences -/

/-- A little-endian word of `w` bytes is self-delimiting on the numbers that fit
it. -/
theorem leBytes_append_inj {w m n : Nat} {s t : Bytes} (hm : m < 256 ^ w) (hn : n < 256 ^ w)
    (e : leBytes w m ++ s = leBytes w n ++ t) : m = n ∧ s = t := by
  obtain ⟨hmn, hst⟩ := List.append_inj e (by rw [leBytes_length, leBytes_length])
  exact ⟨(leBytes_inj hm hn).mp hmn, hst⟩

/-- A string behind its length.  The property holds on strings whose length fits
the length word. -/
theorem lengthPrefixed_append_inj {w : Nat} {a b s t : Bytes} (ha : a.length < 256 ^ w)
    (hb : b.length < 256 ^ w)
    (e : leBytes w a.length ++ a ++ s = leBytes w b.length ++ b ++ t) : a = b ∧ s = t := by
  simp only [List.append_assoc] at e
  obtain ⟨hl, e'⟩ := leBytes_append_inj ha hb e
  exact List.append_inj e' hl

/-- A sequence behind its count. -/
theorem counted_append_inj {w : Nat} {enc : α → Bytes} (h : SelfDelimiting enc) {as bs : List α}
    {s t : Bytes} (ha : as.length < 256 ^ w) (hb : bs.length < 256 ^ w)
    (e : leBytes w as.length ++ as.flatMap enc ++ s = leBytes w bs.length ++ bs.flatMap enc ++ t) :
    as = bs ∧ s = t := by
  simp only [List.append_assoc] at e
  obtain ⟨hl, e'⟩ := leBytes_append_inj ha hb e
  exact h.flatMap_of_length as bs s t hl e'

end Praxis.Foundation
