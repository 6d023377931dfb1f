import Mathlib.Algebra.Group.Hom.Defs

/-!
# Machines that read a stream in chunks

A `Transducer` is fed a stream chunk by chunk, answers each chunk with an output and is
flushed at the end.  The outputs multiply in a monoid, so that `run` says what a whole
session puts out.

How a stream is cut should not be visible in what a machine puts out
(`ChunkIndependent`).  A machine has this property as soon as feeding composes, from every
state that satisfies an invariant of the caller's choice (`Composes.chunkIndependent`).
Translating the outputs along a homomorphism translates what a session puts out (`run_map`).
-/

namespace Praxis.Foundation

/-- A machine that is fed chunks of a stream and flushed at its end. -/
structure Transducer (α ω : Type) where
  State : Type
  init : State
  feed : State → List α → ω × State
  flush : State → ω × State

namespace Transducer

variable {α ω : Type} [Monoid ω] (t : Transducer α ω)

/-- Feed chunks one after another. -/
def feedAll : t.State → List (List α) → ω × t.State
  | s, [] => (1, s)
  | s, chunk :: chunks =>
    let fed := t.feed s chunk
    let rest := feedAll fed.2 chunks
    (fed.1 * rest.1, rest.2)

/-- What a session puts out from a state on. -/
def runFrom (s : t.State) (chunks : List (List α)) : ω :=
  let fed := t.feedAll s chunks
  fed.1 * (t.flush fed.2).1

/-- What a whole session puts out. -/
def run (chunks : List (List α)) : ω := t.runFrom t.init chunks

/-- The chunks do not show in the output. -/
def ChunkIndependent : Prop := ∀ chunks : List (List α), t.run chunks = t.run [chunks.flatten]

@[simp] theorem feedAll_nil (s : t.State) : t.feedAll s [] = (1, s) := rfl

theorem feedAll_cons (s : t.State) (chunk : List α) (chunks : List (List α)) :
    t.feedAll s (chunk :: chunks) =
      ((t.feed s chunk).1 * (t.feedAll (t.feed s chunk).2 chunks).1,
        (t.feedAll (t.feed s chunk).2 chunks).2) := rfl

theorem feedAll_append (s : t.State) (front back : List (List α)) :
    t.feedAll s (front ++ back) =
      ((t.feedAll s front).1 * (t.feedAll (t.feedAll s front).2 back).1,
        (t.feedAll (t.feedAll s front).2 back).2) := by
  induction front generalizing s with
  | nil => simp
  | cons chunk front ih =>
    rw [List.cons_append, feedAll_cons, ih, feedAll_cons]
    simp only [mul_assoc]

theorem runFrom_nil (s : t.State) : t.runFrom s [] = (t.flush s).1 := one_mul _

theorem runFrom_cons (s : t.State) (chunk : List α) (chunks : List (List α)) :
    t.runFrom s (chunk :: chunks) = (t.feed s chunk).1 * t.runFrom (t.feed s chunk).2 chunks := by
  rw [runFrom, feedAll_cons, mul_assoc]
  rfl

theorem runFrom_append (s : t.State) (front back : List (List α)) :
    t.runFrom s (front ++ back) = (t.feedAll s front).1 * t.runFrom (t.feedAll s front).2 back := by
  rw [runFrom, feedAll_append, mul_assoc]
  rfl

theorem run_singleton (text : List α) :
    t.run [text] = (t.feed t.init text).1 * (t.flush (t.feed t.init text).2).1 := by
  rw [run, runFrom_cons, runFrom_nil]

/-- Feeding composes, from every state that satisfies the invariant. -/
structure Composes (Inv : t.State → Prop) : Prop where
  init : Inv t.init
  feed : ∀ {s} chunk, Inv s → Inv (t.feed s chunk).2
  feed_nil : ∀ {s}, Inv s → t.feed s [] = (1, s)
  feed_append : ∀ {s} front back, Inv s → t.feed s (front ++ back) =
    ((t.feed s front).1 * (t.feed (t.feed s front).2 back).1,
      (t.feed (t.feed s front).2 back).2)

variable {t} {Inv : t.State → Prop}

namespace Composes

/-- Feeding chunks is feeding their concatenation. -/
theorem feedAll_eq (h : t.Composes Inv) (chunks : List (List α)) :
    ∀ {s : t.State}, Inv s → t.feedAll s chunks = t.feed s chunks.flatten := by
  induction chunks with
  | nil =>
    intro s hs
    exact (h.feed_nil hs).symm
  | cons chunk chunks ih =>
    intro s hs
    rw [feedAll_cons, ih (h.feed chunk hs), List.flatten_cons, h.feed_append _ _ hs]

/-- A machine whose feeding composes does not show how its input was cut. -/
theorem chunkIndependent (h : t.Composes Inv) : t.ChunkIndependent := by
  intro chunks
  have hall : t.feedAll t.init chunks = t.feed t.init chunks.flatten := h.feedAll_eq chunks h.init
  rw [run, runFrom, run_singleton, hall]

end Composes

/-! ## Translated output -/

/-- The machine with its output translated. -/
def map {υ : Type} [Monoid υ] (t : Transducer α ω) (f : ω →* υ) : Transducer α υ where
  State := t.State
  init := t.init
  feed s chunk := (f (t.feed s chunk).1, (t.feed s chunk).2)
  flush s := (f (t.flush s).1, (t.flush s).2)

variable {υ : Type} [Monoid υ] (f : ω →* υ)

theorem feedAll_map (s : t.State) (chunks : List (List α)) :
    (t.map f).feedAll s chunks = (f (t.feedAll s chunks).1, (t.feedAll s chunks).2) := by
  induction chunks generalizing s with
  | nil => exact congrArg (·, s) f.map_one.symm
  | cons chunk chunks ih =>
    show (f (t.feed s chunk).1 * ((t.map f).feedAll (t.feed s chunk).2 chunks).1,
      ((t.map f).feedAll (t.feed s chunk).2 chunks).2) = _
    rw [ih, feedAll_cons, map_mul]
    rfl

theorem run_map (chunks : List (List α)) : (t.map f).run chunks = f (t.run chunks) := by
  have hfed := t.feedAll_map f t.init chunks
  rw [run, run, runFrom, runFrom, map_mul]
  exact congrArg (fun fed : υ × t.State ↦ fed.1 * f (t.flush fed.2).1) hfed

end Transducer

end Praxis.Foundation
