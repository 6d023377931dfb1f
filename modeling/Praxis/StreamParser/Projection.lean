import Praxis.Foundation.Transducer
import Praxis.StreamParser.Literal

/-!
# Projections of streamed text

A `TextProjection` is what a stage of the stream parser makes of a piece of text: the part
that may be shown, and events.  Projections merge, and merging makes them a monoid.  A
`TextProjector` is a machine over characters that puts out projections; `project` is its
`feed` and `close` its `flush`.
-/

namespace Praxis.StreamParser

open Praxis.Foundation

/-- `TextProjection`. -/
@[ext] structure TextProjection (ε : Type) where
  renderable : Text := []
  events : List ε := []
  deriving DecidableEq, Repr

namespace TextProjection

variable {ε υ : Type}

/-- `TextProjection::renderable`. -/
def rendering (text : Text) : TextProjection ε := { renderable := text }

/-- A projection of one event. -/
def event (e : ε) : TextProjection ε := { events := [e] }

/-- `merge`. -/
def merge (out next : TextProjection ε) : TextProjection ε where
  renderable := out.renderable ++ next.renderable
  events := out.events ++ next.events

/-- `map_events`. -/
def mapEvents (f : ε → υ) (out : TextProjection ε) : TextProjection υ where
  renderable := out.renderable
  events := out.events.map f

instance : Monoid (TextProjection ε) where
  mul := merge
  one := {}
  mul_assoc a b c := by
    ext1
    · exact List.append_assoc ..
    · exact List.append_assoc ..
  one_mul _ := rfl
  mul_one a := by
    ext1
    · exact List.append_nil _
    · exact List.append_nil _

@[simp] theorem one_renderable : (1 : TextProjection ε).renderable = [] := rfl

@[simp] theorem one_events : (1 : TextProjection ε).events = [] := rfl

@[simp] theorem mul_renderable (a b : TextProjection ε) :
    (a * b).renderable = a.renderable ++ b.renderable := rfl

@[simp] theorem mul_events (a b : TextProjection ε) : (a * b).events = a.events ++ b.events := rfl

/-- Translating the events of merged projections merges their translations. -/
def mapEventsHom (f : ε → υ) : TextProjection ε →* TextProjection υ where
  toFun := mapEvents f
  map_one' := rfl
  map_mul' a b := by
    ext1
    · rfl
    · exact List.map_append

@[simp] theorem rendering_nil : rendering [] = (1 : TextProjection ε) := rfl

theorem rendering_append (a b : Text) :
    rendering (a ++ b) = (rendering a * rendering b : TextProjection ε) := rfl

/-- What is merged to no effect is empty. -/
theorem eq_one_of_mul_eq_left {a b : TextProjection ε} (h : a * b = a) : b = 1 := by
  ext1
  · exact List.append_right_eq_self.mp (congrArg renderable h)
  · exact List.append_right_eq_self.mp (congrArg events h)

end TextProjection

/-- `TextProjector`. -/
abbrev TextProjector (ε : Type) := Transducer Char (TextProjection ε)

end Praxis.StreamParser
