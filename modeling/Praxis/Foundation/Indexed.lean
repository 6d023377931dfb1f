import Mathlib.Data.List.Basic
import Mathlib.Data.List.Nodup

/-!
# Elements by their index

The indices at which a predicate holds, and what it does to a vector to change the elements
at these indices one after another, or to replace one of them.
-/

namespace Praxis.Foundation

universe u

variable {α : Type u} {p : α → Bool} {l : List α} {i : Nat}

/-- Replacing an element by one that counts for less. -/
theorem countP_set_add {a b : α} (hi : l[i]? = some a) :
    (l.set i b).countP p + (if p a then 1 else 0) = l.countP p + if p b then 1 else 0 := by
  induction l generalizing i with
  | nil => cases hi
  | cons c l ih =>
    cases i with
    | zero =>
      obtain rfl : c = a := Option.some.inj hi
      rw [List.set_cons_zero, List.countP_cons, List.countP_cons]
      omega
    | succ i =>
      have := ih hi
      rw [List.set_cons_succ, List.countP_cons, List.countP_cons]
      omega

/-- Replacing an element by one that brings more. -/
theorem flatMap_set_perm {β : Type*} {f : α → List β} {a b : α} {more : List β}
    (hi : l[i]? = some a) (h : (f b).Perm (f a ++ more)) :
    ((l.set i b).flatMap f).Perm (l.flatMap f ++ more) := by
  induction l generalizing i with
  | nil => cases hi
  | cons c l ih =>
    cases i with
    | zero =>
      obtain rfl : c = a := Option.some.inj hi
      rw [List.set_cons_zero, List.flatMap_cons, List.flatMap_cons, List.append_assoc]
      refine (h.append_right _).trans ?_
      rw [List.append_assoc]
      exact (List.perm_append_comm).append_left _
    | succ i =>
      rw [List.set_cons_succ, List.flatMap_cons, List.flatMap_cons, List.append_assoc]
      exact (ih hi).append_left _

end Praxis.Foundation
