import Mathlib.Data.List.Forall2

/-!
# Results that may be errors

`Gives Q E r` says of a result that it is a value of which `Q` holds or an error of
which `E` holds.  The rules follow the ways results are put together.
-/

namespace Praxis.Foundation

variable {α β ε : Type} {Q Q' : α → Prop} {E E' : ε → Prop} {r : Except ε α}

theorem bind_eq_ok_iff {next : α → Except ε β} {b : β} :
    (r >>= next) = .ok b ↔ ∃ a, r = .ok a ∧ next a = .ok b := by
  cases r with
  | error e => exact ⟨nofun, nofun⟩
  | ok a => exact ⟨fun h ↦ ⟨a, rfl, h⟩, fun ⟨_, ha, h⟩ ↦ by cases ha; exact h⟩

/-- `Option::ok_or`. -/
def okOr (o : Option α) (e : ε) : Except ε α :=
  match o with
  | none => .error e
  | some a => .ok a

theorem okOr_eq_ok_iff {o : Option α} {e : ε} {a : α} : okOr o e = .ok a ↔ o = some a := by
  cases o with
  | none => exact ⟨nofun, nofun⟩
  | some b => exact ⟨fun h ↦ by cases h; rfl, fun h ↦ by cases h; rfl⟩

/-- Fails unless the condition holds. -/
def ensure (condition : Bool) (e : ε) : Except ε Unit := if condition then .ok () else .error e

theorem ensure_eq_ok_iff {condition : Bool} {e : ε} {u : Unit} :
    ensure condition e = .ok u ↔ condition = true := by
  cases condition with
  | false => exact ⟨nofun, nofun⟩
  | true => exact ⟨fun _ ↦ rfl, fun _ ↦ rfl⟩

end Praxis.Foundation
