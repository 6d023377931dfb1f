import Praxis.Foundation.Indexed
import Praxis.Foundation.Steps

/-!
# Calls that share a state

Calls are under way at the same time and work on one state, in sections that exclude each other.
Between two sections of a call the others may take theirs.  A `World` has the state and the point
that each call has come to; a point carries the local variables of its call.  What a section finds
outside the state (the clock, an answer of another system) is given to it with the move.

`Moves` allows every interleaving.  Its `guard` is a condition on the sections that are taken, so
that results about some of the interleavings can be stated.

There are rules for runs.  What every section keeps holds after every run (`shared_invariant`).
Where a call may leave something undone as long as it is on its way to do it (`World.Kept`),
everything is done once all calls have returned.  Calls may own keys without a lock: then a key
is as its owner knows it as long as the others leave the keys alone that are owned
(`World.Owns`).  Where a call begins only when no other is under way (`SerialMoves`), what it
knows is disturbed by nobody (`World.Alone`).
-/

namespace Praxis.Foundation

variable {σ π ρ : Type}

/-- The shared state, and the points of the calls; a call that has returned has none. -/
structure World (σ π : Type) where
  shared : σ
  calls : List (Option π)

/-- A call begins, or takes its next section. -/
inductive Move (π ρ : Type) where
  | enter (point : π)
  | advance (call : Nat) (answer : ρ)

/-- The moves that are possible, for calls that begin at the points `starts` and whose sections
are `act`. -/
def Moves (starts : π → Prop) (act : π → ρ → σ → σ × Option π) (guard : π → ρ → σ → Prop)
    (w : World σ π) : Move π ρ → World σ π → Prop
  | .enter point, t => starts point ∧ t = { w with calls := w.calls ++ [some point] }
  | .advance call answer, t => ∃ point, w.calls[call]? = some (some point) ∧
      guard point answer w.shared ∧
      t = ⟨(act point answer w.shared).1, w.calls.set call (act point answer w.shared).2⟩

variable {starts : π → Prop} {act : π → ρ → σ → σ × Option π} {guard : π → ρ → σ → Prop}
  {w t : World σ π} {move : Move π ρ} {moves : List (Move π ρ)}

/-- The call that began last takes a section. -/
theorem moves_last {s s' : σ} {calls : List (Option π)} {point : π} {after : Option π} {answer : ρ}
    (hact : act point answer s = (s', after)) (hguard : guard point answer s) :
    Moves starts act guard ⟨s, calls ++ [some point]⟩ (.advance calls.length answer)
      ⟨s', calls ++ [after]⟩ := by
  refine ⟨point, List.getElem?_concat_length, hguard, ?_⟩
  rw [hact, List.set_append_right _ _ (Nat.le_refl _), Nat.sub_self]
  rfl

/-- A property that every section keeps holds after every run. -/
theorem shared_invariant {I : σ → Prop}
    (hact : ∀ s point answer, I s → guard point answer s → I (act point answer s).1)
    (hs : I w.shared) (hrun : Steps (Moves starts act guard) w moves t) : I t.shared := by
  refine hrun.invariant (P := fun w ↦ I w.shared) (fun w move t hw hmove ↦ ?_) hs
  cases move with
  | enter point =>
    obtain ⟨-, rfl⟩ := hmove
    exact hw
  | advance call answer =>
    obtain ⟨point, -, hguard, rfl⟩ := hmove
    exact hact _ _ _ hw hguard

/-! ## Things to be done -/

section Due

variable {κ : Type} {Done : σ → κ → Prop} {Due : σ → π → κ → Prop}

/-- Everything is done, or a call is on its way to do it. -/
def World.Kept (Done : σ → κ → Prop) (Due : σ → π → κ → Prop) (w : World σ π) : Prop :=
  ∀ k, Done w.shared k ∨ ∃ point, some point ∈ w.calls ∧ Due w.shared point k

/-- A section leaves nothing of its own call undone unless the call goes on to do it, and undoes
nothing unless its call or the one that was to do it will. -/
theorem World.Kept.step
    (hown : ∀ s point answer k, guard point answer s → Done s k ∨ Due s point k →
      Done (act point answer s).1 k ∨
        ∃ next, (act point answer s).2 = some next ∧ Due (act point answer s).1 next k)
    (hother : ∀ s point answer other k, guard point answer s → Due s other k →
      Due (act point answer s).1 other k ∨ Done (act point answer s).1 k ∨
        ∃ next, (act point answer s).2 = some next ∧ Due (act point answer s).1 next k)
    (h : w.Kept Done Due) (hmove : Moves starts act guard w move t) : t.Kept Done Due := by
  intro k
  cases move with
  | enter point =>
    obtain ⟨-, rfl⟩ := hmove
    refine (h k).imp id fun ⟨other, hmem, hdue⟩ ↦ ⟨other, ?_, hdue⟩
    exact List.mem_append_left _ hmem
  | advance call answer =>
    obtain ⟨point, hcall, hguard, rfl⟩ := hmove
    obtain ⟨hlt, hpoint⟩ := List.getElem?_eq_some_iff.mp hcall
    have hmine (next : π) (hnext : (act point answer w.shared).2 = some next) :
        some next ∈ w.calls.set call (act point answer w.shared).2 := by
      rw [← hnext]
      exact List.mem_set hlt _
    rcases h k with hdone | ⟨other, hmem, hdue⟩
    · exact (hown _ _ _ k hguard (.inl hdone)).imp id
        fun ⟨next, hnext, hdue⟩ ↦ ⟨next, hmine next hnext, hdue⟩
    · obtain ⟨i, hi, hother'⟩ := List.getElem_of_mem hmem
      by_cases hsame : i = call
      · subst hsame
        obtain rfl : other = point := Option.some.inj (hother'.symm.trans hpoint)
        exact (hown _ _ _ k hguard (.inr hdue)).imp id
          fun ⟨next, hnext, hdue⟩ ↦ ⟨next, hmine next hnext, hdue⟩
      · rcases hother _ _ _ other k hguard hdue with hdue | hdone | ⟨next, hnext, hdue⟩
        · refine .inr ⟨other, ?_, hdue⟩
          refine List.mem_of_getElem? (i := i) ?_
          rw [List.getElem?_set_ne (Ne.symm hsame), List.getElem?_eq_getElem hi, hother']
        · exact .inl hdone
        · exact .inr ⟨next, hmine next hnext, hdue⟩

/-- Everything is done when all calls have returned. -/
theorem World.Kept.done (h : w.Kept Done Due) (hreturned : ∀ call ∈ w.calls, call = none) (k : κ) :
    Done w.shared k := by
  refine (h k).resolve_right ?_
  rintro ⟨point, hmem, -⟩
  cases hreturned _ hmem

end Due

/-! ## Keys that calls own -/

section Owns

variable {κ : Type} {own : π → Option κ} {touches : π → ρ → σ → κ → Prop}
  {free : σ → κ → Prop} {owned : σ → π → Prop}

/-- A section touches a key only while no other call owns it. -/
def World.Undisturbed (own : π → Option κ) (touches : π → ρ → σ → κ → Prop) (w : World σ π) :
    Move π ρ → Prop
  | .enter _ => True
  | .advance call answer => ∀ point, w.calls[call]? = some (some point) →
      ∀ k, touches point answer w.shared k → ∀ j other, w.calls[j]? = some (some other) →
        own other = some k → j = call

/-- The last call disturbs nobody when the others have returned. -/
theorem undisturbed_last {last : Option π} (n : Nat) {answer : ρ}
    (hcalls : w.calls = List.replicate n none ++ [last]) :
    w.Undisturbed own touches (.advance n answer) := by
  intro point _ k _ j other hj _
  rw [hcalls] at hj
  rcases Nat.lt_or_ge j n with hlt | hge
  · rw [List.getElem?_append_left (by rwa [List.length_replicate]),
      List.getElem?_replicate_of_lt hlt] at hj
    cases hj
  · have hlength := (List.getElem?_eq_some_iff.mp hj).1
    rw [List.length_append, List.length_replicate, List.length_singleton] at hlength
    omega

/-- A key has one owner at most, is as its owner knows it, and is as it should be if it has
none. -/
structure World.Owns (own : π → Option κ) (free : σ → κ → Prop) (owned : σ → π → Prop)
    (w : World σ π) : Prop where
  one : ∀ (i j : Nat) (a b : π) (k : κ), w.calls[i]? = some (some a) →
    w.calls[j]? = some (some b) → own a = some k → own b = some k → i = j
  free : ∀ k, (∀ point, some point ∈ w.calls → own point ≠ some k) → free w.shared k
  owned : ∀ point, some point ∈ w.calls → (own point).isSome → owned w.shared point

/-- A key behind a section that touches it: the call goes on and owns it, or it is as it should
be. -/
inductive KeyLeft (own : π → Option κ) (free : σ → κ → Prop) (owned : σ → π → Prop) (k : κ) :
    σ × Option π → Prop
  | owned {s : σ} {next : π} (hown : own next = some k) (howned : owned s next) :
      KeyLeft own free owned k (s, some next)
  | free {s : σ} {after : Option π} (hown : ∀ next, after = some next → own next ≠ some k)
      (hfree : free s k) : KeyLeft own free owned k (s, after)

theorem World.Owns.step (hstart : ∀ point, starts point → own point = none)
    (hown : ∀ s point answer k, own point = some k → touches point answer s k)
    (hnext : ∀ s point answer next k, (act point answer s).2 = some next → own next = some k →
      touches point answer s k)
    (htouched : ∀ s point answer k, guard point answer s → touches point answer s k →
      (own point = some k → owned s point) → (own point ≠ some k → free s k) →
        KeyLeft own free owned k (act point answer s))
    (hfree : ∀ s point answer k, guard point answer s → ¬touches point answer s k → free s k →
      free (act point answer s).1 k)
    (howned : ∀ s point answer other k, guard point answer s → ¬touches point answer s k →
      own other = some k → owned s other → owned (act point answer s).1 other)
    (h : w.Owns own free owned) (hmove : Moves starts act guard w move t)
    (halone : w.Undisturbed own touches move) : t.Owns own free owned := by
  cases move with
  | enter point =>
    obtain ⟨hpoint, rfl⟩ := hmove
    have hnone := hstart point hpoint
    have hold (i : Nat) (a : π) (k : κ) (hi : (w.calls ++ [some point])[i]? = some (some a))
        (ha : own a = some k) : w.calls[i]? = some (some a) := by
      rcases Nat.lt_or_ge i w.calls.length with hlt | hge
      · rwa [List.getElem?_append_left hlt] at hi
      · rw [List.getElem?_append_right hge] at hi
        obtain rfl : a = point :=
          Option.some.inj (List.mem_singleton.mp (List.mem_of_getElem? hi))
        cases hnone.symm.trans ha
    refine ⟨fun i j a b k hi hj ha hb ↦ ?_, fun k hk ↦ ?_, fun other hmem hsome ↦ ?_⟩
    · exact h.one i j a b k (hold i a k hi ha) (hold j b k hj hb) ha hb
    · exact h.free k fun other hmem ↦ hk other (List.mem_append_left _ hmem)
    · rcases List.mem_append.mp hmem with hmem | hmem
      · exact h.owned other hmem hsome
      · obtain rfl : other = point := Option.some.inj (List.mem_singleton.mp hmem)
        rw [hnone] at hsome
        cases hsome
  | advance call answer =>
    obtain ⟨point, hcall, hguard, rfl⟩ := hmove
    have hmem := List.mem_of_getElem? hcall
    have hlt := (List.getElem?_eq_some_iff.mp hcall).1
    have halone := halone point hcall
    -- a key that is touched has this owner or none
    have hleft (k : κ) (hk : touches point answer w.shared k) :
        KeyLeft own free owned k (act point answer w.shared) := by
      refine htouched _ _ _ k hguard hk (fun hpoint ↦ ?_) fun hpoint ↦ ?_
      · exact h.owned point hmem (hpoint ▸ rfl)
      · refine h.free k fun other hother hsome ↦ hpoint ?_
        obtain ⟨j, hj⟩ := List.getElem?_of_mem hother
        obtain rfl := halone k hk j other hj hsome
        obtain rfl := Option.some.inj (Option.some.inj (hcall.symm.trans hj))
        exact hsome
    have hset {i : Nat} {a : π}
        (hi : (w.calls.set call (act point answer w.shared).2)[i]? = some (some a)) :
        i = call ∧ (act point answer w.shared).2 = some a ∨
          i ≠ call ∧ w.calls[i]? = some (some a) := by
      by_cases hsame : i = call
      · subst hsame
        rw [List.getElem?_set_self hlt] at hi
        exact .inl ⟨rfl, Option.some.inj hi⟩
      · rw [List.getElem?_set_ne (Ne.symm hsame)] at hi
        exact .inr ⟨hsame, hi⟩
    refine ⟨fun i j a b k hi hj ha hb ↦ ?_, fun k hk ↦ ?_, fun other hother hsome ↦ ?_⟩
    · rcases hset hi with ⟨rfl, hafter⟩ | ⟨-, hi'⟩
      · rcases hset hj with ⟨rfl, -⟩ | ⟨-, hj'⟩
        · rfl
        · exact (halone k (hnext _ _ _ _ _ hafter ha) j b hj' hb).symm
      · rcases hset hj with ⟨rfl, hafter⟩ | ⟨-, hj'⟩
        · exact halone k (hnext _ _ _ _ _ hafter hb) i a hi' ha
        · exact h.one i j a b k hi' hj' ha hb
    · by_cases htouch : touches point answer w.shared k
      · have hend := hleft k htouch
        generalize hact : act point answer w.shared = r at hend hk
        cases hend with
        | owned hown' _ =>
          refine absurd hown' (hk _ ?_)
          exact List.mem_set hlt _
        | free _ hfree' => exact hfree'
      · refine hfree _ _ _ k hguard htouch (h.free k fun other hother hsome ↦ ?_)
        obtain ⟨j, hj⟩ := List.getElem?_of_mem hother
        have hne : j ≠ call := by
          rintro rfl
          obtain rfl := Option.some.inj (Option.some.inj (hcall.symm.trans hj))
          exact htouch (hown _ _ _ _ hsome)
        refine hk other (List.mem_of_getElem? (i := j) ?_) hsome
        rw [List.getElem?_set_ne (Ne.symm hne), hj]
    · obtain ⟨k, hk⟩ := Option.isSome_iff_exists.mp hsome
      obtain ⟨i, hi⟩ := List.getElem?_of_mem hother
      rcases hset hi with ⟨rfl, hafter⟩ | ⟨hne, hi⟩
      · have hend := hleft k (hnext _ _ _ _ _ hafter hk)
        generalize hact : act point answer w.shared = r at hend hafter
        cases hend with
        | owned _ howned' =>
          obtain rfl := Option.some.inj hafter
          exact howned'
        | free hfree' _ => exact absurd hk (hfree' other hafter)
      · refine howned _ _ _ other k hguard (fun htouch ↦ hne ?_) hk
          (h.owned other (List.mem_of_getElem? hi) hsome)
        exact halone k htouch i other hi hk

end Owns

/-! ## One call after another -/

section Serial

variable {begins : σ → Prop} {I : σ → Prop} {A : σ → π → Prop}

/-- No call is under way. -/
def World.Idle (w : World σ π) : Prop := ∀ call ∈ w.calls, call = none

/-- Moves with which a call begins only when no other is under way, and in some states. -/
def SerialMoves (begins : σ → Prop) (starts : π → Prop) (act : π → ρ → σ → σ × Option π)
    (guard : π → ρ → σ → Prop) (w : World σ π) (move : Move π ρ) (t : World σ π) : Prop :=
  Moves starts act guard w move t ∧ ∀ point, move = .enter point → w.Idle ∧ begins w.shared

/-- The state is as it should be, and the only call that is under way finds what it knows. -/
structure World.Alone (I : σ → Prop) (A : σ → π → Prop) (w : World σ π) : Prop where
  shared : I w.shared
  calls : ∀ (i : Nat) (point : π), w.calls[i]? = some (some point) →
    A w.shared point ∧ ∀ (j : Nat) (other : π), w.calls[j]? = some (some other) → j = i

theorem World.Alone.step (hstart : ∀ s point, I s → begins s → starts point → A s point)
    (hown : ∀ s point answer, guard point answer s → I s → A s point →
      I (act point answer s).1 ∧
        ∀ next, (act point answer s).2 = some next → A (act point answer s).1 next)
    (h : w.Alone I A) (hmove : SerialMoves begins starts act guard w move t) : t.Alone I A := by
  obtain ⟨hmove, hserial⟩ := hmove
  cases move with
  | enter point =>
    obtain ⟨hpoint, rfl⟩ := hmove
    obtain ⟨hidle, hbegins⟩ := hserial point rfl
    -- the call that begins is the last one, and the others have returned
    have honly (i : Nat) (other : π) (hi : (w.calls ++ [some point])[i]? = some (some other)) :
        other = point ∧ i = w.calls.length := by
      rcases Nat.lt_or_ge i w.calls.length with hlt | hge
      · rw [List.getElem?_append_left hlt] at hi
        cases hidle _ (List.mem_of_getElem? hi)
      · rw [List.getElem?_append_right hge] at hi
        have hzero := (List.getElem?_eq_some_iff.mp hi).1
        rw [List.length_singleton, Nat.lt_one_iff] at hzero
        rw [hzero] at hi
        exact ⟨(Option.some.inj (Option.some.inj hi)).symm,
          Nat.le_antisymm (Nat.sub_eq_zero_iff_le.mp hzero) hge⟩
    refine ⟨h.shared, fun i other hi ↦ ?_⟩
    obtain ⟨rfl, rfl⟩ := honly i other hi
    exact ⟨hstart _ _ h.shared hbegins hpoint, fun j next hj ↦ (honly j next hj).2⟩
  | advance call answer =>
    obtain ⟨point, hcall, hguard, rfl⟩ := hmove
    obtain ⟨hknows, halone⟩ := h.calls call point hcall
    obtain ⟨hshared, hnext⟩ := hown _ _ _ hguard h.shared hknows
    have honly (i : Nat) (other : π)
        (hi : (w.calls.set call (act point answer w.shared).2)[i]? = some (some other)) :
        i = call := by
      by_contra hne
      rw [List.getElem?_set_ne (Ne.symm hne)] at hi
      exact hne (halone i other hi)
    refine ⟨hshared, fun i other hi ↦ ?_⟩
    obtain rfl := honly i other hi
    refine ⟨hnext other ?_, fun j next hj ↦ honly j next hj⟩
    rw [List.getElem?_set_self (List.getElem?_eq_some_iff.mp hcall).1] at hi
    exact Option.some.inj hi

end Serial

/-! ## Moves that can be computed -/

/-- The move, where it is possible. -/
def World.next (act : π → ρ → σ → σ × Option π) (w : World σ π) : Move π ρ → World σ π
  | .enter point => { w with calls := w.calls ++ [some point] }
  | .advance call answer =>
    match w.calls[call]? with
    | some (some point) =>
      ⟨(act point answer w.shared).1, w.calls.set call (act point answer w.shared).2⟩
    | _ => w

def World.CanMove (starts : π → Prop) (guard : π → ρ → σ → Prop) (w : World σ π) :
    Move π ρ → Prop
  | .enter point => starts point
  | .advance call answer =>
    match w.calls[call]? with
    | some (some point) => guard point answer w.shared
    | _ => False

instance decidableCanMove [DecidablePred starts] [∀ p a s, Decidable (guard p a s)]
    (w : World σ π) (move : Move π ρ) : Decidable (w.CanMove starts guard move) :=
  match move with
  | .enter point => inferInstanceAs (Decidable (starts point))
  | .advance call answer =>
    match h : w.calls[call]? with
    | some (some point) =>
      decidable_of_iff (guard point answer w.shared) (by rw [World.CanMove, h])
    | some none => .isFalse (by rw [World.CanMove, h]; exact id)
    | none => .isFalse (by rw [World.CanMove, h]; exact id)

theorem moves_next (h : w.CanMove starts guard move) :
    Moves starts act guard w move (w.next act move) := by
  cases move with
  | enter point => exact ⟨h, rfl⟩
  | advance call answer =>
    rw [World.CanMove] at h
    rcases hcall : w.calls[call]? with _ | _ | point <;> rw [hcall] at h
    · exact h.elim
    · exact h.elim
    · refine ⟨point, hcall, h, ?_⟩
      rw [World.next, hcall]

end Praxis.Foundation
