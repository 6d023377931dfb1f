import Mathlib.Data.List.Basic
import Mathlib.Data.List.InsertIdx

/-!
# Calls and their outputs

The elements of a list are calls, outputs and others; calls and outputs may carry
an identifier.  `Pairs` says that every call has an output with its identifier, and
every output that needs one has its call.

Outputs are inserted behind their calls by index, from the last one to the first
one (`insertBehind_eq`), and outputs without a call are filtered out
(`Pairs.of_filter`).  When the last element of a list goes and the first of its
counterparts with it, the rest stays paired if identifiers are not repeated
(`Pairs.removeLast_of_call`, `Pairs.removeLast_of_output`).
-/

namespace Praxis.Foundation

variable {α κ : Type}

/-! ## Insertion by index -/

/-- Insert what `behind` gives for an element behind it, from the last element to the first. -/
def insertBehind (behind : α → Option α) (l : List α) : List α :=
  (l.zipIdx.filterMap fun entry ↦ (behind entry.1).map (entry.2, ·)).reverse.foldl
    (fun items entry ↦ items.insertIdx (entry.1 + 1) entry.2) l

theorem insertIdx_append_length (l l' : List α) (x : α) :
    (l ++ l').insertIdx l.length x = l ++ x :: l' := by
  induction l with
  | nil => rfl
  | cons y l ih => rw [List.cons_append, List.length_cons, List.insertIdx_succ_cons, ih]; rfl

/-- The insertions do not get in the way of each other. -/
theorem insertBehind_eq (behind : α → Option α) (l : List α) :
    insertBehind behind l = l.flatMap fun x ↦ x :: (behind x).toList := by
  have hgeneral : ∀ (front : List α),
      ((l.zipIdx front.length).filterMap fun entry ↦
        (behind entry.1).map (entry.2, ·)).foldr
          (fun entry items ↦ items.insertIdx (entry.1 + 1) entry.2) (front ++ l) =
        front ++ l.flatMap fun x ↦ x :: (behind x).toList := by
    induction l with
    | nil => exact fun front ↦ rfl
    | cons x l ih =>
      intro front
      have hrest := ih (front ++ [x])
      rw [List.length_append, List.length_singleton, List.append_assoc, List.singleton_append]
        at hrest
      rw [List.zipIdx_cons, List.filterMap_cons, List.flatMap_cons]
      cases hbehind : behind x with
      | none =>
        simp only [Option.map_none, Option.toList_none]
        rw [hrest, List.append_assoc]
      | some y =>
        simp only [Option.map_some, Option.toList_some, List.foldr_cons]
        have hlength : front.length + 1 = (front ++ [x]).length := by
          rw [List.length_append, List.length_singleton]
        rw [hrest, hlength, insertIdx_append_length, List.append_assoc]
        rfl
  rw [insertBehind, List.foldl_reverse]
  exact hgeneral []

theorem mem_insertBehind {behind : α → Option α} {l : List α} {y : α} :
    y ∈ insertBehind behind l ↔ y ∈ l ∨ ∃ x ∈ l, behind x = some y := by
  rw [insertBehind_eq]
  simp only [List.mem_flatMap, List.mem_cons, Option.mem_toList]
  constructor
  · rintro ⟨x, hx, rfl | hy⟩
    · exact .inl hx
    · exact .inr ⟨x, hx, hy⟩
  · rintro (hy | ⟨x, hx, hy⟩)
    · exact ⟨y, hy, .inl rfl⟩
    · exact ⟨x, hx, .inr hy⟩

/-! ## Pairs -/

variable (call output : α → Option κ) (needs : α → Bool)

/-- Every call has an output, and every output that needs one has its call. -/
structure Pairs (l : List α) : Prop where
  answered : ∀ x ∈ l, ∀ id, call x = some id → ∃ y ∈ l, output y = some id
  called : ∀ y ∈ l, needs y = true → ∀ id, output y = some id → ∃ x ∈ l, call x = some id

instance [DecidableEq κ] (l : List α) : Decidable (Pairs call output needs l) :=
  decidable_of_iff
    ((∀ x ∈ l, ∀ id ∈ call x, ∃ y ∈ l, output y = some id) ∧
      ∀ y ∈ l, needs y = true → ∀ id ∈ output y, ∃ x ∈ l, call x = some id)
    ⟨fun h ↦ ⟨h.1, h.2⟩, fun h ↦ ⟨h.answered, h.called⟩⟩

variable {call output needs} {l : List α} {x : α} {p : α → Bool}

/-- A list stays paired when all that is removed is what carries certain identifiers. -/
theorem Pairs.of_removed {l' : List α} (h : Pairs call output needs l) (removed : κ → Prop)
    (hsubset : ∀ y ∈ l', y ∈ l)
    (hkept : ∀ y ∈ l, ∀ id, call y = some id ∨ output y = some id → ¬ removed id → y ∈ l')
    (hcall : ∀ y ∈ l', ∀ id, call y = some id → ¬ removed id)
    (houtput : ∀ y ∈ l', needs y = true → ∀ id, output y = some id → ¬ removed id) :
    Pairs call output needs l' := by
  constructor
  · intro y hy id hid
    obtain ⟨z, hz, hanswer⟩ := h.answered y (hsubset y hy) id hid
    exact ⟨z, hkept z hz id (.inr hanswer) (hcall y hy id hid), hanswer⟩
  · intro y hy hneeds id hid
    obtain ⟨z, hz, hcalls⟩ := h.called y (hsubset y hy) hneeds id hid
    exact ⟨z, hkept z hz id (.inl hcalls) (houtput y hy hneeds id hid), hcalls⟩

/-- Behind every call without an output one is inserted. -/
theorem answered_insertBehind {behind : α → Option α}
    (hsome : ∀ x y, behind x = some y → call y = none ∧ output y = call x)
    (hnone : ∀ x ∈ l, behind x = none → ∀ id, call x = some id → ∃ y ∈ l, output y = some id) :
    ∀ x ∈ insertBehind behind l, ∀ id, call x = some id →
      ∃ y ∈ insertBehind behind l, output y = some id := by
  intro x hx id hid
  rcases mem_insertBehind.mp hx with hx | ⟨z, -, hz⟩
  · cases hbehind : behind x with
    | none =>
      obtain ⟨y, hy, hanswer⟩ := hnone x hx hbehind id hid
      exact ⟨y, mem_insertBehind.mpr (.inl hy), hanswer⟩
    | some y =>
      refine ⟨y, mem_insertBehind.mpr (.inr ⟨x, hx, hbehind⟩), ?_⟩
      exact (hsome x y hbehind).2.trans hid
  · cases (hsome z x hz).1.symm.trans hid

/-- All that is filtered out of a list with an output for every call is outputs without a
call, and no output that needs a call stays without one. -/
theorem Pairs.of_filter {keep : α → Bool}
    (hanswered : ∀ x ∈ l, ∀ id, call x = some id → ∃ y ∈ l, output y = some id)
    (hcalls : ∀ x ∈ l, ∀ id, call x = some id → keep x = true)
    (houtputs : ∀ y ∈ l, ∀ id, output y = some id → (∃ x ∈ l, call x = some id) → keep y = true)
    (hkept : ∀ y ∈ l, keep y = true → needs y = true → ∀ id, output y = some id →
      ∃ x ∈ l, call x = some id) : Pairs call output needs (l.filter keep) := by
  constructor
  · intro x hx id hid
    have hmem := List.mem_of_mem_filter hx
    obtain ⟨y, hy, hanswer⟩ := hanswered x hmem id hid
    exact ⟨y, List.mem_filter.mpr ⟨hy, houtputs y hy id hanswer ⟨x, hmem, hid⟩⟩, hanswer⟩
  · intro y hy hneeds id hid
    obtain ⟨hmem, hkeep⟩ := List.mem_filter.mp hy
    obtain ⟨x, hx, hcall⟩ := hkept y hmem hkeep hneeds id hid
    exact ⟨x, List.mem_filter.mpr ⟨hx, hcalls x hx id hcall⟩, hcall⟩

/-- Elements that are neither calls nor outputs can be filtered out. -/
theorem Pairs.filter_others (h : Pairs call output needs l) {keep : α → Bool}
    (hkeep : ∀ y id, call y = some id ∨ output y = some id → keep y = true) :
    Pairs call output needs (l.filter keep) :=
  h.of_removed (fun _ ↦ False) (fun _ ↦ List.mem_of_mem_filter)
    (fun y hy id hid _ ↦ List.mem_filter.mpr ⟨hy, hkeep y id hid⟩)
    (fun _ _ _ _ ↦ id) (fun _ _ _ _ _ ↦ id)

/-- A change of the elements that leaves the identifiers alone keeps a list paired. -/
theorem Pairs.map (h : Pairs call output needs l) {f : α → α} (hcall : ∀ y, call (f y) = call y)
    (houtput : ∀ y, output (f y) = output y) (hneeds : ∀ y, needs (f y) = needs y) :
    Pairs call output needs (l.map f) := by
  constructor
  · intro _ hmem id hid
    obtain ⟨x, hx, rfl⟩ := List.mem_map.mp hmem
    rw [hcall] at hid
    obtain ⟨y, hy, hanswer⟩ := h.answered x hx id hid
    exact ⟨f y, List.mem_map_of_mem hy, (houtput y).trans hanswer⟩
  · intro _ hmem hneed id hid
    obtain ⟨y, hy, rfl⟩ := List.mem_map.mp hmem
    rw [houtput] at hid
    rw [hneeds] at hneed
    obtain ⟨x, hx, hcalls⟩ := h.called y hy hneed id hid
    exact ⟨f x, List.mem_map_of_mem hx, (hcall x).trans hcalls⟩

theorem mem_eraseP_of_mem_concat {y : α} (hy : y ∈ l ++ [x]) (hne : y ≠ x) (hp : ¬ p y = true) :
    y ∈ l.eraseP p := by
  rw [List.mem_eraseP_of_neg hp]
  exact (List.mem_append.mp hy).resolve_right fun h ↦ hne (List.mem_singleton.mp h)

section Counterparts

variable {f g : α → Option κ} {id : κ}

/-- The first element with an identifier that is not repeated is the only one. -/
theorem ne_of_mem_eraseP (h : (l.filterMap f).Nodup) (hp : ∀ y, p y = true ↔ f y = some id) :
    ∀ y ∈ l.eraseP p, f y ≠ some id := by
  intro y hy hid
  rcases List.exists_or_eq_self_of_eraseP p l with heq | ⟨z, front, back, hfront, hz, rfl, heq⟩
  · rw [heq] at hy
    obtain ⟨z, front, back, hfront, hz, hl, herase⟩ := List.exists_of_eraseP hy ((hp y).mpr hid)
    have hlength := congrArg List.length (heq.symm.trans herase)
    rw [hl] at hlength
    simp at hlength
  · rw [heq] at hy
    rw [List.filterMap_append, List.filterMap_cons_some ((hp z).mp hz)] at h
    have hother : id ∉ front.filterMap f ++ back.filterMap f :=
      (List.nodup_cons.mp (List.perm_middle.nodup_iff.mp h)).1
    rw [← List.filterMap_append] at hother
    exact hother (List.mem_filterMap.mpr ⟨y, hy, hid⟩)

theorem ne_of_mem_of_nodup_concat (h : ((l ++ [x]).filterMap f).Nodup) (hx : f x = some id) :
    ∀ y ∈ l, f y ≠ some id := by
  intro y hy hid
  rw [List.filterMap_append, List.filterMap_cons_some hx] at h
  have hother := (List.nodup_cons.mp (List.perm_middle.nodup_iff.mp h)).1
  exact hother (List.mem_append_left _ (List.mem_filterMap.mpr ⟨y, hy, hid⟩))

/-- Removing the last element and its counterpart touches nothing with another identifier. -/
theorem mem_eraseP_of_ne (hdisjoint : ∀ y, f y = none ∨ g y = none) (hx : f x = some id)
    (hp : ∀ y, p y = true ↔ g y = some id) {y : α} {other : κ} (hy : y ∈ l ++ [x])
    (hother : f y = some other ∨ g y = some other) (hne : other ≠ id) : y ∈ l.eraseP p := by
  refine mem_eraseP_of_mem_concat hy ?_ fun hpy ↦ ?_
  · rintro rfl
    rcases hother with hother | hother
    · exact hne (Option.some.inj (hother.symm.trans hx))
    · rcases hdisjoint y with hnone | hnone
      · cases hnone.symm.trans hx
      · cases hnone.symm.trans hother
  · have hid := (hp y).mp hpy
    rcases hother with hother | hother
    · rcases hdisjoint y with hnone | hnone
      · cases hnone.symm.trans hother
      · cases hnone.symm.trans hid
    · exact hne (Option.some.inj (hother.symm.trans hid))

end Counterparts

section RemoveLast

variable {id : κ}

/-- The last element and what is erased with it are neither calls nor outputs. -/
theorem Pairs.removeLast_of_others (h : Pairs call output needs (l ++ [x]))
    (hx : call x = none ∧ output x = none)
    (hp : ∀ y, p y = true → call y = none ∧ output y = none) :
    Pairs call output needs (l.eraseP p) := by
  have hother : ∀ y id, call y = some id ∨ output y = some id →
      ¬ (call y = none ∧ output y = none) := by
    rintro y id (hy | hy) ⟨hnocall, hnooutput⟩
    · cases hnocall.symm.trans hy
    · cases hnooutput.symm.trans hy
  refine h.of_removed (fun _ ↦ False) (fun y hy ↦ ?_) (fun y hy id hid _ ↦ ?_)
    (fun _ _ _ _ ↦ id) (fun _ _ _ _ _ ↦ id)
  · exact List.mem_append_left _ (List.mem_of_mem_eraseP hy)
  · refine mem_eraseP_of_mem_concat hy ?_ fun hpy ↦ hother y id hid (hp y hpy)
    rintro rfl
    exact hother y id hid hx

variable (hdisjoint : ∀ y, call y = none ∨ output y = none)
  (hcalls : ((l ++ [x]).filterMap call).Nodup) (houtputs : ((l ++ [x]).filterMap output).Nodup)

include hdisjoint hcalls houtputs

/-- The last element is a call, and its output is erased with it. -/
theorem Pairs.removeLast_of_call (h : Pairs call output needs (l ++ [x])) (hx : call x = some id)
    (hp : ∀ y, p y = true ↔ output y = some id) : Pairs call output needs (l.eraseP p) := by
  rw [List.filterMap_append] at houtputs
  refine h.of_removed (· = id) (fun y hy ↦ List.mem_append_left _ (List.mem_of_mem_eraseP hy))
    (fun y hy other hother hne ↦ mem_eraseP_of_ne hdisjoint hx hp hy hother hne) ?_ ?_
  · rintro y hy _ hid rfl
    exact ne_of_mem_of_nodup_concat hcalls hx y (List.mem_of_mem_eraseP hy) hid
  · rintro y hy - _ hid rfl
    exact ne_of_mem_eraseP (List.nodup_append.mp houtputs).1 hp y hy hid

/-- The last element is an output, and its call is erased with it. -/
theorem Pairs.removeLast_of_output (h : Pairs call output needs (l ++ [x]))
    (hx : output x = some id) (hp : ∀ y, p y = true ↔ call y = some id) :
    Pairs call output needs (l.eraseP p) := by
  rw [List.filterMap_append] at hcalls
  refine h.of_removed (· = id) (fun y hy ↦ List.mem_append_left _ (List.mem_of_mem_eraseP hy))
    (fun y hy other hother hne ↦ mem_eraseP_of_ne (fun y ↦ (hdisjoint y).symm) hx hp hy
      hother.symm hne) ?_ ?_
  · rintro y hy _ hid rfl
    exact ne_of_mem_eraseP (List.nodup_append.mp hcalls).1 hp y hy hid
  · rintro y hy - _ hid rfl
    exact ne_of_mem_of_nodup_concat houtputs hx y (List.mem_of_mem_eraseP hy) hid

end RemoveLast

end Praxis.Foundation
