import Praxis.Compact.Local

/-!
# Calls and outputs in a compaction

A compaction should not separate a tool call from its output.  A retained part starts at an
item that may start one, and a cut there separates a call from its output exactly if the
item stands between them.  What may stand between a call and its output is therefore what
the guarantee depends on (`Unbroken`).  With several calls issued together the later calls
stand between the first one and its output.

In the automatic mode no item that may start a retained part can stand between a call and
its output.  In the manual mode everything is summarised, and only an overflow cuts.  Then
such an item does no harm as long as a user turn starts later on, since the cut prefers it.
-/

namespace Praxis.Compact

open Foundation Protocol Context

/-! ## Searching from an index -/

section Search

variable {p : ResponseItem → Bool} {items : List ResponseItem} {start n : Nat}

theorem findFrom_eq_some (h : findFrom p items start = some n) :
    ∃ front x back, items = front ++ x :: back ∧ front.length = n ∧ start ≤ n ∧ p x = true := by
  obtain ⟨i, hi, rfl⟩ := Option.map_eq_some_iff.mp h
  obtain ⟨hlt, hp, -⟩ := List.findIdx?_eq_some_iff_getElem.mp hi
  rw [List.length_drop] at hlt
  rw [List.getElem_drop] at hp
  have hn : start + i < items.length := by omega
  refine ⟨items.take (start + i), items[start + i], items.drop (start + i + 1), ?_, ?_, by omega, hp⟩
  · rw [← List.drop_eq_getElem_cons hn, List.take_append_drop]
  · rw [List.length_take]
    omega

theorem findFrom_eq_none (h : findFrom p items start = none) : ∀ x ∈ items.drop start, p x = false :=
  List.findIdx?_eq_none_iff.mp (Option.map_eq_none_iff.mp h)

/-- The search from an item at which the predicate holds ends there. -/
theorem findFrom_of_head {front back : List ResponseItem} {x : ResponseItem} (hx : p x = true) :
    findFrom p (front ++ x :: back) front.length = some front.length := by
  rw [findFrom, List.drop_left, List.findIdx?_cons, hx]
  simp

theorem findFrom_of_none {front back : List ResponseItem} (h : ∀ x ∈ back, p x = false) :
    findFrom p (front ++ back) front.length = none := by
  rw [findFrom, List.drop_left, Option.map_eq_none_iff, List.findIdx?_eq_none_iff]
  exact h

/-- The search passes over what the predicate does not hold of. -/
theorem findFrom_of_append {front mid back : List ResponseItem} {x : ResponseItem}
    (hmid : ∀ y ∈ mid, p y = false) (hx : p x = true) :
    findFrom p (front ++ (mid ++ x :: back)) front.length = some (front.length + mid.length) := by
  rw [findFrom, List.drop_left, List.findIdx?_append, List.findIdx?_eq_none_iff.mpr hmid,
    List.findIdx?_cons, hx]
  simp [Nat.add_comm]

end Search

variable {X : Context.Externals} {bytes : ResponseItem → Int} {items : List ResponseItem}

/-! ## Items -/

theorem isValidRetainedSuffixStart_of_startsUserTurn {item : ResponseItem}
    (h : startsUserTurn X item = true) : isValidRetainedSuffixStart X item = true := by
  unfold startsUserTurn isUserTurnBoundary at h
  cases item with
  | message id role content phase =>
    simp only [isValidRetainedSuffixStart]
    by_cases huser : role.val = "user"
    · rw [if_pos huser]
      simp [huser] at h ⊢
      exact h
    · rw [if_neg huser]
      simp [huser] at h
      simp [h.1.1]
  | _ => simp at h

theorem isValidRetainedSuffixStart_of_toolCallId {item : ResponseItem} {id : Str}
    (h : toolCallId item = some id) : isValidRetainedSuffixStart X item = true := by
  cases item <;> first | rfl | cases h

theorem isValidRetainedSuffixStart_of_outputCallId {item : ResponseItem} {id : Str}
    (h : outputCallId item = some id) : isValidRetainedSuffixStart X item = false := by
  cases item <;> first | rfl | cases h

/-! ## Histories -/

/-- A history in which calls and outputs belong together. -/
structure Paired (items : List ResponseItem) : Prop where
  call_before : ∀ front output back id, items = front ++ output :: back →
    outputCallId output = some id → ∃ call ∈ front, toolCallId call = some id
  output_behind : ∀ front call back id, items = front ++ call :: back →
    toolCallId call = some id → ∃ output ∈ back, outputCallId output = some id
  distinct : (items.filterMap toolCallId).Nodup

/-- A call and its output, with what stands between them. -/
def Round (items front : List ResponseItem) (call : ResponseItem) (mid : List ResponseItem)
    (output : ResponseItem) (back : List ResponseItem) : Prop :=
  items = front ++ call :: (mid ++ output :: back) ∧
    ∃ id, toolCallId call = some id ∧ outputCallId output = some id

variable (X) in
/-- What may stand between a call and its output. -/
def Unbroken (mode : LocalCompactMode) (items : List ResponseItem) : Prop :=
  ∀ front call mid output back, Round items front call mid output back →
    match mode with
    | .auto => ∀ x ∈ mid, isValidRetainedSuffixStart X x = false
    | .manual => (∀ x ∈ mid, startsUserTurn X x = false) ∧
        ((∃ x ∈ mid, isValidRetainedSuffixStart X x = true) →
          ∃ y ∈ back, startsUserTurn X y = true)

/-- No call of the first part has its output in the second part. -/
def Uncut (front back : List ResponseItem) : Prop :=
  ∀ call ∈ front, ∀ output ∈ back, ∀ id, toolCallId call = some id → outputCallId output ≠ some id

/-- Every output has its call. -/
def NoOrphan (items : List ResponseItem) : Prop :=
  ∀ output ∈ items, ∀ id, outputCallId output = some id → ∃ call ∈ items, toolCallId call = some id

/-! ## A cut at a start -/

/-- A cut in front of an item separates a call from its output only if the item stands
between them. -/
theorem exists_round_of_not_uncut {front back : List ResponseItem} {x : ResponseItem}
    (hx : outputCallId x = none) (h : ¬ Uncut front (x :: back)) :
    ∃ a call b c output d, front = a ++ call :: b ∧ back = c ++ output :: d ∧
      Round (front ++ x :: back) a call (b ++ x :: c) output d := by
  simp only [Uncut, not_forall, not_not] at h
  obtain ⟨call, hcall, output, houtput, id, hid, hoid⟩ := h
  have hback : output ∈ back := by
    rcases List.mem_cons.mp houtput with rfl | hback
    · rw [hx] at hoid
      cases hoid
    · exact hback
  obtain ⟨a, b, rfl⟩ := List.append_of_mem hcall
  obtain ⟨c, d, rfl⟩ := List.append_of_mem hback
  exact ⟨a, call, b, c, output, d, rfl, rfl, by simp, id, hid, hoid⟩

theorem outputCallId_of_isValidRetainedSuffixStart {x : ResponseItem}
    (hx : isValidRetainedSuffixStart X x = true) : outputCallId x = none := by
  cases hid : outputCallId x with
  | none => rfl
  | some id =>
    rw [isValidRetainedSuffixStart_of_outputCallId hid] at hx
    cases hx

/-- Where nothing that may start a part stands between a call and its output, a cut at a
start separates nothing. -/
theorem uncut_of_auto {front back : List ResponseItem} {x : ResponseItem}
    (h : Unbroken X .auto (front ++ x :: back)) (hx : isValidRetainedSuffixStart X x = true) :
    Uncut front (x :: back) := by
  by_contra hcut
  obtain ⟨a, call, b, c, output, d, -, -, hround⟩ :=
    exists_round_of_not_uncut (outputCallId_of_isValidRetainedSuffixStart hx) hcut
  have hno := h a call (b ++ x :: c) output d hround x (by simp)
  rw [hx] at hno
  cases hno

/-- What an overflow may cut at: the start of a user turn, or another start behind which no
user turn starts. -/
def OverflowStart (X : Context.Externals) (x : ResponseItem) (back : List ResponseItem) : Prop :=
  startsUserTurn X x = true ∨
    (isValidRetainedSuffixStart X x = true ∧ ∀ y ∈ back, startsUserTurn X y = false)

theorem uncut_of_manual {front back : List ResponseItem} {x : ResponseItem}
    (h : Unbroken X .manual (front ++ x :: back)) (hx : OverflowStart X x back) :
    Uncut front (x :: back) := by
  by_contra hcut
  have hvalid : isValidRetainedSuffixStart X x = true :=
    hx.elim isValidRetainedSuffixStart_of_startsUserTurn And.left
  obtain ⟨a, call, b, c, output, d, -, rfl, hround⟩ :=
    exists_round_of_not_uncut (outputCallId_of_isValidRetainedSuffixStart hvalid) hcut
  obtain ⟨hturn, hlater⟩ := h a call (b ++ x :: c) output d hround
  rcases hx with hx | ⟨-, hnone⟩
  · have hno := hturn x (by simp)
    rw [hx] at hno
    cases hno
  · obtain ⟨y, hy, hyturn⟩ := hlater ⟨x, by simp, hvalid⟩
    have hno := hnone y (by simp [hy])
    rw [hyturn] at hno
    cases hno

/-- The condition for the automatic mode passes to every part of the items. -/
theorem Unbroken.infix_auto (front back : List ResponseItem)
    (h : Unbroken X .auto (front ++ items ++ back)) : Unbroken X .auto items := by
  rintro a call mid output d ⟨rfl, hid⟩
  exact h (front ++ a) call mid output (d ++ back) ⟨by simp, hid⟩

/-- The condition for the manual mode passes to every part at the end of the items. -/
theorem Unbroken.suffix_manual {front : List ResponseItem}
    (h : Unbroken X .manual (front ++ items)) : Unbroken X .manual items := by
  rintro a call mid output d ⟨rfl, hid⟩
  exact h (front ++ a) call mid output d ⟨by simp, hid⟩

/-! ## The overflow -/

/-- `safe_recent_suffix_start` finds a start for an overflow. -/
theorem safeRecentSuffixStart_spec {target : Int} {start : Nat}
    (h : safeRecentSuffixStart X bytes items target = some start) :
    ∃ front x back, items = front ++ x :: back ∧ front.length = start ∧ OverflowStart X x back := by
  unfold safeRecentSuffixStart at h
  split_ifs at h
  dsimp only at h
  split_ifs at h
  rcases Option.or_eq_some_iff.mp h with h | ⟨hnone, h⟩
  · obtain ⟨front, x, back, heq, hlen, -, hx⟩ := findFrom_eq_some h
    exact ⟨front, x, back, heq, hlen, .inl hx⟩
  · obtain ⟨front, x, back, rfl, hlen, hle, hx⟩ := findFrom_eq_some h
    refine ⟨front, x, back, rfl, hlen, .inr ⟨hx, fun y hy ↦ findFrom_eq_none hnone y ?_⟩⟩
    rw [List.drop_append_of_le_length (hle.trans hlen.ge)]
    simp [hy]

variable (X bytes) in
/-- An overflow leaves the items as they are or cuts them at a start. -/
theorem shrinkLoop_cases (plan : LocalCompactionPlan) (ratios : List Int) :
    (plan.shrinkLoop X bytes ratios).1.summaryItems = plan.summaryItems ∨
      ∃ front x back, plan.summaryItems = front ++ x :: back ∧ OverflowStart X x back ∧
        (plan.shrinkLoop X bytes ratios).1.summaryItems = x :: back := by
  induction ratios generalizing plan with
  | nil => exact .inl rfl
  | cons ratio ratios ih =>
    rw [LocalCompactionPlan.shrinkLoop]
    dsimp only
    split
    · exact ih { plan with overflowShrinkStage := plan.overflowShrinkStage + 1 }
    · next start hstart =>
      obtain ⟨front, x, back, heq, hlen, hx⟩ := safeRecentSuffixStart_spec hstart
      split_ifs
      · right
        refine ⟨front, x, back, heq, hx, ?_⟩
        dsimp only
        rw [heq, ← hlen, List.drop_left]
      · exact ih { plan with overflowShrinkStage := plan.overflowShrinkStage + 1 }

/-- An overflow that cuts at a place where nothing is separated leaves no orphan. -/
theorem NoOrphan.of_uncut {front back : List ResponseItem} (h : NoOrphan (front ++ back))
    (hcut : Uncut front back) : NoOrphan back := by
  intro output houtput id hid
  obtain ⟨call, hcall, hcid⟩ := h output (List.mem_append_right front houtput) id hid
  rcases List.mem_append.mp hcall with hfront | hback
  · exact absurd hid (hcut call hfront output houtput id hcid)
  · exact ⟨call, hback, hcid⟩

variable (bytes) in
/-- One overflow keeps the condition, and no output loses its call. -/
theorem shrinkSummaryForOverflow_spec {mode : LocalCompactMode} {plan : LocalCompactionPlan}
    (h : Unbroken X mode plan.summaryItems) (horphan : NoOrphan plan.summaryItems) :
    Unbroken X mode (plan.shrinkSummaryForOverflow X bytes).1.summaryItems ∧
      NoOrphan (plan.shrinkSummaryForOverflow X bytes).1.summaryItems := by
  rcases shrinkLoop_cases X bytes plan (shrinkRatios.drop plan.overflowShrinkStage) with
     hsame | ⟨front, x, back, heq, hx, hback⟩
  · rw [LocalCompactionPlan.shrinkSummaryForOverflow, hsame]
    exact ⟨h, horphan⟩
  · rw [LocalCompactionPlan.shrinkSummaryForOverflow, hback]
    rw [heq] at h horphan
    have hvalid : isValidRetainedSuffixStart X x = true :=
      hx.elim isValidRetainedSuffixStart_of_startsUserTurn And.left
    cases mode with
    | auto =>
      refine ⟨?_, horphan.of_uncut (uncut_of_auto h hvalid)⟩
      rw [← List.append_nil (front ++ x :: back)] at h
      exact h.infix_auto front []
    | manual => exact ⟨h.suffix_manual, horphan.of_uncut (uncut_of_manual h hx)⟩

/-! ## The cut of the plan -/

theorem matchingToolCallIndexBefore_spec {outputIndex n : Nat}
    (h : matchingToolCallIndexBefore items outputIndex = some n) :
    ∃ front x back, items = front ++ x :: back ∧ front.length = n ∧
      isValidRetainedSuffixStart X x = true := by
  unfold matchingToolCallIndexBefore at h
  obtain ⟨callId, hout, h⟩ := Option.bind_eq_some_iff.mp h
  obtain ⟨back, hback, h⟩ := Option.bind_eq_some_iff.mp h
  cases h
  obtain ⟨output, hget, -⟩ := Option.bind_eq_some_iff.mp hout
  have hlt := (List.getElem?_eq_some_iff.mp hget).1
  obtain ⟨hback, hid, -⟩ := List.findIdx?_eq_some_iff_getElem.mp hback
  rw [List.length_reverse, List.length_take, Nat.min_eq_left hlt.le] at hback
  rw [List.getElem_reverse, List.getElem_take, decide_eq_true_iff] at hid
  have hlen : (items.take outputIndex).length = outputIndex := by
    rw [List.length_take, Nat.min_eq_left hlt.le]
  simp only [hlen] at hid
  have hn : outputIndex - 1 - back < items.length := by omega
  refine ⟨items.take (outputIndex - 1 - back), items[outputIndex - 1 - back],
    items.drop (outputIndex - 1 - back + 1), ?_, ?_, isValidRetainedSuffixStart_of_toolCallId hid⟩
  · rw [← List.drop_eq_getElem_cons hn, List.take_append_drop]
  · rw [List.length_take]
    omega

variable (X bytes items) in
/-- The automatic mode cuts at an end of the items or at a start. -/
theorem chooseLocalCompactionCutIndex_auto :
    chooseLocalCompactionCutIndex X bytes items .auto = items.length ∨
      chooseLocalCompactionCutIndex X bytes items .auto = 0 ∨
      ∃ front x back, items = front ++ x :: back ∧
        chooseLocalCompactionCutIndex X bytes items .auto = front.length ∧
        isValidRetainedSuffixStart X x = true := by
  unfold chooseLocalCompactionCutIndex
  split_ifs with hempty hmode
  · exact .inr (.inl rfl)
  · cases hmode
  · split
    · exact .inl rfl
    · next tentative htentative =>
      split
      · next n hn =>
        obtain ⟨front, x, back, heq, hlen, -, hx⟩ := findFrom_eq_some hn
        exact .inr (.inr ⟨front, x, back, heq, hlen.symm,
          isValidRetainedSuffixStart_of_startsUserTurn hx⟩)
      · split
        · next n hn =>
          obtain ⟨front, x, back, heq, hlen, -, hx⟩ := findFrom_eq_some hn
          exact .inr (.inr ⟨front, x, back, heq, hlen.symm, hx⟩)
        · split_ifs
          · cases hn : matchingToolCallIndexBefore items tentative with
            | none => exact .inr (.inl rfl)
            | some n =>
              obtain ⟨front, x, back, heq, hlen, hx⟩ := matchingToolCallIndexBefore_spec hn
              exact .inr (.inr ⟨front, x, back, heq, hlen.symm, hx⟩)
          · exact .inr (.inl rfl)

theorem chooseLocalCompactionCutIndex_manual :
    chooseLocalCompactionCutIndex X bytes items .manual = items.length := by
  unfold chooseLocalCompactionCutIndex
  by_cases hempty : items.isEmpty
  · rw [if_pos hempty, List.isEmpty_iff.mp hempty]
    rfl
  · rw [if_neg hempty, if_pos rfl]

theorem uncut_nil_right (front : List ResponseItem) : Uncut front [] :=
  fun _ _ _ houtput ↦ absurd houtput List.not_mem_nil

theorem uncut_nil_left (back : List ResponseItem) : Uncut [] back :=
  fun _ hcall ↦ absurd hcall List.not_mem_nil

variable (bytes) in
/-- The cut of the plan separates no call from a later output. -/
theorem uncut_of_unbroken {mode : LocalCompactMode} (h : Unbroken X mode items) :
    Uncut (items.take (chooseLocalCompactionCutIndex X bytes items mode))
      (items.drop (chooseLocalCompactionCutIndex X bytes items mode)) := by
  cases mode with
  | manual =>
    rw [chooseLocalCompactionCutIndex_manual, List.drop_length]
    exact uncut_nil_right _
  | auto =>
    rcases chooseLocalCompactionCutIndex_auto X bytes items with
      hcut | hcut | ⟨front, x, back, rfl, hcut, hx⟩
    · rw [hcut, List.drop_length]
      exact uncut_nil_right _
    · rw [hcut, List.take_zero]
      exact uncut_nil_left _
    · rw [hcut, List.take_left, List.drop_left]
      exact uncut_of_auto h hx

/-! ## Paired histories -/

theorem Paired.filter {keep : ResponseItem → Bool} (h : Paired items)
    (hkeep : ∀ x, (toolCallId x).isSome ∨ (outputCallId x).isSome → keep x = true) :
    Paired (items.filter keep) := by
  refine ⟨?_, ?_, ?_⟩
  · intro front output back id heq hid
    obtain ⟨l, r, rfl, rfl, hr⟩ := List.filter_eq_append_iff.mp heq
    obtain ⟨l', r', rfl, hl', -, rfl⟩ := List.filter_eq_cons_iff.mp hr
    obtain ⟨call, hcall, hcid⟩ :=
      h.call_before (l ++ l') output r' id (by simp) hid
    have hk : keep call = true := hkeep call (.inl (by rw [hcid]; rfl))
    refine ⟨call, ?_, hcid⟩
    rcases List.mem_append.mp hcall with hcall | hcall
    · exact List.mem_filter.mpr ⟨hcall, hk⟩
    · exact absurd hk (hl' call hcall)
  · intro front call back id heq hid
    obtain ⟨l, r, rfl, rfl, hr⟩ := List.filter_eq_append_iff.mp heq
    obtain ⟨l', r', rfl, -, -, rfl⟩ := List.filter_eq_cons_iff.mp hr
    obtain ⟨output, houtput, hoid⟩ :=
      h.output_behind (l ++ l') call r' id (by simp) hid
    exact ⟨output, List.mem_filter.mpr ⟨houtput, hkeep output (.inr (by rw [hoid]; rfl))⟩, hoid⟩
  · exact h.distinct.sublist (List.filter_sublist.filterMap toolCallId)

theorem mem_compactable {x : ResponseItem}
    (h : (toolCallId x).isSome ∨ (outputCallId x).isSome) :
    (!isSummaryItem x && shouldIncludeInLocalCompaction X x) = true := by
  cases x <;> first | rfl | simp [toolCallId, outputCallId] at h

theorem Paired.compactableItems (h : Paired items) : Paired (compactableItems X items) :=
  h.filter fun _ ↦ mem_compactable

theorem Paired.noOrphan_take (h : Paired items) (n : Nat) : NoOrphan (items.take n) := by
  intro output houtput id hid
  obtain ⟨front, back, heq⟩ := List.append_of_mem houtput
  obtain ⟨call, hcall, hcid⟩ := h.call_before front output (back ++ items.drop n) id
    (by rw [← List.cons_append, ← List.append_assoc, ← heq, List.take_append_drop]) hid
  refine ⟨call, ?_, hcid⟩
  rw [heq]
  exact List.mem_append_left _ hcall

/-- An output never stands in front of its call. -/
theorem Paired.uncut_drop_take (h : Paired items) (n : Nat) :
    Uncut (items.drop n) (items.take n) := by
  intro call hcall output houtput id hid hoid
  obtain ⟨call', hcall', hid'⟩ := h.noOrphan_take n output houtput id hoid
  have hdistinct := h.distinct
  rw [← List.take_append_drop n items, List.filterMap_append] at hdistinct
  exact (List.nodup_append.mp hdistinct).2.2 id (List.mem_filterMap.mpr ⟨call', hcall', hid'⟩) id
    (List.mem_filterMap.mpr ⟨call, hcall, hid⟩) rfl

/-! ## The guarantee -/

/-- The plan after a number of overflows. -/
def LocalCompactionPlan.shrunk (X : Context.Externals) (bytes : ResponseItem → Int)
    (plan : LocalCompactionPlan) (n : Nat) : LocalCompactionPlan :=
  (fun plan ↦ (plan.shrinkSummaryForOverflow X bytes).1)^[n] plan

/-- The plan keeps calls and outputs together: they are summarised or retained together, and
no overflow leaves an output without its call. -/
structure KeepsTogether (X : Context.Externals) (bytes : ResponseItem → Int)
    (history : List ResponseItem) (mode : LocalCompactMode) : Prop where
  together : ∀ call ∈ history, ∀ output ∈ history, ∀ id, toolCallId call = some id →
    outputCallId output = some id →
    (call ∈ (prepareLocalCompaction X bytes history mode).summaryItems ∧
      output ∈ (prepareLocalCompaction X bytes history mode).summaryItems) ∨
    (call ∈ (prepareLocalCompaction X bytes history mode).retainedItems ∧
      output ∈ (prepareLocalCompaction X bytes history mode).retainedItems)
  shrunk : ∀ n, NoOrphan ((prepareLocalCompaction X bytes history mode).shrunk X bytes n).summaryItems

theorem keepsTogether_of_unbroken {history : List ResponseItem} {mode : LocalCompactMode}
    (hpaired : Paired history) (h : Unbroken X mode (compactableItems X history)) :
    KeepsTogether X bytes history mode := by
  have hitems := hpaired.compactableItems (X := X)
  refine ⟨?_, ?_⟩
  · intro call hcall output houtput id hid hoid
    have hc : call ∈ compactableItems X history :=
      List.mem_filter.mpr ⟨hcall, mem_compactable (.inl (by rw [hid]; rfl))⟩
    have ho : output ∈ compactableItems X history :=
      List.mem_filter.mpr ⟨houtput, mem_compactable (.inr (by rw [hoid]; rfl))⟩
    have hforward := uncut_of_unbroken bytes h
    have hbackward := hitems.uncut_drop_take
      (chooseLocalCompactionCutIndex X bytes (compactableItems X history) mode)
    rw [← List.take_append_drop
      (chooseLocalCompactionCutIndex X bytes (compactableItems X history) mode)
      (compactableItems X history), List.mem_append] at hc ho
    rcases hc with hc | hc
    · rcases ho with ho | ho
      · exact .inl ⟨hc, ho⟩
      · exact absurd hoid (hforward call hc output ho id hid)
    · rcases ho with ho | ho
      · exact absurd hoid (hbackward call hc output ho id hid)
      · exact .inr ⟨hc, ho⟩
  · intro n
    have hstart : Unbroken X mode (prepareLocalCompaction X bytes history mode).summaryItems := by
      cases mode with
      | auto =>
        refine Unbroken.infix_auto [] ((compactableItems X history).drop
          (chooseLocalCompactionCutIndex X bytes (compactableItems X history) .auto)) ?_
        rw [List.nil_append]
        exact (List.take_append_drop _ _).symm ▸ h
      | manual =>
        change Unbroken X .manual (List.take _ _)
        rw [chooseLocalCompactionCutIndex_manual, List.take_length]
        exact h
    have horphan := hitems.noOrphan_take
      (chooseLocalCompactionCutIndex X bytes (compactableItems X history) mode)
    suffices hrun : ∀ plan : LocalCompactionPlan, Unbroken X mode plan.summaryItems →
        NoOrphan plan.summaryItems → NoOrphan (plan.shrunk X bytes n).summaryItems from
      hrun _ hstart horphan
    induction n with
    | zero => exact fun plan _ horphan ↦ horphan
    | succ n ih =>
      intro plan hplan horphan
      obtain ⟨hnext, hnextOrphan⟩ := shrinkSummaryForOverflow_spec bytes hplan horphan
      exact ih _ hnext hnextOrphan

/-! ## Sizes that cut at an item -/

/-- One item that is large enough to be retained alone, among items of no size. -/
def weigh (y : ResponseItem) (x : ResponseItem) : Int := if x = y then 80000 else 0

theorem estimateItemTokens_self (y : ResponseItem) : estimateItemTokens (weigh y) y = 20000 := by
  rw [estimateItemTokens, weigh, if_pos rfl]
  decide

theorem estimateItemTokens_other {x y : ResponseItem} (h : x ≠ y) :
    estimateItemTokens (weigh y) x = 0 := by
  rw [estimateItemTokens, weigh, if_neg h]
  decide

section Weigh

variable {front back : List ResponseItem} {x : ResponseItem}

/-- The scan goes back to the large item. -/
theorem scanBack_weigh (hback : x ∉ back) {enough : Int} (hpos : 0 < enough)
    (hle : enough ≤ 20000) :
    scanBack (weigh x) (front ++ x :: back) enough 0 (front ++ x :: back).length =
      some front.length := by
  suffices h : ∀ m ≤ back.length,
      scanBack (weigh x) (front ++ x :: back) enough 0 (front.length + 1 + m) =
        some front.length by
    have hall := h back.length le_rfl
    rwa [show front.length + 1 + back.length = (front ++ x :: back).length by simp; omega] at hall
  intro m
  induction m with
  | zero =>
    intro _
    have hget : (front ++ x :: back)[front.length]? = some x := by simp
    rw [Nat.add_zero, scanBack, hget, Option.map_some, Option.getD_some, estimateItemTokens_self,
      show clampI64 (0 + 20000) = 20000 by decide, if_pos hle]
  | succ m ih =>
    intro hm
    have hget : (front ++ x :: back)[front.length + 1 + m]? = some back[m] := by
      rw [List.getElem?_append_right (by omega), Nat.add_assoc, Nat.add_sub_cancel_left,
        Nat.add_comm 1 m, List.getElem?_cons_succ, List.getElem?_eq_getElem]
    have hne : back[m] ≠ x := fun heq ↦ hback (heq ▸ List.getElem_mem _)
    rw [show front.length + 1 + (m + 1) = front.length + 1 + m + 1 from rfl, scanBack, hget,
      Option.map_some, Option.getD_some, estimateItemTokens_other hne,
      show clampI64 (0 + 0) = 0 by decide, if_neg (not_le.mpr hpos)]
    exact ih (by omega)

theorem foldl_weigh_of_notMem {items : List ResponseItem} (h : x ∉ items) {total : Int}
    (htotal : clampI64 total = total) :
    (items.map (estimateItemTokens (weigh x))).foldl
      (fun total tokens ↦ clampI64 (total + tokens)) total = total := by
  induction items with
  | nil => rfl
  | cons y items ih =>
    rw [List.mem_cons, not_or] at h
    rw [List.map_cons, List.foldl_cons, estimateItemTokens_other (Ne.symm h.1), Int.add_zero, htotal]
    exact ih h.2

theorem foldl_weigh (hfront : x ∉ front) (hback : x ∉ back) :
    ((front ++ x :: back).map (estimateItemTokens (weigh x))).foldl
      (fun total tokens ↦ clampI64 (total + tokens)) 0 = 20000 := by
  rw [List.map_append, List.foldl_append, foldl_weigh_of_notMem hfront (by decide), List.map_cons,
    List.foldl_cons, estimateItemTokens_self]
  exact foldl_weigh_of_notMem hback (by decide)

/-- An overflow cuts at the large item. -/
theorem shrink_weigh {plan : LocalCompactionPlan} (hitems : plan.summaryItems = front ++ x :: back)
    (htokens : plan.initialSummaryTokens = 20000) (hstage : plan.overflowShrinkStage = 0)
    (hfront : front ≠ []) (hback : x ∉ back) (hx : OverflowStart X x back) :
    (plan.shrinkSummaryForOverflow X (weigh x)).1.summaryItems = x :: back := by
  have hpos : 0 < front.length := List.length_pos_of_ne_nil hfront
  have hstart : safeRecentSuffixStart X (weigh x) (front ++ x :: back)
      ((clampI64 (20000 * 70)).tdiv 100) = some front.length := by
    have hscan : scanBack (weigh x) (front ++ x :: back)
        (max ((clampI64 (20000 * 70)).tdiv 100) 1) 0 (front ++ x :: back).length =
          some front.length :=
      scanBack_weigh hback (by decide) (by decide)
    rw [safeRecentSuffixStart, if_neg (by simp), hscan, Option.getD_some]
    dsimp only
    rw [if_neg hpos.ne']
    rcases hx with hx | ⟨hvalid, hnone⟩
    · rw [findFrom_of_head hx, Option.some_or]
    · by_cases hx : startsUserTurn X x = true
      · rw [findFrom_of_head hx, Option.some_or]
      · have hall : ∀ y ∈ x :: back, startsUserTurn X y = false :=
          List.forall_mem_cons.mpr ⟨Bool.eq_false_iff.mpr hx, hnone⟩
        rw [findFrom_of_none hall, Option.none_or, findFrom_of_head hvalid]
  rw [LocalCompactionPlan.shrinkSummaryForOverflow, hstage, shrinkRatios, List.drop_zero,
    LocalCompactionPlan.shrinkLoop, hitems, htokens]
  dsimp only
  rw [hstart]
  dsimp only
  rw [if_pos hpos, List.drop_left]

end Weigh

/-! ## Where the guarantee fails -/

section Necessity

variable {front back : List ResponseItem} {call x output : ResponseItem} {id : Str}

/-- A cut at an item between a call and its output leaves an orphan. -/
theorem not_noOrphan_of_distinct (hdistinct : ((front ++ back).filterMap toolCallId).Nodup)
    (hcall : call ∈ front) (hid : toolCallId call = some id) (houtput : output ∈ back)
    (hoid : outputCallId output = some id) : ¬ NoOrphan back := by
  intro h
  obtain ⟨call', hcall', hid'⟩ := h output houtput id hoid
  rw [List.filterMap_append] at hdistinct
  exact (List.nodup_append.mp hdistinct).2.2 id (List.mem_filterMap.mpr ⟨call, hcall, hid⟩) id
    (List.mem_filterMap.mpr ⟨call', hcall', hid'⟩) rfl

/-- What is retained together is not cut apart. -/
theorem not_together_of_nodup (n : Nat) (hnodup : items.Nodup) (hcall : call ∈ items.take n)
    (houtput : output ∈ items.drop n)
    (h : (call ∈ items.take n ∧ output ∈ items.take n) ∨
      (call ∈ items.drop n ∧ output ∈ items.drop n)) : False := by
  rw [← List.take_append_drop n items] at hnodup
  have hdisjoint := (List.nodup_append.mp hnodup).2.2
  rcases h with ⟨-, h⟩ | ⟨h, -⟩
  · exact hdisjoint output h output houtput rfl
  · exact hdisjoint call hcall call h rfl

variable (front) in
/-- The automatic mode cuts at the first start of a user turn behind the large item, or at the
item. -/
theorem chooseLocalCompactionCutIndex_weigh (hback : x ∉ back)
    (hx : isValidRetainedSuffixStart X x = true) :
    (∃ mid z rest, x :: back = mid ++ z :: rest ∧ startsUserTurn X z = true ∧
        (∀ y ∈ mid, startsUserTurn X y = false) ∧
        chooseLocalCompactionCutIndex X (weigh x) (front ++ x :: back) .auto =
          front.length + mid.length) ∨
      ((∀ y ∈ x :: back, startsUserTurn X y = false) ∧
        chooseLocalCompactionCutIndex X (weigh x) (front ++ x :: back) .auto = front.length) := by
  have hscan : scanBack (weigh x) (front ++ x :: back) keepRecentTokens 0
      (front ++ x :: back).length = some front.length :=
    scanBack_weigh hback (by decide) (by decide)
  rw [chooseLocalCompactionCutIndex, if_neg (by simp), if_neg nofun, hscan]
  dsimp only
  by_cases hturn : ∀ y ∈ x :: back, startsUserTurn X y = false
  · right
    rw [findFrom_of_none hturn]
    dsimp only
    rw [findFrom_of_head hx]
    exact ⟨hturn, rfl⟩
  · left
    have hsome : ((x :: back).find? (startsUserTurn X)).isSome := by
      rw [List.find?_isSome]
      simp only [not_forall, Bool.not_eq_false] at hturn
      obtain ⟨y, hy, hyturn⟩ := hturn
      exact ⟨y, hy, hyturn⟩
    obtain ⟨z, hz⟩ := Option.isSome_iff_exists.mp hsome
    obtain ⟨hzturn, mid, rest, heq, hmid⟩ := List.find?_eq_some_iff_append.mp hz
    have hmid' : ∀ y ∈ mid, startsUserTurn X y = false := fun y hy ↦ by simpa using hmid y hy
    refine ⟨mid, z, rest, heq, hzturn, hmid', ?_⟩
    rw [heq, findFrom_of_append hmid' hzturn]

/-- An overflow that cuts at an item between a call and its output breaks the guarantee. -/
theorem not_keepsTogether_of_shrink {history : List ResponseItem} {mode : LocalCompactMode}
    (hitems : (prepareLocalCompaction X (weigh x) history mode).summaryItems = front ++ x :: back)
    (hnodup : (front ++ x :: back).Nodup)
    (hdistinct : ((front ++ x :: back).filterMap toolCallId).Nodup)
    (hcall : call ∈ front) (hid : toolCallId call = some id) (houtput : output ∈ back)
    (hoid : outputCallId output = some id) (hx : OverflowStart X x back) :
    ¬ KeepsTogether X (weigh x) history mode := by
  intro h
  obtain ⟨-, hcons, hdisjoint⟩ := List.nodup_append.mp hnodup
  have hback : x ∉ back := (List.nodup_cons.mp hcons).1
  have hfront : x ∉ front := fun hmem ↦ hdisjoint x hmem x List.mem_cons_self rfl
  have htokens : (prepareLocalCompaction X (weigh x) history mode).initialSummaryTokens = 20000 := by
    change ((prepareLocalCompaction X (weigh x) history mode).summaryItems.map _).foldl _ 0 = _
    rw [hitems]
    exact foldl_weigh hfront hback
  have hshrunk := shrink_weigh hitems htokens rfl (List.ne_nil_of_mem hcall) hback hx
  refine not_noOrphan_of_distinct hdistinct hcall hid (List.mem_cons_of_mem x houtput) hoid ?_
  have hnone := h.shrunk 1
  change NoOrphan ((prepareLocalCompaction X (weigh x) history mode).shrinkSummaryForOverflow X
    (weigh x)).1.summaryItems at hnone
  rwa [hshrunk] at hnone

variable {history : List ResponseItem} (hpaired : Paired history)
  (hnodup : (compactableItems X history).Nodup)
  (hitems : compactableItems X history = front ++ x :: back)
  (hcall : call ∈ front) (hid : toolCallId call = some id) (houtput : output ∈ back)
  (hoid : outputCallId output = some id)

include hpaired hnodup hitems hcall hid houtput hoid

/-- In the manual mode an overflow start between a call and its output breaks the guarantee. -/
theorem not_keepsTogether_manual (hx : OverflowStart X x back) :
    ¬ KeepsTogether X (weigh x) history .manual := by
  have hsummary : (prepareLocalCompaction X (weigh x) history .manual).summaryItems =
      front ++ x :: back := by
    change (compactableItems X history).take _ = _
    rw [chooseLocalCompactionCutIndex_manual, List.take_length, hitems]
  exact not_keepsTogether_of_shrink hsummary (hitems ▸ hnodup)
    (hitems ▸ (hpaired.compactableItems (X := X)).distinct) hcall hid houtput hoid hx

/-- In the automatic mode any start between a call and its output does. -/
theorem not_keepsTogether_auto (hx : isValidRetainedSuffixStart X x = true) :
    ¬ KeepsTogether X (weigh x) history .auto := by
  intro h
  have hdistinct := (hpaired.compactableItems (X := X)).distinct
  have hcallIn : call ∈ compactableItems X history := by
    rw [hitems]
    exact List.mem_append_left _ hcall
  have houtputIn : output ∈ compactableItems X history := by
    rw [hitems]
    exact List.mem_append_right _ (List.mem_cons_of_mem x houtput)
  have htogether := h.together call (List.mem_filter.mp hcallIn).1 output
    (List.mem_filter.mp houtputIn).1 id hid hoid
  simp only [prepareLocalCompaction] at htogether
  have hback : x ∉ back := by
    rw [hitems] at hnodup
    exact (List.nodup_cons.mp (List.nodup_append.mp hnodup).2.1).1
  rcases chooseLocalCompactionCutIndex_weigh front hback hx with
    ⟨mid, z, rest, heq, hz, hmid, hcut⟩ | ⟨-, hcut⟩
  · -- The cut is at the start of a user turn, behind which the output may stand or not.
    have hsplit : compactableItems X history = front ++ mid ++ z :: rest := by
      rw [hitems, heq, List.append_assoc]
    rw [← hitems, ← List.length_append] at hcut
    rcases List.mem_append.mp (heq ▸ List.mem_cons_of_mem x houtput) with hmem | hmem
    · obtain ⟨mid', rfl⟩ : ∃ mid', mid = x :: mid' := by
        cases mid with
        | nil => cases hmem
        | cons y mid' => exact ⟨mid', by rw [(List.cons.inj heq).1]⟩
      have hsummary : (prepareLocalCompaction X (weigh x) history .auto).summaryItems =
          front ++ x :: mid' := by
        change (compactableItems X history).take _ = _
        rw [hcut, hsplit, List.take_left]
      have houtput' : output ∈ mid' := by
        refine (List.mem_cons.mp hmem).resolve_left ?_
        rintro rfl
        exact hback houtput
      rw [hsplit] at hnodup hdistinct
      rw [List.filterMap_append] at hdistinct
      exact not_keepsTogether_of_shrink hsummary (List.nodup_append.mp hnodup).1
        (List.nodup_append.mp hdistinct).1 hcall hid houtput' hoid
        (.inr ⟨hx, fun y hy ↦ hmid y (List.mem_cons_of_mem x hy)⟩) h
    · rw [hcut] at htogether
      refine not_together_of_nodup _ hnodup ?_ ?_ htogether
      · rw [hsplit, List.take_left]
        exact List.mem_append_left mid hcall
      · rw [hsplit, List.drop_left]
        exact hmem
  · rw [← hitems] at hcut
    rw [hcut] at htogether
    refine not_together_of_nodup _ hnodup ?_ ?_ htogether
    · rw [hitems, List.take_left]
      exact hcall
    · rw [hitems, List.drop_left]
      exact List.mem_cons_of_mem x houtput

end Necessity

/-- If the guarantee holds for all sizes, then nothing stands between a call and its output
that the mode could cut at. -/
theorem unbroken_of_keepsTogether {history : List ResponseItem} {mode : LocalCompactMode}
    (hpaired : Paired history) (hnodup : (compactableItems X history).Nodup)
    (h : ∀ bytes, KeepsTogether X bytes history mode) :
    Unbroken X mode (compactableItems X history) := by
  rintro a call mid output d ⟨heq, id, hid, hoid⟩
  -- An item between the call and the output, as a place to cut at.
  have hsplit : ∀ {m x m'}, mid = m ++ x :: m' → compactableItems X history =
      (a ++ call :: m) ++ x :: (m' ++ output :: d) := by
    rintro m x m' rfl
    rw [heq]
    simp
  cases mode with
  | auto =>
    intro x hx
    by_contra hvalid
    obtain ⟨m, m', hmid⟩ := List.append_of_mem hx
    exact not_keepsTogether_auto hpaired hnodup (hsplit hmid) (by simp) hid (by simp) hoid
      (Bool.not_eq_false _ ▸ hvalid) (h (weigh x))
  | manual =>
    have hturn : ∀ x ∈ mid, startsUserTurn X x = false := by
      intro x hx
      by_contra hstart
      obtain ⟨m, m', hmid⟩ := List.append_of_mem hx
      exact not_keepsTogether_manual hpaired hnodup (hsplit hmid) (by simp) hid (by simp) hoid
        (.inl (Bool.not_eq_false _ ▸ hstart)) (h (weigh x))
    refine ⟨hturn, ?_⟩
    rintro ⟨x, hx, hvalid⟩
    by_contra hnone
    obtain ⟨m, m', hmid⟩ := List.append_of_mem hx
    refine not_keepsTogether_manual hpaired hnodup (hsplit hmid) (by simp) hid (by simp) hoid
      (.inr ⟨hvalid, ?_⟩) (h (weigh x))
    intro y hy
    by_contra hstart
    rw [Bool.not_eq_false] at hstart
    rcases List.mem_append.mp hy with hy | hy
    · have hno := hturn y (by rw [hmid]; simp [hy])
      rw [hstart] at hno
      cases hno
    · rcases List.mem_cons.mp hy with rfl | hy
      · have hno := isValidRetainedSuffixStart_of_outputCallId (X := X) hoid
        rw [isValidRetainedSuffixStart_of_startsUserTurn hstart] at hno
        cases hno
      · exact hnone ⟨y, hy, hstart⟩

/-! ## The result -/

/-- Calls and outputs stay together in a compaction of any sizes if nothing stands between
them that the mode may cut at, and, where no item is repeated, only then. -/
theorem calls_stay_with_outputs (X : Context.Externals) (history : List ResponseItem)
    (mode : LocalCompactMode) (hpaired : Paired history) :
    (Unbroken X mode (compactableItems X history) →
      ∀ bytes, KeepsTogether X bytes history mode) ∧
    ((compactableItems X history).Nodup →
      ((∀ bytes, KeepsTogether X bytes history mode) ↔
        Unbroken X mode (compactableItems X history))) :=
  ⟨fun h _ ↦ keepsTogether_of_unbroken hpaired h, fun hnodup ↦
    ⟨unbroken_of_keepsTogether hpaired hnodup, fun h _ ↦ keepsTogether_of_unbroken hpaired h⟩⟩

namespace Parallel

/-- No text is a prompt of a hook or of another agent. -/
def externals : Context.Externals where
  hookRunId _ := none
  interAgentCommunication _ := false
  triggerTurn _ := false
  truncate output := output

def callA : ResponseItem := .functionCall (.lit "a") (.lit "" Str.fits_empty)

def callB : ResponseItem := .functionCall (.lit "b") (.lit "" Str.fits_empty)

def outputA : ResponseItem :=
  .functionCallOutput (.lit "a") (.fromText (.lit "" Str.fits_empty))

def outputB : ResponseItem :=
  .functionCallOutput (.lit "b") (.fromText (.lit "" Str.fits_empty))

/-- Two calls that are issued together. -/
def history : List ResponseItem := [callA, callB, outputA, outputB]

/-- The second call has long arguments. -/
def sizes (item : ResponseItem) : Int := if item = callB then 90000 else 100

theorem paired_single : Paired [callA, outputA] := by
  refine ⟨?_, ?_, by decide⟩
  · rintro (_ | ⟨x, _ | ⟨y, front⟩⟩) output back id heq hid
    · cases heq
      cases hid
    · cases heq
      exact ⟨callA, by simp, hid⟩
    · simp at heq
  · rintro (_ | ⟨x, _ | ⟨y, front⟩⟩) call back id heq hid
    · cases heq
      exact ⟨outputA, by simp, hid⟩
    · cases heq
      cases hid
    · simp at heq

theorem paired_history : Paired history := by
  refine ⟨?_, ?_, by decide⟩
  · rintro (_ | ⟨x, _ | ⟨y, _ | ⟨z, _ | ⟨u, front⟩⟩⟩⟩) output back id heq hid
    · cases heq
      cases hid
    · cases heq
      cases hid
    · cases heq
      exact ⟨callA, by simp, hid⟩
    · cases heq
      exact ⟨callB, by simp, hid⟩
    · simp [history] at heq
  · rintro (_ | ⟨x, _ | ⟨y, _ | ⟨z, _ | ⟨u, front⟩⟩⟩⟩) call back id heq hid
    · cases heq
      exact ⟨outputA, by simp, hid⟩
    · cases heq
      exact ⟨outputB, by simp, hid⟩
    · cases heq
      cases hid
    · cases heq
      cases hid
    · simp [history] at heq

end Parallel

open Parallel in
theorem calls_stay_with_outputs_single :
    KeepsTogether externals sizes [callA, outputA] .auto := by
  refine (calls_stay_with_outputs externals [callA, outputA] .auto paired_single).1 ?_ sizes
  rintro front call mid output back ⟨heq, -⟩ x hx
  have hlen : 2 = (front ++ call :: (mid ++ output :: back)).length := congrArg List.length heq
  simp only [List.length_append, List.length_cons] at hlen
  have hmid : mid = [] := List.length_eq_zero_iff.mp (by omega)
  rw [hmid] at hx
  cases hx

open Parallel in
/-- The retained part starts at the second call, and the first call loses its output. -/
theorem parallel_calls_are_separated :
    Paired history ∧
    (prepareLocalCompaction externals sizes history .auto).summaryItems = [callA] ∧
    (prepareLocalCompaction externals sizes history .auto).retainedItems =
      [callB, outputA, outputB] ∧
    ¬ KeepsTogether externals sizes history .auto := by
  have hsummary : (prepareLocalCompaction externals sizes history .auto).summaryItems = [callA] := by
    decide
  have hretained : (prepareLocalCompaction externals sizes history .auto).retainedItems =
      [callB, outputA, outputB] := by
    decide
  refine ⟨paired_history, hsummary, hretained, fun h ↦ ?_⟩
  have htogether := h.together callA (by decide) outputA (by decide) (.lit "a") rfl rfl
  rw [hsummary, hretained] at htogether
  revert htogether
  decide

end Praxis.Compact
