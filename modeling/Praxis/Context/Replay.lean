import Praxis.Context.Reconstruction

/-!
# The rebuilt history and a full replay

The scan moves the suffix to be replayed when it meets a compaction with a
replacement history, but it takes the replacement history only when the segment of
the compaction is not discarded.  If the segment was rolled back, and no other one
has such a compaction, the suffix is replayed from an empty history, and what the
compaction stands for is lost (`reconstruct_loses_replacement`).

The segments of the scan are described here without the scanner (`segments`), and
with them the rollouts whose history is rebuilt as a full replay leaves it
(`reconstruct_eq_replay_iff`).
-/

namespace Praxis.Context

open Foundation Protocol

/-! ## The segments of a rollout -/

/-- The item makes the scanner start a segment. -/
def opensSegment : RolloutItem → Bool
  | .compacted _ | .responseItem _ | .turnContext _ => true
  | .eventMsg (.turnComplete _) | .eventMsg (.userMessage _) => true
  | .eventMsg (.turnAborted turnId) => turnId.isSome
  | .eventMsg _ | .sessionMeta _ => false

/-- The turn an item names. -/
def namedTurn : RolloutItem → Option Str
  | .eventMsg (.turnComplete turnId) => some turnId
  | .eventMsg (.turnAborted turnId) => turnId
  | .turnContext context => context.turnId
  | _ => none

/-- The turn that the newest of the items names. -/
def turnOf : List RolloutItem → Option Str
  | [] => none
  | item :: items => (turnOf items).or (namedTurn item)

/-- The item is the start of the turn of the items behind it. -/
def closes (items : List RolloutItem) : RolloutItem → Bool
  | .eventMsg (.turnStarted turnId _) =>
    items.any opensSegment && turnIdsAreCompatible (turnOf items) (some turnId)
  | _ => false

/-- The segments of a rollout, the newest first, from its items in reverse and the items of
the segment that is not closed. -/
def segments (segment : List RolloutItem) : List RolloutItem → List (List RolloutItem)
  | [] => [segment]
  | item :: older =>
    if closes segment item then (item :: segment) :: segments [] older
    else segments (item :: segment) older

variable (X : Externals)

/-- The item counts a segment as a user turn. -/
def countsItem : RolloutItem → Bool
  | .eventMsg (.userMessage _) => true
  | .responseItem item => isUserTurnBoundary X item
  | _ => false

/-- The turns to be discarded behind an item. -/
def rollbackItem (item : RolloutItem) (pending : Nat) : Nat :=
  match item with
  | .eventMsg (.threadRolledBack numTurns) => addRollback pending numTurns
  | _ => pending

/-- The turns to be discarded when a segment is complete. -/
def rolledBack (pending : Nat) (segment : List RolloutItem) : Nat :=
  segment.foldr rollbackItem pending

/-- The turns to be discarded behind a segment. -/
def afterSegment (pending : Nat) (segment : List RolloutItem) : Nat :=
  if segment.any (countsItem X) then rolledBack pending segment - 1 else rolledBack pending segment

/-- The replacement history of an item. -/
def replacement : RolloutItem → Option (List ResponseItem)
  | .compacted compacted => compacted.replacementHistory
  | _ => none

/-- The newest replacement history of the items, and the items behind it. -/
def lastReplacement : List RolloutItem → Option (List ResponseItem × List RolloutItem)
  | [] => none
  | item :: items =>
    (lastReplacement items).or ((replacement item).map fun history ↦ (history, items))

/-- Some item has a replacement history. -/
def Replaces (items : List RolloutItem) : Prop := ∃ item ∈ items, (replacement item).isSome

instance (items : List RolloutItem) : Decidable (Replaces items) := by
  unfold Replaces
  infer_instance

/-- The newest segment with a replacement history is discarded, and no older one has any. -/
def LosesFrom : Nat → List (List RolloutItem) → Prop
  | _, [] => False
  | pending, segment :: older =>
    if Replaces segment then 0 < rolledBack pending segment ∧ ∀ s ∈ older, ¬ Replaces s
    else LosesFrom (afterSegment X pending segment) older

/-- All replacement histories of the rollout are in one segment, which was rolled back. -/
def LosesReplacement (items : List RolloutItem) : Prop :=
  LosesFrom X 0 (segments [] items.reverse)

/-- Nothing of the newest replacement history is left when the items behind it are replayed. -/
def ForgetsReplacement (items : List RolloutItem) : Prop :=
  ∀ history behind, lastReplacement items = some (history, behind) →
    replay X history behind = replay X [] behind

/-! ## Replay -/

section Replay

variable {X} {item : RolloutItem} {items items' : List RolloutItem}

theorem replay_append (history : List ResponseItem) :
    replay X history (items ++ items') = replay X (replay X history items) items' :=
  List.foldl_append

/-- A replacement history does not depend on what it replaces. -/
theorem replay_cons_of_replacement {history : List ResponseItem}
    (h : replacement item = some history) (history' : List ResponseItem) :
    replay X history' (item :: items) = replay X history items := by
  cases item with
  | compacted compacted =>
    have hhistory : compacted.replacementHistory = some history := h
    rw [replay, List.foldl_cons, replayItem, hhistory]
    rfl
  | _ => cases h

theorem replaces_cons : Replaces (item :: items) ↔ (replacement item).isSome ∨ Replaces items := by
  simp only [Replaces, List.mem_cons, exists_eq_or_imp]

theorem not_replaces_nil : ¬ Replaces [] := by
  rintro ⟨item, hitem, -⟩
  exact absurd hitem List.not_mem_nil

/-- Items in front do not change the newest replacement history. -/
theorem lastReplacement_append {found : List ResponseItem × List RolloutItem}
    (h : lastReplacement items' = some found) : lastReplacement (items ++ items') = some found := by
  induction items with
  | nil => exact h
  | cons item items ih => rw [List.cons_append, lastReplacement, ih, Option.some_or]

theorem lastReplacement_eq_none (h : ¬ Replaces items) : lastReplacement items = none := by
  induction items with
  | nil => rfl
  | cons item items ih =>
    obtain ⟨hitem, hitems⟩ := not_or.mp (mt replaces_cons.mpr h)
    rw [lastReplacement, ih hitems, Option.not_isSome_iff_eq_none.mp hitem]
    rfl

/-- The segments have the items of the rollout. -/
theorem exists_replaces_segments {segment older : List RolloutItem} :
    (∃ s ∈ segments segment older, Replaces s) ↔ Replaces segment ∨ Replaces older := by
  induction older generalizing segment with
  | nil => simp only [segments, List.mem_singleton, exists_eq_left, not_replaces_nil, or_false]
  | cons item older ih =>
    unfold segments
    split
    · simp only [List.mem_cons, exists_eq_or_imp, ih, not_replaces_nil, false_or, replaces_cons]
      tauto
    · rw [ih, replaces_cons, replaces_cons]
      tauto

end Replay

/-! ## The scanner -/

section Scanner

variable {X} {scanner : RolloutReplayScanner} {pending : Nat} {item : RolloutItem}
  {segment behind : List RolloutItem}

/-- The newest replacement history of a segment. -/
def replacementOf : List RolloutItem → Option (List ResponseItem)
  | [] => none
  | item :: items => (replacementOf items).or (replacement item)

theorem replacementOf_eq_none_iff : replacementOf segment = none ↔ ¬ Replaces segment := by
  induction segment with
  | nil => exact iff_of_true rfl not_replaces_nil
  | cons item items ih =>
    rw [replacementOf, Option.or_eq_none_iff, ih, replaces_cons, not_or,
      Option.not_isSome_iff_eq_none, and_comm]

/-- What the scanner knows of the segment that it has not closed. -/
structure Describes (X : Externals) (scanner : RolloutReplayScanner) (pending : Nat)
    (segment : List RolloutItem) : Prop where
  isSome : scanner.activeSegment.isSome = segment.any opensSegment
  turnId : (scanner.activeSegment.getD {}).turnId = turnOf segment
  counts : (scanner.activeSegment.getD {}).countsAsUserTurn = segment.any (countsItem X)
  base : (scanner.activeSegment.getD {}).baseReplacementHistory = replacementOf segment
  pending_eq : scanner.pendingRollbackTurns = rolledBack pending segment

/-- What an item in a segment does to the base and the suffix. -/
structure Moves (scanner : RolloutReplayScanner) (segment behind : List RolloutItem)
    (item : RolloutItem) (scanner' : RolloutReplayScanner) : Prop where
  base : scanner'.baseReplacementHistory = scanner.baseReplacementHistory
  suffix : scanner'.rolloutSuffix =
    if replacementOf segment = none ∧ (replacement item).isSome then behind
    else scanner.rolloutSuffix

theorem Moves.of_eq_none {scanner' : RolloutReplayScanner} (hreplacement : replacement item = none)
    (hbase : scanner'.baseReplacementHistory = scanner.baseReplacementHistory)
    (hsuffix : scanner'.rolloutSuffix = scanner.rolloutSuffix) :
    Moves scanner segment behind item scanner' := by
  refine ⟨hbase, ?_⟩
  rw [hreplacement, if_neg (fun h ↦ Bool.false_ne_true h.2), hsuffix]

/-- An item that changes the segment, but not its base. -/
theorem Describes.updateSegment (h : Describes X scanner pending segment) (item : RolloutItem)
    {f : ActiveReplaySegment → ActiveReplaySegment} (hopens : opensSegment item)
    (hturnId : ∀ s, (f s).turnId = s.turnId.or (namedTurn item))
    (hcounts : ∀ s, (f s).countsAsUserTurn = (s.countsAsUserTurn || countsItem X item))
    (hbase : ∀ s, (f s).baseReplacementHistory = s.baseReplacementHistory)
    (hreplacement : replacement item = none) (hrollback : ∀ n, rollbackItem item n = n)
    (behind : List RolloutItem) :
    Describes X (scanner.updateSegment f) pending (item :: segment) ∧
      Moves scanner segment behind item (scanner.updateSegment f) := by
  refine ⟨⟨?_, ?_, ?_, ?_, ?_⟩, .of_eq_none hreplacement rfl rfl⟩
  · rw [List.any_cons, hopens]
    rfl
  · rw [turnOf, ← h.turnId]
    exact hturnId _
  · rw [List.any_cons, ← h.counts, Bool.or_comm]
    exact hcounts _
  · rw [replacementOf, hreplacement, Option.or_none, ← h.base]
    exact hbase _
  · rw [rolledBack, List.foldr_cons, hrollback]
    exact h.pending_eq

/-- An item that the scanner passes over. -/
theorem Describes.skip (h : Describes X scanner pending segment) (item : RolloutItem)
    (hopens : opensSegment item = false)
    (hnamed : namedTurn item = none) (hcounts : countsItem X item = false)
    (hreplacement : replacement item = none) (hrollback : ∀ n, rollbackItem item n = n)
    (behind : List RolloutItem) :
    Describes X scanner pending (item :: segment) ∧ Moves scanner segment behind item scanner := by
  refine ⟨⟨?_, ?_, ?_, ?_, ?_⟩, .of_eq_none hreplacement rfl rfl⟩
  · rw [List.any_cons, hopens, Bool.false_or, h.isSome]
  · rw [turnOf, hnamed, Option.or_none, h.turnId]
  · rw [List.any_cons, hcounts, Bool.false_or, h.counts]
  · rw [replacementOf, hreplacement, Option.or_none, h.base]
  · rw [rolledBack, List.foldr_cons, hrollback, h.pending_eq]
    rfl

/-- A compaction. -/
theorem Describes.scanCompacted (h : Describes X scanner pending segment)
    (compacted : CompactedItem) (behind : List RolloutItem) :
    Describes X (scanner.scanCompacted compacted behind) pending (.compacted compacted :: segment) ∧
      Moves scanner segment behind (.compacted compacted)
        (scanner.scanCompacted compacted behind) := by
  obtain ⟨-, hturnId, hcounts, hbase, hpending⟩ := h
  unfold RolloutReplayScanner.scanCompacted
  dsimp only
  generalize hs : (if (scanner.activeSegment.getD {}).referenceContextItem = .neverSet then
      { scanner.activeSegment.getD {} with referenceContextItem := .cleared }
    else scanner.activeSegment.getD {}) = s
  have hs₁ : s.turnId = turnOf segment := by rw [← hs]; split <;> exact hturnId
  have hs₂ : s.countsAsUserTurn = segment.any (countsItem X) := by
    rw [← hs]; split <;> exact hcounts
  have hs₃ : s.baseReplacementHistory = replacementOf segment := by
    rw [← hs]; split <;> exact hbase
  have hreplacement : replacement (.compacted compacted) = compacted.replacementHistory := rfl
  cases hold : replacementOf segment with
  | some old =>
    rw [hs₃, hold]
    refine ⟨⟨rfl, ?_, ?_, ?_, hpending⟩, rfl, ?_⟩
    · exact hs₁.trans (Option.or_none).symm
    · exact hs₂
    · rw [replacementOf, hold, Option.some_or]
      exact hs₃.trans hold
    · rw [hold]
      rfl
  | none =>
    rw [hs₃, hold]
    cases hnew : compacted.replacementHistory with
    | none =>
      refine ⟨⟨rfl, ?_, ?_, ?_, hpending⟩, rfl, ?_⟩
      · exact hs₁.trans (Option.or_none).symm
      · exact hs₂
      · rw [replacementOf, hold, hreplacement, hnew]
        exact hs₃.trans hold
      · rw [hreplacement, hnew, hold]
        rfl
    | some history =>
      refine ⟨⟨rfl, ?_, ?_, ?_, hpending⟩, rfl, ?_⟩
      · exact hs₁.trans (Option.or_none).symm
      · exact hs₂
      · rw [replacementOf, hold, hreplacement, hnew]
        rfl
      · rw [hreplacement, hnew, hold]
        rfl

/-- The end of a turn that was aborted. -/
theorem Describes.scanTurnAborted (h : Describes X scanner pending segment) (turnId : Option Str)
    (behind : List RolloutItem) :
    Describes X (scanner.scanTurnAborted turnId) pending
        (.eventMsg (.turnAborted turnId) :: segment) ∧
      Moves scanner segment behind (.eventMsg (.turnAborted turnId))
        (scanner.scanTurnAborted turnId) := by
  obtain ⟨hisSome, hturnId, hcounts, hbase, hpending⟩ := h
  unfold RolloutReplayScanner.scanTurnAborted
  cases hactive : scanner.activeSegment with
  | some s =>
    rw [hactive] at hisSome hturnId hcounts hbase
    refine ⟨⟨?_, ?_, hcounts, ?_, hpending⟩, .of_eq_none rfl rfl rfl⟩
    · rw [List.any_cons, ← hisSome]
      exact (Bool.or_true _).symm
    · rw [turnOf, ← hturnId]
      rfl
    · exact hbase.trans (Option.or_none).symm
  | none =>
    rw [hactive] at hisSome hturnId hcounts hbase
    cases turnId with
    | some turnId =>
      refine ⟨⟨rfl, ?_, hcounts, ?_, hpending⟩, .of_eq_none rfl rfl rfl⟩
      · rw [turnOf, ← hturnId]
        rfl
      · exact hbase.trans (Option.or_none).symm
    | none =>
      exact Describes.skip ⟨hactive ▸ hisSome, hactive ▸ hturnId, hactive ▸ hcounts,
        hactive ▸ hbase, hpending⟩ _ rfl rfl rfl rfl (fun _ ↦ rfl) behind

/-- **An item that does not close its segment.** -/
theorem Describes.scanItem (h : Describes X scanner pending segment) (behind : List RolloutItem)
    (hcloses : ¬ closes segment item) :
    Describes X (scanner.scanItem X behind item) pending (item :: segment) ∧
      Moves scanner segment behind item (scanner.scanItem X behind item) := by
  cases item with
  | sessionMeta line => exact h.skip _ rfl rfl rfl rfl (fun _ ↦ rfl) behind
  | responseItem response =>
    unfold RolloutReplayScanner.scanItem
    refine h.updateSegment (.responseItem response) rfl (fun s ↦ ?_) (fun s ↦ ?_) (fun s ↦ ?_) rfl
      (fun _ ↦ rfl) behind
    · exact Option.or_none.symm
    · rfl
    · rfl
  | compacted compacted => exact h.scanCompacted compacted behind
  | turnContext context =>
    unfold RolloutReplayScanner.scanItem
    refine h.updateSegment _ rfl (fun s ↦ ?_) (fun s ↦ ?_) (fun s ↦ ?_) rfl (fun _ ↦ rfl) behind
    · unfold RolloutReplayScanner.scanTurnContext
      simp only
      split <;> rfl
    · refine Eq.trans ?_ (Bool.or_false _).symm
      unfold RolloutReplayScanner.scanTurnContext
      simp only
      split <;> rfl
    · unfold RolloutReplayScanner.scanTurnContext
      simp only
      split <;> rfl
  | eventMsg event =>
    cases event with
    | threadRolledBack numTurns =>
      refine ⟨⟨h.isSome, ?_, h.counts, ?_, ?_⟩, .of_eq_none rfl rfl rfl⟩
      · exact h.turnId.trans (Option.or_none).symm
      · exact h.base.trans (Option.or_none).symm
      · rw [rolledBack, List.foldr_cons]
        exact congrArg (addRollback · numTurns) h.pending_eq
    | turnStarted turnId kind =>
      have hopen : ¬ scanner.activeSegment.any fun s ↦
          turnIdsAreCompatible s.turnId (some turnId) := by
        intro hany
        obtain ⟨s, hactive, hcompatible⟩ := (Option.any_eq_true _ _).mp hany
        refine hcloses ?_
        have hisSome := h.isSome
        have hturnId := h.turnId
        rw [hactive] at hisSome hturnId
        rw [closes, ← hisSome, ← hturnId]
        exact hcompatible
      have hscan : scanner.scanItem X behind (.eventMsg (.turnStarted turnId kind)) = scanner :=
        if_neg hopen
      rw [hscan]
      exact h.skip _ rfl rfl rfl rfl (fun _ ↦ rfl) behind
    | turnComplete turnId =>
      unfold RolloutReplayScanner.scanItem
      refine h.updateSegment (.eventMsg (.turnComplete turnId)) rfl (fun s ↦ ?_) (fun s ↦ ?_)
        (fun s ↦ ?_) rfl (fun _ ↦ rfl) behind
      · rfl
      · exact (Bool.or_false _).symm
      · rfl
    | turnAborted turnId => exact h.scanTurnAborted turnId behind
    | userMessage event =>
      unfold RolloutReplayScanner.scanItem
      refine h.updateSegment (.eventMsg (.userMessage event)) rfl (fun s ↦ ?_) (fun s ↦ ?_)
        (fun s ↦ ?_) rfl (fun _ ↦ rfl) behind
      · exact Option.or_none.symm
      · exact (Bool.or_true _).symm
      · rfl
    | _ => exact h.skip _ rfl rfl rfl rfl (fun _ ↦ rfl) behind

/-- A segment that opens nothing has no replacement history. -/
theorem not_replaces_of_not_opens (h : segment.any opensSegment = false) : ¬ Replaces segment := by
  rintro ⟨item, hitem, hsome⟩
  have hopens : opensSegment item = false := by
    rw [List.any_eq_false] at h
    exact Bool.eq_false_iff.mpr (h item hitem)
  cases item with
  | compacted compacted => cases hopens
  | _ => cases hsome

/-- **A segment is finalized**: its base is taken unless the segment is discarded. -/
theorem Describes.finalize (h : Describes X scanner pending segment) :
    scanner.finalizeActiveSegment.rolloutSuffix = scanner.rolloutSuffix ∧
    scanner.finalizeActiveSegment.baseReplacementHistory =
      (if 0 < rolledBack pending segment then scanner.baseReplacementHistory
        else scanner.baseReplacementHistory.or (replacementOf segment)) ∧
    (segment.any opensSegment →
      Describes X scanner.finalizeActiveSegment (afterSegment X pending segment) []) := by
  obtain ⟨hisSome, hturnId, hcounts, hbase, hpending⟩ := h
  unfold RolloutReplayScanner.finalizeActiveSegment
  cases hactive : scanner.activeSegment with
  | none =>
    rw [hactive] at hisSome
    have hnone := replacementOf_eq_none_iff.mpr (not_replaces_of_not_opens hisSome.symm)
    refine ⟨rfl, ?_, fun hopens ↦ ?_⟩
    · rw [hnone, Option.or_none, ite_self]
    · exact absurd (hisSome.trans hopens) Bool.false_ne_true
  | some active =>
    rw [hactive] at hcounts hbase
    have hcounts' : active.countsAsUserTurn = segment.any (countsItem X) := hcounts
    have hbase' : active.baseReplacementHistory = replacementOf segment := hbase
    simp only [RolloutReplayScanner.finalizeSegment, hpending, afterSegment, ← hcounts', ← hbase']
    by_cases hpositive : 0 < rolledBack pending segment
    · rw [if_pos hpositive, if_pos hpositive]
      cases active.countsAsUserTurn with
      | true => exact ⟨rfl, rfl, fun _ ↦ ⟨rfl, rfl, rfl, rfl, rfl⟩⟩
      | false => exact ⟨rfl, rfl, fun _ ↦ ⟨rfl, rfl, rfl, rfl, rfl⟩⟩
    · rw [if_neg hpositive, if_neg hpositive]
      have hzero : rolledBack pending segment = 0 := Nat.eq_zero_of_not_pos hpositive
      refine ⟨rfl, ?_, fun _ ↦ ⟨rfl, rfl, rfl, rfl, ?_⟩⟩
      · cases scanner.baseReplacementHistory with
        | none => rfl
        | some history => rfl
      · rw [hzero, ite_self]
        rfl

/-- An item that closes its segment finalizes it. -/
theorem Describes.scanItem_of_closes (h : Describes X scanner pending segment)
    (behind : List RolloutItem) (hcloses : closes segment item) :
    scanner.scanItem X behind item = scanner.finalizeActiveSegment ∧ segment.any opensSegment ∧
      replacement item = none ∧
      rolledBack pending (item :: segment) = rolledBack pending segment ∧
      afterSegment X pending (item :: segment) = afterSegment X pending segment := by
  unfold closes at hcloses
  split at hcloses
  · rename_i turnId kind
    obtain ⟨hopens, hcompatible⟩ := Bool.and_eq_true_iff.mp hcloses
    refine ⟨?_, hopens, rfl, rfl, rfl⟩
    have hisSome := h.isSome
    have hturnId := h.turnId
    obtain ⟨active, hactive⟩ := Option.isSome_iff_exists.mp (hisSome.trans hopens)
    rw [hactive] at hturnId
    have hturnId' : active.turnId = turnOf segment := hturnId
    refine if_pos ?_
    rw [hactive, Option.any_some, hturnId']
    exact hcompatible
  · exact absurd hcloses Bool.false_ne_true

/-! ## A suffix that does not depend on its base -/

/-- What a finalized segment leaves of the base and the suffix. -/
theorem finalizeActiveSegment_frame (scanner : RolloutReplayScanner) :
    (scanner.finalizeActiveSegment.baseReplacementHistory = scanner.baseReplacementHistory ∨
      scanner.baseReplacementHistory = none) ∧
    scanner.finalizeActiveSegment.rolloutSuffix = scanner.rolloutSuffix := by
  unfold RolloutReplayScanner.finalizeActiveSegment
  split
  · exact ⟨.inl rfl, rfl⟩
  · unfold RolloutReplayScanner.finalizeSegment
    split
    · split <;> exact ⟨.inl rfl, rfl⟩
    · refine ⟨?_, rfl⟩
      by_cases hnone : scanner.baseReplacementHistory = none
      · exact .inr hnone
      · exact .inl (if_neg hnone)

/-- What an item leaves of the base and the suffix. -/
theorem scanItem_frame (X : Externals) (scanner : RolloutReplayScanner)
    (behind : List RolloutItem) (item : RolloutItem) :
    ((scanner.scanItem X behind item).baseReplacementHistory = scanner.baseReplacementHistory ∨
      scanner.baseReplacementHistory = none) ∧
    ((scanner.scanItem X behind item).rolloutSuffix = scanner.rolloutSuffix ∨
      (scanner.scanItem X behind item).rolloutSuffix = behind) := by
  cases item with
  | compacted compacted =>
    simp only [RolloutReplayScanner.scanItem, RolloutReplayScanner.scanCompacted]
    split
    · exact ⟨.inl rfl, .inr rfl⟩
    · exact ⟨.inl rfl, .inl rfl⟩
  | eventMsg event =>
    cases event with
    | turnStarted turnId kind =>
      simp only [RolloutReplayScanner.scanItem]
      split
      · exact (finalizeActiveSegment_frame scanner).imp_right .inl
      · exact ⟨.inl rfl, .inl rfl⟩
    | turnAborted turnId =>
      simp only [RolloutReplayScanner.scanItem, RolloutReplayScanner.scanTurnAborted]
      split
      · exact ⟨.inl rfl, .inl rfl⟩
      · split <;> exact ⟨.inl rfl, .inl rfl⟩
    | _ => exact ⟨.inl rfl, .inl rfl⟩
  | _ => exact ⟨.inl rfl, .inl rfl⟩

/-- The items that were scanned leave one history, from whatever they are replayed, and so
does the suffix from its base. -/
structure Settled (X : Externals) (scanner : RolloutReplayScanner) (behind : List RolloutItem)
    (result : List ResponseItem) : Prop where
  behind : ∀ history, replay X history behind = result
  base : replay X (scanner.baseReplacementHistory.getD []) scanner.rolloutSuffix = result
  free : scanner.baseReplacementHistory = none →
    ∀ history, replay X history scanner.rolloutSuffix = result

variable {result : List ResponseItem}

/-- It stays so when a segment is finalized. -/
theorem Settled.finalize (h : Settled X scanner behind result) :
    Settled X scanner.finalizeActiveSegment behind result := by
  obtain ⟨hbase, hsuffix⟩ := finalizeActiveSegment_frame scanner
  refine ⟨h.behind, ?_, ?_⟩
  · rw [hsuffix]
    rcases hbase with hbase | hnone
    · rw [hbase]
      exact h.base
    · exact h.free hnone _
  · intro hnone history
    rw [hsuffix]
    rcases hbase with hbase | hnone'
    · exact h.free (hbase ▸ hnone) history
    · exact h.free hnone' history

/-- It stays so when an item is scanned. -/
theorem Settled.scanItem (h : Settled X scanner behind result) (item : RolloutItem) :
    Settled X (scanner.scanItem X behind item) (item :: behind) result := by
  obtain ⟨hbase, hsuffix⟩ := scanItem_frame X scanner behind item
  refine ⟨fun history ↦ h.behind _, ?_, ?_⟩
  · rcases hsuffix with hsuffix | hsuffix
    · rw [hsuffix]
      rcases hbase with hbase | hnone
      · rw [hbase]
        exact h.base
      · exact h.free hnone _
    · rw [hsuffix]
      exact h.behind _
  · intro hnone history
    rcases hsuffix with hsuffix | hsuffix
    · rw [hsuffix]
      rcases hbase with hbase | hnone'
      · exact h.free (hbase ▸ hnone) history
      · exact h.free hnone' history
    · rw [hsuffix]
      exact h.behind _

/-- The history that is rebuilt when the loop ends with a scanner. -/
def rebuilt (X : Externals) (scanner : RolloutReplayScanner) : List ResponseItem :=
  replay X (scanner.finalizeActiveSegment.baseReplacementHistory.getD [])
    scanner.finalizeActiveSegment.rolloutSuffix

/-- **The rest of the scan does not matter** once the result does not depend on the base. -/
theorem Settled.scanLoop (h : Settled X scanner behind result) (older : List RolloutItem) :
    rebuilt X (scanner.scanLoop X behind older) = result := by
  induction older generalizing scanner behind with
  | nil => exact h.finalize.base
  | cons item older ih =>
    unfold RolloutReplayScanner.scanLoop
    simp only
    split
    · exact (h.scanItem item).finalize.base
    · exact ih (h.scanItem item)

/-! ## The scan -/

/-- The loop goes on as long as there is no base. -/
theorem scanLoop_cons_of_none {older : List RolloutItem}
    (h : (scanner.scanItem X behind item).baseReplacementHistory = none) :
    scanner.scanLoop X behind (item :: older) =
      (scanner.scanItem X behind item).scanLoop X (item :: behind) older := by
  have henough : (scanner.scanItem X behind item).hasEnoughMetadata = false := by
    rw [RolloutReplayScanner.hasEnoughMetadata, h]
    rfl
  rw [RolloutReplayScanner.scanLoop]
  simp only [henough, Bool.false_eq_true, if_false]

/-- A scanner without a base, that looks for a replacement history in its segment. -/
structure Searches (X : Externals) (scanner : RolloutReplayScanner) (pending : Nat)
    (segment : List RolloutItem) (suffix : List RolloutItem) : Prop where
  describes : Describes X scanner pending segment
  base : scanner.baseReplacementHistory = none
  suffix : scanner.rolloutSuffix = suffix
  notReplaces : ¬ Replaces segment

/-- It finds none in the segment. -/
theorem Searches.finalize {suffix : List RolloutItem}
    (h : Searches X scanner pending segment suffix) :
    scanner.finalizeActiveSegment.baseReplacementHistory = none ∧
      scanner.finalizeActiveSegment.rolloutSuffix = suffix ∧ rebuilt X scanner = replay X [] suffix := by
  obtain ⟨hsuffix, hbase, -⟩ := h.describes.finalize
  rw [h.base, replacementOf_eq_none_iff.mpr h.notReplaces, Option.or_none, ite_self] at hbase
  rw [h.suffix] at hsuffix
  refine ⟨hbase, hsuffix, ?_⟩
  rw [rebuilt, hbase, hsuffix]
  rfl

/-- It goes on to the next segment. -/
theorem Searches.nextSegment {suffix : List RolloutItem}
    (h : Searches X scanner pending segment suffix) (behind : List RolloutItem)
    (hcloses : closes segment item) :
    Searches X (scanner.scanItem X behind item) (afterSegment X pending (item :: segment)) []
      suffix := by
  obtain ⟨hscan, hopens, -, -, hafter⟩ := h.describes.scanItem_of_closes behind hcloses
  obtain ⟨hbase, hsuffix, -⟩ := h.finalize
  rw [hscan, hafter]
  exact ⟨h.describes.finalize.2.2 hopens, hbase, hsuffix, not_replaces_nil⟩

/-- It goes on within the segment. -/
theorem Searches.scanItem {suffix : List RolloutItem}
    (h : Searches X scanner pending segment suffix) (behind : List RolloutItem)
    (hcloses : ¬ closes segment item) (hitem : replacement item = none) :
    Searches X (scanner.scanItem X behind item) pending (item :: segment) suffix := by
  obtain ⟨hdescribes, hmoves⟩ := h.describes.scanItem behind hcloses
  refine ⟨hdescribes, hmoves.base.trans h.base, ?_, ?_⟩
  · rw [hmoves.suffix, hitem, if_neg (fun h ↦ Bool.false_ne_true h.2), h.suffix]
  · rw [replaces_cons, hitem]
    exact not_or.mpr ⟨Bool.false_ne_true, h.notReplaces⟩

/-- **Behind a replacement history that was discarded**, the base is lost unless there is an
older replacement history. -/
theorem Searches.scanLoop_of_discarded {history : List ResponseItem} {suffix : List RolloutItem}
    (h : Searches X scanner pending segment suffix)
    (hbehind : ∀ history', replay X history' behind = replay X history suffix)
    (older : List RolloutItem) :
    (¬ Replaces older → rebuilt X (scanner.scanLoop X behind older) = replay X [] suffix) ∧
    (Replaces older → rebuilt X (scanner.scanLoop X behind older) = replay X history suffix) := by
  induction older generalizing scanner behind pending segment with
  | nil => exact ⟨fun _ ↦ h.finalize.2.2, fun hnil ↦ absurd hnil not_replaces_nil⟩
  | cons item older ih =>
    have hcons (history' : List ResponseItem) :
        replay X history' (item :: behind) = replay X history suffix := hbehind _
    by_cases hcloses : closes segment item
    · obtain ⟨-, -, hitem, -, -⟩ := h.describes.scanItem_of_closes behind hcloses
      have hnext := h.nextSegment behind hcloses
      rw [scanLoop_cons_of_none hnext.base, replaces_cons, hitem]
      simpa using ih hnext hcons
    · cases hitem : replacement item with
      | none =>
        have hnext := h.scanItem behind hcloses hitem
        rw [scanLoop_cons_of_none hnext.base, replaces_cons, hitem]
        simpa using ih hnext hcons
      | some history' =>
        obtain ⟨-, hmoves⟩ := h.describes.scanItem behind hcloses
        have hbase := hmoves.base.trans h.base
        have hsuffix : (scanner.scanItem X behind item).rolloutSuffix = behind := by
          rw [hmoves.suffix, hitem, if_pos ⟨replacementOf_eq_none_iff.mpr h.notReplaces, rfl⟩]
        have hsettled : Settled X (scanner.scanItem X behind item) (item :: behind)
            (replay X history suffix) := by
          refine ⟨hcons, ?_, fun _ history'' ↦ ?_⟩
          · rw [hsuffix]
            exact hbehind _
          · rw [hsuffix]
            exact hbehind _
        rw [scanLoop_cons_of_none hbase]
        have hreplaces : Replaces (item :: older) := by
          rw [replaces_cons, hitem]
          exact .inl rfl
        exact ⟨fun hnot ↦ absurd hreplaces hnot, fun _ ↦ hsettled.scanLoop older⟩

/-- A scanner without a base, whose segment has a replacement history. -/
structure Holds (X : Externals) (scanner : RolloutReplayScanner) (pending : Nat)
    (segment : List RolloutItem) (history : List ResponseItem) (suffix : List RolloutItem) :
    Prop where
  describes : Describes X scanner pending segment
  base : scanner.baseReplacementHistory = none
  suffix : scanner.rolloutSuffix = suffix
  replacement : replacementOf segment = some history

theorem Holds.replaces {history : List ResponseItem} {suffix : List RolloutItem}
    (h : Holds X scanner pending segment history suffix) : Replaces segment := by
  by_contra hnot
  cases h.replacement.symm.trans (replacementOf_eq_none_iff.mpr hnot)

/-- **Behind a replacement history**, the base is lost exactly when the segment is discarded
and there is no older replacement history. -/
theorem Holds.scanLoop {history : List ResponseItem} {suffix : List RolloutItem}
    (h : Holds X scanner pending segment history suffix)
    (hbehind : ∀ history', replay X history' behind = replay X history suffix)
    (older : List RolloutItem) :
    (LosesFrom X pending (segments segment older) →
      rebuilt X (scanner.scanLoop X behind older) = replay X [] suffix) ∧
    (¬ LosesFrom X pending (segments segment older) →
      rebuilt X (scanner.scanLoop X behind older) = replay X history suffix) := by
  induction older generalizing scanner behind segment with
  | nil =>
    obtain ⟨hsuffix, hbase, -⟩ := h.describes.finalize
    rw [h.base, Option.none_or, h.replacement] at hbase
    rw [segments, LosesFrom, if_pos h.replaces, RolloutReplayScanner.scanLoop, rebuilt, hsuffix,
      h.suffix, hbase]
    constructor
    · rintro ⟨hpositive, -⟩
      rw [if_pos hpositive]
      rfl
    · intro hnot
      rw [if_neg fun hpositive ↦ hnot ⟨hpositive, fun s hs ↦ absurd hs List.not_mem_nil⟩]
      rfl
  | cons item older ih =>
    have hcons (history' : List ResponseItem) :
        replay X history' (item :: behind) = replay X history suffix := hbehind _
    by_cases hcloses : closes segment item
    · obtain ⟨hscan, hopens, hitem, hrolled, hafter⟩ := h.describes.scanItem_of_closes behind hcloses
      obtain ⟨hsuffix, hbase, hdescribes⟩ := h.describes.finalize
      rw [h.base, Option.none_or, h.replacement] at hbase
      rw [h.suffix] at hsuffix
      have hreplaces : Replaces (item :: segment) := replaces_cons.mpr (.inr h.replaces)
      have holder : (∀ s ∈ segments [] older, ¬ Replaces s) ↔ ¬ Replaces older := by
        have hsegments : (∃ s ∈ segments [] older, Replaces s) ↔ Replaces [] ∨ Replaces older :=
          exists_replaces_segments
        rw [or_iff_right not_replaces_nil] at hsegments
        rw [← hsegments, not_exists]
        exact forall_congr' fun s ↦ not_and.symm
      rw [segments, if_pos hcloses, LosesFrom, if_pos hreplaces, hrolled, holder]
      by_cases hpositive : 0 < rolledBack pending segment
      · rw [if_pos hpositive, ← hscan] at hbase
        have hsearches : Searches X (scanner.scanItem X behind item)
            (afterSegment X pending segment) [] suffix :=
          ⟨hscan ▸ hdescribes hopens, hbase, hscan ▸ hsuffix, not_replaces_nil⟩
        rw [scanLoop_cons_of_none hbase]
        obtain ⟨hlost, hkept⟩ := hsearches.scanLoop_of_discarded hcons older
        refine ⟨fun hloses ↦ hlost hloses.2, fun hnot ↦ hkept ?_⟩
        by_contra hnone
        exact hnot ⟨hpositive, hnone⟩
      · rw [if_neg hpositive] at hbase
        have hsettled : Settled X (scanner.scanItem X behind item) (item :: behind)
            (replay X history suffix) := by
          rw [hscan]
          refine ⟨hcons, ?_, fun hnone ↦ ?_⟩
          · rw [hbase, hsuffix]
            rfl
          · cases hbase.symm.trans hnone
        refine ⟨fun hloses ↦ absurd hloses.1 hpositive, fun _ ↦ ?_⟩
        unfold RolloutReplayScanner.scanLoop
        simp only
        split
        · exact hsettled.finalize.base
        · exact hsettled.scanLoop older
    · obtain ⟨hdescribes, hmoves⟩ := h.describes.scanItem behind hcloses
      have hbase := hmoves.base.trans h.base
      have hholds : Holds X (scanner.scanItem X behind item) pending (item :: segment) history
          suffix := by
        refine ⟨hdescribes, hbase, ?_, ?_⟩
        · rw [hmoves.suffix, h.replacement, if_neg (fun h ↦ Option.some_ne_none _ h.1), h.suffix]
        · rw [replacementOf, h.replacement, Option.some_or]
      rw [scanLoop_cons_of_none hbase, segments, if_neg hcloses]
      exact ih hholds hcons

/-- **From the newest item on.** -/
theorem Searches.scanLoop {items : List RolloutItem}
    (h : Searches X scanner pending segment items) (hbehind : ¬ Replaces behind)
    (older : List RolloutItem) (hitems : older.reverse ++ behind = items) :
    (LosesFrom X pending (segments segment older) → ∃ history suffix,
      lastReplacement items = some (history, suffix) ∧
      replay X [] items = replay X history suffix ∧
      rebuilt X (scanner.scanLoop X behind older) = replay X [] suffix) ∧
    (¬ LosesFrom X pending (segments segment older) →
      rebuilt X (scanner.scanLoop X behind older) = replay X [] items) := by
  induction older generalizing scanner behind pending segment with
  | nil =>
    rw [segments, LosesFrom, if_neg h.notReplaces, LosesFrom]
    exact ⟨False.elim, fun _ ↦ h.finalize.2.2⟩
  | cons item older ih =>
    have hitems' : older.reverse ++ item :: behind = items := by
      rw [← hitems, List.reverse_cons, List.append_assoc, List.singleton_append]
    by_cases hcloses : closes segment item
    · obtain ⟨-, -, hitem, -, -⟩ := h.describes.scanItem_of_closes behind hcloses
      have hnot (items : List RolloutItem) (hitems : ¬ Replaces items) :
          ¬ Replaces (item :: items) := by
        rw [replaces_cons, hitem]
        exact not_or.mpr ⟨Bool.false_ne_true, hitems⟩
      have hnext := h.nextSegment behind hcloses
      rw [scanLoop_cons_of_none hnext.base, segments, if_pos hcloses, LosesFrom,
        if_neg (hnot _ h.notReplaces)]
      exact ih hnext (hnot _ hbehind) hitems'
    · rw [segments, if_neg hcloses]
      cases hitem : replacement item with
      | none =>
        have hnext := h.scanItem behind hcloses hitem
        rw [scanLoop_cons_of_none hnext.base]
        refine ih hnext ?_ hitems'
        rw [replaces_cons, hitem]
        exact not_or.mpr ⟨Bool.false_ne_true, hbehind⟩
      | some history =>
        obtain ⟨hdescribes, hmoves⟩ := h.describes.scanItem behind hcloses
        have hnone := replacementOf_eq_none_iff.mpr h.notReplaces
        have hbase := hmoves.base.trans h.base
        have hholds : Holds X (scanner.scanItem X behind item) pending (item :: segment) history
            behind := by
          refine ⟨hdescribes, hbase, ?_, ?_⟩
          · rw [hmoves.suffix, hitem, if_pos ⟨hnone, rfl⟩]
          · rw [replacementOf, hnone, hitem]
            rfl
        have hcons (history' : List ResponseItem) :
            replay X history' (item :: behind) = replay X history behind :=
          replay_cons_of_replacement hitem history'
        have hfull : replay X [] items = replay X history behind := by
          rw [← hitems', replay_append, hcons]
        have hlast : lastReplacement items = some (history, behind) := by
          rw [← hitems']
          apply lastReplacement_append
          rw [lastReplacement, lastReplacement_eq_none hbehind, hitem]
          rfl
        obtain ⟨hlost, hkept⟩ := hholds.scanLoop hcons older
        rw [scanLoop_cons_of_none hbase, hfull]
        exact ⟨fun hloses ↦ ⟨history, behind, hlast, rfl, hlost hloses⟩, hkept⟩

end Scanner

/-! ## The theorem -/

/-- What the scan of a rollout finds. -/
theorem history_cases (items : List RolloutItem) :
    (LosesReplacement X items → ∃ history suffix,
      lastReplacement items = some (history, suffix) ∧
      replay X [] items = replay X history suffix ∧
      (reconstructHistoryFromRollout X items).history = replay X [] suffix) ∧
    (¬ LosesReplacement X items →
      (reconstructHistoryFromRollout X items).history = replay X [] items) := by
  have hstart : Searches X (.new items) 0 [] items :=
    ⟨⟨rfl, rfl, rfl, rfl, rfl⟩, rfl, rfl, not_replaces_nil⟩
  exact hstart.scanLoop not_replaces_nil items.reverse
    (by rw [List.reverse_reverse, List.append_nil])

/-- A rollout without replacement histories loses none. -/
theorem not_losesReplacement {items : List RolloutItem} (h : ¬ Replaces items) :
    ¬ LosesReplacement X items := by
  have hfrom (pending : Nat) (segments : List (List RolloutItem))
      (hnone : ∀ s ∈ segments, ¬ Replaces s) : ¬ LosesFrom X pending segments := by
    induction segments generalizing pending with
    | nil => exact id
    | cons segment older ih =>
      rw [LosesFrom, if_neg (hnone segment List.mem_cons_self)]
      exact ih _ fun s hs ↦ hnone s (List.mem_cons_of_mem _ hs)
  refine hfrom 0 _ fun s hs hreplaces ↦ ?_
  rcases exists_replaces_segments.mp ⟨s, hs, hreplaces⟩ with hnil | ⟨item, hitem, hsome⟩
  · exact not_replaces_nil hnil
  · exact h ⟨item, List.mem_reverse.mp hitem, hsome⟩

/-- **The history is rebuilt as a full replay leaves it** unless all replacement histories are
in one segment that was rolled back, and something of the newest one would be left. -/
theorem reconstruct_eq_replay_iff (items : List RolloutItem) :
    (reconstructHistoryFromRollout X items).history = replay X [] items ↔
      (LosesReplacement X items → ForgetsReplacement X items) := by
  obtain ⟨hlost, hkept⟩ := history_cases X items
  by_cases hloses : LosesReplacement X items
  · obtain ⟨history, suffix, hlast, hfull, hcode⟩ := hlost hloses
    rw [hcode, hfull]
    constructor
    · intro heq _ history' suffix' hlast'
      cases hlast.symm.trans hlast'
      exact heq.symm
    · intro hforgets
      exact (hforgets hloses history suffix hlast).symm
  · exact iff_of_true (hkept hloses) fun h ↦ absurd h hloses

namespace Sample

/-- The other crates, on texts that are no hook prompt and no instruction of an agent. -/
def externals : Externals where
  hookRunId _ := none
  interAgentCommunication _ := false
  triggerTurn _ := false
  truncate output := output

def userMessage (text : Str) : ResponseItem := .message none (.lit "user") [.inputText text] none

theorem fits_1 : "1".utf8ByteSize ≤ isizeMax := by decide

theorem fits_a : "a".utf8ByteSize ≤ isizeMax := by decide

theorem fits_b : "b".utf8ByteSize ≤ isizeMax := by decide

theorem fits_model : "model".utf8ByteSize ≤ isizeMax := by decide

/-- A turn in which the history is compacted, and which is rolled back. -/
def compactedTurn : List RolloutItem :=
  [.eventMsg (.turnStarted (.lit "1" fits_1) (.lit "default" Str.fits_default)),
    .responseItem (userMessage (.lit "b" fits_b)),
    .compacted ⟨.lit "" Str.fits_empty,
      some [userMessage (.lit "a" fits_a), userMessage (.lit "b" fits_b)]⟩,
    .eventMsg (.turnComplete (.lit "1" fits_1)),
    .eventMsg (.threadRolledBack 1)]

end Sample

/-- The compaction of a turn that is rolled back is lost with the turn, and what was in front
of it too. -/
theorem reconstruct_loses_replacement :
    (reconstructHistoryFromRollout Sample.externals Sample.compactedTurn).history = [] ∧
      replay Sample.externals [] Sample.compactedTurn = [Sample.userMessage (.lit "a")] := by
  decide

end Praxis.Context
