import Praxis.Context.Turns
import Praxis.Foundation.LastTurns

/-!
# Rollbacks and the reference context

`drop_last_n_user_turns` (`context_manager/history.rs`) with the state it changes:
the items, and the context that the next turn is compared with.  That context is
cleared when the cut trims a developer message in which contextual fragments are
bundled with text that cannot be told again from differences.

The items of two rollbacks are those of one with the sum of the turns.  The
reference context is not: only messages directly in front of the cut are looked
at, so that a bundle among the turns that are dropped goes unnoticed.
`BundlesNoticed` is the exact condition (`rollback_additive_iff`).
-/

namespace Praxis.Context

open Foundation Protocol

variable (X : Externals)

/-! ## The context manager with its reference -/

/-- `has_non_contextual_dev_message_content`. -/
def hasNonContextualDevMessageContent (message : List ContentItem) : Bool :=
  message.any fun item ↦ !isContextualDevFragment item

/-- A developer message with contextual fragments and others. -/
def isMixedBundle : ResponseItem → Bool
  | .message _ role content _ =>
    role.val == "developer" && isContextualDevMessageContent content &&
      hasNonContextualDevMessageContent content
  | _ => false

/-- `ContextManager`, with what a rollback changes. -/
@[ext]
structure ContextManager where
  items : List ResponseItem
  referenceContextItem : Option TurnContextItem

namespace ContextManager

/-- `trim_pre_turn_context_updates`: the index to cut at, and whether the reference is
cleared. -/
def trimPreTurnContextUpdates (manager : ContextManager) (firstInstructionTurnIdx : Nat) :
    Nat → Bool → Nat × Bool
  | 0, clearReferenceContext => (0, clearReferenceContext)
  | cutIdx + 1, clearReferenceContext =>
    if firstInstructionTurnIdx < cutIdx + 1 then
      match manager.items[cutIdx]? with
      | some (.message _ role content _) =>
        if role.val == "developer" && isContextualDevMessageContent content then
          manager.trimPreTurnContextUpdates firstInstructionTurnIdx cutIdx
            (clearReferenceContext || hasNonContextualDevMessageContent content)
        else if role.val == "user" && isContextualUserMessageContent X content then
          manager.trimPreTurnContextUpdates firstInstructionTurnIdx cutIdx clearReferenceContext
        else (cutIdx + 1, clearReferenceContext)
      | _ => (cutIdx + 1, clearReferenceContext)
    else (cutIdx + 1, clearReferenceContext)

/-- `drop_last_n_user_turns`. -/
def dropLastNUserTurns (manager : ContextManager) (numTurns : UInt32) : ContextManager :=
  if numTurns = 0 then manager
  else
    match manager.items.findIdx? (isUserTurnBoundary X) with
    | none => manager
    | some firstInstructionTurnIdx =>
      let boundaries :=
        manager.items.zipIdx.reverse.filter fun entry ↦ isUserTurnBoundary X entry.1
      let cutIdx :=
        (boundaries[numTurns.toNat - 1]?).elim firstInstructionTurnIdx fun entry ↦ entry.2
      let (cutIdx, clearReferenceContext) :=
        manager.trimPreTurnContextUpdates X firstInstructionTurnIdx cutIdx false
      { items := manager.items.take cutIdx
        referenceContextItem := if clearReferenceContext then none else manager.referenceContextItem }

end ContextManager

/-! ## What a rollback leaves -/

section Rollback

variable {X} {manager : ContextManager} {items front back : List ResponseItem}
  {turn : ResponseItem} {first cut : Nat}

/-- A mixed bundle is trimmed, and marks the trim. -/
theorem trim_message {clear : Bool} {item : ResponseItem} (hfirst : first < cut + 1)
    (hitem : manager.items[cut]? = some item) :
    manager.trimPreTurnContextUpdates X first (cut + 1) clear =
      if isPreTurnContextUpdate X item then
        manager.trimPreTurnContextUpdates X first cut (clear || isMixedBundle item)
      else (cut + 1, clear) := by
  rw [ContextManager.trimPreTurnContextUpdates, if_pos hfirst, hitem]
  cases item with
  | message id role content phase =>
    by_cases hdeveloper : (role.val == "developer" && isContextualDevMessageContent content) = true
    · simp only [isPreTurnContextUpdate, isMixedBundle, hdeveloper, Bool.true_or, Bool.true_and,
        if_true]
    · simp only [isPreTurnContextUpdate, isMixedBundle, hdeveloper, Bool.false_or, Bool.false_and,
        Bool.or_false, Bool.false_eq_true, if_false]
  | _ => rfl

/-- The trim in front of an index behind the first turn. -/
theorem trim_eq (hturn : ∀ item ∈ manager.items[first]?, isPreTurnContextUpdate X item = false)
    (hfirst : first < cut) (hcut : cut ≤ manager.items.length) (clear : Bool) :
    manager.trimPreTurnContextUpdates X first cut clear =
      (((manager.items.take cut).rdropWhile (isPreTurnContextUpdate X)).length,
        clear || ((manager.items.take cut).rtakeWhile (isPreTurnContextUpdate X)).any
          isMixedBundle) := by
  induction cut generalizing clear with
  | zero => exact absurd hfirst (Nat.not_lt_zero first)
  | succ cut ih =>
    have hitem : manager.items[cut]? = some manager.items[cut] := List.getElem?_eq_getElem hcut
    rw [trim_message hfirst hitem, List.take_succ_eq_append_getElem hcut]
    split
    · rename_i hupdate
      have hne : first ≠ cut := by
        rintro rfl
        rw [hturn _ hitem] at hupdate
        cases hupdate
      rw [ih (by omega) (by omega), List.rdropWhile_concat_pos _ _ _ hupdate,
        List.rtakeWhile_concat_pos _ _ _ hupdate, List.any_append, Bool.or_assoc]
      simp [Bool.or_comm]
    · rename_i hupdate
      rw [List.rdropWhile_concat_neg _ _ _ hupdate, List.rtakeWhile_concat_neg _ _ _ hupdate,
        List.length_append, List.length_take_of_le (by omega)]
      simp

theorem trim_self (first : Nat) (clear : Bool) :
    manager.trimPreTurnContextUpdates X first first clear = (first, clear) := by
  cases first with
  | zero => rfl
  | succ first => rw [ContextManager.trimPreTurnContextUpdates, if_neg (Nat.lt_irrefl _)]

theorem not_update_of_boundary {item : ResponseItem} (h : isUserTurnBoundary X item = true) :
    isPreTurnContextUpdate X item = false := by
  by_contra hupdate
  rw [not_boundary_of_update (Bool.of_not_eq_false hupdate)] at h
  cases h

theorem exists_findIdx?_of_countP_pos {l : List ResponseItem}
    (h : 0 < l.countP (isUserTurnBoundary X)) (l' : List ResponseItem) :
    ∃ first, (l ++ l').findIdx? (isUserTurnBoundary X) = some first ∧ first < l.length := by
  obtain ⟨first, hfirst⟩ : ∃ first, l.findIdx? (isUserTurnBoundary X) = some first := by
    rw [← Option.isSome_iff_exists, List.findIdx?_isSome, List.any_eq_true]
    exact List.countP_pos_iff.mp h
  refine ⟨first, ?_, (List.findIdx?_eq_some_iff_getElem.mp hfirst).1⟩
  rw [List.findIdx?_append, hfirst, Option.some_or]

/-- **A rollback** cuts the items in front of its turns and their updates, and clears the
reference when one of these updates is a mixed bundle. -/
theorem drop_of_splits {numTurns : UInt32}
    (h : SplitsTurns (isUserTurnBoundary X) numTurns.toNat manager.items front turn back) :
    manager.dropLastNUserTurns X numTurns =
      { items := trimmed (isUserTurnBoundary X) (isPreTurnContextUpdate X) front
        referenceContextItem :=
          if (trimmings (isUserTurnBoundary X) (isPreTurnContextUpdate X) front).any isMixedBundle
          then none else manager.referenceContextItem } := by
  have hne : numTurns ≠ 0 := by
    rintro rfl
    exact Nat.not_lt_zero _ h.count_lt
  have hfront : manager.items.take front.length = front := by rw [h.eq_append, List.take_left' rfl]
  by_cases hcount : front.countP (isUserTurnBoundary X) = 0
  · have hfind : manager.items.findIdx? (isUserTurnBoundary X) = some front.length := by
      have hnone : front.findIdx? (isUserTurnBoundary X) = none := by
        rw [List.findIdx?_eq_none_iff]
        intro item hitem
        exact Bool.eq_false_of_not_eq_true (List.countP_eq_zero.mp hcount item hitem)
      rw [h.eq_append, List.findIdx?_append, hnone, List.findIdx?_cons, h.starts_turn]
      simp
    have hcut := h.elim_getElem? (fun _ ↦ rfl)
    simp only [ContextManager.dropLastNUserTurns, if_neg hne, hfind, hcut, trim_self, hfront,
      trimmed_of_count_eq_zero hcount, trimmings_of_count_eq_zero hcount, List.any_nil]
  · have hpos := Nat.pos_of_ne_zero hcount
    obtain ⟨first, hfind, hlt⟩ := exists_findIdx?_of_countP_pos hpos (turn :: back)
    rw [← h.eq_append] at hfind
    obtain ⟨hbound, hboundary, -⟩ := List.findIdx?_eq_some_iff_getElem.mp hfind
    have hturn : ∀ item ∈ manager.items[first]?, isPreTurnContextUpdate X item = false := by
      intro item hitem
      rw [List.getElem?_eq_getElem hbound] at hitem
      rw [← Option.some.inj hitem]
      exact not_update_of_boundary hboundary
    have hle : front.length ≤ manager.items.length := by
      rw [h.eq_append, List.length_append]
      exact Nat.le_add_right _ _
    have hcut := h.elim_getElem? (fun hzero ↦ (absurd hzero hcount : first = front.length))
    simp only [ContextManager.dropLastNUserTurns, if_neg hne, hfind, hcut,
      trim_eq hturn hlt hle, hfront, Bool.false_or, trimmings_of_count_pos hpos]
    congr 1
    rw [trimmed, if_neg hcount]
    have hprefix : front.rdropWhile (isPreTurnContextUpdate X) <+: manager.items :=
      (List.rdropWhile_prefix _ _).trans ⟨_, h.eq_append.symm⟩
    exact (List.prefix_iff_eq_take.mp hprefix).symm

/-- Without a user turn a rollback does nothing. -/
theorem drop_of_count_eq_zero (h : manager.items.countP (isUserTurnBoundary X) = 0)
    (numTurns : UInt32) : manager.dropLastNUserTurns X numTurns = manager := by
  have hnone : manager.items.findIdx? (isUserTurnBoundary X) = none := by
    rw [List.findIdx?_eq_none_iff]
    intro item hitem
    exact Bool.eq_false_of_not_eq_true (List.countP_eq_zero.mp h item hitem)
  rw [ContextManager.dropLastNUserTurns, hnone]
  exact ite_self _

theorem not_boundary_of_mixed {item : ResponseItem} (h : isMixedBundle item = true) :
    isUserTurnBoundary X item = false := by
  cases item with
  | message id role content phase =>
    simp only [isMixedBundle, Bool.and_eq_true, beq_iff_eq] at h
    rw [isUserTurnBoundary, h.1.1]
    rfl
  | _ => cases h

end Rollback

/-! ## Two rollbacks and one -/

/-- A mixed bundle behind the first user turn is not among the items that are left. -/
def LosesBundle (items kept : List ResponseItem) : Prop :=
  ∃ first i bundle, items.findIdx? (isUserTurnBoundary X) = some first ∧ first < i ∧
    items[i]? = some bundle ∧ isMixedBundle bundle = true ∧ kept.length ≤ i

/-- Rolling back `a` turns and then `b` is rolling back `a + b`, and either way the reference
is cleared when a bundle is lost. -/
structure RollbackAdditive (manager : ContextManager) (a b : UInt32) : Prop where
  items_eq : ((manager.dropLastNUserTurns X a).dropLastNUserTurns X b).items =
    (manager.dropLastNUserTurns X (a + b)).items
  reference_eq : ((manager.dropLastNUserTurns X a).dropLastNUserTurns X b).referenceContextItem =
    (manager.dropLastNUserTurns X (a + b)).referenceContextItem
  clears_twice :
    LosesBundle X manager.items ((manager.dropLastNUserTurns X a).dropLastNUserTurns X b).items →
      ((manager.dropLastNUserTurns X a).dropLastNUserTurns X b).referenceContextItem = none
  clears_once : LosesBundle X manager.items (manager.dropLastNUserTurns X (a + b)).items →
    (manager.dropLastNUserTurns X (a + b)).referenceContextItem = none

/-- There is no reference to clear, or a mixed bundle behind the start of the last `n` user
turns comes with one among the updates directly in front of them. -/
def BundlesNoticed (manager : ContextManager) (n : Nat) : Prop :=
  manager.referenceContextItem = none ∨
    ∀ front turn back, SplitsTurns (isUserTurnBoundary X) n manager.items front turn back →
      back.any isMixedBundle = true →
      0 < front.countP (isUserTurnBoundary X) ∧
        (front.rtakeWhile (isPreTurnContextUpdate X)).any isMixedBundle = true

section Additive

variable {X} {manager : ContextManager} {front back : List ResponseItem} {turn : ResponseItem}
  {n : Nat}

/-- What is lost is trimmed or behind the turn. -/
theorem losesBundle_iff
    (h : SplitsTurns (isUserTurnBoundary X) n manager.items front turn back) :
    LosesBundle X manager.items
        (trimmed (isUserTurnBoundary X) (isPreTurnContextUpdate X) front) ↔
      (trimmings (isUserTurnBoundary X) (isPreTurnContextUpdate X) front).any isMixedBundle = true ∨
        back.any isMixedBundle = true := by
  have hfront := trimmed_append_trimmings (isUserTurnBoundary X) (isPreTurnContextUpdate X) front
  have hcount : (trimmed (isUserTurnBoundary X) (isPreTurnContextUpdate X) front).countP
      (isUserTurnBoundary X) = front.countP (isUserTurnBoundary X) :=
    countP_trimmed (fun _ ↦ not_boundary_of_update) front
  have hnil : front.countP (isUserTurnBoundary X) = 0 →
      trimmings (isUserTurnBoundary X) (isPreTurnContextUpdate X) front = [] :=
    trimmings_of_count_eq_zero
  generalize trimmed (isUserTurnBoundary X) (isPreTurnContextUpdate X) front = kept at *
  generalize trimmings (isUserTurnBoundary X) (isPreTurnContextUpdate X) front = trims at *
  have hitems : manager.items = kept ++ (trims ++ turn :: back) := by
    rw [h.eq_append, ← hfront, List.append_assoc]
  constructor
  · rintro ⟨first, i, bundle, -, -, hi, hmixed, hle⟩
    rw [hitems, List.getElem?_append_right hle] at hi
    rcases List.mem_append.mp (List.mem_of_getElem? hi) with hmem | hmem
    · exact .inl (List.any_eq_true.mpr ⟨bundle, hmem, hmixed⟩)
    · rcases List.mem_cons.mp hmem with rfl | hmem
      · have hturn := h.starts_turn
        rw [not_boundary_of_mixed hmixed] at hturn
        cases hturn
      · exact .inr (List.any_eq_true.mpr ⟨bundle, hmem, hmixed⟩)
  · rintro (hany | hany)
    · obtain ⟨bundle, hmem, hmixed⟩ := List.any_eq_true.mp hany
      obtain ⟨j, hj⟩ := List.mem_iff_getElem?.mp hmem
      have hpos : 0 < kept.countP (isUserTurnBoundary X) := by
        rw [hcount, Nat.pos_iff_ne_zero]
        intro hzero
        rw [hnil hzero] at hmem
        cases hmem
      obtain ⟨first, hfirst, hlt⟩ := exists_findIdx?_of_countP_pos hpos (trims ++ turn :: back)
      refine ⟨first, kept.length + j, bundle, hitems ▸ hfirst, by omega, ?_, hmixed, by omega⟩
      rw [hitems, List.getElem?_append_right (by omega), Nat.add_sub_cancel_left,
        List.getElem?_append_left (List.getElem?_eq_some_iff.mp hj).1]
      exact hj
    · obtain ⟨bundle, hmem, hmixed⟩ := List.any_eq_true.mp hany
      obtain ⟨j, hj⟩ := List.mem_iff_getElem?.mp hmem
      have hpos : 0 < (front ++ [turn]).countP (isUserTurnBoundary X) := by
        rw [List.countP_append, List.countP_singleton, if_pos h.starts_turn]
        exact Nat.succ_pos _
      obtain ⟨first, hfirst, hlt⟩ := exists_findIdx?_of_countP_pos hpos back
      rw [List.append_assoc, List.singleton_append, ← h.eq_append] at hfirst
      rw [List.length_append, List.length_singleton] at hlt
      have hlength : kept.length + trims.length = front.length := by
        rw [← List.length_append, hfront]
      refine ⟨first, front.length + (j + 1), bundle, hfirst, by omega, ?_, hmixed, by omega⟩
      rw [h.eq_append, List.getElem?_append_right (by omega), Nat.add_sub_cancel_left]
      exact hj

/-- **Two rollbacks** cut where one with the sum of the turns does.  The reference is cleared
for a bundle in front of that cut, or for one that was in front of the first cut. -/
theorem drop_drop {a b : UInt32} (ha : 0 < a.toNat) (hb : 0 < b.toNat)
    (hpos : 0 < manager.items.countP (isUserTurnBoundary X)) :
    ∃ front turn back, ∃ noticed : Bool,
      SplitsTurns (isUserTurnBoundary X) (a.toNat + b.toNat) manager.items front turn back ∧
      (noticed = true → back.any isMixedBundle = true) ∧
      (manager.dropLastNUserTurns X a).dropLastNUserTurns X b =
        { items := trimmed (isUserTurnBoundary X) (isPreTurnContextUpdate X) front
          referenceContextItem :=
            if (trimmings (isUserTurnBoundary X) (isPreTurnContextUpdate X) front).any
              isMixedBundle then none
            else if noticed then none else manager.referenceContextItem } := by
  have hupdate : ∀ item, isPreTurnContextUpdate X item = true →
      isUserTurnBoundary X item = false := fun _ ↦ not_boundary_of_update
  obtain ⟨front, turn, back, hsplit⟩ := exists_splitsTurns ha hpos
  rw [drop_of_splits hsplit]
  by_cases hcount : front.countP (isUserTurnBoundary X) = 0
  · have hsplit' : SplitsTurns (isUserTurnBoundary X) (a.toNat + b.toNat) manager.items front turn
        back := ⟨hsplit.eq_append, hsplit.starts_turn, by have := hsplit.count_lt; omega, .inr hcount⟩
    refine ⟨front, turn, back, false, hsplit', nofun, ?_⟩
    rw [drop_of_count_eq_zero (by rw [countP_trimmed hupdate]; exact hcount),
      trimmings_of_count_eq_zero hcount]
    rfl
  · have hleft := Nat.pos_of_ne_zero hcount
    have htrimmed : 0 < (trimmed (isUserTurnBoundary X) (isPreTurnContextUpdate X) front).countP
        (isUserTurnBoundary X) := by
      rw [countP_trimmed hupdate]
      exact hleft
    obtain ⟨front', turn', back', hsplit'⟩ := exists_splitsTurns hb htrimmed
    refine ⟨front', turn', _, _, hsplit.append hupdate hleft hsplit', ?_, drop_of_splits hsplit'⟩
    intro hnoticed
    rw [List.any_append, List.any_append, hnoticed, Bool.or_true, Bool.true_or]

end Additive

namespace Sample

/-- A developer message that bundles a contextual fragment with another text. -/
def bundle : ResponseItem :=
  .message none (.lit "developer")
    [.inputText (.lit "<permissions instructions>"), .inputText (.lit "rules")] none

theorem fits_work : "/work".utf8ByteSize ≤ isizeMax := by decide

def reference : TurnContextItem :=
  ⟨none, .lit "/work" fits_work, .lit "model" fits_model, none, none, .lit "" Str.fits_empty⟩

/-- A turn, a bundle in front of the next turn, and further turns. -/
def bundled (turns : Nat) : ContextManager where
  items := userMessage (.lit "a" fits_a) :: bundle ::
    List.replicate turns (userMessage (.lit "b" fits_b))
  referenceContextItem := some reference

theorem bundlesNoticed : BundlesNoticed externals (bundled 2) 2 := by
  refine .inr fun front turn back hsplit hback ↦ ?_
  exfalso
  obtain ⟨heq, hturn, hlt, -⟩ := hsplit
  change [userMessage (.lit "a"), bundle, userMessage (.lit "b"), userMessage (.lit "b")] = _ at heq
  rcases front with _ | ⟨x, _ | ⟨y, front⟩⟩
  · obtain ⟨-, rfl⟩ := List.cons.inj heq
    exact absurd hlt (by decide)
  · obtain ⟨rfl, -⟩ := List.cons.inj (List.cons.inj heq).2
    exact absurd hturn (by decide)
  · have hmem : ∀ item ∈ back, item = userMessage (.lit "b") := by
      intro item hitem
      have hsuffix : item ∈ [userMessage (.lit "b"), userMessage (.lit "b")] := by
        rw [(List.cons.inj (List.cons.inj heq).2).2]
        exact List.mem_append_right _ (List.mem_cons_of_mem _ hitem)
      rcases List.mem_pair.mp hsuffix with rfl | rfl <;> rfl
    obtain ⟨item, hitem, hmixed⟩ := List.any_eq_true.mp hback
    rw [hmem item hitem] at hmixed
    exact absurd hmixed (by decide)

end Sample

/-- **When rollbacks add up.**  Two rollbacks leave what one with the sum of the turns leaves,
and the reference is cleared whenever a bundle is lost, exactly when there is no reference
or no bundle goes unnoticed. -/
theorem rollback_additive_iff (manager : ContextManager) (a b : UInt32) (ha : 1 ≤ a) (hb : 1 ≤ b)
    (hrange : a.toNat + b.toNat < 2 ^ 32) :
    RollbackAdditive X manager a b ↔ BundlesNoticed X manager (a.toNat + b.toNat) := by
  have hsum : (a + b).toNat = a.toNat + b.toNat := by
    rw [UInt32.toNat_add, Nat.mod_eq_of_lt hrange]
  have hapos : 0 < a.toNat := UInt32.le_iff_toNat_le.mp ha
  have hbpos : 0 < b.toNat := UInt32.le_iff_toNat_le.mp hb
  constructor
  · intro hadditive
    by_cases hreference : manager.referenceContextItem = none
    · exact .inl hreference
    refine .inr fun front turn back hsplit hback ↦ ?_
    rw [← hsum] at hsplit
    have hclears := hadditive.clears_once
    rw [drop_of_splits hsplit] at hclears
    have hnone := hclears ((losesBundle_iff hsplit).mpr (.inr hback))
    have hany : (trimmings (isUserTurnBoundary X) (isPreTurnContextUpdate X) front).any
        isMixedBundle = true := by
      by_contra hany
      rw [if_neg hany] at hnone
      exact hreference hnone
    have hpos : 0 < front.countP (isUserTurnBoundary X) := by
      rw [Nat.pos_iff_ne_zero]
      intro hzero
      rw [trimmings_of_count_eq_zero hzero] at hany
      cases hany
    rw [trimmings_of_count_pos hpos] at hany
    exact ⟨hpos, hany⟩
  · intro hnoticed
    rcases Nat.eq_zero_or_pos (manager.items.countP (isUserTurnBoundary X)) with hzero | hpos
    · have hlost : ∀ kept, ¬ LosesBundle X manager.items kept := by
        rintro kept ⟨first, i, bundle, hfirst, -⟩
        obtain ⟨hlt, hboundary, -⟩ := List.findIdx?_eq_some_iff_getElem.mp hfirst
        exact List.countP_eq_zero.mp hzero _ (List.getElem_mem hlt) hboundary
      have hdrop := drop_of_count_eq_zero hzero
      refine ⟨?_, ?_, fun h ↦ absurd h (hlost _), fun h ↦ absurd h (hlost _)⟩
      · rw [hdrop, hdrop, hdrop]
      · rw [hdrop, hdrop, hdrop]
    · obtain ⟨front, turn, back, noticed, hsplit, hback, htwice⟩ := drop_drop hapos hbpos hpos
      have hlost := losesBundle_iff hsplit
      have honce : manager.dropLastNUserTurns X (a + b) = _ := drop_of_splits (hsum ▸ hsplit)
      -- a bundle that is lost is noticed, or there is nothing to clear
      have hclear : back.any isMixedBundle = true →
          (trimmings (isUserTurnBoundary X) (isPreTurnContextUpdate X) front).any isMixedBundle =
            true ∨ manager.referenceContextItem = none := by
        intro hany
        rcases hnoticed with hnone | hnoticed
        · exact .inr hnone
        · obtain ⟨hleft, htrims⟩ := hnoticed front turn back hsplit hany
          rw [trimmings_of_count_pos hleft]
          exact .inl htrims
      have hreference : ((manager.dropLastNUserTurns X a).dropLastNUserTurns X
          b).referenceContextItem = (manager.dropLastNUserTurns X (a + b)).referenceContextItem := by
        rw [htwice, honce]
        by_cases htrims : (trimmings (isUserTurnBoundary X) (isPreTurnContextUpdate X) front).any
            isMixedBundle = true
        · simp only [if_pos htrims]
        · simp only [if_neg htrims]
          split
          · rename_i hnoticed
            exact ((hclear (hback hnoticed)).resolve_left htrims).symm
          · rfl
      have hitems : ((manager.dropLastNUserTurns X a).dropLastNUserTurns X b).items =
          (manager.dropLastNUserTurns X (a + b)).items := by
        rw [htwice, honce]
      have hclears : LosesBundle X manager.items (manager.dropLastNUserTurns X (a + b)).items →
          (manager.dropLastNUserTurns X (a + b)).referenceContextItem = none := by
        rw [honce]
        intro hloses
        by_cases htrims : (trimmings (isUserTurnBoundary X) (isPreTurnContextUpdate X) front).any
            isMixedBundle = true
        · exact if_pos htrims
        · have hback := (hlost.mp hloses).resolve_left htrims
          exact (if_neg htrims).trans ((hclear hback).resolve_left htrims)
      refine ⟨hitems, hreference, fun hloses ↦ ?_, hclears⟩
      rw [hreference]
      exact hclears (hitems ▸ hloses)

/-- The bundle in front of the last two turns is noticed. -/
theorem rollback_additive_two_turns :
    RollbackAdditive Sample.externals (Sample.bundled 2) 1 1 :=
  (rollback_additive_iff Sample.externals (Sample.bundled 2) 1 1 (by decide) (by decide)
    (by decide)).mpr Sample.bundlesNoticed

/-- The bundle between two turns that are rolled back at once is not. -/
theorem rollback_not_additive :
    ((Sample.bundled 1).dropLastNUserTurns Sample.externals 1
      |>.dropLastNUserTurns Sample.externals 1).referenceContextItem = none ∧
    ((Sample.bundled 1).dropLastNUserTurns Sample.externals 2).referenceContextItem =
      some Sample.reference ∧
    ¬ RollbackAdditive Sample.externals (Sample.bundled 1) 1 1 := by
  have htwice : ((Sample.bundled 1).dropLastNUserTurns Sample.externals 1
      |>.dropLastNUserTurns Sample.externals 1).referenceContextItem = none := by decide +kernel
  have honce : ((Sample.bundled 1).dropLastNUserTurns Sample.externals 2).referenceContextItem =
      some Sample.reference := by decide +kernel
  refine ⟨htwice, honce, fun hadditive ↦ ?_⟩
  have heq := hadditive.reference_eq
  rw [htwice] at heq
  cases heq.trans honce

end Praxis.Context
