import Mathlib.Data.List.Infix
import Mathlib.Data.List.Nodup
import Praxis.ThreadHistory.Changes

/-!
# Generated identifiers of items

An item that comes without an identifier is given one that is made from a counter.  A
rollback sets the counter to the number of items that are left, not to the identifiers in
use.  That is no smaller: in every front of the turns the numbers in use are at most as
large as the items are many (`Numbered.fronts`), since only the last turn is given new
numbers, and items are replaced but never removed.  So a number is not used twice.
-/

namespace Praxis.ThreadHistory

open Foundation Protocol Relation ThreadHistoryBuilder

/-! ## Numbers -/

theorem itemName_injective : Function.Injective itemName := by
  intro m n h
  have happend : "item-" ++ Nat.repr m = "item-" ++ Nat.repr n := h
  have hrepr := (String.append_right_inj _).mp happend
  rw [Nat.repr_eq_ofList_toDigits, Nat.repr_eq_ofList_toDigits] at hrepr
  have hdigits := congrArg (Nat.ofDigitChars 10 · 0) (String.ofList_injective hrepr)
  simp only [Nat.ofDigitChars_ten_toDigits] at hdigits
  exact hdigits

theorem five_le_length_itemName (n : Nat) : 5 ≤ (itemName n).length := by
  have hname : itemName n = "item-" ++ Nat.repr n := rfl
  have hhead : "item-".length = 5 := rfl
  rw [hname, String.length_append]
  omega

theorem ne_itemName_of_length_lt {name : String} (h : name.length < 5) (n : Nat) :
    name ≠ itemName n := by
  rintro rfl
  exact absurd (five_le_length_itemName n) (Nat.not_le_of_lt h)

/-- The identifier of the item is not of the form that the builder generates. -/
def ThreadItem.IsExternal (item : ThreadItem) : Prop := ∀ index, item.id.val ≠ itemName index

theorem ThreadItem.HasNumber.unique {item : ThreadItem} {m n : Nat} (hm : item.HasNumber m)
    (hn : item.HasNumber n) : m = n :=
  itemName_injective (hm.id_eq.symm.trans hn.id_eq)

open Classical in
/-- The number that the identifier of an item was generated from. -/
noncomputable def ThreadItem.number (item : ThreadItem) : Option Nat :=
  if h : ∃ n, item.HasNumber n then some h.choose else none

theorem ThreadItem.number_eq_some_iff {item : ThreadItem} {n : Nat} :
    item.number = some n ↔ item.HasNumber n := by
  unfold number
  constructor
  · intro h
    split at h
    · rename_i hexists
      rw [← Option.some.inj h]
      exact hexists.choose_spec
    · cases h
  · intro h
    have hexists : ∃ n, item.HasNumber n := ⟨n, h⟩
    rw [dif_pos hexists, hexists.choose_spec.unique h]

theorem number_of_external {item : ThreadItem} (h : item.IsExternal ∨ item.isHookPrompt = true) :
    item.number = none := by
  rw [Option.eq_none_iff_forall_ne_some]
  intro n hn
  obtain ⟨hid, hprompt⟩ := ThreadItem.number_eq_some_iff.mp hn
  rcases h with h | h
  · exact h n hid
  · cases h.symm.trans hprompt

/-- What is formatted from a number has that number, if it can be formatted. -/
theorem number_of_formatted {item : ThreadItem} {next n : Nat}
    (hitem : item.id = .ofString (itemName next)) (hn : item.number = some n) : n = next := by
  have hid := (ThreadItem.number_eq_some_iff.mp hn).id_eq
  rw [hitem, Str.ofString] at hid
  split at hid
  · exact itemName_injective hid.symm
  · exact absurd hid (ne_itemName_of_length_lt (by decide) n)

/-- The items of the turns. -/
def itemsOf (turns : List Turn) : List ThreadItem := turns.flatMap Turn.items

/-- The numbers in use. -/
noncomputable def numbers (items : List ThreadItem) : List Nat := items.filterMap ThreadItem.number

theorem numbers_append (items items' : List ThreadItem) :
    numbers (items ++ items') = numbers items ++ numbers items' := List.filterMap_append

theorem itemsOf_append (turns turns' : List Turn) :
    itemsOf (turns ++ turns') = itemsOf turns ++ itemsOf turns' := List.flatMap_append

theorem itemsOf_cons (turn : Turn) (turns : List Turn) :
    itemsOf (turn :: turns) = turn.items ++ itemsOf turns := rfl

theorem itemsOf_singleton (turn : Turn) : itemsOf [turn] = turn.items := List.append_nil _

/-- An edit removes no item and adds no number. -/
theorem Edit.numbers {items items' : List ThreadItem}
    (h : Edit ThreadItem.IsExternal items items') :
    (numbers items').Sublist (numbers items) ∧ items.length ≤ items'.length := by
  cases h with
  | refl => exact ⟨.refl _, le_rfl⟩
  | push h =>
    rw [numbers_append]
    refine ⟨?_, by simp⟩
    simp [ThreadHistory.numbers, number_of_external h]
  | @replace front back old item hid h =>
    refine ⟨?_, by simp⟩
    rw [numbers_append, numbers_append]
    refine (List.Sublist.refl _).append ?_
    simp only [ThreadHistory.numbers, List.filterMap_cons, number_of_external (.inl h)]
    split
    · exact .refl _
    · exact List.sublist_cons_self _ _
  | @extend front id summary content summary' content' =>
    refine ⟨?_, by simp⟩
    have hnumber : ThreadItem.number (.reasoning id summary' content') =
        ThreadItem.number (.reasoning id summary content) := by
      refine Option.ext fun n ↦ ?_
      rw [ThreadItem.number_eq_some_iff, ThreadItem.number_eq_some_iff]
      exact ⟨fun h ↦ ⟨h.id_eq, rfl⟩, fun h ↦ ⟨h.id_eq, rfl⟩⟩
    rw [numbers_append, numbers_append]
    simp only [ThreadHistory.numbers, List.filterMap_cons, hnumber, List.Sublist.refl]
  | @canonical front id id' content h =>
    refine ⟨?_, by simp⟩
    rw [numbers_append, numbers_append]
    refine (List.Sublist.refl _).append ?_
    simp [ThreadHistory.numbers, number_of_external (.inl h)]

/-! ## The invariant -/

/-- The numbers in use are different and below the counter, and no larger in a front of the
turns than it has items. -/
structure Numbered (s : List Turn × Nat) : Prop where
  fronts : ∀ k, ∀ n ∈ numbers (itemsOf (s.1.take k)), n ≤ (itemsOf (s.1.take k)).length
  below : ∀ n ∈ numbers (itemsOf s.1), n < s.2
  room : s.2 ≤ (itemsOf s.1).length + 1
  distinct : (numbers (itemsOf s.1)).Nodup

namespace Numbered

variable {turns front back : List Turn} {turn turn' : Turn} {next : Nat}

theorem edit (h : Numbered (front ++ turn :: back, next))
    (hedit : Edit ThreadItem.IsExternal turn.items turn'.items) :
    Numbered (front ++ turn' :: back, next) := by
  obtain ⟨hsublist, hlength⟩ := hedit.numbers
  have hnumbers (back : List Turn) :
      (numbers (itemsOf (front ++ turn' :: back))).Sublist
        (numbers (itemsOf (front ++ turn :: back))) := by
    simp only [itemsOf_append, itemsOf_cons, numbers_append]
    exact (List.Sublist.refl _).append (hsublist.append (.refl _))
  have hitems (back : List Turn) :
      (itemsOf (front ++ turn :: back)).length ≤ (itemsOf (front ++ turn' :: back)).length := by
    simp only [itemsOf_append, itemsOf_cons, List.length_append]
    omega
  constructor
  · intro k n hn
    have hfront := h.fronts k
    dsimp only at hn hfront ⊢
    rcases Nat.lt_or_ge front.length k with hlt | hge
    · obtain ⟨j, rfl⟩ : ∃ j, k = front.length + (j + 1) := ⟨k - front.length - 1, by omega⟩
      rw [List.take_length_add_append, List.take_succ_cons] at hn hfront ⊢
      exact (hfront n ((hnumbers _).subset hn)).trans (hitems _)
    · rw [List.take_append_of_le_length hge] at hn hfront ⊢
      exact hfront n hn
  · exact fun n hn ↦ h.below n ((hnumbers back).subset hn)
  · exact h.room.trans (Nat.succ_le_succ (hitems back))
  · exact h.distinct.sublist (hnumbers back)

theorem generate (h : Numbered (front ++ [turn], next)) {item : ThreadItem}
    (hitems : turn'.items = turn.items ++ [item])
    (hitem : item.id = .ofString (itemName next)) : Numbered (front ++ [turn'], next + 1) := by
  have hturns : itemsOf (front ++ [turn']) = itemsOf (front ++ [turn]) ++ [item] := by
    rw [itemsOf_append, itemsOf_append, itemsOf_singleton, itemsOf_singleton, hitems,
      List.append_assoc]
  have hnumbers : numbers (itemsOf (front ++ [turn'])) =
      numbers (itemsOf (front ++ [turn])) ++ item.number.toList := by
    rw [hturns, numbers_append]
    cases hnumber : item.number with
    | none => simp [numbers, hnumber]
    | some n => simp [numbers, hnumber]
  have hlength : (itemsOf (front ++ [turn'])).length = (itemsOf (front ++ [turn])).length + 1 := by
    rw [hturns, List.length_append, List.length_singleton]
  have hnew : ∀ n ∈ item.number.toList, n = next := fun n hn ↦
    number_of_formatted hitem (Option.mem_toList.mp hn)
  have hroom := h.room
  dsimp only at hroom
  have hmem : ∀ n ∈ numbers (itemsOf (front ++ [turn'])),
      n ∈ numbers (itemsOf (front ++ [turn])) ∨ n = next := by
    intro n hn
    rw [hnumbers] at hn
    exact (List.mem_append.mp hn).imp_right (hnew n)
  constructor
  · intro k n hn
    dsimp only at hn ⊢
    rcases Nat.lt_or_ge front.length k with hlt | hge
    · rw [List.take_of_length_le (by simp; omega)] at hn ⊢
      rw [hlength]
      rcases hmem n hn with hn | rfl
      · have hle := h.fronts (front.length + 1) n
        dsimp only at hle
        rw [List.take_of_length_le (by simp)] at hle
        exact (hle hn).trans (Nat.le_succ _)
      · exact hroom
    · have hfront := h.fronts k
      dsimp only at hfront
      rw [List.take_append_of_le_length hge] at hn hfront ⊢
      exact hfront n hn
  · intro n hn
    rcases hmem n hn with hn | rfl
    · exact (h.below n hn).trans (Nat.lt_succ_self _)
    · exact Nat.lt_succ_self _
  · rw [hlength]
    exact Nat.succ_le_succ hroom
  · rw [hnumbers]
    refine List.Nodup.append h.distinct ?_ ?_
    · cases item.number <;> simp
    · intro n hn hn'
      rw [hnew n hn'] at hn
      exact Nat.lt_irrefl _ (h.below next hn)

/-- A turn without items at the end makes no difference. -/
theorem itemsOf_take_concat (hempty : turn.items = []) (k : Nat) :
    itemsOf ((turns ++ [turn]).take k) = itemsOf (turns.take k) := by
  have hnil : itemsOf ([turn].take (k - turns.length)) = [] := by
    cases k - turns.length with
    | zero => rfl
    | succ j => rw [List.take_succ_cons, List.take_nil, itemsOf_singleton, hempty]
  rw [List.take_append, itemsOf_append, hnil, List.append_nil]

theorem of_itemsOf_eq {turns' : List Turn} (h : Numbered (turns, next))
    (hfronts : ∀ k, itemsOf (turns'.take k) = itemsOf (turns.take k))
    (hall : itemsOf turns' = itemsOf turns) : Numbered (turns', next) where
  fronts k := by
    have hfront := h.fronts k
    dsimp only at hfront ⊢
    rw [hfronts]
    exact hfront
  below := by
    have hbelow := h.below
    dsimp only at hbelow ⊢
    rwa [hall]
  room := by
    have hroom := h.room
    dsimp only at hroom ⊢
    rwa [hall]
  distinct := by
    have hdistinct := h.distinct
    dsimp only at hdistinct ⊢
    rwa [hall]

theorem itemsOf_concat_of_empty (hempty : turn.items = []) :
    itemsOf (turns ++ [turn]) = itemsOf turns := by
  rw [itemsOf_append, itemsOf_singleton, hempty, List.append_nil]

/-- **A change of the turns keeps the numbers.** -/
theorem move {s s' : List Turn × Nat} (h : Numbered s) (hmove : Move ThreadItem.IsExternal s s') :
    Numbered s' := by
  cases hmove with
  | change hchange =>
    cases hchange with
    | edit hid hedit => exact h.edit hedit
    | generate hid hitems hitem hprompt => exact h.generate hitems hitem
  | opened hempty =>
    exact h.of_itemsOf_eq (itemsOf_take_concat hempty) (itemsOf_concat_of_empty hempty)
  | discarded hempty =>
    exact h.of_itemsOf_eq (fun k ↦ (itemsOf_take_concat hempty k).symm)
      (itemsOf_concat_of_empty hempty).symm

theorem moves {s s' : List Turn × Nat} (h : Numbered s)
    (hmoves : ReflTransGen (Move ThreadItem.IsExternal) s s') :
    Numbered s' := by
  induction hmoves with
  | refl => exact h
  | tail _ hmove ih => exact ih.move hmove

/-- **A rollback** counts the items of the turns that are left. -/
theorem rollback (h : Numbered (turns, next)) (k : Nat) {limit : Nat}
    (hlimit : (itemsOf (turns.take k)).length < limit) :
    Numbered (turns.take k, min ((itemsOf (turns.take k)).length + 1) limit) := by
  have hnext : min ((itemsOf (turns.take k)).length + 1) limit =
      (itemsOf (turns.take k)).length + 1 := Nat.min_eq_left hlimit
  rw [hnext]
  constructor
  · intro j n hn
    have hfront := h.fronts (min j k)
    dsimp only at hn hfront ⊢
    rw [List.take_take] at hn ⊢
    exact hfront n hn
  · exact fun n hn ↦ Nat.lt_succ_of_le (h.fronts k n hn)
  · exact le_rfl
  · refine h.distinct.sublist ?_
    have hsplit := List.take_append_drop k turns
    conv => arg 2; rw [← hsplit, itemsOf_append, numbers_append]
    exact List.sublist_append_left _ _

end Numbered

/-! ## Runs of a builder -/

/-- What a builder is given. -/
inductive Input where
  | rolloutItem (item : RolloutItem)
  | eventMsg (event : EventMsg)

/-- `handle_rollout_item` or `handle_event`. -/
def ThreadHistoryBuilder.handle (X : Externals) (ids : Nat → Str) (b : ThreadHistoryBuilder) :
    Input → ThreadHistoryBuilder
  | .rolloutItem item => b.handleRolloutItem X ids item
  | .eventMsg event => b.handleEvent X event

/-- `new` or `with_max_finished_turns`. -/
def newWith : Option Nat → ThreadHistoryBuilder
  | none => new
  | some maxFinishedTurns => withMaxFinishedTurns maxFinishedTurns

/-- The identifiers that come with an input are not of the form that is generated. -/
def Input.ExternalIds (X : Externals) : Input → Prop
  | .rolloutItem (.eventMsg event) => Supplies X ThreadItem.IsExternal event
  | .rolloutItem _ => True
  | .eventMsg event => Supplies X ThreadItem.IsExternal event

/-- The items of a builder can be counted: they are in memory. -/
def ThreadHistoryBuilder.Fits (b : ThreadHistoryBuilder) : Prop :=
  (itemsOf b.allTurns).length < 2 ^ 63 - 1

variable {X : Externals} {ids : Nat → Str} {b : ThreadHistoryBuilder}

theorem Numbered.handleEvent (h : Numbered b.state) {event : EventMsg}
    (hexternal : Supplies X ThreadItem.IsExternal event) (hfits : (b.handleEvent X event).Fits) :
    Numbered (b.handleEvent X event).state := by
  by_cases hrollback : ∃ numTurns, event = .threadRolledBack numTurns
  · obtain ⟨numTurns, rfl⟩ := hrollback
    have hstate := (state_handleThreadRollback b numTurns).2
    have hfinished := h.moves (moves_finishCurrentTurn b)
    have hleft : (b.handleThreadRollback numTurns).allTurns = _ := congrArg Prod.fst hstate
    change (itemsOf (b.handleThreadRollback numTurns).allTurns).length < _ at hfits
    rw [hleft] at hfits
    change Numbered (b.handleThreadRollback numTurns).state
    rw [hstate]
    exact hfinished.rollback _ hfits
  · exact h.moves (moves_handleEvent X b hexternal fun numTurns heq ↦ hrollback ⟨numTurns, heq⟩)

theorem Numbered.handleInput (h : Numbered b.state) {input : Input}
    (hexternal : input.ExternalIds X)
    (hfits : (b.handle X ids input).Fits) : Numbered (b.handle X ids input).state := by
  cases input with
  | eventMsg event => exact h.handleEvent hexternal hfits
  | rolloutItem item =>
    change Numbered (b.handleItem X ids item).trimFinishedTurns.state
    change (itemsOf (b.handleItem X ids item).trimFinishedTurns.state.1).length < _ at hfits
    rw [state_trimFinishedTurns] at hfits ⊢
    -- The indices of the rollout have no part in the turns.
    have hindex : Numbered { b with
        currentRolloutIndex := b.nextRolloutIndex
        nextRolloutIndex := b.nextRolloutIndex + 1 }.state := h
    cases item with
    | eventMsg event => exact hindex.handleEvent hexternal hfits
    | compacted => exact hindex.moves (moves_advance (Progress.acts_handleCompacted _))
    | responseItem item =>
      exact hindex.moves (moves_advance (Progress.acts_handleResponseItem X ids _ item))
    | turnContext => exact hindex
    | sessionMeta => exact hindex

/-- A run keeps the invariant while the items can be counted. -/
theorem Numbered.run {inputs : List Input} (h : Numbered b.state)
    (hexternal : ∀ input ∈ inputs, input.ExternalIds X)
    (hfits : ∀ given, given <+: inputs → (given.foldl (handle X ids) b).Fits) :
    Numbered (inputs.foldl (handle X ids) b).state := by
  induction inputs generalizing b with
  | nil => exact h
  | cons input inputs ih =>
    have hone : (b.handle X ids input).Fits := hfits [input] (by simp)
    refine ih (h.handleInput (hexternal input List.mem_cons_self) hone) ?_ fun given hgiven ↦ ?_
    · exact fun input hinput ↦ hexternal input (List.mem_cons_of_mem _ hinput)
    · exact hfits (input :: given) ((List.cons_prefix_cons).mpr ⟨rfl, hgiven⟩)

theorem numbered_new (maxFinishedTurns : Option Nat) :
    Numbered (newWith maxFinishedTurns).state := by
  have hstate : (newWith maxFinishedTurns).state = ([], 1) := by
    cases maxFinishedTurns <;> rfl
  rw [hstate]
  constructor
  · intro k n hn
    rw [List.take_nil] at hn
    cases hn
  · exact fun n hn ↦ nomatch hn
  · exact le_rfl
  · exact List.nodup_nil

/-- **Generated identifiers do not collide**: whatever a builder is given, with a window or
without one, the numbers in the identifiers of its items are different and smaller than the
next one. -/
theorem item_ids_distinct (X : Externals) (ids : Nat → Str) (maxFinishedTurns : Option Nat)
    (inputs : List Input) (hexternal : ∀ input ∈ inputs, input.ExternalIds X)
    (hfits : ∀ given, given <+: inputs →
      (given.foldl (handle X ids) (newWith maxFinishedTurns)).Fits) :
    let b := inputs.foldl (handle X ids) (newWith maxFinishedTurns)
    (itemsOf b.allTurns).Pairwise (fun x y ↦ ∀ m n, x.HasNumber m → y.HasNumber n → m ≠ n) ∧
      ∀ item ∈ itemsOf b.allTurns, ∀ n, item.HasNumber n → n < b.nextItemIndex := by
  intro b
  have hnumbered := (numbered_new maxFinishedTurns).run hexternal hfits
  constructor
  · refine (List.pairwise_filterMap.mp hnumbered.distinct).imp fun {x y} hxy m n hm hn ↦ ?_
    exact hxy m (ThreadItem.number_eq_some_iff.mpr hm) n (ThreadItem.number_eq_some_iff.mpr hn)
  · intro item hitem n hn
    exact hnumbered.below n
      (List.mem_filterMap.mpr ⟨item, hitem, ThreadItem.number_eq_some_iff.mpr hn⟩)

namespace Sample

theorem fits_a : "a".utf8ByteSize ≤ isizeMax := by decide

theorem fits_b : "b".utf8ByteSize ≤ isizeMax := by decide

theorem fits_c : "c".utf8ByteSize ≤ isizeMax := by decide

/-- Two messages and a tool, of which the second message is rolled back and sent again. -/
def resent : List Input :=
  [.rolloutItem (.eventMsg (.userMessage ⟨.lit "a" fits_a, none, [], []⟩)),
    .eventMsg (.toolCall
      ⟨.mcpToolCallBegin, .lit "call", .lit "" Str.fits_empty, .lit "" Str.fits_empty⟩),
    .rolloutItem (.eventMsg (.userMessage ⟨.lit "b" fits_b, none, [], []⟩)),
    .rolloutItem (.eventMsg (.threadRolledBack 1)),
    .rolloutItem (.eventMsg (.userMessage ⟨.lit "c" fits_c, none, [], []⟩))]

end Sample

/-- The number of the message that is rolled back is used again, after the tool. -/
theorem item_ids_distinct_resent :
    let b := Sample.resent.foldl (handle plainExternals fun _ ↦ .lit "") (newWith (some 1))
    (itemsOf b.allTurns).map (·.id.val) = ["item-1", "call", "item-3"] ∧
      (itemsOf b.allTurns).Pairwise (fun x y ↦ ∀ m n, x.HasNumber m → y.HasNumber n → m ≠ n) := by
  have hexternal : ∀ input ∈ Sample.resent, input.ExternalIds plainExternals := by
    intro input hinput
    simp only [Sample.resent, List.mem_cons, List.not_mem_nil, or_false] at hinput
    rcases hinput with rfl | rfl | rfl | rfl | rfl
    case inr.inl => exact ne_itemName_of_length_lt (by decide)
    all_goals exact trivial
  have hinits : ∀ given ∈ Sample.resent.inits, (itemsOf (given.foldl
      (handle plainExternals fun _ ↦ .lit "") (newWith (some 1))).allTurns).length <
        2 ^ 63 - 1 := by
    decide +kernel
  refine ⟨by decide +kernel, (item_ids_distinct plainExternals (fun _ ↦ .lit "") (some 1)
    Sample.resent hexternal fun given hgiven ↦ ?_).1⟩
  exact hinits given ((List.mem_inits _ _).mpr hgiven)

end Praxis.ThreadHistory
