import Praxis.Context.Replay

/-!
# The turns of a rollout

A rollout as a session writes it: turns, and rollbacks between them.  The history
that is rebuilt from it is a stack of user messages.  A turn puts its messages on it
and a rollback takes off as many user messages as it has turns (`dropLastNUserTurns`),
so the turn that is left on top is found by counting from the end (`survivor`).
-/

namespace Praxis.Context

open Foundation Protocol

variable (X : Externals)

/-! ## Turns -/

/-- What a turn receives: an event, or an item for the history. -/
inductive Message where
  | event (message : UserMessageEvent)
  | response (item : ResponseItem)

/-- The item of a message. -/
def Message.item : Message → RolloutItem
  | .event message => .eventMsg (.userMessage message)
  | .response item => .responseItem item

/-- The end of a turn. -/
inductive TurnEnd where
  | complete
  | aborted
  | abortedUnnamed
  | missing

def TurnEnd.items (turnId : Str) : TurnEnd → List RolloutItem
  | .complete => [.eventMsg (.turnComplete turnId)]
  | .aborted => [.eventMsg (.turnAborted (some turnId))]
  | .abortedUnnamed => [.eventMsg (.turnAborted none)]
  | .missing => []

/-- A turn, with its context among its messages. -/
structure Turn where
  id : Str
  collaborationModeKind : Str
  before : List Message
  context : TurnContextItem
  after : List Message
  ending : TurnEnd
  /-- The context is the one of the turn. -/
  context_id : context.turnId = some id

namespace Turn

def messages (turn : Turn) : List Message := turn.before ++ turn.after

def items (turn : Turn) : List RolloutItem :=
  .eventMsg (.turnStarted turn.id turn.collaborationModeKind) ::
    (turn.before.map Message.item ++ .turnContext turn.context :: turn.after.map Message.item ++
      turn.ending.items turn.id)

/-- The items that are recorded in the history. -/
def responses (turn : Turn) : List ResponseItem :=
  turn.messages.filterMap fun
    | .event _ => none
    | .response item => some item

/-- The user messages of the turn. -/
def boundaries (turn : Turn) : Nat := turn.responses.countP (isUserTurnBoundary X)

/-- The turn counts as a user turn. -/
def counts (turn : Turn) : Bool := turn.messages.any fun message ↦ countsItem X message.item

end Turn

/-- A turn, or a rollback. -/
inductive Entry where
  | turn (t : Turn)
  | rolledBack (numTurns : UInt32)

def Entry.items : Entry → List RolloutItem
  | .turn t => t.items
  | .rolledBack numTurns => [.eventMsg (.threadRolledBack numTurns)]

def Entry.turn? : Entry → Option Turn
  | .turn t => some t
  | .rolledBack _ => none

/-- A rollout of turns whose identifiers are fresh. -/
structure TurnRollout where
  entries : List Entry
  fresh : ((entries.filterMap Entry.turn?).map Turn.id).Nodup
  /-- The items are a slice. -/
  length_le : (entries.flatMap Entry.items).length ≤ isizeMax

def TurnRollout.items (rollout : TurnRollout) : List RolloutItem :=
  rollout.entries.flatMap Entry.items

/-! ## The turn that is left -/

/-- The newest turn that is left when every turn has as many units as its weight, and a
rollback takes as many of them as it has turns: the units of the turn and of those behind it
outnumber what is rolled back behind it.  The entries are given from the newest on, with the
units and the rollbacks behind them. -/
def survivorFrom (weight : Turn → Nat) (units rolledBack : Nat) : List Entry → Option Turn
  | [] => none
  | .rolledBack numTurns :: older => survivorFrom weight units (rolledBack + numTurns.toNat) older
  | .turn turn :: older =>
    if rolledBack < units + weight turn then some turn
    else survivorFrom weight (units + weight turn) rolledBack older

def TurnRollout.survivor (weight : Turn → Nat) (rollout : TurnRollout) : Option Turn :=
  survivorFrom weight 0 0 rollout.entries.reverse

/-- The stack of the units, with the last one on top. -/
def stackFrom (weight : Turn → Nat) (stack : List Turn) : List Entry → List Turn
  | [] => stack
  | .turn turn :: entries =>
    stackFrom weight (stack ++ List.replicate (weight turn) turn) entries
  | .rolledBack numTurns :: entries =>
    stackFrom weight (stack.take (stack.length - numTurns.toNat)) entries

theorem stackFrom_concat (weight : Turn → Nat) (stack : List Turn) (entries : List Entry)
    (entry : Entry) :
    stackFrom weight stack (entries ++ [entry]) =
      stackFrom weight (stackFrom weight stack entries) [entry] := by
  induction entries generalizing stack with
  | nil => rfl
  | cons first entries ih =>
    cases first with
    | turn turn => exact ih _
    | rolledBack numTurns => exact ih _

/-- **The survivor is on top of the stack.** -/
theorem survivorFrom_eq (weight : Turn → Nat) {units rolledBack : Nat} (h : units ≤ rolledBack)
    (older : List Entry) :
    survivorFrom weight units rolledBack older =
      ((stackFrom weight [] older.reverse).take
        ((stackFrom weight [] older.reverse).length - (rolledBack - units))).getLast? := by
  induction older generalizing units rolledBack with
  | nil => simp only [survivorFrom, List.reverse_nil, stackFrom, List.take_nil, List.getLast?_nil]
  | cons entry older ih =>
    rw [List.reverse_cons, stackFrom_concat]
    cases entry with
    | rolledBack numTurns =>
      rw [survivorFrom, ih (h.trans (Nat.le_add_right _ _))]
      simp only [stackFrom, List.take_take, List.length_take]
      congr 2
      omega
    | turn turn =>
      rw [survivorFrom]
      simp only [stackFrom, List.length_append, List.length_replicate]
      generalize stackFrom weight [] older.reverse = stack at ih ⊢
      split
      · rename_i hlt
        have htake : stack.length + weight turn - (rolledBack - units) =
            stack.length + (weight turn - (rolledBack - units) - 1 + 1) := by omega
        rw [htake, List.take_length_add_append, List.take_replicate, Nat.min_eq_left (by omega),
          List.replicate_succ', ← List.append_assoc, List.getLast?_concat]
      · rename_i hge
        have htake : stack.length + weight turn - (rolledBack - units) =
            stack.length - (rolledBack - (units + weight turn)) := by omega
        rw [ih (by omega), htake, List.take_append_of_le_length (Nat.sub_le _ _)]

/-! ## A rollback in the history -/

section Rollback

variable {X}

/-- The entries of a list that meet a predicate, with their indices: in front of the one with
number `j` there are `j` of them. -/
theorem countP_take_of_zipIdx {α : Type} {p : α → Bool} {l : List α} {start j i : Nat} {a : α}
    (h : ((l.zipIdx start).filter fun entry ↦ p entry.1)[j]? = some (a, i)) :
    (l.take (i - start)).countP p = j := by
  induction l generalizing start j with
  | nil => cases h
  | cons x l ih =>
    have hmem (j : Nat) (h : ((l.zipIdx (start + 1)).filter fun entry ↦ p entry.1)[j]? =
        some (a, i)) : i - start = i - (start + 1) + 1 := by
      have := List.le_snd_of_mem_zipIdx (List.mem_of_mem_filter (List.mem_of_getElem? h))
      simp only at this
      omega
    rw [List.zipIdx_cons] at h
    by_cases hx : p x
    · simp only [List.filter_cons, hx, if_true] at h
      cases j with
      | zero =>
        obtain ⟨-, rfl⟩ := Prod.mk.inj (Option.some.inj h)
        rw [Nat.sub_self, List.take_zero, List.countP_nil]
      | succ j =>
        rw [List.getElem?_cons_succ] at h
        rw [hmem j h, List.take_succ_cons, List.countP_cons_of_pos hx, ih h]
    · simp only [List.filter_cons, hx, Bool.false_eq_true, if_false] at h
      rw [hmem j h, List.take_succ_cons, List.countP_cons_of_neg hx, ih h]

theorem length_filter_zipIdx {α : Type} (p : α → Bool) (l : List α) (start : Nat) :
    ((l.zipIdx start).filter fun entry ↦ p entry.1).length = l.countP p := by
  induction l generalizing start with
  | nil => rfl
  | cons x l ih =>
    rw [List.zipIdx_cons]
    by_cases hx : p x
    · rw [List.filter_cons, if_pos hx, List.length_cons, ih, List.countP_cons_of_pos hx]
    · rw [List.filter_cons, if_neg hx, ih, List.countP_cons_of_neg hx]

/-- What is trimmed in front of a turn is no user message. -/
theorem not_boundary_of_update {item : ResponseItem} (h : isPreTurnContextUpdate X item) :
    isUserTurnBoundary X item = false := by
  cases item with
  | message id role content phase =>
    simp only [isPreTurnContextUpdate, Bool.or_eq_true, Bool.and_eq_true, beq_iff_eq] at h
    rcases h with ⟨hrole, -⟩ | ⟨hrole, hcontent⟩
    · rw [isUserTurnBoundary, hrole]
      rfl
    · rw [isUserTurnBoundary, hrole, hcontent]
      rfl
  | _ => cases h

/-- The trim keeps the user messages. -/
theorem countP_take_trim (items : List ResponseItem) (first cut : Nat) :
    (items.take (trimPreTurnContextUpdates X items first cut)).countP (isUserTurnBoundary X) =
      (items.take cut).countP (isUserTurnBoundary X) := by
  induction cut with
  | zero => rfl
  | succ cut ih =>
    unfold trimPreTurnContextUpdates
    split
    · rename_i hupdate
      obtain ⟨item, hitem, hcontext⟩ := (Option.any_eq_true _ _).mp hupdate.2
      have hnone : isUserTurnBoundary X item = false := not_boundary_of_update hcontext
      rw [ih, List.take_add_one, hitem, Option.toList_some, List.countP_append,
        List.countP_singleton, hnone]
      rfl
    · rfl

/-- **A rollback** cuts the history, and takes as many user messages as it has turns. -/
theorem dropLastNUserTurns_spec (items : List ResponseItem) (numTurns : UInt32) :
    dropLastNUserTurns X items numTurns <+: items ∧
      (dropLastNUserTurns X items numTurns).countP (isUserTurnBoundary X) =
        items.countP (isUserTurnBoundary X) - numTurns.toNat := by
  unfold dropLastNUserTurns
  split
  · rename_i hzero
    rw [hzero]
    exact ⟨List.prefix_refl _, rfl⟩
  rename_i hne
  have hpositive : 0 < numTurns.toNat := by
    rw [Nat.pos_iff_ne_zero]
    exact fun h ↦ hne (UInt32.toNat_inj.mp h)
  split
  · rename_i hnone
    have hzero : items.countP (isUserTurnBoundary X) = 0 := by
      rw [List.countP_eq_zero]
      intro item hitem
      rw [List.findIdx?_eq_none_iff.mp hnone item hitem]
      exact Bool.false_ne_true
    rw [hzero, Nat.zero_sub]
    exact ⟨List.prefix_refl _, rfl⟩
  rename_i first hfirst
  refine ⟨List.take_prefix _ _, ?_⟩
  rw [countP_take_trim, List.filter_reverse]
  have hlength := length_filter_zipIdx (isUserTurnBoundary X) items 0
  generalize hboundaries : (items.zipIdx.filter fun entry ↦ isUserTurnBoundary X entry.1) =
    boundaries at hlength ⊢
  cases hcut : boundaries.reverse[numTurns.toNat - 1]? with
  | none =>
    have hle := List.getElem?_eq_none_iff.mp hcut
    rw [List.length_reverse] at hle
    have hzero : (items.take first).countP (isUserTurnBoundary X) = 0 := by
      obtain ⟨hbound, -, hbefore⟩ := List.findIdx?_eq_some_iff_getElem.mp hfirst
      rw [List.countP_eq_zero]
      intro item hitem
      obtain ⟨i, hi, rfl⟩ := List.mem_take_iff_getElem.mp hitem
      exact hbefore i (by omega)
    rw [Option.elim_none, hzero]
    omega
  | some entry =>
    have hbound := (List.getElem?_eq_some_iff.mp hcut).1
    rw [List.length_reverse] at hbound
    rw [List.getElem?_reverse (by omega), ← hboundaries] at hcut
    have hcount := countP_take_of_zipIdx hcut
    rw [Nat.sub_zero] at hcount
    rw [Option.elim_some, hcount, hboundaries]
    omega

end Rollback

/-! ## The history with its turns -/

/-- The history behind an entry, every item with its turn. -/
def tagEntry (tagged : List (Turn × ResponseItem)) : Entry → List (Turn × ResponseItem)
  | .turn t => tagged ++ (t.responses.foldl (recordItem X) []).map fun item ↦ (t, item)
  | .rolledBack numTurns =>
    tagged.take (dropLastNUserTurns X (tagged.map Prod.snd) numTurns).length

/-- The history that a rollout leaves, every item with its turn. -/
def TurnRollout.tagged (rollout : TurnRollout) : List (Turn × ResponseItem) :=
  rollout.entries.foldl (tagEntry X) []

/-- The last turn that has a user message in a history. -/
def lastTurn (tagged : List (Turn × ResponseItem)) : Option Turn :=
  ((tagged.filter fun entry ↦ isUserTurnBoundary X entry.2).map Prod.fst).getLast?

section Tagged

variable {X}

theorem recordItem_eq (history : List ResponseItem) (item : ResponseItem) :
    recordItem X history item = history ++ recordItem X [] item := by
  unfold recordItem
  split
  · rfl
  · split
    · rfl
    · rw [List.append_nil]

theorem foldl_recordItem (history items : List ResponseItem) :
    items.foldl (recordItem X) history = history ++ items.foldl (recordItem X) [] := by
  induction items generalizing history with
  | nil => exact (List.append_nil _).symm
  | cons item items ih =>
    rw [List.foldl_cons, List.foldl_cons, ih, ih (recordItem X [] item), recordItem_eq,
      List.append_assoc]

/-- The user messages among the items that are recorded. -/
theorem countP_foldl_recordItem (items : List ResponseItem) :
    (items.foldl (recordItem X) []).countP (isUserTurnBoundary X) =
      items.countP (isUserTurnBoundary X) := by
  have hone (item : ResponseItem) : (recordItem X [] item).countP (isUserTurnBoundary X) =
      if isUserTurnBoundary X item then 1 else 0 := by
    cases item with
    | message id role content phase =>
      unfold recordItem
      by_cases hapi : isApiMessage (.message id role content phase)
      · simp only [hapi, if_true]
        exact List.countP_singleton ..
      · have hsystem : role.val = "system" := bne_eq_false_iff_eq.mp (Bool.not_eq_true _ ▸ hapi)
        simp only [hapi, isUserTurnBoundary, hsystem]
        rfl
    | _ => rfl
  induction items with
  | nil => rfl
  | cons item items ih =>
    rw [List.foldl_cons, foldl_recordItem, List.countP_append, hone, ih, List.countP_cons,
      Nat.add_comm]

/-- The messages of a turn record its responses. -/
theorem replay_messages (history : List ResponseItem) (messages : List Message) :
    replay X history (messages.map Message.item) =
      (messages.filterMap fun
        | .event _ => none
        | .response item => some item).foldl (recordItem X) history := by
  induction messages generalizing history with
  | nil => rfl
  | cons message messages ih =>
    cases message with
    | event message => exact ih history
    | response item => exact ih (recordItem X history item)

/-- A turn records its responses. -/
theorem replay_turn (history : List ResponseItem) (turn : Turn) :
    replay X history turn.items = history ++ turn.responses.foldl (recordItem X) [] := by
  have hend (history : List ResponseItem) : replay X history (turn.ending.items turn.id) = history := by
    cases turn.ending <;> rfl
  have hstart (items : List RolloutItem) : replay X history
      (.eventMsg (.turnStarted turn.id turn.collaborationModeKind) :: items) =
        replay X history items := rfl
  have hcontext (history : List ResponseItem) (items : List RolloutItem) :
      replay X history (.turnContext turn.context :: items) = replay X history items := rfl
  rw [Turn.items, hstart, replay_append, hend, replay_append, replay_messages, hcontext,
    replay_messages, ← List.foldl_append, ← List.filterMap_append]
  exact foldl_recordItem history turn.responses

/-- **The turns are those of the replay.** -/
theorem map_snd_foldl_tagEntry (tagged : List (Turn × ResponseItem)) (entries : List Entry) :
    (entries.foldl (tagEntry X) tagged).map Prod.snd =
      replay X (tagged.map Prod.snd) (entries.flatMap Entry.items) := by
  induction entries generalizing tagged with
  | nil => rfl
  | cons entry entries ih =>
    rw [List.foldl_cons, ih, List.flatMap_cons, replay_append]
    congr 1
    cases entry with
    | turn turn =>
      simp only [tagEntry, Entry.items, replay_turn, List.map_append, List.map_map]
      congr 1
      exact List.map_id _
    | rolledBack numTurns =>
      have hfront := (dropLastNUserTurns_spec (X := X) (tagged.map Prod.snd) numTurns).1
      rw [tagEntry, List.map_take]
      exact (List.prefix_iff_eq_take.mp hfront).symm

/-- The turns of the user messages of a history. -/
theorem length_filter_boundary (tagged : List (Turn × ResponseItem)) :
    (tagged.filter fun entry ↦ isUserTurnBoundary X entry.2).length =
      (tagged.map Prod.snd).countP (isUserTurnBoundary X) := by
  rw [List.countP_map, List.countP_eq_length_filter]
  rfl

/-- **The user messages of the history are a stack.** -/
theorem boundaries_foldl_tagEntry (tagged : List (Turn × ResponseItem)) (entries : List Entry) :
    ((entries.foldl (tagEntry X) tagged).filter fun entry ↦
        isUserTurnBoundary X entry.2).map Prod.fst =
      stackFrom (Turn.boundaries X)
        ((tagged.filter fun entry ↦ isUserTurnBoundary X entry.2).map Prod.fst) entries := by
  induction entries generalizing tagged with
  | nil => rfl
  | cons entry entries ih =>
    rw [List.foldl_cons, ih]
    cases entry with
    | turn turn =>
      rw [stackFrom, tagEntry, List.filter_append, List.map_append]
      congr 2
      rw [List.filter_map, List.map_map, Turn.boundaries, ← countP_foldl_recordItem,
        List.countP_eq_length_filter, List.eq_replicate_iff]
      constructor
      · rw [List.length_map]
        rfl
      · intro t ht
        obtain ⟨item, -, rfl⟩ := List.mem_map.mp ht
        rfl
    | rolledBack numTurns =>
      obtain ⟨hcut, hcount⟩ := dropLastNUserTurns_spec (X := X) (tagged.map Prod.snd) numTurns
      rw [stackFrom, tagEntry]
      congr 1
      rw [← List.map_take]
      congr 1
      have hfront := (List.take_prefix
        (dropLastNUserTurns X (tagged.map Prod.snd) numTurns).length tagged).filter
          fun entry ↦ isUserTurnBoundary X entry.2
      rw [List.prefix_iff_eq_take.mp hfront, length_filter_boundary, List.length_map,
        length_filter_boundary, List.map_take, ← List.prefix_iff_eq_take.mp hcut, hcount]

/-- **The last turn in the history is the survivor of the user messages.** -/
theorem lastTurn_tagged (X : Externals) (rollout : TurnRollout) :
    lastTurn X (rollout.tagged X) = rollout.survivor (Turn.boundaries X) := by
  rw [lastTurn, TurnRollout.tagged, boundaries_foldl_tagEntry, TurnRollout.survivor,
    survivorFrom_eq _ (le_refl 0), List.reverse_reverse, Nat.sub_self, Nat.sub_zero,
    List.take_length]
  rfl

end Tagged

end Praxis.Context
