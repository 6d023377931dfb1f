import Praxis.ThreadHistory.Builder

/-!
# The window on the turns

The builder with a limit shows the last turns of the builder without one: what it has set
aside and what it keeps are together the turns of the other (`Shows`).  Every step keeps
that, with one exception.  An event that names a turn is looked up among the turns that
are kept, and one that was set aside is not found there; the two builders then do
different things (`late_completion_closes_active_turn`).
-/

namespace Praxis.ThreadHistory

open Foundation Protocol ThreadHistoryBuilder

variable {X : Externals} {ids ids' : Nat → Str} {k : Nat} {b full window : ThreadHistoryBuilder}
  {item : RolloutItem} {items : List RolloutItem}

/-! ## The loops -/

theorem trimTurns_eq (turns dropped : List Turn) : trimTurns k turns dropped =
    (turns.drop (turns.length - k), dropped ++ turns.take (turns.length - k)) := by
  induction turns generalizing dropped with
  | nil => simp [trimTurns]
  | cons turn turns ih =>
    unfold trimTurns
    split_ifs with hlong
    · have hlength : (turn :: turns).length - k = turns.length - k + 1 := by
        rw [List.length_cons]
        omega
      rw [ih, hlength, List.drop_succ_cons, List.take_succ_cons, List.append_assoc]
      rfl
    · have hlength : (turn :: turns).length - k = 0 := by
        rw [List.length_cons]
        omega
      rw [hlength]
      simp

theorem take_length_sub_succ (l : List Turn) (n : Nat) :
    l.take (l.length - (n + 1)) = l.dropLast.take (l.dropLast.length - n) := by
  rw [List.dropLast_eq_take, List.take_take, List.length_take]
  congr 1
  omega

/-- A rollback takes turns from the end, whether they were set aside or not. -/
theorem popTurns_append (n : Nat) (turns dropped : List Turn) :
    (popTurns n turns dropped).2 ++ (popTurns n turns dropped).1 =
      (dropped ++ turns).take ((dropped ++ turns).length - n) := by
  induction n generalizing turns dropped with
  | zero => simp only [popTurns, Nat.sub_zero, List.take_length]
  | succ n ih =>
    rw [take_length_sub_succ]
    unfold popTurns
    split_ifs with hturns hdropped
    · rw [ih, List.dropLast_append_of_ne_nil hturns]
    · obtain rfl := not_not.mp hturns
      rw [ih, List.append_nil, List.append_nil]
    · obtain rfl := not_not.mp hturns
      obtain rfl := not_not.mp hdropped
      simp

theorem popTurns_nil (n : Nat) (turns : List Turn) : (popTurns n turns []).2 = [] := by
  induction n generalizing turns with
  | zero => rfl
  | succ n ih =>
    unfold popTurns
    split_ifs with hturns hdropped
    · exact ih _
    · exact absurd rfl hdropped
    · rfl

/-- After a rollback as many turns are taken back as there are and fit. -/
theorem refillTurns_spec (fuel : Nat) (turns dropped : List Turn) (hfuel : dropped.length ≤ fuel) :
    (refillTurns k fuel turns dropped).2 ++ (refillTurns k fuel turns dropped).1 =
        dropped ++ turns ∧
      ((refillTurns k fuel turns dropped).2 ≠ [] →
        k ≤ (refillTurns k fuel turns dropped).1.length) := by
  induction fuel generalizing turns dropped with
  | zero =>
    obtain rfl := List.length_eq_zero_iff.mp (Nat.le_zero.mp hfuel)
    exact ⟨rfl, fun h ↦ absurd rfl h⟩
  | succ fuel ih =>
    unfold refillTurns
    split_ifs with hshort
    · rcases hlast : dropped.getLast? with _ | turn
      · obtain rfl := List.getLast?_eq_none_iff.mp hlast
        exact ⟨rfl, fun h ↦ absurd rfl h⟩
      · obtain ⟨init, rfl⟩ := List.getLast?_eq_some_iff.mp hlast
        rw [List.dropLast_concat]
        obtain ⟨hsame, hfull⟩ := ih (turn :: turns) init (by simpa using hfuel)
        exact ⟨by rw [hsame]; simp, hfull⟩
    · exact ⟨rfl, fun _ ↦ not_lt.mp hshort⟩

theorem modify_append (first second : List Turn) (index : Nat) (f : Turn → Turn) :
    (first ++ second).modify (index + first.length) f = first ++ second.modify index f := by
  induction first with
  | nil => rfl
  | cons turn first ih => exact congrArg (turn :: ·) ih

/-! ## The relation -/

/-- The window shows the end of the full history, and all of it if it is not full. -/
structure Shows (k : Nat) (full window : ThreadHistoryBuilder) : Prop where
  progress : window.toProgress = full.toProgress
  turns : full.turns = window.droppedTurns ++ window.turns
  filled : window.droppedTurns ≠ [] → k ≤ window.turns.length
  unlimited : full.maxFinishedTurns = none
  limited : window.maxFinishedTurns = some k
  kept : full.droppedTurns = []

namespace Shows

theorem advance {f g : Progress → Progress} (h : Shows k full window)
    (hf : g full.toProgress = f full.toProgress) :
    Shows k (full.advance f) (window.advance g) where
  progress := by
    change g window.toProgress = f full.toProgress
    rw [h.progress, hf]
  turns := h.turns
  filled := h.filled
  unlimited := h.unlimited
  limited := h.limited
  kept := h.kept

theorem mapCurrent (h : Shows k full window) (f : PendingTurn → PendingTurn) :
    Shows k (full.mapCurrent f) (window.mapCurrent f) :=
  h.advance rfl

theorem finishCurrentTurn (h : Shows k full window) :
    Shows k full.finishCurrentTurn window.finishCurrentTurn := by
  have hcurrent : window.currentTurn = full.currentTurn := congrArg Progress.currentTurn h.progress
  unfold ThreadHistoryBuilder.finishCurrentTurn
  rw [hcurrent]
  rcases full.currentTurn with _ | turn
  · exact h
  · have hnone := h.advance (f := ({ · with currentTurn := none }))
      (g := ({ · with currentTurn := none })) rfl
    dsimp only
    split_ifs
    · exact hnone
    · refine ⟨hnone.progress, ?_, fun hdropped ↦ ?_, h.unlimited, h.limited, h.kept⟩
      · change full.turns ++ _ = window.droppedTurns ++ (window.turns ++ _)
        rw [h.turns, List.append_assoc]
      · refine (h.filled hdropped).trans ?_
        rw [List.length_append]
        exact Nat.le_add_right ..

theorem isCurrent_eq (h : Shows k full window) (turnId : Str) :
    isCurrent window.toProgress turnId = isCurrent full.toProgress turnId := by
  rw [h.progress]

/-- A turn that is not among those set aside is changed in both. -/
theorem modifyTurn (h : Shows k full window) {turnId : Str} (f : Turn → Turn)
    (htimely : ∀ turn ∈ window.droppedTurns, turn.id ≠ .given turnId) :
    modifyTurn full.turns turnId f =
      (modifyTurn window.turns turnId f).map (window.droppedTurns ++ ·) := by
  unfold ThreadHistoryBuilder.modifyTurn
  have hnone : window.droppedTurns.findIdx? (·.id = .given turnId) = none :=
    List.findIdx?_eq_none_iff.mpr fun turn hturn ↦ decide_eq_false (htimely turn hturn)
  rw [h.turns, List.findIdx?_append, hnone, Option.none_or, Option.map_map, Option.map_map]
  congr 1
  funext index
  exact modify_append ..

/-- The turn that an event names is the current one or none of those set aside. -/
def Reaches (full window : ThreadHistoryBuilder) (turnId : Str) : Prop :=
  isCurrent full.toProgress turnId = true ∨
    ∀ turn ∈ window.droppedTurns, turn.id ≠ .given turnId

theorem withTurns {turns : List Turn} (h : Shows k full window)
    (hlength : turns.length = window.turns.length) :
    Shows k { full with turns := window.droppedTurns ++ turns } { window with turns := turns } where
  progress := h.progress
  turns := rfl
  filled hdropped := hlength ▸ h.filled hdropped
  unlimited := h.unlimited
  limited := h.limited
  kept := h.kept

/-- What an event does to the turn that it names, or else. -/
theorem named {full₁ full₂ window₁ window₂ : ThreadHistoryBuilder} {turnId : Str}
    (f : Turn → Turn) (h : Shows k full window) (hreaches : Reaches full window turnId)
    (hcurrent : Shows k full₁ window₁) (hunknown : Shows k full₂ window₂) :
    Shows k
      (if isCurrent full.toProgress turnId then full₁ else
        match ThreadHistoryBuilder.modifyTurn full.turns turnId f with
        | some turns => { full with turns := turns }
        | none => full₂)
      (if isCurrent window.toProgress turnId then window₁ else
        match ThreadHistoryBuilder.modifyTurn window.turns turnId f with
        | some turns => { window with turns := turns }
        | none => window₂) := by
  rw [h.isCurrent_eq]
  split_ifs with his
  · exact hcurrent
  · rw [h.modifyTurn f (hreaches.resolve_left his)]
    rcases hmodify : ThreadHistoryBuilder.modifyTurn window.turns turnId f with _ | turns
    · exact hunknown
    · refine h.withTurns ?_
      obtain ⟨index, -, rfl⟩ := Option.map_eq_some_iff.mp hmodify
      exact List.length_modify ..

theorem updateItems {turnId : Str} (f : List ThreadItem → List ThreadItem)
    (h : Shows k full window) (hreaches : Reaches full window turnId) :
    Shows k (full.updateItems turnId f) (window.updateItems turnId f) :=
  h.named _ hreaches (h.mapCurrent _) h

theorem handleTurnAborted {turnId : Option Str} (h : Shows k full window)
    (hreaches : ∀ id, turnId = some id → Reaches full window id) :
    Shows k (full.handleTurnAborted turnId) (window.handleTurnAborted turnId) := by
  cases turnId with
  | none => exact h.mapCurrent _
  | some turnId => exact h.named _ (hreaches turnId rfl) (h.mapCurrent _) (h.mapCurrent _)

theorem handleTurnComplete {turnId : Str} (h : Shows k full window)
    (hreaches : Reaches full window turnId) :
    Shows k (full.handleTurnComplete turnId) (window.handleTurnComplete turnId) := by
  have hactive := (h.mapCurrent fun turn ↦
    { turn with status := markCompleted turn.status }).finishCurrentTurn
  exact h.named _ hreaches hactive hactive

theorem handleTurnStarted (h : Shows k full window) (turnId collaborationModeKind : Str) :
    Shows k (full.handleTurnStarted turnId collaborationModeKind)
      (window.handleTurnStarted turnId collaborationModeKind) :=
  h.finishCurrentTurn.advance rfl

theorem handleUserMessage (h : Shows k full window) (event : UserMessageEvent) :
    Shows k (full.handleUserMessage event) (window.handleUserMessage event) := by
  have hcurrent : window.currentTurn = full.currentTurn := congrArg Progress.currentTurn h.progress
  unfold ThreadHistoryBuilder.handleUserMessage
  rw [hcurrent]
  refine Shows.advance ?_ rfl
  split_ifs
  · exact h.finishCurrentTurn
  · exact h

/-- The rollback takes the same turns from both, and the window is filled up again. -/
theorem handleThreadRollback (h : Shows k full window) (numTurns : UInt32) :
    Shows k (full.handleThreadRollback numTurns) (window.handleThreadRollback numTurns) := by
  have hfinish := h.finishCurrentTurn
  unfold ThreadHistoryBuilder.handleThreadRollback refillFinishedTurnWindow
    effectiveFinishedItemCount
  generalize full.finishCurrentTurn = full at hfinish
  generalize window.finishCurrentTurn = window at hfinish
  have hpop := popTurns_append numTurns.toNat window.turns window.droppedTurns
  have hfull := popTurns_append numTurns.toNat full.turns []
  rw [popTurns_nil, List.nil_append, List.nil_append, hfinish.turns, ← hpop, ← hfinish.turns]
    at hfull
  have hnil := popTurns_nil numTurns.toNat full.turns
  dsimp only
  rw [hfinish.unlimited, hfinish.limited, hfinish.kept]
  generalize popTurns numTurns.toNat full.turns [] = left at hfull hnil
  generalize popTurns numTurns.toNat window.turns window.droppedTurns = popped at hfull
  obtain ⟨hsame, hfilled⟩ := refillTurns_spec (k := k) popped.2.length popped.1 popped.2 le_rfl
  dsimp only
  generalize refillTurns k popped.2.length popped.1 popped.2 = refilled at hsame hfilled
  have hturns : left.1 = refilled.2 ++ refilled.1 := hfull.trans hsame.symm
  refine ⟨?_, hturns, hfilled, rfl, rfl, hnil⟩
  have hcount : (left.2.map (·.items.length)).sum + (left.1.map (·.items.length)).sum =
      (refilled.2.map (·.items.length)).sum + (refilled.1.map (·.items.length)).sum := by
    rw [hnil, hturns, List.map_append, List.sum_append, List.map_nil, List.sum_nil, Nat.zero_add]
  dsimp only
  rw [hfinish.progress, hcount]

/-- Turns are set aside until the window is no longer than the limit. -/
theorem trimFinishedTurns (h : Shows k full window) :
    Shows k full.trimFinishedTurns window.trimFinishedTurns ∧
      window.trimFinishedTurns.turns.length ≤ k := by
  unfold ThreadHistoryBuilder.trimFinishedTurns
  rw [h.unlimited, h.limited]
  dsimp only
  rw [trimTurns_eq]
  have hlength : (window.turns.drop (window.turns.length - k)).length ≤ k := by
    rw [List.length_drop]
    omega
  refine ⟨⟨h.progress, ?_, fun hdropped ↦ ?_, h.unlimited, rfl, h.kept⟩, hlength⟩
  · rw [List.append_assoc, List.take_append_drop]
    exact h.turns
  · have hk : k ≤ window.turns.length := by
      by_contra hshort
      have hzero : window.turns.length - k = 0 := by omega
      rw [hzero, List.take_zero, List.append_nil] at hdropped
      exact hshort (h.filled hdropped)
    rw [List.length_drop]
    omega

/-- The turns set aside are those before the last ones, as many as the limit allows. -/
theorem droppedTurns_eq (h : Shows k full window) (hshort : window.turns.length ≤ k) :
    window.droppedTurns = full.turns.take (full.turns.length - k) := by
  by_cases hdropped : window.droppedTurns = []
  · have hlength : full.turns.length - k = 0 := by
      rw [h.turns, hdropped, List.nil_append]
      omega
    rw [hlength, hdropped, List.take_zero]
  · have hlength : full.turns.length - k = window.droppedTurns.length := by
      have hfilled := h.filled hdropped
      rw [h.turns, List.length_append]
      omega
    rw [hlength, h.turns, List.take_left']
    rfl

theorem turns_eq (h : Shows k full window) (hshort : window.turns.length ≤ k) :
    window.turns = full.turns.drop (full.turns.length - k) := by
  have htake := List.take_append_drop (full.turns.length - k) full.turns
  rw [← h.droppedTurns_eq hshort] at htake
  exact (List.append_cancel_left (htake.trans h.turns)).symm

end Shows

/-! ## Events in time -/

/-- The turn whose identifier an event is looked up by. -/
def namedTurn : EventMsg → Option Str
  | .toolCall event => toolTurn event
  | .itemStarted turnId (.plan _ text) => if text.val = "" then none else some turnId
  | .itemCompleted turnId (.userMessage ..) => some turnId
  | .itemCompleted turnId (.plan _ text) => if text.val = "" then none else some turnId
  | .turnAborted turnId => turnId
  | .turnComplete turnId => some turnId
  | _ => none

/-- The turn is the current one, or no turn of that name is older than the last `k`. -/
def Timely (k : Nat) (b : ThreadHistoryBuilder) (turnId : Str) : Prop :=
  isCurrent b.toProgress turnId = true ∨
    ∀ turn ∈ b.turns.take (b.turns.length - k), turn.id ≠ .given turnId

instance : Decidable (Timely k b turnId) := inferInstanceAs (Decidable (_ ∨ _))

/-- An event names no turn that is older than the last `k`, and a hook prompt carries its
identifier. -/
def Prompt (X : Externals) (k : Nat) (b : ThreadHistoryBuilder) : RolloutItem → Prop
  | .eventMsg event => ∀ turnId ∈ namedTurn event, Timely k b turnId
  | .responseItem (.message none role content _) =>
    role.val = "user" → parseHookPromptMessage X content = none
  | _ => True

instance : Decidable (Prompt X k b item) := by
  unfold Prompt
  split <;> infer_instance

namespace Shows

theorem upsertItemInTurnId {turnId : Str} (h : Shows k full window)
    (hreaches : Reaches full window turnId) (item : ThreadItem) :
    Shows k (full.upsertItemInTurnId turnId item) (window.upsertItemInTurnId turnId item) :=
  h.updateItems _ hreaches

theorem upsertPlan {turnId id text : Str} (h : Shows k full window)
    (hreaches : text.val ≠ "" → Reaches full window turnId) :
    Shows k (if text.val = "" then full else full.upsertItemInTurnId turnId (.plan id text))
      (if text.val = "" then window else window.upsertItemInTurnId turnId (.plan id text)) := by
  split_ifs with htext
  · exact h
  · exact h.upsertItemInTurnId (hreaches htext) _

theorem handleItemStarted {turnId : Str} {item : TurnItem} (h : Shows k full window)
    (hreaches : ∀ id ∈ namedTurn (.itemStarted turnId item), Reaches full window id) :
    Shows k (full.handleItemStarted turnId item) (window.handleItemStarted turnId item) := by
  cases item with
  | plan id text => exact h.upsertPlan fun htext ↦ hreaches turnId (if_neg htext)
  | userMessage id content => exact h
  | other => exact h

theorem handleItemCompleted {turnId : Str} {item : TurnItem} (h : Shows k full window)
    (hreaches : ∀ id ∈ namedTurn (.itemCompleted turnId item), Reaches full window id) :
    Shows k (full.handleItemCompleted X turnId item) (window.handleItemCompleted X turnId item) := by
  cases item with
  | plan id text => exact h.upsertPlan fun htext ↦ hreaches turnId (if_neg htext)
  | userMessage id content =>
    dsimp only [ThreadHistoryBuilder.handleItemCompleted]
    exact h.updateItems _ (hreaches turnId rfl)
  | other => exact h

theorem handleToolCall {event : ToolCallEvent} (h : Shows k full window)
    (hreaches : ∀ id ∈ toolTurn event, Reaches full window id) :
    Shows k (full.handleToolCall event) (window.handleToolCall event) := by
  unfold ThreadHistoryBuilder.handleToolCall
  rcases hturn : toolTurn event with _ | turnId
  · exact h.advance rfl
  · exact h.upsertItemInTurnId (hreaches turnId hturn) _

/-- One lemma per event. -/
theorem handleEvent {event : EventMsg} (h : Shows k full window)
    (hreaches : ∀ id ∈ namedTurn event, Reaches full window id) :
    Shows k (full.handleEvent X event) (window.handleEvent X event) := by
  cases event with
  | userMessage event => exact h.handleUserMessage event
  | toolCall event => exact h.handleToolCall hreaches
  | itemStarted turnId item => exact h.handleItemStarted hreaches
  | itemCompleted turnId item => exact h.handleItemCompleted hreaches
  | threadRolledBack numTurns => exact h.handleThreadRollback numTurns
  | turnAborted turnId => exact h.handleTurnAborted hreaches
  | turnStarted turnId kind => exact h.handleTurnStarted turnId kind
  | turnComplete turnId => exact h.handleTurnComplete (hreaches turnId rfl)
  | other fields => exact h
  | agentMessage | agentReasoning | agentReasoningRawContent | contextCompacted
  | enteredReviewMode | exitedReviewMode | error =>
    dsimp only [ThreadHistoryBuilder.handleEvent]
    exact h.advance rfl

end Shows

/-- Without a hook prompt that lacks its identifier, none is generated. -/
theorem handleResponseItem_ids {p : Progress} {item : ResponseItem}
    (hprompt : Prompt X k b (.responseItem item)) :
    p.handleResponseItem X ids' item = p.handleResponseItem X ids item := by
  rcases item with ⟨_ | id, role, content, phase⟩ | _
  case message.none =>
    dsimp only [Progress.handleResponseItem]
    by_cases hrole : role.val = "user"
    · rw [if_pos hrole, if_pos hrole, hprompt hrole]
    · rw [if_neg hrole, if_neg hrole]
  all_goals rfl

namespace Shows

theorem handleItem (h : Shows k full window) (hshort : window.turns.length ≤ k)
    (hprompt : Prompt X k full item) :
    Shows k (full.handleItem X ids item) (window.handleItem X ids' item) := by
  have hindex := h.advance
    (f := fun p ↦ { p with
      currentRolloutIndex := p.nextRolloutIndex, nextRolloutIndex := p.nextRolloutIndex + 1 })
    (g := fun p ↦ { p with
      currentRolloutIndex := p.nextRolloutIndex, nextRolloutIndex := p.nextRolloutIndex + 1 }) rfl
  cases item with
  | eventMsg event =>
    refine hindex.handleEvent fun turnId hnamed ↦ ?_
    have htimely := hprompt turnId hnamed
    unfold Timely at htimely
    rw [← h.droppedTurns_eq hshort] at htimely
    exact htimely
  | compacted item => exact hindex.advance rfl
  | responseItem item =>
    exact hindex.advance (f := (·.handleResponseItem X ids item))
      (g := (·.handleResponseItem X ids' item)) (handleResponseItem_ids hprompt)
  | turnContext item => exact hindex
  | sessionMeta item => exact hindex

theorem handleRolloutItem (h : Shows k full window) (hshort : window.turns.length ≤ k)
    (hprompt : Prompt X k full item) :
    Shows k (full.handleRolloutItem X ids item) (window.handleRolloutItem X ids' item) ∧
      (window.handleRolloutItem X ids' item).turns.length ≤ k :=
  (h.handleItem hshort hprompt).trimFinishedTurns

theorem start (k : Nat) : Shows k new (withMaxFinishedTurns k) where
  progress := rfl
  turns := rfl
  filled hdropped := absurd rfl hdropped
  unlimited := rfl
  limited := rfl
  kept := rfl

end Shows

/-! ## The recorded conversation -/

/-- Every item is prompt when it is read. -/
def Punctual (X : Externals) (ids : Nat → Str) (k : Nat) :
    ThreadHistoryBuilder → List RolloutItem → Prop
  | _, [] => True
  | b, item :: items =>
    Prompt X k b item ∧ Punctual X ids k (b.handleRolloutItem X ids item) items

instance : Decidable (Punctual X ids k b items) := by
  induction items generalizing b with
  | nil => exact inferInstanceAs (Decidable True)
  | cons item items ih => exact @instDecidableAnd _ _ _ ih

namespace Shows

theorem foldl (h : Shows k full window) (hshort : window.turns.length ≤ k)
    (hpunctual : Punctual X ids k full items) :
    Shows k (items.foldl (ThreadHistoryBuilder.handleRolloutItem X ids) full)
      (items.foldl (ThreadHistoryBuilder.handleRolloutItem X ids') window) := by
  induction items generalizing full window with
  | nil => exact h
  | cons item items ih =>
    obtain ⟨hprompt, hrest⟩ := hpunctual
    exact (h.handleRolloutItem hshort hprompt).elim fun hnext hnextShort ↦ ih hnext hnextShort hrest

theorem finish (h : Shows k full window) :
    window.finish = full.finish.drop (full.finish.length - k) := by
  obtain ⟨hshows, hshort⟩ := h.finishCurrentTurn.trimFinishedTurns
  exact hshows.turns_eq hshort

end Shows

/-- **Recent turns.**  If every event is in time for the turn that it names, and every hook
prompt carries its identifier, the window holds the last turns of the full history. -/
theorem recent_turns_eq_suffix (hk : k ≠ 0) (hpunctual : Punctual X ids k new items) :
    buildRecentTurnsFromRolloutItems X ids' items k =
      (buildTurnsFromRolloutItems X ids items).drop
        ((buildTurnsFromRolloutItems X ids items).length - k) := by
  unfold buildRecentTurnsFromRolloutItems
  rw [if_neg hk]
  exact ((Shows.start k).foldl (Nat.zero_le k) hpunctual).finish

/-! ### A late event -/

section Late

/-- No hook prompt is recorded here, and no input needs a conversion. -/
def plainExternals : Externals where
  hookPromptXml _ := none
  userInput := .other

private def startedAndCompleted (turnId : Str) : List RolloutItem :=
  [.eventMsg (.turnStarted turnId (.lit "default" Str.fits_default)),
    .eventMsg (.turnComplete turnId)]

private def twoTurnsAndOpen : List RolloutItem :=
  startedAndCompleted (.lit "t1") ++ startedAndCompleted (.lit "t2") ++
    [.eventMsg (.turnStarted (.lit "t3") (.lit "default" Str.fits_default))]

/-- A completion of the turn that is shown, and a rollback behind the window. -/
theorem recent_turns_eq_suffix_rollback :
    let items := twoTurnsAndOpen ++
      [.eventMsg (.turnComplete (.lit "t2")), .eventMsg (.threadRolledBack 2)]
    buildRecentTurnsFromRolloutItems plainExternals (fun _ ↦ .lit "b") items 1 =
      (buildTurnsFromRolloutItems plainExternals (fun _ ↦ .lit "a") items).drop
        ((buildTurnsFromRolloutItems plainExternals (fun _ ↦ .lit "a") items).length - 1) :=
  recent_turns_eq_suffix Nat.one_ne_zero (by decide +kernel)

/-- A second completion of the first turn finds that turn in the full history.  In the
window of one turn it finds none, and it is the open turn that is completed. -/
theorem late_completion_closes_active_turn :
    let items := twoTurnsAndOpen ++ [.eventMsg (.turnComplete (.lit "t1"))]
    let full := buildTurnsFromRolloutItems plainExternals (fun _ ↦ .lit "a") items
    let recent := buildRecentTurnsFromRolloutItems plainExternals (fun _ ↦ .lit "a") items 1
    full.map (fun turn ↦ (turn.id, turn.status)) =
        [(.given (.lit "t1"), .completed), (.given (.lit "t2"), .completed),
          (.given (.lit "t3"), .inProgress)] ∧
      recent.map (fun turn ↦ (turn.id, turn.status)) = [(.given (.lit "t3"), .completed)] ∧
      recent ≠ full.drop (full.length - 1) := by
  decide +kernel

end Late

end Praxis.ThreadHistory
