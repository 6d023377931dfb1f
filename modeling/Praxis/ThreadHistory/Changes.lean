import Mathlib.Logic.Relation
import Praxis.ThreadHistory.Window

/-!
# What an event does to the turns

The turns of a builder are those set aside, those that are finished and the current one
(`allTurns`).  Outside a rollback an event changes them in few ways: it edits the items of
one turn, it puts a new item with a generated identifier at the end of the last turn, it
opens a turn, or it discards one that has no items (`Change`, `Move`).  What holds along
these changes holds along every run of the builder.
-/

namespace Praxis.ThreadHistory

open Foundation Protocol Relation

/-! ## Identifiers of items -/

/-- The text that `next_item_id` formats. -/
def itemName (index : Nat) : String := s!"item-{index}"

def ThreadItem.isHookPrompt : ThreadItem → Bool
  | .hookPrompt .. => true
  | _ => false

/-- The item has the identifier that was generated from a number.  That of a hook prompt is
never generated. -/
structure ThreadItem.HasNumber (item : ThreadItem) (index : Nat) : Prop where
  id_eq : item.id.val = itemName index
  not_hookPrompt : item.isHookPrompt = false

/-! ## Changes -/

/-- An edit of the items of a turn that generates no identifier.  The items that it brings,
hook prompts apart, satisfy `ext`. -/
inductive Edit (ext : ThreadItem → Prop) : List ThreadItem → List ThreadItem → Prop where
  | refl (items : List ThreadItem) : Edit ext items items
  | push {items : List ThreadItem} {item : ThreadItem}
      (h : ext item ∨ item.isHookPrompt = true) : Edit ext items (items ++ [item])
  | replace {front back : List ThreadItem} {old item : ThreadItem} (hid : old.id = item.id)
      (h : ext item) : Edit ext (front ++ old :: back) (front ++ item :: back)
  | extend {front : List ThreadItem} {id : Str} {summary content summary' content' : List Str} :
      Edit ext (front ++ [.reasoning id summary content])
        (front ++ [.reasoning id summary' content'])
  | canonical {front : List ThreadItem} {id id' : Str} {content : List UserInput}
      (h : ext (.userMessage id' content)) :
      Edit ext (front ++ [.userMessage id content]) (front ++ [.userMessage id' content])

/-- A change of the items of a turn, with the next index. -/
inductive Change (ext : ThreadItem → Prop) : List Turn × Nat → List Turn × Nat → Prop where
  | edit {front back : List Turn} {turn turn' : Turn} {next : Nat} (hid : turn'.id = turn.id)
      (h : Edit ext turn.items turn'.items) :
      Change ext (front ++ turn :: back, next) (front ++ turn' :: back, next)
  | generate {front : List Turn} {turn turn' : Turn} {item : ThreadItem} {next : Nat}
      (hid : turn'.id = turn.id) (hitems : turn'.items = turn.items ++ [item])
      (hitem : item.id = .ofString (itemName next)) (hprompt : item.isHookPrompt = false) :
      Change ext (front ++ [turn], next) (front ++ [turn'], next + 1)

/-- A change of the turns outside a rollback. -/
inductive Move (ext : ThreadItem → Prop) : List Turn × Nat → List Turn × Nat → Prop where
  | change {s s' : List Turn × Nat} (h : Change ext s s') : Move ext s s'
  | opened {turns : List Turn} {turn : Turn} {next : Nat} (h : turn.items = []) :
      Move ext (turns, next) (turns ++ [turn], next)
  | discarded {turns : List Turn} {turn : Turn} {next : Nat} (h : turn.items = []) :
      Move ext (turns ++ [turn], next) (turns, next)

namespace ThreadHistoryBuilder

/-- The turns set aside, the finished turns and the current one. -/
def allTurns (b : ThreadHistoryBuilder) : List Turn :=
  b.droppedTurns ++ b.turns ++ (b.currentTurn.map PendingTurn.toTurn).toList

/-- The turns with the next index. -/
def state (b : ThreadHistoryBuilder) : List Turn × Nat := (b.allTurns, b.nextItemIndex)

end ThreadHistoryBuilder

open ThreadHistoryBuilder

variable {ext : ThreadItem → Prop}

theorem moves_of_changes {s s' : List Turn × Nat} (h : ReflTransGen (Change ext) s s') :
    ReflTransGen (Move ext) s s' :=
  ReflTransGen.mono (fun _ _ hchange ↦ Move.change hchange) s s' h

/-! ## The current turn -/

/-- The current turn, or the one that is opened. -/
def Progress.Starts (p : Progress) (turn : PendingTurn) : Prop :=
  p.currentTurn = some turn ∨ p.currentTurn = none ∧ turn.items = []

/-- What a step does to the current turn. -/
inductive Progress.Acts (ext : ThreadItem → Prop) (p p' : Progress) : Prop where
  | skip (hturn : p'.currentTurn = p.currentTurn) (hnext : p'.nextItemIndex = p.nextItemIndex)
  | edit {turn turn' : PendingTurn} (hturn : p.Starts turn) (hturn' : p'.currentTurn = some turn')
      (hid : turn'.id = turn.id) (hopened : turn'.openedExplicitly = turn.openedExplicitly)
      (h : Edit ext turn.items turn'.items) (hnext : p'.nextItemIndex = p.nextItemIndex)
  | generate {turn turn' : PendingTurn} {item : ThreadItem} (hturn : p.Starts turn)
      (hturn' : p'.currentTurn = some turn') (hid : turn'.id = turn.id)
      (hopened : turn'.openedExplicitly = turn.openedExplicitly)
      (hitems : turn'.items = turn.items ++ [item])
      (hitem : item.id = .ofString (itemName p.nextItemIndex))
      (hprompt : item.isHookPrompt = false) (hnext : p'.nextItemIndex = p.nextItemIndex + 1)

namespace Progress

variable {p : Progress}

theorem exists_ensureTurn (p : Progress) :
    ∃ turn, p.ensureTurn.currentTurn = some turn ∧ p.Starts turn := by
  unfold ensureTurn Starts
  cases hturn : p.currentTurn with
  | none => exact ⟨_, rfl, .inr ⟨rfl, rfl⟩⟩
  | some turn => exact ⟨turn, hturn, .inl rfl⟩

theorem ensureTurn_nextItemIndex (p : Progress) :
    p.ensureTurn.nextItemIndex = p.nextItemIndex := by
  unfold ensureTurn
  split <;> rfl

/-- The turn that a function is applied to. -/
theorem exists_withTurn (p : Progress) (f : PendingTurn → PendingTurn) :
    ∃ turn, p.Starts turn ∧ (p.withTurn f).currentTurn = some (f turn) ∧
      (p.withTurn f).nextItemIndex = p.nextItemIndex := by
  obtain ⟨turn, hturn, hstarts⟩ := p.exists_ensureTurn
  refine ⟨turn, hstarts, ?_, p.ensureTurn_nextItemIndex⟩
  rw [withTurn, hturn, Option.map_some]

theorem acts_pushItem {q : Progress} {item : ThreadItem} (hturn : q.currentTurn = p.currentTurn)
    (hnext : q.nextItemIndex = p.nextItemIndex)
    (hitem : ext item ∨ item.isHookPrompt = true) : p.Acts ext (q.pushItem item) := by
  obtain ⟨turn, hstarts, hresult, hindex⟩ := q.exists_withTurn
    fun turn ↦ { turn with items := turn.items ++ [item] }
  rw [Starts, hturn] at hstarts
  exact .edit hstarts hresult rfl rfl (.push hitem) (hindex.trans hnext)

/-- An item with a new identifier. -/
theorem acts_generate {q : Progress} {item : ThreadItem}
    (hturn : ∀ turn, q.Starts turn → p.Starts turn)
    (hnext : q.nextItemIndex = p.nextItemIndex) (hitem : item.id = q.nextItemId.1)
    (hprompt : item.isHookPrompt = false) : p.Acts ext (q.nextItemId.2.pushItem item) := by
  obtain ⟨turn, hstarts, hresult, hindex⟩ := q.nextItemId.2.exists_withTurn
    fun turn ↦ { turn with items := turn.items ++ [item] }
  refine .generate (hturn turn hstarts) hresult rfl rfl rfl ?_ hprompt ?_
  · rw [hitem, ← hnext]
    rfl
  · rw [← hnext]
    exact hindex

theorem starts_of_ensureTurn {turn : PendingTurn} (h : p.ensureTurn.Starts turn) :
    p.Starts turn := by
  obtain ⟨turn', hturn', hstarts⟩ := p.exists_ensureTurn
  rcases h with h | ⟨h, -⟩
  · cases hturn'.symm.trans h
    exact hstarts
  · cases hturn'.symm.trans h

/-- Nothing but a turn may be opened. -/
theorem acts_ensureTurn (p : Progress) : p.Acts ext p.ensureTurn := by
  obtain ⟨turn, hturn, hstarts⟩ := p.exists_ensureTurn
  exact .edit hstarts hturn rfl rfl (.refl _) p.ensureTurn_nextItemIndex

theorem acts_handleCompacted (p : Progress) : p.Acts ext p.handleCompacted := by
  obtain ⟨turn, hstarts, hresult, hindex⟩ := p.exists_withTurn ({ · with sawCompaction := true })
  exact .edit hstarts hresult rfl rfl (.refl _) hindex

theorem acts_handleContextCompacted (p : Progress) : p.Acts ext p.handleContextCompacted :=
  acts_generate (fun _ ↦ id) rfl rfl rfl

theorem acts_handleEnteredReviewMode (p : Progress) (userFacingHint : Option Str) :
    p.Acts ext (p.handleEnteredReviewMode userFacingHint) :=
  acts_generate (fun _ ↦ id) rfl rfl rfl

theorem acts_handleExitedReviewMode (p : Progress) (overallExplanation : Option Str) :
    p.Acts ext (p.handleExitedReviewMode overallExplanation) :=
  acts_generate (fun _ ↦ id) rfl rfl rfl

theorem acts_handleError (p : Progress) (event : ErrorEvent) :
    p.Acts ext (p.handleError event) := by
  unfold handleError
  split
  · exact .skip rfl rfl
  · cases hturn : p.currentTurn with
    | none => exact .skip (by rw [hturn]; rfl) rfl
    | some turn => exact .edit (.inl hturn) rfl rfl rfl (.refl _) rfl

theorem acts_handleAgentMessage (p : Progress) (text : Str) (phase : Option MessagePhase)
    (memoryCitation : Option Str) :
    p.Acts ext (p.handleAgentMessage text phase memoryCitation) := by
  unfold handleAgentMessage
  split
  · exact .skip rfl rfl
  · have hboth : ∀ again : Bool, p.Acts ext (if again then p.ensureTurn else
        p.ensureTurn.nextItemId.2.pushItem
          (.agentMessage p.ensureTurn.nextItemId.1 text phase memoryCitation)) := by
      intro again
      cases again with
      | true => exact p.acts_ensureTurn
      | false =>
        exact acts_generate (fun _ ↦ starts_of_ensureTurn) p.ensureTurn_nextItemIndex rfl rfl
    exact hboth _

theorem acts_handleReasoning (p : Progress) (text : Str) (raw : Bool) :
    p.Acts ext (p.handleReasoning text raw) := by
  unfold handleReasoning
  split
  · exact .skip rfl rfl
  obtain ⟨turn, hturn, hstarts⟩ := p.exists_ensureTurn
  dsimp only
  split
  · rename_i id summary content hlast
    have hitems : p.ensureTurn.currentItems = turn.items := by rw [currentItems, hturn]
    rw [hitems] at hlast
    obtain ⟨front, hfront⟩ := List.getLast?_eq_some_iff.mp hlast
    obtain ⟨turn', hstarts', hresult, hindex⟩ := p.ensureTurn.exists_withTurn fun turn ↦
      { turn with items := turn.items.dropLast ++
          [if raw then .reasoning id summary (content ++ [text])
            else .reasoning id (summary ++ [text]) content] }
    obtain rfl : turn = turn' := by
      rcases hstarts' with h | ⟨h, -⟩
      · exact Option.some.inj (hturn.symm.trans h)
      · cases hturn.symm.trans h
    refine .edit hstarts hresult rfl rfl ?_ (hindex.trans p.ensureTurn_nextItemIndex)
    dsimp only
    rw [hfront, List.dropLast_concat]
    cases raw with
    | true => exact .extend
    | false => exact .extend
  · refine acts_generate (fun _ ↦ starts_of_ensureTurn) p.ensureTurn_nextItemIndex ?_ ?_
    · cases raw <;> rfl
    · cases raw <;> rfl

theorem acts_handleResponseItem (X : Externals) (ids : Nat → Str) (p : Progress)
    (item : ResponseItem) : p.Acts ext (p.handleResponseItem X ids item) := by
  cases item with
  | message id role content phase =>
    dsimp only [handleResponseItem]
    by_cases huser : role.val = "user"
    · rw [if_pos huser]
      cases parseHookPromptMessage X content with
      | none => exact .skip rfl rfl
      | some fragments =>
        cases id with
        | some id => exact acts_pushItem rfl rfl (.inr rfl)
        | none => exact acts_pushItem rfl rfl (.inr rfl)
    · rw [if_neg huser]
      by_cases hassistant : role.val = "assistant"
      · rw [if_pos hassistant]
        exact p.acts_handleAgentMessage _ phase none
      · rw [if_neg hassistant]
        exact .skip rfl rfl
  | _ => exact .skip rfl rfl

/-- An item with an identifier of its own is pushed or takes the place of its older copy. -/
theorem edit_upsertTurnItem (items : List ThreadItem) {item : ThreadItem}
    (h : ext item) : Edit ext items (upsertTurnItem items item) := by
  unfold upsertTurnItem
  split
  · rename_i index hindex
    obtain ⟨hlt, hid, -⟩ := List.findIdx?_eq_some_iff_getElem.mp hindex
    have hsplit : items = items.take index ++ items[index] :: items.drop (index + 1) := by
      rw [List.getElem_cons_drop, List.take_append_drop]
    rw [List.set_eq_take_append_cons_drop, if_pos hlt]
    conv => arg 2; rw [hsplit]
    exact .replace (of_decide_eq_true hid) h
  · exact .push (.inl h)

theorem acts_upsertItemInCurrentTurn (p : Progress) {item : ThreadItem} (h : ext item) :
    p.Acts ext (p.upsertItemInCurrentTurn item) := by
  obtain ⟨turn, hstarts, hresult, hindex⟩ := p.exists_withTurn
    fun turn ↦ { turn with items := upsertTurnItem turn.items item }
  exact .edit hstarts hresult rfl rfl (edit_upsertTurnItem _ h) hindex

end Progress

/-! ## The builder -/

namespace ThreadHistoryBuilder

variable {b : ThreadHistoryBuilder} {turn : PendingTurn}

theorem state_of_some (h : b.currentTurn = some turn) :
    b.state = (b.droppedTurns ++ b.turns ++ [turn.toTurn], b.nextItemIndex) := by
  rw [state, allTurns, h]
  rfl

theorem state_of_none (h : b.currentTurn = none) :
    b.state = (b.droppedTurns ++ b.turns, b.nextItemIndex) := by
  rw [state, allTurns, h]
  exact Prod.ext (List.append_nil _) rfl

/-- The current turn stays, opened by the same kind of event. -/
def KeepsCurrent (b b' : ThreadHistoryBuilder) : Prop :=
  ∀ turn, b.currentTurn = some turn →
    ∃ turn', b'.currentTurn = some turn' ∧ turn'.openedExplicitly = turn.openedExplicitly

/-- A step on the current turn changes that turn, which may be opened before. -/
theorem advance_cases {f : Progress → Progress} (h : b.toProgress.Acts ext (f b.toProgress)) :
    (b.advance f).state = b.state ∧ (b.advance f).currentTurn = b.currentTurn ∨
      ∃ turn turn', b.toProgress.Starts turn ∧
        Change ext (b.droppedTurns ++ b.turns ++ [turn.toTurn], b.nextItemIndex)
          (b.advance f).state ∧
        (b.advance f).currentTurn = some turn' ∧
        turn'.openedExplicitly = turn.openedExplicitly := by
  cases h with
  | skip hturn hnext =>
    have hcurrent : (b.advance f).currentTurn = b.currentTurn := hturn
    refine .inl ⟨Prod.ext ?_ hnext, hcurrent⟩
    change b.droppedTurns ++ b.turns ++ ((b.advance f).currentTurn.map _).toList = _
    rw [hcurrent]
    rfl
  | @edit turn turn' hturn hturn' hid hopened h hnext =>
    have hcurrent : (b.advance f).currentTurn = some turn' := hturn'
    have hindex : (b.advance f).nextItemIndex = b.nextItemIndex := hnext
    refine .inr ⟨turn, turn', hturn, ?_, hcurrent, hopened⟩
    rw [state_of_some hcurrent, hindex]
    exact .edit hid h
  | @generate turn turn' item hturn hturn' hid hopened hitems hitem hprompt hnext =>
    have hcurrent : (b.advance f).currentTurn = some turn' := hturn'
    have hindex : (b.advance f).nextItemIndex = b.nextItemIndex + 1 := hnext
    refine .inr ⟨turn, turn', hturn, ?_, hcurrent, hopened⟩
    rw [state_of_some hcurrent, hindex]
    exact .generate hid hitems hitem hprompt

theorem moves_advance {f : Progress → Progress} (h : b.toProgress.Acts ext (f b.toProgress)) :
    ReflTransGen (Move ext) b.state (b.advance f).state := by
  rcases advance_cases h with ⟨hsame, -⟩ | ⟨turn, turn', hstarts, hchange, -⟩
  · rw [hsame]
  · refine ReflTransGen.tail ?_ (.change hchange)
    rcases hstarts with hturn | ⟨hturn, hempty⟩
    · rw [state_of_some hturn]
    · rw [state_of_none hturn]
      exact .single (.opened hempty)

theorem keepsCurrent_of_eq {b' : ThreadHistoryBuilder} (h : b'.currentTurn = b.currentTurn) :
    KeepsCurrent b b' := fun turn hturn ↦ ⟨turn, h.trans hturn, rfl⟩

/-- A change of the current turn that leaves its identifier. -/
theorem changes_mapCurrent {f : PendingTurn → PendingTurn} (hid : ∀ turn, (f turn).id = turn.id)
    (hopened : ∀ turn, (f turn).openedExplicitly = turn.openedExplicitly)
    (hf : ∀ turn, Edit ext turn.items (f turn).items) (b : ThreadHistoryBuilder) :
    ReflTransGen (Change ext) b.state (b.mapCurrent f).state ∧
      KeepsCurrent b (b.mapCurrent f) := by
  cases hturn : b.currentTurn with
  | none =>
    have hcurrent : (b.mapCurrent f).currentTurn = none := by
      change b.currentTurn.map f = none
      rw [hturn]
      rfl
    rw [state_of_none hturn, state_of_none hcurrent]
    exact ⟨.refl, keepsCurrent_of_eq (hcurrent.trans hturn.symm)⟩
  | some turn =>
    have hcurrent : (b.mapCurrent f).currentTurn = some (f turn) := by
      change b.currentTurn.map f = _
      rw [hturn]
      rfl
    rw [state_of_some hturn, state_of_some hcurrent]
    refine ⟨.single (.edit (hid turn) (hf turn)), fun other hother ↦ ⟨f turn, hcurrent, ?_⟩⟩
    cases hturn.symm.trans hother
    exact hopened turn

/-- A change of a finished turn that leaves its identifier. -/
theorem changes_modifyTurn {f : Turn → Turn} (hid : ∀ turn, (f turn).id = turn.id)
    (hf : ∀ turn, Edit ext turn.items (f turn).items) {turnId : Str} {turns : List Turn}
    (h : modifyTurn b.turns turnId f = some turns) :
    Change ext b.state { b with turns := turns }.state := by
  obtain ⟨index, hindex, rfl⟩ := Option.map_eq_some_iff.mp h
  obtain ⟨hlt, -⟩ := List.findIdx?_eq_some_iff_getElem.mp hindex
  have hsplit : b.turns = b.turns.take index ++ b.turns[index] :: b.turns.drop (index + 1) := by
    rw [List.getElem_cons_drop, List.take_append_drop]
  have hbefore : b.state = (b.droppedTurns ++ b.turns.take index ++ b.turns[index] ::
      (b.turns.drop (index + 1) ++ (b.currentTurn.map PendingTurn.toTurn).toList),
        b.nextItemIndex) := by
    rw [state, allTurns]
    conv_lhs => rw [hsplit]
    simp only [List.append_assoc, List.cons_append]
  have hafter : { b with turns := b.turns.modify index f }.state =
      (b.droppedTurns ++ b.turns.take index ++ f b.turns[index] ::
        (b.turns.drop (index + 1) ++ (b.currentTurn.map PendingTurn.toTurn).toList),
          b.nextItemIndex) := by
    rw [state, allTurns, List.modify_eq_take_cons_drop hlt]
    simp only [List.append_assoc, List.cons_append]
  rw [hbefore, hafter]
  exact .edit (hid _) (hf _)

theorem changes_updateItems {f : List ThreadItem → List ThreadItem}
    (hf : ∀ items, Edit ext items (f items)) (turnId : Str) :
    ReflTransGen (Change ext) b.state (b.updateItems turnId f).state ∧
      KeepsCurrent b (b.updateItems turnId f) := by
  unfold updateItems
  split
  · refine changes_mapCurrent ?_ ?_ ?_ b
    · exact fun _ ↦ rfl
    · exact fun _ ↦ rfl
    · exact fun turn ↦ hf turn.items
  · split
    · rename_i turns hturns
      refine ⟨.single (changes_modifyTurn ?_ ?_ hturns), keepsCurrent_of_eq rfl⟩
      · exact fun _ ↦ rfl
      · exact fun turn ↦ hf turn.items
    · exact ⟨.refl, keepsCurrent_of_eq rfl⟩

theorem changes_handleTurnAborted (b : ThreadHistoryBuilder) (turnId : Option Str) :
    ReflTransGen (Change ext) b.state (b.handleTurnAborted turnId).state ∧
      KeepsCurrent b (b.handleTurnAborted turnId) := by
  have hactive : ReflTransGen (Change ext) b.state
        (b.mapCurrent ({ · with status := .interrupted })).state ∧
      KeepsCurrent b (b.mapCurrent ({ · with status := .interrupted })) := by
    refine changes_mapCurrent ?_ ?_ ?_ b
    · exact fun _ ↦ rfl
    · exact fun _ ↦ rfl
    · exact fun turn ↦ .refl _
  cases turnId with
  | none => exact hactive
  | some turnId =>
    dsimp only [handleTurnAborted]
    split
    · exact hactive
    · split
      · rename_i turns hturns
        refine ⟨.single (changes_modifyTurn ?_ ?_ hturns), keepsCurrent_of_eq rfl⟩
        · exact fun _ ↦ rfl
        · exact fun turn ↦ .refl _
      · exact hactive

/-! ### Events inside a turn -/

/-- The item that comes with an event and its own identifier satisfies `ext`. -/
def Supplies (X : Externals) (ext : ThreadItem → Prop) : EventMsg → Prop
  | .toolCall event => ext (.tool event)
  | .itemStarted _ (.plan id text) => ext (.plan id text)
  | .itemCompleted _ (.plan id text) => ext (.plan id text)
  | .itemCompleted _ (.userMessage id content) => ext (.userMessage id (content.map X.userInput))
  | _ => True

/-- The event starts and ends no turn, and is no message of the user. -/
def isBodyEvent : EventMsg → Bool
  | .userMessage _ | .threadRolledBack _ | .turnStarted .. | .turnComplete _ => false
  | _ => true

/-- A step inside a turn. -/
inductive BodyStep (ext : ThreadItem → Prop) (b b' : ThreadHistoryBuilder) : Prop where
  | advance (f : Progress → Progress) (h : b.toProgress.Acts ext (f b.toProgress))
      (heq : b' = b.advance f)
  | changes (h : ReflTransGen (Change ext) b.state b'.state) (hkeeps : KeepsCurrent b b')

theorem BodyStep.moves {b' : ThreadHistoryBuilder} (h : BodyStep ext b b') :
    ReflTransGen (Move ext) b.state b'.state := by
  cases h with
  | advance f h heq => exact heq ▸ moves_advance h
  | changes h => exact moves_of_changes h

theorem BodyStep.of_changes {b' : ThreadHistoryBuilder}
    (h : ReflTransGen (Change ext) b.state b'.state ∧ KeepsCurrent b b') : BodyStep ext b b' :=
  .changes h.1 h.2

theorem bodyStep_refl (b : ThreadHistoryBuilder) : BodyStep ext b b :=
  .changes .refl (keepsCurrent_of_eq rfl)

theorem bodyStep_upsertItemInTurnId (b : ThreadHistoryBuilder) (turnId : Str) {item : ThreadItem}
    (h : ext item) : BodyStep ext b (b.upsertItemInTurnId turnId item) :=
  .of_changes (changes_updateItems (fun items ↦ Progress.edit_upsertTurnItem items h) turnId)

theorem bodyStep_upsertPlan (b : ThreadHistoryBuilder) {turnId id text : Str}
    (h : ext (.plan id text)) :
    BodyStep ext b
      (if text.val = "" then b else b.upsertItemInTurnId turnId (.plan id text)) := by
  split
  · exact bodyStep_refl b
  · exact bodyStep_upsertItemInTurnId b turnId h

theorem bodyStep_handleToolCall (b : ThreadHistoryBuilder) {event : ToolCallEvent}
    (h : ext (.tool event)) : BodyStep ext b (b.handleToolCall event) := by
  unfold handleToolCall
  split
  · exact bodyStep_upsertItemInTurnId b _ h
  · refine .advance (·.upsertItemInCurrentTurn (.tool event)) ?_ rfl
    exact Progress.acts_upsertItemInCurrentTurn _ h

/-- The recorded copy of a user message takes its place, or is put like any other item. -/
theorem edit_replaceUserMessage (items : List ThreadItem) {id : Str} {content : List UserInput}
    (h : ext (.userMessage id content)) :
    Edit ext items (replaceUserMessage items (.userMessage id content)) := by
  have hupsert := Progress.edit_upsertTurnItem items h
  unfold replaceUserMessage
  split
  · rename_i id' existing id'' canonical hlast hitem
    cases hitem
    split
    · rename_i heq
      obtain ⟨front, rfl⟩ := List.getLast?_eq_some_iff.mp hlast
      rw [List.dropLast_concat, heq]
      exact .canonical h
    · exact hupsert
  · exact hupsert

/-- **An event inside a turn** edits one turn, or gives the current one a new item. -/
theorem bodyStep_handleEvent (X : Externals) (b : ThreadHistoryBuilder) {event : EventMsg}
    (hbody : isBodyEvent event = true) (hsupplies : Supplies X ext event) :
    BodyStep ext b (b.handleEvent X event) := by
  cases event with
  | agentMessage message phase memoryCitation =>
    exact .advance (·.handleAgentMessage message phase memoryCitation)
      (Progress.acts_handleAgentMessage _ message phase memoryCitation) rfl
  | agentReasoning text =>
    exact .advance (·.handleReasoning text false) (Progress.acts_handleReasoning _ text false) rfl
  | agentReasoningRawContent text =>
    exact .advance (·.handleReasoning text true) (Progress.acts_handleReasoning _ text true) rfl
  | contextCompacted =>
    exact .advance (·.handleContextCompacted) (Progress.acts_handleContextCompacted _) rfl
  | enteredReviewMode hint =>
    exact .advance (·.handleEnteredReviewMode hint)
      (Progress.acts_handleEnteredReviewMode _ hint) rfl
  | exitedReviewMode explanation =>
    exact .advance (·.handleExitedReviewMode explanation)
      (Progress.acts_handleExitedReviewMode _ explanation) rfl
  | error event => exact .advance (·.handleError event) (Progress.acts_handleError _ event) rfl
  | toolCall event => exact bodyStep_handleToolCall b hsupplies
  | itemStarted turnId item =>
    cases item with
    | plan id text => exact bodyStep_upsertPlan b hsupplies
    | _ => exact bodyStep_refl b
  | itemCompleted turnId item =>
    cases item with
    | plan id text => exact bodyStep_upsertPlan b hsupplies
    | userMessage id content =>
      exact .of_changes (changes_updateItems
        (fun items ↦ edit_replaceUserMessage items hsupplies) turnId)
    | other => exact bodyStep_refl b
  | turnAborted turnId => exact .of_changes (changes_handleTurnAborted b turnId)
  | other => exact bodyStep_refl b
  | _ => cases hbody

/-! ### Events that start or end a turn -/

theorem finishCurrentTurn_of_some (h : b.currentTurn = some turn) :
    b.finishCurrentTurn.currentTurn = none ∧
      b.finishCurrentTurn.state =
        (b.droppedTurns ++ b.turns ++ if turn.isVoid then [] else [turn.toTurn],
          b.nextItemIndex) := by
  unfold finishCurrentTurn
  rw [h]
  dsimp only
  split
  · exact ⟨rfl, by rw [state_of_none rfl, List.append_nil]; rfl⟩
  · exact ⟨rfl, by rw [state_of_none rfl, List.append_assoc]; rfl⟩

theorem finishCurrentTurn_of_none (h : b.currentTurn = none) : b.finishCurrentTurn = b := by
  unfold finishCurrentTurn
  rw [h]

@[simp] theorem currentTurn_finishCurrentTurn (b : ThreadHistoryBuilder) :
    b.finishCurrentTurn.currentTurn = none := by
  cases hturn : b.currentTurn with
  | none => rw [finishCurrentTurn_of_none hturn, hturn]
  | some turn => exact (finishCurrentTurn_of_some hturn).1

/-- A turn that is finished stays, or leaves no trace. -/
theorem moves_finishCurrentTurn (b : ThreadHistoryBuilder) :
    ReflTransGen (Move ext) b.state b.finishCurrentTurn.state := by
  cases hturn : b.currentTurn with
  | none =>
    rw [finishCurrentTurn_of_none hturn]
  | some turn =>
    rw [state_of_some hturn, (finishCurrentTurn_of_some hturn).2]
    split
    · rename_i hvoid
      rw [List.append_nil]
      refine .single (.discarded ?_)
      simp only [PendingTurn.isVoid, Bool.and_eq_true, List.isEmpty_iff] at hvoid
      exact hvoid.1.1
    · exact .refl

theorem moves_handleTurnStarted (b : ThreadHistoryBuilder) (turnId collaborationModeKind : Str) :
    ReflTransGen (Move ext) b.state (b.handleTurnStarted turnId collaborationModeKind).state := by
  refine (moves_finishCurrentTurn b).tail ?_
  rw [state_of_none b.currentTurn_finishCurrentTurn, handleTurnStarted, state_of_some rfl]
  exact .opened rfl

theorem moves_handleTurnComplete (b : ThreadHistoryBuilder) (turnId : Str) :
    ReflTransGen (Move ext) b.state (b.handleTurnComplete turnId).state := by
  have hactive : ReflTransGen (Move ext) b.state (b.mapCurrent fun turn ↦
      { turn with status := markCompleted turn.status }).finishCurrentTurn.state := by
    refine ReflTransGen.trans ?_ (moves_finishCurrentTurn _)
    have hstatus : ReflTransGen (Change ext) b.state (b.mapCurrent fun turn ↦
        { turn with status := markCompleted turn.status }).state := by
      refine (changes_mapCurrent ?_ ?_ ?_ b).1
      · exact fun _ ↦ rfl
      · exact fun _ ↦ rfl
      · exact fun turn ↦ .refl _
    exact moves_of_changes hstatus
  unfold handleTurnComplete
  dsimp only
  split
  · exact hactive
  · split
    · rename_i turns hturns
      refine .single (.change (changes_modifyTurn ?_ ?_ hturns))
      · exact fun _ ↦ rfl
      · exact fun turn ↦ .refl _
    · exact hactive

theorem acts_userMessage (p : Progress) (content : List UserInput) :
    p.Acts ext (p.ensureTurn.nextItemId.2.pushItem
      (.userMessage p.ensureTurn.nextItemId.1 content)) :=
  Progress.acts_generate (fun _ ↦ Progress.starts_of_ensureTurn) p.ensureTurn_nextItemIndex rfl rfl

theorem moves_handleUserMessage (b : ThreadHistoryBuilder) (event : UserMessageEvent) :
    ReflTransGen (Move ext) b.state (b.handleUserMessage event).state := by
  have hboth : ∀ finishes : Bool, ReflTransGen (Move ext) b.state
      ((if finishes then b.finishCurrentTurn else b).advance fun p ↦
        p.ensureTurn.nextItemId.2.pushItem
          (.userMessage p.ensureTurn.nextItemId.1 (Progress.buildUserInputs event))).state := by
    intro finishes
    cases finishes with
    | true => exact (moves_finishCurrentTurn b).trans (moves_advance (acts_userMessage _ _))
    | false => exact moves_advance (acts_userMessage _ _)
  exact hboth _

/-- **An event outside a rollback** moves the turns. -/
theorem moves_handleEvent (X : Externals) (b : ThreadHistoryBuilder) {event : EventMsg}
    (hsupplies : Supplies X ext event)
    (hrollback : ∀ numTurns, event ≠ .threadRolledBack numTurns) :
    ReflTransGen (Move ext) b.state (b.handleEvent X event).state := by
  by_cases hbody : isBodyEvent event = true
  · exact (bodyStep_handleEvent X b hbody hsupplies).moves
  · cases event with
    | userMessage event => exact moves_handleUserMessage b event
    | threadRolledBack numTurns => exact absurd rfl (hrollback numTurns)
    | turnStarted turnId kind => exact moves_handleTurnStarted b turnId kind
    | turnComplete turnId => exact moves_handleTurnComplete b turnId
    | _ => exact absurd rfl hbody

/-! ### Rollbacks and the window -/

theorem state_trimFinishedTurns (b : ThreadHistoryBuilder) :
    b.trimFinishedTurns.state = b.state := by
  unfold trimFinishedTurns
  split
  · rfl
  · rw [trimTurns_eq]
    refine Prod.ext ?_ rfl
    simp only [state, allTurns, List.append_assoc, List.take_append_drop]

theorem state_refillFinishedTurnWindow (b : ThreadHistoryBuilder) :
    b.refillFinishedTurnWindow.state = b.state ∧
      b.refillFinishedTurnWindow.currentTurn = b.currentTurn := by
  unfold refillFinishedTurnWindow
  split
  · exact ⟨rfl, rfl⟩
  · rename_i k _
    refine ⟨Prod.ext ?_ rfl, rfl⟩
    simp only [state, allTurns]
    rw [(refillTurns_spec (k := k) b.droppedTurns.length b.turns b.droppedTurns le_rfl).1]

/-- **A rollback** finishes the current turn, and takes turns from the end. -/
theorem state_handleThreadRollback (b : ThreadHistoryBuilder) (numTurns : UInt32) :
    (b.handleThreadRollback numTurns).currentTurn = none ∧
      (b.handleThreadRollback numTurns).state =
        let left := b.finishCurrentTurn.allTurns.take
          (b.finishCurrentTurn.allTurns.length - numTurns.toNat)
        (left, min ((left.flatMap Turn.items).length + 1) (2 ^ 63 - 1)) := by
  have hnone := b.currentTurn_finishCurrentTurn
  unfold handleThreadRollback
  generalize b.finishCurrentTurn = b at hnone ⊢
  have hpop := popTurns_append numTurns.toNat b.turns b.droppedTurns
  dsimp only
  generalize popTurns numTurns.toNat b.turns b.droppedTurns = popped at hpop ⊢
  obtain ⟨hstate, hcurrent⟩ := state_refillFinishedTurnWindow
    { b with turns := popped.1, droppedTurns := popped.2 }
  generalize refillFinishedTurnWindow { b with turns := popped.1, droppedTurns := popped.2 } =
    refilled at hstate hcurrent ⊢
  have hcurrent' : refilled.currentTurn = none := hcurrent.trans hnone
  rw [state_of_none hcurrent', state_of_none (hcurrent.symm.trans hcurrent')] at hstate
  have hturns : refilled.droppedTurns ++ refilled.turns =
      b.allTurns.take (b.allTurns.length - numTurns.toNat) := by
    have hall : b.allTurns = b.droppedTurns ++ b.turns := congrArg Prod.fst (state_of_none hnone)
    rw [hall, ← hpop]
    exact congrArg Prod.fst hstate
  refine ⟨hcurrent', Eq.trans (state_of_none ?_) ?_⟩
  · exact hcurrent'
  rw [← hturns]
  refine Prod.ext rfl ?_
  simp only [effectiveFinishedItemCount, List.length_flatMap, List.map_append, List.sum_append]

end ThreadHistoryBuilder

end Praxis.ThreadHistory
