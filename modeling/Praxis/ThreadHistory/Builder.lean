import Praxis.Context.History

/-!
# Turns from rollout items

`ThreadHistoryBuilder` (`thread_history.rs` and the modules below it) reads the recorded
items of a conversation and groups them into turns.  A turn is opened by an event or,
in older recordings, by the first item that needs one; items go to the current turn or
to the turn that their event names.  With a limit the builder keeps the last turns and
sets the others aside: a rollback takes them back, and nothing else looks at them.

What does not depend on finished turns is in `Progress`.  A generated identifier of a
turn is new, so that no event names it; it is known by its number.  The item that is made
from an event about a tool is known by the event.
-/

namespace Praxis.ThreadHistory

open Foundation Protocol

/-! ## Turns -/

inductive TurnId where
  | given (id : Str)
  | generated (number : Nat)
deriving DecidableEq

inductive UserInput where
  | text (text : Str) (textElements : List Str)
  | image (url : Str)
  | localImage (path : Str)
  /-- Any other input of a recorded user message. -/
  | other (fields : Str)
deriving DecidableEq

structure HookPromptFragment where
  text : Str
  hookRunId : Str
deriving DecidableEq

inductive ThreadItem where
  | userMessage (id : Str) (content : List UserInput)
  | hookPrompt (id : Str) (fragments : List HookPromptFragment)
  | agentMessage (id text : Str) (phase : Option MessagePhase) (memoryCitation : Option Str)
  | plan (id text : Str)
  | reasoning (id : Str) (summary content : List Str)
  | tool (event : ToolCallEvent)
  | enteredReviewMode (id review : Str)
  | exitedReviewMode (id review : Str)
  | contextCompaction (id : Str)
deriving DecidableEq

def ThreadItem.id : ThreadItem → Str
  | userMessage id _ | hookPrompt id _ | agentMessage id .. | plan id _ | reasoning id .. => id
  | tool event => event.callId
  | enteredReviewMode id _ | exitedReviewMode id _ | contextCompaction id => id

inductive TurnStatus where
  | completed
  | interrupted
  | failed
  | inProgress
deriving DecidableEq

structure TurnError where
  message : Str
  praxisErrorInfo : Option Str
deriving DecidableEq

structure Turn where
  id : TurnId
  collaborationModeKind : Str
  items : List ThreadItem
  error : Option TurnError
  status : TurnStatus
deriving DecidableEq

structure PendingTurn extends Turn where
  openedExplicitly : Bool
  sawCompaction : Bool
  rolloutStartIndex : Nat
deriving DecidableEq

/-- The turn leaves no trace when it is finished. -/
def PendingTurn.isVoid (turn : PendingTurn) : Bool :=
  turn.items.isEmpty && !turn.openedExplicitly && !turn.sawCompaction

/-- `upsert_turn_item`. -/
def upsertTurnItem (items : List ThreadItem) (item : ThreadItem) : List ThreadItem :=
  match items.findIdx? (·.id = item.id) with
  | some index => items.set index item
  | none => items ++ [item]

/-- What is left to other crates. -/
structure Externals where
  /-- The text and the run that `quick_xml` reads from a hook prompt. -/
  hookPromptXml : List Char → Option (Str × Str)
  /-- `UserInput::from` for an input of a recorded user message. -/
  userInput : Str → UserInput

variable (X : Externals)

/-- `parse_hook_prompt_fragment`. -/
def parseHookPromptFragment (text : Str) : Option HookPromptFragment :=
  match X.hookPromptXml (Context.trimEnd (Context.trimStart text.val.toList)) with
  | none => none
  | some (text, hookRunId) =>
    if Context.trimEnd (Context.trimStart hookRunId.val.toList) = [] then none
    else some ⟨text, hookRunId⟩

/-- The fragments that `parse_hook_prompt_message` finds. -/
def parseHookPromptMessage (content : List ContentItem) : Option (List HookPromptFragment) := do
  let fragments ← content.mapM fun
    | .inputText text => parseHookPromptFragment X text
    | _ => none
  if fragments = [] then none else some fragments

/-! ## The current turn -/

structure Progress where
  currentTurn : Option PendingTurn
  nextItemIndex : Nat
  currentRolloutIndex : Nat
  nextRolloutIndex : Nat
  /-- How many identifiers were generated. -/
  generated : Nat
deriving DecidableEq

namespace Progress

/-- `new_turn`, for a turn that an event has opened. -/
def newTurn (p : Progress) (id : TurnId) : PendingTurn where
  id := id
  collaborationModeKind := .lit "default" Str.fits_default
  items := []
  error := none
  status := .completed
  openedExplicitly := false
  sawCompaction := false
  rolloutStartIndex := p.currentRolloutIndex

/-- `ensure_turn`. -/
def ensureTurn (p : Progress) : Progress :=
  match p.currentTurn with
  | some _ => p
  | none => { p with
      currentTurn := some (p.newTurn (.generated p.generated)), generated := p.generated + 1 }

/-- What is done to the turn that `ensure_turn` returns. -/
def withTurn (p : Progress) (f : PendingTurn → PendingTurn) : Progress :=
  { p.ensureTurn with currentTurn := p.ensureTurn.currentTurn.map f }

def currentItems (p : Progress) : List ThreadItem :=
  match p.currentTurn with
  | some turn => turn.items
  | none => []

def pushItem (p : Progress) (item : ThreadItem) : Progress :=
  p.withTurn fun turn ↦ { turn with items := turn.items ++ [item] }

/-- `next_item_id`. -/
def nextItemId (p : Progress) : Str × Progress :=
  let index := p.nextItemIndex
  (.ofString s!"item-{index}", { p with nextItemIndex := index + 1 })

/-- `upsert_item_in_current_turn`. -/
def upsertItemInCurrentTurn (p : Progress) (item : ThreadItem) : Progress :=
  p.withTurn fun turn ↦ { turn with items := upsertTurnItem turn.items item }

/-- `handle_compacted`. -/
def handleCompacted (p : Progress) : Progress := p.withTurn ({ · with sawCompaction := true })

/-- `handle_context_compacted`. -/
def handleContextCompacted (p : Progress) : Progress :=
  let (id, p) := p.nextItemId
  p.pushItem (.contextCompaction id)

/-- `handle_entered_review_mode`. -/
def handleEnteredReviewMode (p : Progress) (userFacingHint : Option Str) : Progress :=
  let review := userFacingHint.getD (.lit "Review requested.")
  let (id, p) := p.nextItemId
  p.pushItem (.enteredReviewMode id review)

def reviewFallbackMessage : Str := .lit "Reviewer failed to output a response."

/-- `render_review_output_text`. -/
def renderReviewOutputText (overallExplanation : Str) : Str :=
  let explanation := Context.trimEnd (Context.trimStart overallExplanation.val.toList)
  if explanation = [] then reviewFallbackMessage else .ofString (String.ofList explanation)

/-- `handle_exited_review_mode`. -/
def handleExitedReviewMode (p : Progress) (overallExplanation : Option Str) : Progress :=
  let review := (overallExplanation.map renderReviewOutputText).getD reviewFallbackMessage
  let (id, p) := p.nextItemId
  p.pushItem (.exitedReviewMode id review)

/-- `handle_error`. -/
def handleError (p : Progress) (event : ErrorEvent) : Progress :=
  if event.affectsTurnStatus = false then p
  else
    { p with currentTurn := p.currentTurn.map fun turn ↦
        { turn with
          status := .failed
          error := some ⟨event.message, event.praxisErrorInfo⟩ } }

/-- `handle_agent_message`. -/
def handleAgentMessage (p : Progress) (text : Str) (phase : Option MessagePhase)
    (memoryCitation : Option Str) : Progress :=
  if text.val = "" then p
  else
    let p := p.ensureTurn
    let again : Bool := match p.currentItems.getLast? with
      | some (.agentMessage _ text' phase' memoryCitation') =>
        text' = text ∧ phase' = phase ∧ memoryCitation' = memoryCitation
      | _ => false
    if again then p
    else
      let (id, p) := p.nextItemId
      p.pushItem (.agentMessage id text phase memoryCitation)

/-- `handle_agent_reasoning` and `handle_agent_reasoning_raw_content`: the text goes to the
summary or to the content of the last item, or of a new one. -/
def handleReasoning (p : Progress) (text : Str) (raw : Bool) : Progress :=
  if text.val = "" then p
  else
    let p := p.ensureTurn
    match p.currentItems.getLast? with
    | some (.reasoning id summary content) =>
      let item := if raw then .reasoning id summary (content ++ [text])
        else .reasoning id (summary ++ [text]) content
      p.withTurn fun turn ↦ { turn with items := turn.items.dropLast ++ [item] }
    | _ =>
      let (id, p) := p.nextItemId
      p.pushItem (if raw then .reasoning id [] [text] else .reasoning id [text] [])

/-- `handle_agent_reasoning`. -/
def handleAgentReasoning (p : Progress) (text : Str) : Progress := p.handleReasoning text false

/-- `handle_agent_reasoning_raw_content`. -/
def handleAgentReasoningRawContent (p : Progress) (text : Str) : Progress :=
  p.handleReasoning text true

/-- `handle_response_item`.  A hook prompt without an identifier is given a new one. -/
def handleResponseItem (ids : Nat → Str) (p : Progress) : ResponseItem → Progress
  | .message id role content phase =>
    if role.val = "user" then
      match parseHookPromptMessage X content with
      | none => p
      | some fragments =>
        match id with
        | some id => p.pushItem (.hookPrompt id fragments)
        | none =>
          { p with generated := p.generated + 1 }.pushItem (.hookPrompt (ids p.generated) fragments)
    else if role.val = "assistant" then
      let texts := content.filterMap fun
        | .inputText text | .outputText text => some text.val
        | .inputImage _ => none
      p.handleAgentMessage (.ofString (String.join texts)) phase none
    else p
  | _ => p

/-- `build_user_inputs`. -/
def buildUserInputs (event : UserMessageEvent) : List UserInput :=
  let text := if Context.trimEnd (Context.trimStart event.message.val.toList) = [] then []
    else [.text event.message event.textElements]
  text ++ (event.images.getD []).map .image ++ event.localImages.map .localImage

end Progress

/-! ## The builder -/

structure ThreadHistoryBuilder extends Progress where
  turns : List Turn
  maxFinishedTurns : Option Nat
  /-- The turns set aside, the last one at the end. -/
  droppedTurns : List Turn
deriving DecidableEq

namespace ThreadHistoryBuilder

def new : ThreadHistoryBuilder where
  currentTurn := none
  nextItemIndex := 1
  currentRolloutIndex := 0
  nextRolloutIndex := 0
  generated := 0
  turns := []
  maxFinishedTurns := none
  droppedTurns := []

def withMaxFinishedTurns (maxFinishedTurns : Nat) : ThreadHistoryBuilder :=
  { new with maxFinishedTurns := some maxFinishedTurns }

/-- A step that has nothing to do with finished turns. -/
def advance (b : ThreadHistoryBuilder) (f : Progress → Progress) : ThreadHistoryBuilder :=
  { b with toProgress := f b.toProgress }

/-- `finish_current_turn`. -/
def finishCurrentTurn (b : ThreadHistoryBuilder) : ThreadHistoryBuilder :=
  match b.currentTurn with
  | none => b
  | some turn =>
    let b := b.advance ({ · with currentTurn := none })
    if turn.isVoid then b else { b with turns := b.turns ++ [turn.toTurn] }

/-! ### The window -/

/-- The loop of `trim_finished_turns`: the turns that stay and those set aside. -/
def trimTurns (maxFinishedTurns : Nat) : List Turn → List Turn → List Turn × List Turn
  | [], dropped => ([], dropped)
  | turn :: turns, dropped =>
    if turns.length + 1 > maxFinishedTurns then
      trimTurns maxFinishedTurns turns (dropped ++ [turn])
    else (turn :: turns, dropped)

/-- `trim_finished_turns`. -/
def trimFinishedTurns (b : ThreadHistoryBuilder) : ThreadHistoryBuilder :=
  match b.maxFinishedTurns with
  | none => b
  | some maxFinishedTurns =>
    let (turns, dropped) := trimTurns maxFinishedTurns b.turns b.droppedTurns
    { b with turns := turns, droppedTurns := dropped }

/-- The loop of `refill_finished_turn_window`, which takes back one turn at a time. -/
def refillTurns (maxFinishedTurns : Nat) : Nat → List Turn → List Turn → List Turn × List Turn
  | 0, turns, dropped => (turns, dropped)
  | fuel + 1, turns, dropped =>
    if turns.length < maxFinishedTurns then
      match dropped.getLast? with
      | none => (turns, dropped)
      | some turn => refillTurns maxFinishedTurns fuel (turn :: turns) dropped.dropLast
    else (turns, dropped)

/-- `refill_finished_turn_window`. -/
def refillFinishedTurnWindow (b : ThreadHistoryBuilder) : ThreadHistoryBuilder :=
  match b.maxFinishedTurns with
  | none => b
  | some maxFinishedTurns =>
    let (turns, dropped) :=
      refillTurns maxFinishedTurns b.droppedTurns.length b.turns b.droppedTurns
    { b with turns := turns, droppedTurns := dropped }

/-- The loop of `handle_thread_rollback`: it takes turns from the end, and those set aside
when there are no others. -/
def popTurns : Nat → List Turn → List Turn → List Turn × List Turn
  | 0, turns, dropped => (turns, dropped)
  | remaining + 1, turns, dropped =>
    if turns ≠ [] then popTurns remaining turns.dropLast dropped
    else if dropped ≠ [] then popTurns remaining turns dropped.dropLast
    else (turns, dropped)

/-- `effective_finished_item_count`. -/
def effectiveFinishedItemCount (b : ThreadHistoryBuilder) : Nat :=
  (b.droppedTurns.map (·.items.length)).sum + (b.turns.map (·.items.length)).sum

/-- `handle_thread_rollback`. -/
def handleThreadRollback (b : ThreadHistoryBuilder) (numTurns : UInt32) : ThreadHistoryBuilder :=
  let b := b.finishCurrentTurn
  let (turns, dropped) := popTurns numTurns.toNat b.turns b.droppedTurns
  let b := { b with turns := turns, droppedTurns := dropped }.refillFinishedTurnWindow
  { b with nextItemIndex := min (b.effectiveFinishedItemCount + 1) (2 ^ 63 - 1) }

/-! ### Turns by their identifier -/

/-- The first of the turns with an identifier is changed. -/
def modifyTurn (turns : List Turn) (turnId : Str) (f : Turn → Turn) : Option (List Turn) :=
  (turns.findIdx? (·.id = .given turnId)).map fun index ↦ turns.modify index f

def isCurrent (p : Progress) (turnId : Str) : Bool :=
  match p.currentTurn with
  | some turn => turn.id = .given turnId
  | none => false

/-- The current turn is changed, if there is one. -/
def mapCurrent (b : ThreadHistoryBuilder) (f : PendingTurn → PendingTurn) :
    ThreadHistoryBuilder :=
  b.advance fun p ↦ { p with currentTurn := p.currentTurn.map f }

/-- The items of the turn that an event names, if there is one. -/
def updateItems (b : ThreadHistoryBuilder) (turnId : Str)
    (f : List ThreadItem → List ThreadItem) : ThreadHistoryBuilder :=
  if isCurrent b.toProgress turnId then b.mapCurrent fun turn ↦ { turn with items := f turn.items }
  else
    match modifyTurn b.turns turnId fun turn ↦ { turn with items := f turn.items } with
    | some turns => { b with turns := turns }
    | none => b

/-- `upsert_item_in_turn_id`. -/
def upsertItemInTurnId (b : ThreadHistoryBuilder) (turnId : Str) (item : ThreadItem) :
    ThreadHistoryBuilder :=
  b.updateItems turnId fun items ↦ upsertTurnItem items item

/-- What `record_canonical_user_message` does to the items of a turn. -/
def replaceUserMessage (items : List ThreadItem) (item : ThreadItem) : List ThreadItem :=
  match items.getLast?, item with
  | some (.userMessage _ existing), .userMessage _ canonical =>
    if existing = canonical then items.dropLast ++ [item] else upsertTurnItem items item
  | _, _ => upsertTurnItem items item

/-- `record_canonical_user_message`. -/
def recordCanonicalUserMessage (b : ThreadHistoryBuilder) (turnId : Str) (item : ThreadItem) :
    ThreadHistoryBuilder :=
  b.updateItems turnId fun items ↦ replaceUserMessage items item

/-- `handle_turn_aborted`. -/
def handleTurnAborted (b : ThreadHistoryBuilder) (turnId : Option Str) : ThreadHistoryBuilder :=
  let active := b.mapCurrent ({ · with status := .interrupted })
  match turnId with
  | none => active
  | some turnId =>
    if isCurrent b.toProgress turnId then active
    else
      match modifyTurn b.turns turnId ({ · with status := .interrupted }) with
      | some turns => { b with turns := turns }
      | none => active

/-- `handle_turn_started`. -/
def handleTurnStarted (b : ThreadHistoryBuilder) (turnId collaborationModeKind : Str) :
    ThreadHistoryBuilder :=
  b.finishCurrentTurn.advance fun p ↦
    let turn := p.newTurn (.given turnId)
    let turn := { turn with
      status := .inProgress
      openedExplicitly := true
      collaborationModeKind := collaborationModeKind }
    { p with currentTurn := some turn }

/-- `mark_completed`: a turn that failed or was interrupted stays so. -/
def markCompleted : TurnStatus → TurnStatus
  | .completed | .inProgress => .completed
  | status => status

/-- `handle_turn_complete`. -/
def handleTurnComplete (b : ThreadHistoryBuilder) (turnId : Str) : ThreadHistoryBuilder :=
  let active :=
    (b.mapCurrent fun turn ↦ { turn with status := markCompleted turn.status }).finishCurrentTurn
  if isCurrent b.toProgress turnId then active
  else
    match modifyTurn b.turns turnId fun turn ↦ { turn with status := markCompleted turn.status } with
    | some turns => { b with turns := turns }
    | none => active

/-! ### Events -/

/-- `handle_user_message`. -/
def handleUserMessage (b : ThreadHistoryBuilder) (event : UserMessageEvent) :
    ThreadHistoryBuilder :=
  let finishes : Bool := match b.currentTurn with
    | some turn => !turn.openedExplicitly && !(turn.sawCompaction && turn.items.isEmpty)
    | none => false
  let b := if finishes then b.finishCurrentTurn else b
  b.advance fun p ↦
    let p := p.ensureTurn
    let (id, p) := p.nextItemId
    p.pushItem (.userMessage id (Progress.buildUserInputs event))

/-- `handle_item_started`. -/
def handleItemStarted (b : ThreadHistoryBuilder) (turnId : Str) : TurnItem → ThreadHistoryBuilder
  | .plan id text => if text.val = "" then b else b.upsertItemInTurnId turnId (.plan id text)
  | .userMessage .. | .other => b

/-- `handle_item_completed`. -/
def handleItemCompleted (b : ThreadHistoryBuilder) (turnId : Str) :
    TurnItem → ThreadHistoryBuilder
  | .userMessage id content =>
    b.recordCanonicalUserMessage turnId (.userMessage id (content.map X.userInput))
  | .plan id text => if text.val = "" then b else b.upsertItemInTurnId turnId (.plan id text)
  | .other => b

/-- The turn that an event about a tool names: a command always names one, patches and
dynamic tools do if the name is not empty, and the others go to the current turn. -/
def toolTurn (event : ToolCallEvent) : Option Str :=
  match event.kind with
  | .execCommandBegin | .execCommandEnd => some event.turnId
  | .applyPatchApprovalRequest | .patchApplyBegin | .patchApplyEnd
  | .dynamicToolCallRequest | .dynamicToolCallResponse =>
    if event.turnId.val = "" then none else some event.turnId
  | _ => none

/-- The handlers of the events about tools. -/
def handleToolCall (b : ThreadHistoryBuilder) (event : ToolCallEvent) : ThreadHistoryBuilder :=
  match toolTurn event with
  | some turnId => b.upsertItemInTurnId turnId (.tool event)
  | none => b.advance (·.upsertItemInCurrentTurn (.tool event))

/-- `handle_event`. -/
def handleEvent (b : ThreadHistoryBuilder) : EventMsg → ThreadHistoryBuilder
  | .userMessage event => b.handleUserMessage event
  | .agentMessage message phase memoryCitation =>
    b.advance (·.handleAgentMessage message phase memoryCitation)
  | .agentReasoning text => b.advance (·.handleAgentReasoning text)
  | .agentReasoningRawContent text => b.advance (·.handleAgentReasoningRawContent text)
  | .toolCall event => b.handleToolCall event
  | .contextCompacted => b.advance (·.handleContextCompacted)
  | .enteredReviewMode userFacingHint => b.advance (·.handleEnteredReviewMode userFacingHint)
  | .exitedReviewMode overallExplanation =>
    b.advance (·.handleExitedReviewMode overallExplanation)
  | .itemStarted turnId item => b.handleItemStarted turnId item
  | .itemCompleted turnId item => b.handleItemCompleted X turnId item
  | .error event => b.advance (·.handleError event)
  | .threadRolledBack numTurns => b.handleThreadRollback numTurns
  | .turnAborted turnId => b.handleTurnAborted turnId
  | .turnStarted turnId collaborationModeKind =>
    b.handleTurnStarted turnId collaborationModeKind
  | .turnComplete turnId => b.handleTurnComplete turnId
  | .other _ => b

/-- `handle_rollout_item`, before the window is trimmed. -/
def handleItem (ids : Nat → Str) (b : ThreadHistoryBuilder) (item : RolloutItem) :
    ThreadHistoryBuilder :=
  let b := { b with
    currentRolloutIndex := b.nextRolloutIndex, nextRolloutIndex := b.nextRolloutIndex + 1 }
  match item with
  | .eventMsg event => b.handleEvent X event
  | .compacted _ => b.advance (·.handleCompacted)
  | .responseItem item => b.advance (·.handleResponseItem X ids item)
  | .turnContext _ | .sessionMeta _ => b

/-- `handle_rollout_item`. -/
def handleRolloutItem (ids : Nat → Str) (b : ThreadHistoryBuilder) (item : RolloutItem) :
    ThreadHistoryBuilder :=
  (b.handleItem X ids item).trimFinishedTurns

/-- `finish`. -/
def finish (b : ThreadHistoryBuilder) : List Turn := b.finishCurrentTurn.trimFinishedTurns.turns

end ThreadHistoryBuilder

open ThreadHistoryBuilder

/-- `build_turns_from_rollout_items`. -/
def buildTurnsFromRolloutItems (ids : Nat → Str) (items : List RolloutItem) : List Turn :=
  (items.foldl (handleRolloutItem X ids) new).finish

/-- `build_recent_turns_from_rollout_items`. -/
def buildRecentTurnsFromRolloutItems (ids : Nat → Str) (items : List RolloutItem)
    (turnLimit : Nat) : List Turn :=
  if turnLimit = 0 then []
  else (items.foldl (handleRolloutItem X ids) (withMaxFinishedTurns turnLimit)).finish

end Praxis.ThreadHistory
