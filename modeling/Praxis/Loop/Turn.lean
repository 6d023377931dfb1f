import Mathlib
import Praxis.Foundation.Program
import Praxis.Loop.Batch
import Praxis.Loop.Hooks

/-!
# A turn

`run_turn` (`turn_loop.rs`) sends the conversation to the model, reads what it answers, runs
the tools that it calls and goes on until nobody wants another round.  The prompt is kept in
two parts: a base, and the items that were recorded since the base was made.

The services and the hooks work on a world of an arbitrary type, which also decides what the
waiting points of the code see first (`tokio::select!`), when the token is cancelled and how
a batch of tool calls goes.  The variables of the loop are a record, and beside them
`moments` notes what a reader of the prompts wants to know: the requests, the items that
were recorded, the messages that were injected, when the prompt was made anew and what a
batch of tool calls has returned.

The two loops, over the events of a stream and over the rounds, need not end.  They are
given the number of times that they may go round.
-/

namespace Praxis.Loop

open Foundation

/-! ## The state of a turn -/

/-- `LoopGuard`, with the limit for tool calls if there is one. -/
structure LoopGuard where
  maxToolCalls : Option UInt64
deriving DecidableEq

/-- `LoopGuard::admit_tool_calls`. -/
def LoopGuard.admits (guard : LoopGuard) (attempted : UInt64) : Bool :=
  match guard.maxToolCalls with
  | none => true
  | some maxToolCalls => attempted ≤ maxToolCalls

/-- `TurnState`. -/
structure TurnState where
  transcriptDelta : List TurnItem
  tokenUsage : TokenLedger
  toolCallCount : UInt64
  roundCount : UInt64
  lastAgentMessage : Option String
  guard : LoopGuard
  /-- `TurnDiffTracker::has_changes`. -/
  hasChanges : Bool
deriving DecidableEq

def saturatingAdd (a : UInt64) (b : Nat) : UInt64 := .ofNat (min (a.toNat + b) (2 ^ 64 - 1))

namespace TurnState

/-- `TurnState::start_round`. -/
def startRound (state : TurnState) : TurnState :=
  { state with roundCount := saturatingAdd state.roundCount 1 }

/-- `TurnState::record_tool_calls`; `admits` is what the guard says then. -/
def recordToolCalls (state : TurnState) (count : Nat) : TurnState :=
  { state with toolCallCount := saturatingAdd state.toolCallCount count }

/-- `TurnState::record_items`. -/
def recordItems (state : TurnState) (items : List TurnItem) : TurnState :=
  if items = [] then state
  else { state with transcriptDelta := state.transcriptDelta ++ items, hasChanges := true }

/-- `TurnState::record_usage`. -/
def recordUsage (state : TurnState) (usage : TokenUsage) : TurnState :=
  { state with tokenUsage := state.tokenUsage.recordUsage usage }

/-- `TurnState::mark_transcript_delta_absorbed_by_prompt_refresh`. -/
def absorbDelta (state : TurnState) : TurnState := { state with transcriptDelta := [] }

/-- `TurnState::record_completion_message`. -/
def recordCompletionMessage (state : TurnState) : TurnCompletionMessage → TurnState
  | .noMessage => state
  | .text message => { state with lastAgentMessage := some message }

/-- `TurnState::last_completion_message`. -/
def lastCompletionMessage (state : TurnState) : TurnCompletionMessage :=
  match state.lastAgentMessage with
  | some message => .text message
  | none => .noMessage

end TurnState

/-- `TurnResult`. -/
inductive TurnResult where
  | complete (state : TurnState)
  | wantsFollowup (state : TurnState)
  | aborted (state : TurnState) (reason : TurnError)
deriving DecidableEq

/-- `RoundSettings`. -/
structure RoundSettings where
  model : ModelSpec
  reasoning : Option String
  serviceTier : Option String
deriving DecidableEq

/-- `ModelRequest`. -/
structure ModelRequest where
  turnId : String
  round : UInt64
  settings : RoundSettings
  prompt : List PromptItem
deriving DecidableEq

/-- `ModelEvent`. -/
inductive ModelEvent where
  | textDelta (itemId : Option String) (text : String)
  | reasoningDelta (itemId : Option String) (summaryIndex contentIndex : Option Int) (text : String)
  | toolCall (call : ToolCall)
  | finalText (itemId : Option String) (text : String)
  | recordedFinalText (itemId : Option String) (text : String)
  | followupRequired
  | completed (usage : TokenUsage)
deriving DecidableEq

/-- `TurnEvent`, those that the loop itself emits. -/
inductive TurnEvent where
  | textDelta (itemId : Option String) (text : String)
  | reasoningDelta (itemId : Option String) (summaryIndex contentIndex : Option Int) (text : String)
  | toolFinished (result : ToolResult)
  | turnAborted (message : String)
  | turnCompleted
deriving DecidableEq

/-- `SteeringControl`. -/
inductive SteeringControl where
  | continue
  | retryWithoutModelRequest
  | stopWithoutModelRequest (message : TurnCompletionMessage)
deriving DecidableEq

/-- `SteeringDrain`. -/
structure SteeringDrain where
  messages : List SteeringMessage
  control : SteeringControl
deriving DecidableEq

/-! ## Services -/

/-- What the waiting point of a model request sees first.  If the token is cancelled or
steering arrives, the request may have been sent before. -/
inductive Opening where
  | cancelled (sent : Bool)
  | steering (sent : Bool) (result : Except TurnError Unit)
  | stream (result : Except TurnError Unit)

/-- What the waiting point of a stream sees first. -/
inductive Arrival where
  | cancelled
  | event (event : Option (Except TurnError ModelEvent))

/-- The same while steering may still preempt the stream. -/
inductive EarlyArrival where
  | steering (result : Except TurnError Unit)
  | arrival (arrival : Arrival)

/-- `TurnServices` and the cancellation token, on a world of type `σ`. -/
structure TurnServices (σ : Type) where
  isCancelled : StateM σ Bool
  streamModel : ModelRequest → StateM σ Opening
  nextEvent : StateM σ Arrival
  nextEventOrSteering : StateM σ EarlyArrival
  emitEvent : TurnEvent → StateM σ (Except TurnError Unit)
  persistItems : List TurnItem → StateM σ (Except TurnError Unit)
  drainSteering : StateM σ (Except TurnError SteeringDrain)
  /-- `prepare_and_run_tool_calls`. -/
  runToolCalls : List ToolCall → StateM σ (List ToolBatchEntry)

/-! ## The loop -/

/-- What happened in a turn, as far as the prompts go. -/
inductive Moment where
  /-- A request with this prompt was sent. -/
  | request (prompt : List PromptItem)
  /-- Items were persisted and recorded. -/
  | recorded (items : List TurnItem)
  /-- Steering messages were taken into the prompt. -/
  | injected (messages : List SteeringMessage)
  /-- The prompt was made anew by a compaction or a replacement. -/
  | refreshed
  /-- A batch of tool calls has returned. -/
  | ran (entries : List ToolBatchEntry)
deriving DecidableEq

/-- The variables of `run_turn`. -/
structure Turn (σ : Type) where
  world : σ
  state : TurnState
  promptBase : List PromptItem
  activeSettings : RoundSettings
  /-- What happened, the last first. -/
  moments : List Moment

/-- The loop before its first round. -/
def Turn.start {σ : Type} (world : σ) (state : TurnState) (settings : RoundSettings) : Turn σ where
  world := world
  state := state
  promptBase := []
  activeSettings := settings
  moments := []

variable {σ ε α : Type}

/-- A call of a service or a hook. -/
def call (c : StateM σ α) : Program (Turn σ) ε α :=
  .within (·.world) (fun world turn ↦ { turn with world := world }) c

/-- A call of a service that may fail. -/
def try' (c : StateM σ (Except TurnError α)) : Program (Turn σ) TurnError α := do
  Program.ofExcept (← call c)

def updateState (f : TurnState → TurnState) : Program (Turn σ) ε Unit :=
  .update fun turn ↦ { turn with state := f turn.state }

def note (moment : Moment) : Program (Turn σ) ε Unit :=
  .update fun turn ↦ { turn with moments := moment :: turn.moments }

/-- The request is noted if it was sent. -/
def noteRequest (sent : Bool) (prompt : List PromptItem) : Program (Turn σ) ε Unit :=
  if sent then note (.request prompt) else return ()

/-- The items are recorded. -/
def record (items : List TurnItem) : Program (Turn σ) ε Unit :=
  .update fun turn ↦
    { turn with state := turn.state.recordItems items, moments := .recorded items :: turn.moments }

/-- The prompt is made anew, and what was recorded is absorbed. -/
def refresh (promptItems : List PromptItem) : Program (Turn σ) ε Unit :=
  .update fun turn ↦ { turn with
    promptBase := promptItems
    state := turn.state.absorbDelta
    moments := .refreshed :: turn.moments }

variable (S : TurnServices σ) (H : TurnHooks σ) (ctx : TurnContext)

/-! ### Prompts -/

/-- `prompt_projection_from_turn_item`. -/
def promptProjection : TurnItem → Option PromptItem
  | .assistantText _ text => some (.assistantText text)
  | .reasoning .. => none
  | .toolCall call => some (.toolCall call.id call.name call.arguments)
  | .toolStarted .. | .toolProgress .. => none
  | .toolResult result => some (.toolResult result.callId result.content result.status)
  | .systemText text => some (.systemText text)
  | .userText text => some (.userText text)

/-- `build_round_prompt`. -/
def buildRoundPrompt (promptBase : List PromptItem) (state : TurnState) : List PromptItem :=
  promptBase ++ state.transcriptDelta.filterMap promptProjection

/-- `apply_context_pressure`. -/
def applyContextPressure : Program (Turn σ) TurnError Unit := do
  let turn ← .state
  let view := ⟨turn.state.tokenUsage, turn.activeSettings.model.contextWindow⟩
  match ← call (H.onContextPressure view) with
  | .proceed => return ()
  | .compacted promptItems transcriptItems =>
    .update fun turn ↦ { turn with promptBase := promptItems, moments := .refreshed :: turn.moments }
    if transcriptItems ≠ [] then
      try' (S.persistItems transcriptItems)
      updateState (·.recordItems transcriptItems)
    updateState (·.absorbDelta)
  | .abort reason => .fail reason

/-- `RoundPromptDecision`. -/
inductive RoundPromptDecision where
  | sample (prompt : List PromptItem)
  | retryWithoutModelRequest
  | stopWithoutModelRequest (message : TurnCompletionMessage)

/-- The messages become part of the prompt, and the prompt the new base. -/
def inject (prompt : List PromptItem) (messages : List SteeringMessage) :
    Program (Turn σ) ε Unit :=
  .update fun turn ↦ { turn with
    promptBase := prompt ++ messages.flatMap (·.promptItems)
    state := turn.state.absorbDelta
    moments := .injected messages :: turn.moments }

/-- `prepare_round_prompt`. -/
def prepareRoundPrompt : Program (Turn σ) TurnError RoundPromptDecision := do
  let turn ← .state
  let prompt := buildRoundPrompt turn.promptBase turn.state
  let drain ← try' S.drainSteering
  match drain.control with
  | .retryWithoutModelRequest => return .retryWithoutModelRequest
  | .stopWithoutModelRequest message => return .stopWithoutModelRequest message
  | .continue =>
    if drain.messages ≠ [] then
      match ← call (H.onSteeringInput drain.messages) with
      | .injectAndContinue =>
        inject prompt drain.messages
        return .sample (prompt ++ drain.messages.flatMap (·.promptItems))
      | .dropAndContinue => return .sample prompt
    else return .sample prompt

/-! ### Tools -/

/-- The loop of `persist_turn_items` over the results. -/
def emitFinished : List TurnItem → Program (Turn σ) TurnError Unit
  | [] => return ()
  | .toolResult result :: items => do
    try' (S.emitEvent (.toolFinished result))
    emitFinished items
  | _ :: items => emitFinished items

/-- `persist_turn_items`. -/
def persistTurnItems (items : List TurnItem) : Program (Turn σ) TurnError Unit := do
  if items = [] then return ()
  else
    try' (S.persistItems items)
    record items
    emitFinished S items

/-- `ToolPreparationOutcome`. -/
structure ToolPreparationOutcome where
  items : List TurnItem
  calls : List ToolCall

/-- The loop of `prepare_tool_calls`. -/
def prepareToolCalls (permissions : EffectivePermissions) :
    List ToolCall → Program (Turn σ) ε ToolPreparationOutcome
  | [] => return ⟨[], []⟩
  | original :: calls => do
    let allow (call : ToolCall) : Program (Turn σ) ε ToolPreparationOutcome := do
      let rest ← prepareToolCalls permissions calls
      return ⟨.toolCall call :: rest.items, call :: rest.calls⟩
    match ← call (H.beforeToolCall ⟨original, permissions⟩) with
    | .allow => allow original
    | .modify call => allow call
    | .block reason =>
      let rest ← prepareToolCalls permissions calls
      return ⟨.toolCall original :: .toolResult (.error original.id reason) :: rest.items,
        rest.calls⟩

/-- `ToolDispatchStatus`. -/
inductive ToolDispatchStatus where
  | continue
  | terminated (message : TurnCompletionMessage)

/-- `ToolDispatchOutcome`. -/
structure ToolDispatchOutcome where
  items : List TurnItem
  status : ToolDispatchStatus

/-- The loop of `dispatch_tool_calls` over the entries of the batch. -/
def dispatchEntries : List ToolBatchEntry → Program (Turn σ) TurnError ToolDispatchOutcome
  | [] => return ⟨[], .continue⟩
  | .immediate item :: entries => do
    let rest ← dispatchEntries entries
    return { rest with items := item :: rest.items }
  | .run run :: entries => do
    let result ← .ofExcept run.result
    let goOn (result : ToolResult) : Program (Turn σ) TurnError ToolDispatchOutcome := do
      let rest ← dispatchEntries entries
      return { rest with items := run.lifecycle.map Report.item ++ .toolResult result :: rest.items }
    match ← call (H.afterToolCall ⟨run.call, result⟩) with
    | .asIs => goOn result
    | .rewrite result => goOn result
    | .terminate result =>
      return ⟨run.lifecycle.map Report.item ++ [.toolResult result], .terminated (.text result.content)⟩

/-- `dispatch_tool_calls`. -/
def dispatchToolCalls (calls : List ToolCall) : Program (Turn σ) TurnError ToolDispatchOutcome := do
  let entries ← call (S.runToolCalls calls)
  note (.ran entries)
  dispatchEntries H entries

/-- `run_tool_round`. -/
def runToolRound (calls : List ToolCall) : Program (Turn σ) TurnError RoundOutcome := do
  updateState (·.recordToolCalls calls.length)
  let turn ← .state
  if turn.state.guard.admits turn.state.toolCallCount = false then
    return .finalAnswer turn.state.lastCompletionMessage
  else
    let preparation ← prepareToolCalls H ctx.permissions calls
    persistTurnItems S preparation.items
    if preparation.calls = [] then return .followupRequired
    else
      let dispatch ← dispatchToolCalls S H preparation.calls
      persistTurnItems S dispatch.items
      match dispatch.status with
      | .continue => return .toolCalls preparation.calls
      | .terminated message => return .terminatedByTool message

/-! ### The stream of a model -/

/-- `ModelStreamState` with its `AssistantTextAccumulator`. -/
structure ModelStreamState where
  calls : List ToolCall
  newItems : List TurnItem
  itemId : Option String
  text : String
  alreadyRecorded : Bool
  followupRequired : Bool
  observedModelOutput : Bool

def ModelStreamState.new : ModelStreamState := ⟨[], [], none, "", false, false, false⟩

/-- `AssistantTextAccumulator::push_delta` and `push_final`. -/
def ModelStreamState.push (stream : ModelStreamState) (itemId : Option String) (text : String) :
    ModelStreamState :=
  { stream with
    itemId := if stream.itemId = none then itemId else stream.itemId
    text := stream.text ++ text }

/-- `ModelStreamState::record_event`; whether the stream is complete. -/
def recordEvent (stream : ModelStreamState) (event : ModelEvent) :
    Program (Turn σ) TurnError (Bool × ModelStreamState) :=
  let seen := { stream with observedModelOutput := true }
  match event with
  | .textDelta itemId text => do
    try' (S.emitEvent (.textDelta itemId text))
    return (false, seen.push itemId text)
  | .reasoningDelta itemId summaryIndex contentIndex text => do
    try' (S.emitEvent (.reasoningDelta itemId summaryIndex contentIndex text))
    return (false, { seen with newItems := seen.newItems ++ [.reasoning itemId text] })
  | .toolCall call => return (false, { seen with calls := seen.calls ++ [call] })
  | .finalText itemId text => return (false, seen.push itemId text)
  | .recordedFinalText itemId text =>
    return (false, { seen.push itemId text with alreadyRecorded := true })
  | .followupRequired => return (false, { seen with followupRequired := true })
  | .completed usage => do
    updateState (·.recordUsage usage)
    return (true, stream)

/-- `ModelStreamConsumption`. -/
inductive ModelStreamConsumption where
  | completed (outcome : RoundOutcome)
  | steeringPending

/-- `FollowupSignal::into_round_outcome`, for the text that was committed. -/
def ModelStreamState.noToolOutcome (stream : ModelStreamState) : RoundOutcome :=
  if stream.followupRequired then .followupRequired
  else if stream.text = "" then .empty
  else .finalAnswer (.text stream.text)

/-- `AssistantTextAccumulator::commit`, the part that changes the state. -/
def commitText (stream : ModelStreamState) : Program (Turn σ) ε Unit :=
  updateState fun state ↦
    if stream.text = "" then state else { state with lastAgentMessage := some stream.text }

/-- `AssistantTextAccumulator::commit`, the items. -/
def ModelStreamState.committedItems (stream : ModelStreamState) : List TurnItem :=
  if stream.text = "" ∨ stream.alreadyRecorded then stream.newItems
  else stream.newItems ++ [.assistantText stream.itemId stream.text]

/-- The rest of `consume_model_stream` when the stream is complete: the items are persisted
and the tools are run. -/
def completeStream (stream : ModelStreamState) :
    Program (Turn σ) TurnError ModelStreamConsumption := do
  commitText stream
  persistTurnItems S stream.committedItems
  if stream.calls = [] then return .completed stream.noToolOutcome
  else return .completed (← runToolRound S H ctx stream.calls)

/-- What the waiting point of the stream sees; steering is only looked at until the model has
answered something. -/
def awaitEvent (stream : ModelStreamState) : StateM σ EarlyArrival := do
  if stream.observedModelOutput then return .arrival (← S.nextEvent)
  else S.nextEventOrSteering

/-- The loop of `consume_model_stream`, which may go round `fuel` times; `none` if it has not
ended then. -/
def consumeModelStream (stream : ModelStreamState) :
    Nat → Program (Turn σ) TurnError (Option ModelStreamConsumption)
  | 0 => return none
  | fuel + 1 => do
    match ← call (awaitEvent S stream) with
    | .steering result =>
      Program.ofExcept result
      return some .steeringPending
    | .arrival .cancelled => .fail .cancelled
    | .arrival (.event none) => return some (← completeStream S H ctx stream)
    | .arrival (.event (some event)) =>
      let (complete, stream) ← recordEvent S stream (← .ofExcept event)
      if complete then return some (← completeStream S H ctx stream)
      else consumeModelStream stream fuel

/-! ### Rounds -/

/-- `RoundLoopAction`. -/
inductive RoundLoopAction where
  | continue (promptUpdate : RoundPromptUpdate)
  | stop (message : TurnCompletionMessage)
  | retryWithoutModelRequest
  | abort (reason : TurnError)

/-- `run_model_round`, where an error is still an error. -/
def modelRound (fuel : Nat) : Program (Turn σ) TurnError (Option RoundLoopAction) := do
  updateState (·.startRound)
  applyContextPressure S H
  match ← prepareRoundPrompt S H with
  | .retryWithoutModelRequest => return some .retryWithoutModelRequest
  | .stopWithoutModelRequest message => return some (.stop message)
  | .sample prompt =>
    let turn ← .state
    let request := ⟨ctx.turnId, turn.state.roundCount, turn.activeSettings, prompt⟩
    match ← call (S.streamModel request) with
    | .cancelled sent =>
      noteRequest sent prompt
      .fail .cancelled
    | .steering sent result =>
      noteRequest sent prompt
      Program.ofExcept result
      return some .retryWithoutModelRequest
    | .stream result =>
      noteRequest true prompt
      Program.ofExcept result
      match ← consumeModelStream S H ctx .new fuel with
      | none => return none
      | some .steeringPending => return some .retryWithoutModelRequest
      | some (.completed outcome) =>
        let turn ← .state
        match ← call (H.afterModelRound ⟨outcome, turn.state.tokenUsage⟩) with
        | .continue promptUpdate => return some (.continue promptUpdate)
        | .stop message => return some (.stop message)
        | .abort reason => return some (.abort reason)

/-- `run_model_round`. -/
def runModelRound (fuel : Nat) : Program (Turn σ) ε (Option RoundLoopAction) :=
  (modelRound S H ctx fuel).handle fun reason ↦ return some (.abort reason)

/-- The first part of `apply_round_continuation`. -/
def applyPromptUpdate : RoundPromptUpdate → Program (Turn σ) ε Unit
  | .reuse => return ()
  | .replace promptItems => refresh promptItems

/-- `apply_round_continuation`. -/
def applyRoundContinuation (promptUpdate : RoundPromptUpdate) : Program (Turn σ) ε Unit := do
  applyPromptUpdate promptUpdate
  match ← call (H.prepareNextRound ctx) with
  | .reuse => return ()
  | .adjust adjustment =>
    .update fun turn ↦ { turn with activeSettings := { turn.activeSettings with
      model := adjustment.model.getD turn.activeSettings.model
      reasoning := adjustment.reasoning.or turn.activeSettings.reasoning } }

/-- `run_turn_stop_hooks`. -/
def runTurnStopHooks (message : TurnCompletionMessage) : Program (Turn σ) ε TurnStopDecision := do
  updateState (·.recordCompletionMessage message)
  let turn ← .state
  call (H.onTurnStop ⟨ctx, turn.state.lastAgentMessage⟩)

/-- `complete_turn`. -/
def completeTurn : Program (Turn σ) ε TurnResult := do
  match ← call (S.emitEvent .turnCompleted) with
  | .error reason => return .aborted (← .state).state reason
  | .ok () =>
    match ← call (H.afterTurnComplete ctx) with
    | .complete => return .complete (← .state).state
    | .wantsFollowup => return .wantsFollowup (← .state).state

/-- `abort_with_event`. -/
def abortWithEvent (reason : TurnError) : Program (Turn σ) ε TurnResult := do
  let _ ← call (S.emitEvent (.turnAborted reason.message))
  return .aborted (← .state).state reason

/-- The loop of `run_turn`, which may go round `fuel` times. -/
def runRounds : Nat → Program (Turn σ) ε (Option TurnResult)
  | 0 => return none
  | fuel + 1 => do
    if ← call S.isCancelled then return some (← abortWithEvent S .cancelled)
    else
      match ← runModelRound S H ctx fuel with
      | none => return none
      | some (.continue promptUpdate) =>
        applyRoundContinuation H ctx promptUpdate
        runRounds fuel
      | some (.stop message) =>
        match ← runTurnStopHooks H ctx message with
        | .complete => return some (← completeTurn S H ctx)
        | .continueTurn => runRounds fuel
        | .abort reason => return some (.aborted (← .state).state reason)
      | some .retryWithoutModelRequest => runRounds fuel
      | some (.abort reason) => return some (.aborted (← .state).state reason)

/-- The rounds of a turn whose prompt is prepared. -/
def startRounds (promptBase : List PromptItem) (fuel : Nat) :
    Program (Turn σ) ε (Option TurnResult) := do
  .update fun turn ↦ { turn with
    promptBase := promptBase
    activeSettings := ⟨ctx.model, ctx.reasoning, ctx.serviceTier⟩ }
  runRounds S H ctx fuel

/-- `prepare_start_context` and the rounds, for a prompt made by `build_initial_prompt`. -/
def prepareStartContext (input : List PromptItem) (fuel : Nat) :
    Program (Turn σ) ε (Option TurnResult) := do
  let promptBase := ctx.initialPromptItems ++ input
  let turn ← .state
  match ← call (H.prepareContext ⟨ctx, turn.state.transcriptDelta, input⟩) with
  | .prepared items => startRounds S H ctx (promptBase ++ items) fuel
  | .stop message =>
    match ← runTurnStopHooks H ctx message with
    | .complete => return some (← completeTurn S H ctx)
    | .continueTurn => startRounds S H ctx promptBase fuel
    | .abort reason => return some (.aborted (← .state).state reason)
  | .abort reason => return some (.aborted (← .state).state reason)

/-- `run_turn`; `none` if it has not ended after `fuel` rounds or events. -/
def runTurn (input : List PromptItem) (fuel : Nat) : Program (Turn σ) ε (Option TurnResult) := do
  if ← call S.isCancelled then return some (.aborted (← .state).state .cancelled)
  else
    match ← call (H.onTurnStart ctx) with
    | .proceed => prepareStartContext S H ctx input fuel
    | .replaceInitialPrompt promptItems =>
      prepareStartContext S H { ctx with initialPromptItems := promptItems } input fuel
    | .abort reason => return some (.aborted (← .state).state reason)

end Praxis.Loop
