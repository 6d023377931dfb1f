import Mathlib.Control.Basic
import Praxis.Loop.Tool

/-!
# The hooks of a turn

A turn asks its hooks (`hooks.rs`) at ten points what to do.  A hook may keep a state and
look at the world, so that an answer is a computation on the world.  `NoopHooks` gives the
answers that the trait has as defaults, and `ChainedHooks` (`compose.rs` and the modules
below it) asks one layer of hooks and then, if that one has no opinion, another.
-/

namespace Praxis.Loop

/-! ## What a turn is about -/

/-- `PromptItem`. -/
inductive PromptItem where
  | systemText (text : String)
  | userText (text : String)
  | assistantText (text : String)
  | toolCall (callId name arguments : String)
  | imageUrl (url : String)
  | localImagePath (path : String)
  | skill (name path : String)
  | mention (name path : String)
  | toolResult (callId content : String) (status : ToolResultStatus)
  | opaqueData (format data : String)
deriving DecidableEq

/-- `TokenUsage`. -/
structure TokenUsage where
  input : UInt64
  output : UInt64
  total : UInt64
  reasoning : UInt64
deriving DecidableEq

/-- `TokenUsage::add_assign`. -/
def TokenUsage.addAssign (usage more : TokenUsage) : TokenUsage where
  input := usage.input + more.input
  output := usage.output + more.output
  total := usage.total + more.total
  reasoning := usage.reasoning + more.reasoning

/-- `TokenLedger`. -/
structure TokenLedger where
  cumulative : TokenUsage
  turnDelta : TokenUsage
deriving DecidableEq

/-- `TokenLedger::record_usage`. -/
def TokenLedger.recordUsage (ledger : TokenLedger) (usage : TokenUsage) : TokenLedger where
  cumulative := ledger.cumulative.addAssign usage
  turnDelta := ledger.turnDelta.addAssign usage

/-- `ModelSpec`. -/
structure ModelSpec where
  slug : String
  providerId : Option String
  contextWindow : Option UInt64
  inputModalities : List String
deriving DecidableEq

/-- `EffectivePermissions`. -/
structure EffectivePermissions where
  write : Bool
  network : Bool
  approvalRequired : Bool
deriving DecidableEq

/-- `TurnContext`. -/
structure TurnContext where
  turnId : String
  model : ModelSpec
  reasoning : Option String
  serviceTier : Option String
  permissions : EffectivePermissions
  initialPromptItems : List PromptItem
deriving DecidableEq

/-- `SteeringMessage`. -/
structure SteeringMessage where
  promptItems : List PromptItem
deriving DecidableEq

/-- `TurnCompletionMessage`. -/
inductive TurnCompletionMessage where
  | noMessage
  | text (text : String)
deriving DecidableEq

/-- `RoundOutcome`. -/
inductive RoundOutcome where
  | empty
  | finalAnswer (message : TurnCompletionMessage)
  | followupRequired
  | toolCalls (calls : List ToolCall)
  | terminatedByTool (message : TurnCompletionMessage)
deriving DecidableEq

/-! ## Decisions -/

inductive TurnStartDecision where
  | proceed
  | replaceInitialPrompt (promptItems : List PromptItem)
  | abort (reason : TurnError)
deriving DecidableEq

inductive ContextPressureDecision where
  | proceed
  | compacted (promptItems : List PromptItem) (transcriptItems : List TurnItem)
  | abort (reason : TurnError)
deriving DecidableEq

inductive PrepareContextDecision where
  | prepared (items : List PromptItem)
  | stop (message : TurnCompletionMessage)
  | abort (reason : TurnError)
deriving DecidableEq

inductive SteeringDecision where
  | injectAndContinue
  | dropAndContinue
deriving DecidableEq

inductive ToolDecision where
  | allow
  | block (reason : String)
  | modify (call : ToolCall)
deriving DecidableEq

inductive ToolResultDecision where
  | asIs
  | rewrite (result : ToolResult)
  | terminate (result : ToolResult)
deriving DecidableEq

inductive RoundPromptUpdate where
  | reuse
  | replace (promptItems : List PromptItem)
deriving DecidableEq

inductive RoundDecision where
  | continue (promptUpdate : RoundPromptUpdate)
  | stop (message : TurnCompletionMessage)
  | abort (reason : TurnError)
deriving DecidableEq

structure RoundAdjustment where
  model : Option ModelSpec
  reasoning : Option String
deriving DecidableEq

inductive PrepareNextRoundDecision where
  | reuse
  | adjust (adjustment : RoundAdjustment)
deriving DecidableEq

inductive TurnStopDecision where
  | complete
  | continueTurn
  | abort (reason : TurnError)
deriving DecidableEq

inductive TurnCompletionDecision where
  | complete
  | wantsFollowup
deriving DecidableEq

structure ContextPressureView where
  usage : TokenLedger
  contextWindow : Option UInt64

structure PrepareContextView where
  ctx : TurnContext
  transcriptDelta : List TurnItem
  input : List PromptItem

structure ToolCallView where
  call : ToolCall
  permissions : EffectivePermissions

structure ToolResultView where
  call : ToolCall
  result : ToolResult

structure RoundOutcomeView where
  outcome : RoundOutcome
  usage : TokenLedger

structure TurnStopView where
  ctx : TurnContext
  lastAgentMessage : Option String

/-! ## Hooks -/

/-- `TurnHooks`, on a world of type `σ`. -/
@[ext]
structure TurnHooks (σ : Type) where
  onTurnStart : TurnContext → StateM σ TurnStartDecision
  onContextPressure : ContextPressureView → StateM σ ContextPressureDecision
  prepareContext : PrepareContextView → StateM σ PrepareContextDecision
  onSteeringInput : List SteeringMessage → StateM σ SteeringDecision
  beforeToolCall : ToolCallView → StateM σ ToolDecision
  afterToolCall : ToolResultView → StateM σ ToolResultDecision
  afterModelRound : RoundOutcomeView → StateM σ RoundDecision
  prepareNextRound : TurnContext → StateM σ PrepareNextRoundDecision
  onTurnStop : TurnStopView → StateM σ TurnStopDecision
  afterTurnComplete : TurnContext → StateM σ TurnCompletionDecision

variable {σ : Type}

/-- The default of `after_model_round`. -/
def defaultAfterModelRound : RoundOutcome → RoundDecision
  | .followupRequired | .toolCalls _ => .continue .reuse
  | .finalAnswer message | .terminatedByTool message => .stop message
  | .empty => .stop .noMessage

/-- `NoopHooks`: the defaults of the trait. -/
def noopHooks : TurnHooks σ where
  onTurnStart _ := pure .proceed
  onContextPressure _ := pure .proceed
  prepareContext _ := pure (.prepared [])
  onSteeringInput _ := pure .injectAndContinue
  beforeToolCall _ := pure .allow
  afterToolCall _ := pure .asIs
  afterModelRound view := pure (defaultAfterModelRound view.outcome)
  prepareNextRound _ := pure .reuse
  onTurnStop _ := pure .complete
  afterTurnComplete _ := pure .complete

namespace TurnHooks

variable (first second : TurnHooks σ)

/-- `chain_on_turn_start`. -/
def chainOnTurnStart (ctx : TurnContext) : StateM σ TurnStartDecision := do
  match ← first.onTurnStart ctx with
  | .proceed => second.onTurnStart ctx
  | decision => return decision

/-- `chain_on_context_pressure`. -/
def chainOnContextPressure (view : ContextPressureView) : StateM σ ContextPressureDecision := do
  match ← first.onContextPressure view with
  | .proceed => second.onContextPressure view
  | decision => return decision

/-- `chain_prepare_context`. -/
def chainPrepareContext (view : PrepareContextView) : StateM σ PrepareContextDecision := do
  match ← first.prepareContext view with
  | .prepared items =>
    match ← second.prepareContext view with
    | .prepared more => return .prepared (items ++ more)
    | decision => return decision
  | decision => return decision

/-- `chain_on_steering_input`. -/
def chainOnSteeringInput (messages : List SteeringMessage) : StateM σ SteeringDecision := do
  match ← first.onSteeringInput messages with
  | .dropAndContinue => return .dropAndContinue
  | .injectAndContinue => second.onSteeringInput messages

/-- `chain_before_tool_call`. -/
def chainBeforeToolCall (view : ToolCallView) : StateM σ ToolDecision := do
  match ← first.beforeToolCall view with
  | .allow => second.beforeToolCall view
  | .block reason => return .block reason
  | .modify modified =>
    match ← second.beforeToolCall { view with call := modified } with
    | .allow => return .modify modified
    | decision => return decision

/-- `chain_after_tool_call`. -/
def chainAfterToolCall (view : ToolResultView) : StateM σ ToolResultDecision := do
  match ← first.afterToolCall view with
  | .asIs => second.afterToolCall view
  | .terminate result => return .terminate result
  | .rewrite result =>
    match ← second.afterToolCall { view with result := result } with
    | .asIs => return .rewrite result
    | decision => return decision

/-- `chain_after_model_round`. -/
def chainAfterModelRound (view : RoundOutcomeView) : StateM σ RoundDecision := do
  match ← first.afterModelRound view with
  | .continue .reuse => second.afterModelRound view
  | decision => return decision

/-- `chain_prepare_next_round`. -/
def chainPrepareNextRound (ctx : TurnContext) : StateM σ PrepareNextRoundDecision := do
  match ← first.prepareNextRound ctx with
  | .reuse => second.prepareNextRound ctx
  | decision => return decision

/-- `chain_on_turn_stop`. -/
def chainOnTurnStop (view : TurnStopView) : StateM σ TurnStopDecision := do
  match ← first.onTurnStop view with
  | .complete => second.onTurnStop view
  | decision => return decision

/-- `chain_after_turn_complete`. -/
def chainAfterTurnComplete (ctx : TurnContext) : StateM σ TurnCompletionDecision := do
  match ← first.afterTurnComplete ctx with
  | .complete => second.afterTurnComplete ctx
  | .wantsFollowup => return .wantsFollowup

/-- `ChainedHooks`. -/
def chained : TurnHooks σ where
  onTurnStart := chainOnTurnStart first second
  onContextPressure := chainOnContextPressure first second
  prepareContext := chainPrepareContext first second
  onSteeringInput := chainOnSteeringInput first second
  beforeToolCall := chainBeforeToolCall first second
  afterToolCall := chainAfterToolCall first second
  afterModelRound := chainAfterModelRound first second
  prepareNextRound := chainPrepareNextRound first second
  onTurnStop := chainOnTurnStop first second
  afterTurnComplete := chainAfterTurnComplete first second

end TurnHooks

end Praxis.Loop
