import Mathlib.Data.List.Basic
import Mathlib.Tactic.Common

/-!
# Tool calls and their effects

A model answers with calls of tools (`types/call.rs`), and every call is answered by a
result.  Before a call is run its tool declares what it will read and write (`effects.rs`):
keys are paths in a domain, a key covers everything below it, and the domain `*` stands
for all of them.  Two calls conflict if they touch the same thing and one of them writes.

While it runs a tool reports what it touches to a journal, which is compared with what
was declared; the comparison is logged and has no other consequence.
-/

namespace Praxis.Loop

/-! ## Results and errors -/

/-- `TurnErrorKind`. -/
inductive TurnErrorKind where
  | cancelled
  | guard
  | hook
  | internal
  | model
  | tool
deriving DecidableEq

/-- `TurnError`. -/
structure TurnError where
  kind : TurnErrorKind
  message : String
deriving DecidableEq

/-- `TurnError::cancelled`. -/
def TurnError.cancelled : TurnError := ⟨.cancelled, "turn was cancelled"⟩

/-- `ToolCall`. -/
structure ToolCall where
  id : String
  name : String
  arguments : String
deriving DecidableEq

/-- `ToolResultStatus`. -/
inductive ToolResultStatus where
  | success
  | error
deriving DecidableEq

/-- `ToolResult`. -/
structure ToolResult where
  callId : String
  content : String
  status : ToolResultStatus
deriving DecidableEq

/-- `ToolResult::error`. -/
def ToolResult.error (callId content : String) : ToolResult := ⟨callId, content, .error⟩

/-- `TurnItem`. -/
inductive TurnItem where
  | assistantText (itemId : Option String) (text : String)
  | reasoning (itemId : Option String) (text : String)
  | toolCall (call : ToolCall)
  | toolStarted (callId name : String)
  | toolProgress (callId content : String)
  | toolResult (result : ToolResult)
  | systemText (text : String)
  | userText (text : String)
deriving DecidableEq

/-! ## Effects -/

/-- `EffectAccess`. -/
inductive EffectAccess where
  | read
  | write
  | exclusive
deriving DecidableEq

/-- `EffectKey`. -/
structure EffectKey where
  domain : String
  segments : List String
deriving DecidableEq

/-- `ToolEffect`. -/
structure ToolEffect where
  key : EffectKey
  access : EffectAccess
deriving DecidableEq

/-- `ToolEffects`. -/
structure ToolEffects where
  effects : List ToolEffect
deriving DecidableEq

/-! ## The journal -/

/-- `EffectValidation`. -/
structure EffectValidation where
  observed : ToolEffects
  unexpected : List ToolEffect
deriving DecidableEq

end Praxis.Loop
