import Praxis.Foundation.Steps
import Praxis.Foundation.Indexed
import Praxis.Loop.Tool

/-!
# Running a batch of tool calls

`prepare_and_run_tool_calls` (`tool/batch/run.rs`) prepares the calls of a batch one after
another, in the order in which the provider gave them.  A prepared call waits for the
earlier calls that it conflicts with and that have not completed; calls without such
dependencies run at once, also while later ones are still being prepared.

The function is a single task, and a step here is what happens between two of its waiting
points: the next call is looked at, a ready call is started, a preparation or a run ends.
In between the token may be cancelled at any time, and which preparation or run ends next is
open.  The vectors `nodes`, `effects`, `remaining_dependencies`, `dependents`, `completed`
and `ordered` always grow together and are one list of `Node`s.
-/

namespace Praxis.Loop

open Foundation

/-! ## Runs -/

/-- A report that a tool makes to `RecordedToolLifecycle`. -/
inductive Report where
  | started (call : ToolCall)
  | progress (callId content : String)
deriving DecidableEq

/-- The item that is recorded for a report. -/
def Report.item : Report → TurnItem
  | started call => .toolStarted call.id call.name
  | progress callId content => .toolProgress callId content

/-- `ToolRun`; the items of its lifecycle are those of the reports. -/
structure ToolRun where
  call : ToolCall
  result : Except TurnError ToolResult
  lifecycle : List Report
  effectValidation : EffectValidation
deriving DecidableEq

/-! ## The scheduler -/

/-- `ToolBatchEntry`. -/
inductive ToolBatchEntry where
  | immediate (item : TurnItem)
  | run (run : ToolRun)
deriving DecidableEq

end Praxis.Loop
