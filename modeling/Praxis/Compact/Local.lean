import Praxis.Context.History

/-!
# Local compaction

A thread that has grown too long is compacted: its older items are summarised by the model
and the recent ones are retained (`core/src/compact.rs`).  `prepareLocalCompaction` chooses
where the retained part starts.  It goes back over the items until enough tokens are
gathered, and from there forward to the first item at which a retained part may start.
Where the summarised part does not fit the context window either, its oldest items are cut
off in the same way (`shrinkSummaryForOverflow`).

The size of an item is a parameter: it is taken from the serialised item.
-/

namespace Praxis.Compact

open Foundation Protocol Context

/-! ## Items -/

/-- `SUMMARY_PREFIX`. -/
def summaryLead : String :=
  "Another language model started to solve this problem and produced a summary of its thinking " ++
  "process. You also have access to the state of the tools that were used by that language " ++
  "model. Use this to build on the work that has already been done and avoid duplicating work. " ++
  "Here is the summary produced by the other language model, use the information in this " ++
  "summary to assist with your own analysis:"

/-- `content_items_to_text`. -/
def contentItemsToText (content : List ContentItem) : Option String :=
  let pieces := content.filterMap fun
    | .inputText text | .outputText text => if text.val.isEmpty then none else some text.val
    | .inputImage _ => none
  if pieces.isEmpty then none else some ("\n".intercalate pieces)

/-- `strip_summary_prefix`. -/
def stripSummaryLead (message : String) : Option (List Char) :=
  message.toList.dropPrefix? (summaryLead ++ "\n").toList

/-- `summary_from_item`. -/
def summaryFromItem : ResponseItem → Option (List Char)
  | .message _ role content _ =>
    if role.val ≠ "user" then none
    else
      ((contentItemsToText content).bind stripSummaryLead).map fun text ↦ trimEnd (trimStart text)
  | _ => none

/-- `is_summary_item`. -/
def isSummaryItem (item : ResponseItem) : Bool := (summaryFromItem item).isSome

variable (X : Context.Externals)

/-- `should_include_in_local_compaction`. -/
def shouldIncludeInLocalCompaction (item : ResponseItem) : Bool :=
  match item with
  | .message _ role content _ =>
    if role.val = "developer" then false
    else if role.val = "system" then false
    else if role.val = "user" then
      !isContextualUserMessageContent X content && !isSummaryItem item
    else true
  | .workspaceCheckpoint _ | .other => false
  | .api .compaction _ => false
  | _ => true

/-- `is_valid_retained_suffix_start`. -/
def isValidRetainedSuffixStart (item : ResponseItem) : Bool :=
  match item with
  | .message _ role content _ =>
    if role.val = "user" then !isContextualUserMessageContent X content && !isSummaryItem item
    else role.val = "assistant"
  | .functionCall .. | .customToolCall .. | .toolSearchCall .. | .localShellCall ..
  | .api .webSearchCall _ | .imageGenerationCall .. => true
  | _ => false

/-- A user turn starts here. -/
def startsUserTurn (item : ResponseItem) : Bool :=
  isUserTurnBoundary X item && !isSummaryItem item

/-- `output_call_id`. -/
def outputCallId : ResponseItem → Option Str
  | .functionCallOutput callId _ | .customToolCallOutput callId _ _ => some callId
  | .toolSearchOutput callId _ _ _ => callId
  | _ => none

/-- `tool_call_id`. -/
def toolCallId : ResponseItem → Option Str
  | .functionCall callId _ | .customToolCall callId _ => some callId
  | .toolSearchCall callId _ | .localShellCall callId _ => callId
  | _ => none

/-- `is_tool_output`. -/
def isToolOutput : ResponseItem → Bool
  | .functionCallOutput .. | .customToolCallOutput .. | .toolSearchOutput .. => true
  | _ => false

/-! ## Sizes -/

/-- A value of an `i64`, where a result beyond its range is the nearest one in it. -/
def clampI64 (n : Int) : Int := max (-2 ^ 63) (min n (2 ^ 63 - 1))

variable (bytes : ResponseItem → Int)

/-- `estimate_item_tokens_for_local_compaction`. -/
def estimateItemTokens (item : ResponseItem) : Int := (clampI64 (bytes item + 3)).tdiv 4

/-- Goes back from an index until enough tokens are gathered. -/
def scanBack (items : List ResponseItem) (enough : Int) : Int → Nat → Option Nat
  | _, 0 => none
  | tokens, index + 1 =>
    let tokens := clampI64 (tokens + (items[index]?.map (estimateItemTokens bytes)).getD 0)
    if enough ≤ tokens then some index else scanBack items enough tokens index

/-- The first index from a start on at which the predicate holds. -/
def findFrom (p : ResponseItem → Bool) (items : List ResponseItem) (start : Nat) : Option Nat :=
  ((items.drop start).findIdx? p).map (· + start)

/-! ## Where to cut -/

/-- `LOCAL_COMPACT_KEEP_RECENT_TOKENS`. -/
def keepRecentTokens : Int := 20000

inductive LocalCompactMode where
  | auto
  | manual
  deriving DecidableEq

/-- `matching_tool_call_index_before`. -/
def matchingToolCallIndexBefore (items : List ResponseItem) (outputIndex : Nat) : Option Nat := do
  let callId ← items[outputIndex]?.bind outputCallId
  let back ← (items.take outputIndex).reverse.findIdx? fun item ↦ toolCallId item = some callId
  return outputIndex - 1 - back

/-- `choose_local_compaction_cut_index`. -/
def chooseLocalCompactionCutIndex (items : List ResponseItem) (mode : LocalCompactMode) : Nat :=
  if items.isEmpty then 0
  else if mode = .manual then items.length
  else
    match scanBack bytes items keepRecentTokens 0 items.length with
    | none => items.length
    | some tentative =>
      match findFrom (startsUserTurn X) items tentative with
      | some userBoundary => userBoundary
      | none =>
        match findFrom (isValidRetainedSuffixStart X) items tentative with
        | some validStart => validStart
        | none =>
          if items[tentative]?.any isToolOutput then
            (matchingToolCallIndexBefore items tentative).getD 0
          else 0

/-- `safe_recent_suffix_start`. -/
def safeRecentSuffixStart (items : List ResponseItem) (targetTokens : Int) : Option Nat :=
  if items.isEmpty then none
  else
    let tentative := (scanBack bytes items (max targetTokens 1) 0 items.length).getD 0
    if tentative = 0 then none
    else
      (findFrom (startsUserTurn X) items tentative).or
        (findFrom (isValidRetainedSuffixStart X) items tentative)

/-! ## The plan -/

/-- `LocalCompactionPlan`, without the summary of the model. -/
structure LocalCompactionPlan where
  summaryItems : List ResponseItem
  initialSummaryItemCount : Nat
  initialSummaryTokens : Int
  overflowShrinkStage : Nat
  retainedItems : List ResponseItem
  previousSummary : Option (List Char)

/-- The items of a history that are compacted. -/
def compactableItems (promptHistory : List ResponseItem) : List ResponseItem :=
  promptHistory.filter fun item ↦ !isSummaryItem item && shouldIncludeInLocalCompaction X item

/-- `prepare_local_compaction`. -/
def prepareLocalCompaction (promptHistory : List ResponseItem) (mode : LocalCompactMode) :
    LocalCompactionPlan :=
  let items := compactableItems X promptHistory
  let cutIndex := chooseLocalCompactionCutIndex X bytes items mode
  let summaryItems := items.take cutIndex
  { summaryItems := summaryItems
    initialSummaryItemCount := summaryItems.length
    initialSummaryTokens := (summaryItems.map (estimateItemTokens bytes)).foldl
      (fun total tokens ↦ clampI64 (total + tokens)) 0
    overflowShrinkStage := 0
    retainedItems := items.drop cutIndex
    previousSummary := (promptHistory.filterMap summaryFromItem).getLast? }

/-- `SHRINK_RATIOS`. -/
def shrinkRatios : List Int := [70, 50, 35]

/-- The loop of `shrink_summary_for_overflow`, over the ratios that are left. -/
def LocalCompactionPlan.shrinkLoop (plan : LocalCompactionPlan) :
    List Int → LocalCompactionPlan × Bool
  | [] => (plan, false)
  | ratio :: ratios =>
    let next := { plan with overflowShrinkStage := plan.overflowShrinkStage + 1 }
    let targetTokens := (clampI64 (plan.initialSummaryTokens * ratio)).tdiv 100
    match safeRecentSuffixStart X bytes plan.summaryItems targetTokens with
    | none => shrinkLoop next ratios
    | some start =>
      if start > 0 then ({ next with summaryItems := plan.summaryItems.drop start }, true)
      else shrinkLoop next ratios

/-- `shrink_summary_for_overflow`. -/
def LocalCompactionPlan.shrinkSummaryForOverflow (plan : LocalCompactionPlan) :
    LocalCompactionPlan × Bool :=
  plan.shrinkLoop X bytes (shrinkRatios.drop plan.overflowShrinkStage)

end Praxis.Compact
