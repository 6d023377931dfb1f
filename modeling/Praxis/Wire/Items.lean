import Praxis.Wire.Value

/-!
# Items and events

The items of a conversation as the wire formats read and write them, and the events a provider's
answer becomes.  An item has the fields that the wire reads or sets to something that depends on
its input.  The variants that no wire format sends are one.
-/

namespace Praxis.Wire

/-! ## Items -/

/-- `ContentItem`. -/
inductive ContentItem where
  | inputText (text : Text)
  | inputImage (imageUrl : Text)
  | outputText (text : Text)
  deriving DecidableEq

/-- `ReasoningItemContent`. -/
inductive ReasoningItemContent where
  | reasoningText (text : Text)
  | text (text : Text)
  deriving DecidableEq

/-- `FunctionCallOutputBody`, with content items as they are serialized. -/
inductive FunctionCallOutputBody where
  | text (content : Text)
  | contentItems (items : List Value)

/-- `FunctionCallOutputPayload`. -/
structure FunctionCallOutputPayload where
  body : FunctionCallOutputBody
  success : Option Bool

/-- `LocalShellExecAction`. -/
structure LocalShellExecAction where
  command : List Text
  timeoutMs : Option UInt64
  workingDirectory : Option Text

/-- `ResponseItem`. -/
inductive ResponseItem where
  | message (role : Text) (content : List ContentItem)
  | reasoning (id : Text) (content : Option (List ReasoningItemContent))
      (encryptedContent : Option Text)
  | localShellCall (id callId : Option Text) (exec : LocalShellExecAction)
  | functionCall (providerMetadata : Option Value) (name arguments callId : Text)
  | toolSearchCall (callId : Option Text) (execution : Text) (arguments : Value)
  | functionCallOutput (callId : Text) (output : FunctionCallOutputPayload)
  | customToolCall (callId name input : Text)
  | customToolCallOutput (callId : Text) (name : Option Text) (output : FunctionCallOutputPayload)
  | toolSearchOutput (callId : Option Text) (status execution : Text) (tools : List Value)
  | other

/-- The message of an assistant with one text. -/
def assistantMessage (text : Text) : ResponseItem :=
  .message "assistant".toList [.outputText text]

/-- `common_reasoning_item_with_id`. -/
def commonReasoningItemWithId (id text : Text) : ResponseItem :=
  .reasoning id (some [.reasoningText text]) none

/-! ## Token usage -/

/-- The sum of two `i64` in a release build, which wraps around. -/
def wrappingAddI64 (a b : Int) : Int := (a + b).bmod (2 ^ 64)

/-- `TokenUsage`. -/
structure TokenUsage where
  inputTokens : Int
  cachedInputTokens : Int
  cacheReportedInputTokens : Int
  outputTokens : Int
  reasoningOutputTokens : Int
  totalTokens : Int
  deriving DecidableEq

/-- `parse_common_usage`. -/
def parseCommonUsage (usage : Value) : TokenUsage :=
  let promptCacheHitTokens := max ((usage.int "prompt_cache_hit_tokens").getD 0) 0
  let promptCacheMissTokens := max ((usage.int "prompt_cache_miss_tokens").getD 0) 0
  let cacheSplitInputTokens := wrappingAddI64 promptCacheHitTokens promptCacheMissTokens
  let hasDeepseekCacheSplit := (usage.get "prompt_cache_hit_tokens").isSome ||
    (usage.get "prompt_cache_miss_tokens").isSome
  let openaiCacheDetails := (usage.get "prompt_tokens_details").bind (·.get "cached_tokens")
  let inputTokens := max (max (((usage.int "prompt_tokens").or (usage.int "input_tokens")).getD
    cacheSplitInputTokens) 0) cacheSplitInputTokens
  let outputTokens :=
    max (((usage.int "completion_tokens").or (usage.int "output_tokens")).getD 0) 0
  let openaiCachedInputTokens := max ((openaiCacheDetails.bind Value.asI64).getD 0) 0
  { inputTokens
    cachedInputTokens := min (max openaiCachedInputTokens promptCacheHitTokens) inputTokens
    cacheReportedInputTokens :=
      if hasDeepseekCacheSplit then max cacheSplitInputTokens inputTokens
      else if openaiCacheDetails.isSome then inputTokens
      else 0
    outputTokens
    reasoningOutputTokens := max ((((usage.get "completion_tokens_details").bind
      (·.int "reasoning_tokens"))).getD 0) 0
    totalTokens :=
      max ((usage.int "total_tokens").getD (wrappingAddI64 inputTokens outputTokens)) 0 }

/-- `common_usage_value`. -/
def commonUsageValue (response : Value) : Option Value :=
  ((response.get "usage").filter (!·.isNull)).or
    (((response.list "choices").bind (·.head?)).bind (·.get "usage") |>.filter (!·.isNull))

/-! ## Events -/

/-- `ResponseEvent`, as far as the wire formats send it. -/
inductive ResponseEvent where
  | created
  | outputItemAdded (item : ResponseItem)
  | outputItemDone (item : ResponseItem)
  | outputTextDelta (delta : Text)
  | reasoningContentDelta (delta : Text) (contentIndex : Nat)
  | completed (responseId : Text) (tokenUsage : Option TokenUsage)

/-- The items that events tell the end of. -/
def doneItems (events : List ResponseEvent) : List ResponseItem :=
  events.filterMap fun
    | .outputItemDone item => some item
    | _ => none

@[simp]
theorem doneItems_append (front back : List ResponseEvent) :
    doneItems (front ++ back) = doneItems front ++ doneItems back := List.filterMap_append ..

end Praxis.Wire
