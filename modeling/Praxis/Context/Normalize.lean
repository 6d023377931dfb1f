import Praxis.Context.History
import Praxis.Foundation.Pairing

/-!
# Normalisation of the prompt

What `for_prompt` (`context_manager/history.rs`, `context_manager/normalize.rs`)
makes of a history before it is sent to the model: a call without an output gets
one, an output without a call is removed, images are replaced when the model does
not read them, and checkpoints are left out.

Calls and outputs fall in two families.  The calls of functions, of custom tools
and of the local shell share their identifiers and their outputs; tool searches
have identifiers and outputs of their own, and an output of a search on the server
needs no call.  In the result both families are paired (`Paired`), the other items
are as they were, and a second normalisation changes nothing.

`remove_last_item` removes one counterpart of the item.  That keeps a paired history
paired when no two calls and no two outputs of a family have one identifier
(`DistinctIds`); with a repeated output it does not (`removeLastItem_repeated_output`).
-/

namespace Praxis.Context

open Foundation Protocol

/-! ## Identifiers -/

/-- `tool_call_id`. -/
def toolCallId : ResponseItem → Option Str
  | .functionCall callId _ => some callId
  | .customToolCall callId _ => some callId
  | .localShellCall callId _ => callId
  | _ => none

/-- `tool_output_call_id`. -/
def toolOutputCallId : ResponseItem → Option Str
  | .functionCallOutput callId _ => some callId
  | .customToolCallOutput callId _ _ => some callId
  | _ => none

/-- The identifier of a tool search. -/
def toolSearchCallId : ResponseItem → Option Str
  | .toolSearchCall callId _ => callId
  | _ => none

/-- The identifier in the output of a tool search. -/
def toolSearchOutputCallId : ResponseItem → Option Str
  | .toolSearchOutput callId _ _ _ => callId
  | _ => none

/-- The output of a tool search on the server. -/
def isServerSearchOutput : ResponseItem → Bool
  | .toolSearchOutput _ _ execution _ => execution.val == "server"
  | _ => false

/-! ## The passes -/

/-- `FunctionCallOutputPayload::from_text("aborted")`. -/
def abortedOutput : FunctionCallOutputPayload := .fromText (.lit "aborted")

/-- What `ensure_call_outputs_present` inserts behind an item. -/
def missingOutput (items : List ResponseItem) : ResponseItem → Option ResponseItem
  | .functionCall callId _ =>
    if items.any fun i ↦ toolOutputCallId i == some callId then none
    else some (.functionCallOutput callId abortedOutput)
  | .toolSearchCall (some callId) _ =>
    if items.any fun i ↦ toolSearchOutputCallId i == some callId then none
    else some (.toolSearchOutput (some callId) (.lit "completed") (.lit "client") [])
  | .customToolCall callId _ =>
    if items.any fun i ↦ toolOutputCallId i == some callId then none
    else some (.customToolCallOutput callId none abortedOutput)
  | .localShellCall (some callId) _ =>
    if items.any fun i ↦ toolOutputCallId i == some callId then none
    else some (.functionCallOutput callId abortedOutput)
  | _ => none

/-- `ensure_call_outputs_present`. -/
def ensureCallOutputsPresent (items : List ResponseItem) : List ResponseItem :=
  insertBehind (missingOutput items) items

/-- What `remove_orphan_outputs` retains, for the identifiers of the calls. -/
def hasMatch (toolCallIds toolSearchCallIds : List Str) : ResponseItem → Bool
  | .functionCallOutput callId _ => toolCallIds.contains callId
  | .customToolCallOutput callId _ _ => toolCallIds.contains callId
  | .toolSearchOutput callId _ execution _ =>
    if execution.val == "server" then true
    else
      match callId with
      | some callId => toolSearchCallIds.contains callId
      | none => true
  | _ => true

/-- `remove_orphan_outputs`. -/
def removeOrphanOutputs (items : List ResponseItem) : List ResponseItem :=
  items.filter (hasMatch (items.filterMap toolCallId) (items.filterMap toolSearchCallId))

/-- `remove_corresponding_for`. -/
def removeCorrespondingFor (items : List ResponseItem) : ResponseItem → List ResponseItem
  | .functionCall callId _ => items.eraseP fun i ↦ toolOutputCallId i == some callId
  | .functionCallOutput callId _ => items.eraseP fun i ↦ toolCallId i == some callId
  | .toolSearchCall (some callId) _ =>
    items.eraseP fun i ↦ toolSearchOutputCallId i == some callId
  | .toolSearchOutput (some callId) _ _ _ =>
    items.eraseP fun i ↦ toolSearchCallId i == some callId
  | .customToolCall callId _ => items.eraseP fun i ↦ toolOutputCallId i == some callId
  | .customToolCallOutput callId _ _ => items.eraseP fun i ↦ toolCallId i == some callId
  | .localShellCall (some callId) _ => items.eraseP fun i ↦ toolOutputCallId i == some callId
  | _ => items

/-- `InputModality`. -/
inductive InputModality where
  | text
  | image
deriving DecidableEq

/-- `IMAGE_CONTENT_OMITTED_PLACEHOLDER`. -/
def imageContentOmittedPlaceholder : Str :=
  .lit "image content omitted because you do not support image input"

/-- The content of a message without its images. -/
def stripContent : ContentItem → ContentItem
  | .inputImage _ => .inputText imageContentOmittedPlaceholder
  | item => item

/-- The content of an output without its images. -/
def stripOutputContent : FunctionCallOutputContentItem → FunctionCallOutputContentItem
  | .inputImage _ _ => .inputText imageContentOmittedPlaceholder
  | item => item

/-- An output without its images. -/
def stripOutput (output : FunctionCallOutputPayload) : FunctionCallOutputPayload :=
  match output.body with
  | .contentItems items => { output with body := .contentItems (items.map stripOutputContent) }
  | .text _ => output

/-- An item without its images. -/
def stripImages : ResponseItem → ResponseItem
  | .message id role content phase => .message id role (content.map stripContent) phase
  | .functionCallOutput callId output => .functionCallOutput callId (stripOutput output)
  | .customToolCallOutput callId name output =>
    .customToolCallOutput callId name (stripOutput output)
  | .imageGenerationCall _ fields => .imageGenerationCall (.lit "" Str.fits_empty) fields
  | item => item

/-- What `strip_images_when_unsupported` makes of an item. -/
def stripWhenUnsupported (inputModalities : List InputModality) (item : ResponseItem) :
    ResponseItem :=
  if inputModalities.contains .image then item else stripImages item

/-- `strip_images_when_unsupported`. -/
def stripImagesWhenUnsupported (inputModalities : List InputModality)
    (items : List ResponseItem) : List ResponseItem :=
  items.map (stripWhenUnsupported inputModalities)

/-- `normalize_history`. -/
def normalizeHistory (inputModalities : List InputModality) (items : List ResponseItem) :
    List ResponseItem :=
  stripImagesWhenUnsupported inputModalities
    (removeOrphanOutputs (ensureCallOutputsPresent items))

/-- `WorkspaceCheckpoint`. -/
def isWorkspaceCheckpoint : ResponseItem → Bool
  | .workspaceCheckpoint _ => true
  | _ => false

/-- `for_prompt`. -/
def forPrompt (inputModalities : List InputModality) (items : List ResponseItem) :
    List ResponseItem :=
  (normalizeHistory inputModalities items).filter fun item ↦ !isWorkspaceCheckpoint item

/-- `remove_last_item`: the items that are left, and whether there was one to remove. -/
def removeLastItem (items : List ResponseItem) : List ResponseItem × Bool :=
  match items.getLast? with
  | some removed => (removeCorrespondingFor items.dropLast removed, true)
  | none => (items, false)

/-! ## Paired histories -/

/-- Calls and outputs of both families are paired. -/
structure Paired (items : List ResponseItem) : Prop where
  tools : Pairs toolCallId toolOutputCallId (fun _ ↦ true) items
  searches : Pairs toolSearchCallId toolSearchOutputCallId (fun i ↦ !isServerSearchOutput i) items

instance (items : List ResponseItem) : Decidable (Paired items) :=
  decidable_of_iff
    (Pairs toolCallId toolOutputCallId (fun _ ↦ true) items ∧
      Pairs toolSearchCallId toolSearchOutputCallId (fun i ↦ !isServerSearchOutput i) items)
    ⟨fun h ↦ ⟨h.1, h.2⟩, fun h ↦ ⟨h.tools, h.searches⟩⟩

/-- No two calls and no two outputs of a family have one identifier. -/
structure DistinctIds (items : List ResponseItem) : Prop where
  toolCalls : (items.filterMap toolCallId).Nodup
  toolOutputs : (items.filterMap toolOutputCallId).Nodup
  searchCalls : (items.filterMap toolSearchCallId).Nodup
  searchOutputs : (items.filterMap toolSearchOutputCallId).Nodup

/-- An item that is neither an output nor a checkpoint. -/
def isPlain : ResponseItem → Bool
  | .functionCallOutput _ _ | .customToolCallOutput _ _ _ | .toolSearchOutput _ _ _ _
  | .workspaceCheckpoint _ => false
  | _ => true

/-! ## What the passes do -/

variable {items : List ResponseItem} {x y : ResponseItem}

/-- An inserted output answers the call it stands behind, and is no call. -/
theorem missingOutput_spec (h : missingOutput items x = some y) :
    toolOutputCallId y = toolCallId x ∧ toolSearchOutputCallId y = toolSearchCallId x ∧
      toolCallId y = none ∧ toolSearchCallId y = none ∧ isPlain y = false := by
  unfold missingOutput at h
  split at h
  all_goals first
    | cases h
    | (split at h
       · cases h
       · cases h
         exact ⟨rfl, rfl, rfl, rfl, rfl⟩)

/-- Nothing is inserted behind an item that is no call or has an output. -/
theorem missingOutput_eq_none_iff :
    missingOutput items x = none ↔
      (∀ id, toolCallId x = some id → ∃ y ∈ items, toolOutputCallId y = some id) ∧
      (∀ id, toolSearchCallId x = some id → ∃ y ∈ items, toolSearchOutputCallId y = some id) := by
  cases x with
  | localShellCall callId => cases callId <;> simp [missingOutput, toolCallId, toolSearchCallId]
  | toolSearchCall callId => cases callId <;> simp [missingOutput, toolCallId, toolSearchCallId]
  | _ => simp [missingOutput, toolCallId, toolSearchCallId]

/-- What is retained: an output whose call is there, and all that is no output. -/
theorem hasMatch_iff {tools searches : List Str} :
    hasMatch tools searches y = true ↔
      (∀ id, toolOutputCallId y = some id → id ∈ tools) ∧
      (isServerSearchOutput y = false → ∀ id, toolSearchOutputCallId y = some id →
        id ∈ searches) := by
  cases y with
  | toolSearchOutput callId status execution tools =>
    by_cases hserver : (execution.val == "server") = true
    · simp [hasMatch, toolOutputCallId, isServerSearchOutput, hserver]
    · cases callId <;>
        simp [hasMatch, toolOutputCallId, toolSearchOutputCallId, isServerSearchOutput, hserver]
  | _ => simp [hasMatch, toolOutputCallId, toolSearchOutputCallId]

section Roles

variable {id : Str}

/-- A tool call has no other role. -/
theorem others_of_toolCall (h : toolCallId x = some id) :
    toolOutputCallId x = none ∧ toolSearchCallId x = none ∧ toolSearchOutputCallId x = none := by
  cases x <;> first | exact ⟨rfl, rfl, rfl⟩ | cases h

/-- An output of a tool has no other role. -/
theorem others_of_toolOutput (h : toolOutputCallId x = some id) :
    toolCallId x = none ∧ toolSearchCallId x = none ∧ toolSearchOutputCallId x = none := by
  cases x <;> first | exact ⟨rfl, rfl, rfl⟩ | cases h

/-- A tool search has no other role. -/
theorem others_of_searchCall (h : toolSearchCallId x = some id) :
    toolCallId x = none ∧ toolOutputCallId x = none ∧ toolSearchOutputCallId x = none := by
  cases x <;> first | exact ⟨rfl, rfl, rfl⟩ | cases h

/-- An output of a tool search has no other role. -/
theorem others_of_searchOutput (h : toolSearchOutputCallId x = some id) :
    toolCallId x = none ∧ toolOutputCallId x = none ∧ toolSearchCallId x = none := by
  cases x <;> first | exact ⟨rfl, rfl, rfl⟩ | cases h

end Roles

/-! ## The prompt -/

/-- The first two passes leave a paired history. -/
theorem paired_removeOrphanOutputs :
    Paired (removeOrphanOutputs (ensureCallOutputsPresent items)) := by
  constructor
  · refine Pairs.of_filter (answered_insertBehind (fun x y h ↦ ?_) fun x _ h ↦ ?_) ?_ ?_ ?_
    · exact ⟨(missingOutput_spec h).2.2.1, (missingOutput_spec h).1⟩
    · exact (missingOutput_eq_none_iff.mp h).1
    · intro x _ id hid
      obtain ⟨houtput, -, hsearch⟩ := others_of_toolCall hid
      exact hasMatch_iff.mpr ⟨by simp [houtput], by simp [hsearch]⟩
    · intro y _ id hid ⟨x, hx, hcall⟩
      obtain ⟨-, -, hsearch⟩ := others_of_toolOutput hid
      refine hasMatch_iff.mpr ⟨fun other hother ↦ ?_, by simp [hsearch]⟩
      cases hid.symm.trans hother
      exact List.mem_filterMap.mpr ⟨x, hx, hcall⟩
    · intro y _ hkeep _ id hid
      exact List.mem_filterMap.mp ((hasMatch_iff.mp hkeep).1 id hid)
  · refine Pairs.of_filter (answered_insertBehind (fun x y h ↦ ?_) fun x _ h ↦ ?_) ?_ ?_ ?_
    · exact ⟨(missingOutput_spec h).2.2.2.1, (missingOutput_spec h).2.1⟩
    · exact (missingOutput_eq_none_iff.mp h).2
    · intro x _ id hid
      obtain ⟨-, houtput, hsearch⟩ := others_of_searchCall hid
      exact hasMatch_iff.mpr ⟨by simp [houtput], by simp [hsearch]⟩
    · intro y _ id hid ⟨x, hx, hcall⟩
      obtain ⟨-, houtput, -⟩ := others_of_searchOutput hid
      refine hasMatch_iff.mpr ⟨by simp [houtput], fun _ other hother ↦ ?_⟩
      cases hid.symm.trans hother
      exact List.mem_filterMap.mpr ⟨x, hx, hcall⟩
    · intro y _ hkeep hneeds id hid
      exact List.mem_filterMap.mp ((hasMatch_iff.mp hkeep).2 (by simpa using hneeds) id hid)

section Prompt

variable {inputModalities : List InputModality}

/-- What does not depend on images is kept. -/
theorem strip_congr {β : Type} (f : ResponseItem → β) (h : ∀ item, f (stripImages item) = f item)
    (item : ResponseItem) : f (stripWhenUnsupported inputModalities item) = f item := by
  unfold stripWhenUnsupported
  split
  · rfl
  · exact h item

theorem stripOutput_stripOutput (output : FunctionCallOutputPayload) :
    stripOutput (stripOutput output) = stripOutput output := by
  obtain ⟨body, success⟩ := output
  cases body with
  | text content => rfl
  | contentItems items =>
    have hitem : stripOutputContent ∘ stripOutputContent = stripOutputContent := by
      funext item
      cases item <;> rfl
    simp only [stripOutput, List.map_map, hitem]

theorem stripImages_stripImages (item : ResponseItem) :
    stripImages (stripImages item) = stripImages item := by
  cases item with
  | message id role content phase =>
    have hitem : stripContent ∘ stripContent = stripContent := by
      funext item
      cases item <;> rfl
    simp only [stripImages, List.map_map, hitem]
  | functionCallOutput callId output => simp only [stripImages, stripOutput_stripOutput]
  | customToolCallOutput callId name output => simp only [stripImages, stripOutput_stripOutput]
  | _ => rfl

/-- Images are replaced once. -/
theorem strip_strip (item : ResponseItem) :
    stripWhenUnsupported inputModalities (stripWhenUnsupported inputModalities item) =
      stripWhenUnsupported inputModalities item := by
  unfold stripWhenUnsupported
  split
  · rfl
  · exact stripImages_stripImages item

theorem Paired.strip (h : Paired items) :
    Paired (stripImagesWhenUnsupported inputModalities items) where
  tools := h.tools.map (strip_congr _ fun item ↦ by cases item <;> rfl)
    (strip_congr _ fun item ↦ by cases item <;> rfl) fun _ ↦ rfl
  searches := h.searches.map (strip_congr _ fun item ↦ by cases item <;> rfl)
    (strip_congr _ fun item ↦ by cases item <;> rfl)
    (strip_congr (fun i ↦ !isServerSearchOutput i) fun item ↦ by cases item <;> rfl)

theorem paired_normalizeHistory : Paired (normalizeHistory inputModalities items) :=
  paired_removeOrphanOutputs.strip

/-- Checkpoints have no part in the pairs. -/
theorem Paired.filter_checkpoints (h : Paired items) :
    Paired (items.filter fun item ↦ !isWorkspaceCheckpoint item) := by
  constructor
  · refine h.tools.filter_others fun item id hid ↦ ?_
    cases item <;> first | rfl | (rcases hid with hid | hid <;> cases hid)
  · refine h.searches.filter_others fun item id hid ↦ ?_
    cases item <;> first | rfl | (rcases hid with hid | hid <;> cases hid)

theorem paired_forPrompt : Paired (forPrompt inputModalities items) :=
  paired_normalizeHistory.filter_checkpoints

/-! ## The other items -/

theorem filter_isPlain_ensureCallOutputsPresent :
    (ensureCallOutputsPresent items).filter isPlain = items.filter isPlain := by
  have hitem : ∀ x, (x :: (missingOutput items x).toList).filter isPlain = [x].filter isPlain := by
    intro x
    cases hmissing : missingOutput items x with
    | none => rfl
    | some y =>
      have hplain := (missingOutput_spec hmissing).2.2.2.2
      simp [List.filter_cons, hplain]
  rw [ensureCallOutputsPresent, insertBehind_eq, List.filter_flatMap]
  simp only [hitem]
  rw [← List.filter_flatMap, List.flatMap_singleton']

theorem hasMatch_of_isPlain {tools searches : List Str} (h : isPlain x = true) :
    hasMatch tools searches x = true := by
  cases x <;> first | rfl | cases h

/-- The plain items of the prompt are those of the history. -/
theorem filter_isPlain_forPrompt :
    (forPrompt inputModalities items).filter isPlain =
      (items.filter isPlain).map (stripWhenUnsupported inputModalities) := by
  have hcheckpoint : ∀ item, (isPlain item && !isWorkspaceCheckpoint item) = isPlain item := by
    intro item
    cases item <;> rfl
  have hmatch : ∀ tools searches item,
      (isPlain item && hasMatch tools searches item) = isPlain item := by
    intro tools searches item
    cases hplain : isPlain item with
    | false => rfl
    | true => exact hasMatch_of_isPlain hplain
  have hstrip : isPlain ∘ stripWhenUnsupported inputModalities = isPlain := by
    funext item
    exact strip_congr isPlain (fun item ↦ by cases item <;> rfl) item
  rw [forPrompt, List.filter_filter]
  simp only [hcheckpoint]
  rw [normalizeHistory, stripImagesWhenUnsupported, List.filter_map, hstrip, removeOrphanOutputs,
    List.filter_filter]
  simp only [hmatch]
  rw [filter_isPlain_ensureCallOutputsPresent]

/-! ## A second normalisation -/

theorem ensureCallOutputsPresent_eq_self (h : Paired items) :
    ensureCallOutputsPresent items = items := by
  rw [ensureCallOutputsPresent, insertBehind_eq]
  calc items.flatMap (fun x ↦ x :: (missingOutput items x).toList)
      = items.flatMap fun x ↦ [x] := by
        refine List.flatMap_congr fun x hx ↦ ?_
        rw [missingOutput_eq_none_iff.mpr ⟨h.tools.answered x hx, h.searches.answered x hx⟩]
        rfl
    _ = items := List.flatMap_singleton' items

theorem removeOrphanOutputs_eq_self (h : Paired items) : removeOrphanOutputs items = items := by
  refine List.filter_eq_self.mpr fun y hy ↦ hasMatch_iff.mpr ⟨fun id hid ↦ ?_, ?_⟩
  · exact List.mem_filterMap.mpr (h.tools.called y hy rfl id hid)
  · intro hserver id hid
    exact List.mem_filterMap.mpr (h.searches.called y hy (by simp [hserver]) id hid)

/-- A paired history without images to replace is normal. -/
theorem normalizeHistory_eq_self (h : Paired items)
    (hstrip : ∀ item ∈ items, stripWhenUnsupported inputModalities item = item) :
    normalizeHistory inputModalities items = items := by
  rw [normalizeHistory, ensureCallOutputsPresent_eq_self h, removeOrphanOutputs_eq_self h]
  exact (List.map_congr_left hstrip).trans (List.map_id' items)

theorem strip_of_mem_normalizeHistory {item : ResponseItem}
    (h : item ∈ normalizeHistory inputModalities items) :
    stripWhenUnsupported inputModalities item = item := by
  obtain ⟨item, -, rfl⟩ := List.mem_map.mp h
  exact strip_strip item

theorem normalizeHistory_normalizeHistory :
    normalizeHistory inputModalities (normalizeHistory inputModalities items) =
      normalizeHistory inputModalities items :=
  normalizeHistory_eq_self paired_normalizeHistory fun _ ↦ strip_of_mem_normalizeHistory

theorem normalizeHistory_forPrompt :
    normalizeHistory inputModalities (forPrompt inputModalities items) =
      forPrompt inputModalities items :=
  normalizeHistory_eq_self paired_forPrompt fun _ hitem ↦
    strip_of_mem_normalizeHistory (List.mem_of_mem_filter hitem)

theorem forPrompt_forPrompt :
    forPrompt inputModalities (forPrompt inputModalities items) =
      forPrompt inputModalities items := by
  rw [forPrompt, normalizeHistory_forPrompt, forPrompt, List.filter_filter]
  simp only [Bool.and_self]

end Prompt

/-! ## The last item -/

section RemoveLast

variable {id : Str}

theorem tool_role_unique (y : ResponseItem) : toolCallId y = none ∨ toolOutputCallId y = none := by
  cases y <;> first | exact .inl rfl | exact .inr rfl

theorem search_role_unique (y : ResponseItem) :
    toolSearchCallId y = none ∨ toolSearchOutputCallId y = none := by
  cases y <;> first | exact .inl rfl | exact .inr rfl

variable (h : Paired (items ++ [x])) (hids : DistinctIds (items ++ [x]))

include h

theorem Paired.remove_other (htool : toolCallId x = none ∧ toolOutputCallId x = none)
    (hsearch : toolSearchCallId x = none ∧ toolSearchOutputCallId x = none) : Paired items := by
  have herase : items.eraseP (fun _ ↦ false) = items := List.eraseP_of_forall_not fun _ _ ↦ nofun
  rw [← herase]
  exact ⟨h.tools.removeLast_of_others htool nofun, h.searches.removeLast_of_others hsearch nofun⟩

include hids

theorem Paired.remove_toolCall (hx : toolCallId x = some id) :
    Paired (items.eraseP fun i ↦ toolOutputCallId i == some id) where
  tools := h.tools.removeLast_of_call tool_role_unique hids.toolCalls hids.toolOutputs hx
    fun _ ↦ beq_iff_eq
  searches := h.searches.removeLast_of_others (others_of_toolCall hx).2
    fun _ hy ↦ (others_of_toolOutput (beq_iff_eq.mp hy)).2

theorem Paired.remove_toolOutput (hx : toolOutputCallId x = some id) :
    Paired (items.eraseP fun i ↦ toolCallId i == some id) where
  tools := h.tools.removeLast_of_output tool_role_unique hids.toolCalls hids.toolOutputs hx
    fun _ ↦ beq_iff_eq
  searches := h.searches.removeLast_of_others (others_of_toolOutput hx).2
    fun _ hy ↦ (others_of_toolCall (beq_iff_eq.mp hy)).2

theorem Paired.remove_searchCall (hx : toolSearchCallId x = some id) :
    Paired (items.eraseP fun i ↦ toolSearchOutputCallId i == some id) where
  tools := h.tools.removeLast_of_others
    ⟨(others_of_searchCall hx).1, (others_of_searchCall hx).2.1⟩
    fun _ hy ↦ ⟨(others_of_searchOutput (beq_iff_eq.mp hy)).1,
      (others_of_searchOutput (beq_iff_eq.mp hy)).2.1⟩
  searches := h.searches.removeLast_of_call search_role_unique hids.searchCalls
    hids.searchOutputs hx fun _ ↦ beq_iff_eq

theorem Paired.remove_searchOutput (hx : toolSearchOutputCallId x = some id) :
    Paired (items.eraseP fun i ↦ toolSearchCallId i == some id) where
  tools := h.tools.removeLast_of_others
    ⟨(others_of_searchOutput hx).1, (others_of_searchOutput hx).2.1⟩
    fun _ hy ↦ ⟨(others_of_searchCall (beq_iff_eq.mp hy)).1,
      (others_of_searchCall (beq_iff_eq.mp hy)).2.1⟩
  searches := h.searches.removeLast_of_output search_role_unique hids.searchCalls
    hids.searchOutputs hx fun _ ↦ beq_iff_eq

/-- An item and its counterpart go together. -/
theorem Paired.removeCorrespondingFor : Paired (removeCorrespondingFor items x) := by
  cases x with
  | functionCall callId fields => exact h.remove_toolCall hids rfl
  | customToolCall callId fields => exact h.remove_toolCall hids rfl
  | localShellCall callId fields =>
    cases callId with
    | some callId => exact h.remove_toolCall hids rfl
    | none => exact h.remove_other ⟨rfl, rfl⟩ ⟨rfl, rfl⟩
  | functionCallOutput callId output => exact h.remove_toolOutput hids rfl
  | customToolCallOutput callId name output => exact h.remove_toolOutput hids rfl
  | toolSearchCall callId fields =>
    cases callId with
    | some callId => exact h.remove_searchCall hids rfl
    | none => exact h.remove_other ⟨rfl, rfl⟩ ⟨rfl, rfl⟩
  | toolSearchOutput callId status execution tools =>
    cases callId with
    | some callId => exact h.remove_searchOutput hids rfl
    | none => exact h.remove_other ⟨rfl, rfl⟩ ⟨rfl, rfl⟩
  | _ => exact h.remove_other ⟨rfl, rfl⟩ ⟨rfl, rfl⟩

end RemoveLast

theorem removeLastItem_concat (items : List ResponseItem) (x : ResponseItem) :
    removeLastItem (items ++ [x]) = (removeCorrespondingFor items x, true) := by
  rw [removeLastItem, List.getLast?_concat, List.dropLast_concat]

theorem paired_removeLastItem (h : Paired items) (hids : DistinctIds items) :
    Paired (removeLastItem items).1 := by
  rcases List.eq_nil_or_concat' items with rfl | ⟨front, x, rfl⟩
  · exact h
  · rw [removeLastItem_concat]
    exact h.removeCorrespondingFor hids

/-- The prompt is paired, its plain items are those of the history in their order, and it
is normal.  Removing the last item keeps a paired history paired when identifiers are not
repeated. -/
theorem prompt_paired (inputModalities : List InputModality) (items : List ResponseItem) :
    Paired (forPrompt inputModalities items) ∧
      (forPrompt inputModalities items).filter isPlain =
        (items.filter isPlain).map (stripWhenUnsupported inputModalities) ∧
      normalizeHistory inputModalities (normalizeHistory inputModalities items) =
        normalizeHistory inputModalities items ∧
      forPrompt inputModalities (forPrompt inputModalities items) =
        forPrompt inputModalities items ∧
      (Paired items → DistinctIds items → Paired (removeLastItem items).1) :=
  ⟨paired_forPrompt, filter_isPlain_forPrompt, normalizeHistory_normalizeHistory,
    forPrompt_forPrompt, paired_removeLastItem⟩

/-- A call of a function and a tool search with their outputs. -/
theorem prompt_paired_two_calls :
    let items : List ResponseItem :=
      [.functionCall (.lit "c") (.lit ""), .functionCallOutput (.lit "c") abortedOutput,
        .toolSearchCall (some (.lit "c")) (.lit ""),
        .toolSearchOutput (some (.lit "c")) (.lit "completed") (.lit "client") []]
    Paired items ∧ DistinctIds items ∧ Paired (removeLastItem items).1 :=
  have hpaired := by decide
  have hids := ⟨by decide, by decide, by decide, by decide⟩
  ⟨hpaired, hids, (prompt_paired [] _).2.2.2.2 hpaired hids⟩

/-- The call goes with the last of two outputs, and the other output is left without it. -/
theorem removeLastItem_repeated_output :
    let items : List ResponseItem :=
      [.functionCall (.lit "c") (.lit ""), .functionCallOutput (.lit "c") abortedOutput,
        .functionCallOutput (.lit "c") abortedOutput]
    Paired items ∧ (items.filterMap toolCallId ++ items.filterMap toolSearchCallId).Nodup ∧
      ¬ Paired (removeLastItem items).1 := by
  decide

end Praxis.Context
