import Praxis.Compact.Together
import Praxis.Context.Normalize
import Praxis.Foundation.Lines
import Praxis.Foundation.Rounds

/-!
# The task that compacts a thread

`run_compact_task_inner` (`core/src/compact.rs`) asks the model for a summary until there is
one.  An answer without a summary and a failed stream are tried again, up to the retries of
the provider.  When the prompt does not fit the context window, the plan is shrunk, and the
retries start anew.  Then the history is replaced by the summary and the items that are
retained, unless it has changed in the meantime.

A plan can be shrunk three times, so that the task ends (`compaction_ends`).  It replaces a
history only by one with a summary (`compaction_has_summary`), and the items that no model has
seen are counted (`compaction_accounts_for_items`).  The next compaction finds the summary
(`next_compaction_finds_summary`).
-/

namespace Praxis.Compact

open Foundation Protocol Context

/-! ## The attempts -/

/-- What `drain_to_completed` ends in. -/
inductive Attempt where
  /-- An answer, with its last message of the assistant. -/
  | completed (lastAssistantMessage : Option (List Char))
  | interrupted
  | contextWindowExceeded
  | failed

/-- What the task returns as its error. -/
inductive TaskError where
  | interrupted
  | contextWindowExceeded
  | stream
  | noSummary
  | historyChanged

/-- The variables of the loop. -/
structure CompactLoop where
  compactPlan : LocalCompactionPlan
  /-- The `summary_output` of the plan. -/
  summaryOutput : Option (List Char)
  truncatedCount : Nat
  retries : Nat

/-- `str::trim`. -/
def trim (text : List Char) : List Char := trimEnd (trimStart text)

def isBlank (text : List Char) : Bool := (trim text).isEmpty

/-- The summary in an answer. -/
def answeredSummary (lastAssistantMessage : Option (List Char)) : Option (List Char) :=
  (lastAssistantMessage.map trim).filter fun text ↦ !text.isEmpty

/-- `removed_summary_item_count`. -/
def LocalCompactionPlan.removedSummaryItemCount (plan : LocalCompactionPlan) : Nat :=
  plan.initialSummaryItemCount - plan.summaryItems.length

variable (X : Context.Externals) (bytes : ResponseItem → Int)

/-- A round of the loop. -/
def attemptRound (maxRetries : Nat) (task : CompactLoop) :
    Attempt → LoopStep CompactLoop (Except TaskError CompactLoop)
  | .completed lastAssistantMessage =>
    match answeredSummary lastAssistantMessage with
    | none =>
      let hasPreviousSummary := task.compactPlan.previousSummary.any fun text ↦ !isBlank text
      if task.retries < maxRetries then .again { task with retries := task.retries + 1 }
      else if !hasPreviousSummary then .done (.error .noSummary)
      else .done (.ok { task with summaryOutput := none })
    | some summary => .done (.ok { task with summaryOutput := some summary })
  | .interrupted => .done (.error .interrupted)
  | .contextWindowExceeded =>
    match task.compactPlan.shrinkSummaryForOverflow X bytes with
    | (plan, true) =>
      .again { task with
        compactPlan := plan, truncatedCount := plan.removedSummaryItemCount, retries := 0 }
    | (_, false) => .done (.error .contextWindowExceeded)
  | .failed =>
    if task.retries < maxRetries then .again { task with retries := task.retries + 1 }
    else .done (.error .stream)

/-! ## The history that is put in place -/

/-- `take_summary_fallback`. -/
def CompactLoop.takeSummaryFallback (task : CompactLoop) : List Char :=
  ((task.summaryOutput.or task.compactPlan.previousSummary).filter fun text ↦
    !isBlank text).getD "(no summary available)".toList

/-- The text of the summary item. -/
def summaryText (summarySuffix : List Char) : String :=
  summaryLead ++ "\n" ++ String.ofList (trim summarySuffix)

theorem fits_user : "user".utf8ByteSize ≤ isizeMax := by decide

/-- The item that holds a summary. -/
def summaryItem (summarySuffix : List Char) : ResponseItem :=
  .message none (.lit "user" fits_user) [.inputText (.ofString (summaryText summarySuffix))] none

/-- `build_local_replacement_history`. -/
def buildLocalReplacementHistory (summarySuffix : List Char) (retainedItems : List ResponseItem) :
    List ResponseItem :=
  summaryItem summarySuffix :: retainedItems

/-- The last index at which the predicate holds. -/
def lastIndex (p : ResponseItem → Bool) (items : List ResponseItem) : Option Nat :=
  (items.reverse.findIdx? p).map (items.length - 1 - ·)

/-- `insert_initial_context_before_last_real_user_or_summary`.  What `parse_turn_item` reads as
a message of the user is a parameter. -/
def insertInitialContext (userMessage : ResponseItem → Option String)
    (compactedHistory initialContext : List ResponseItem) : List ResponseItem :=
  let isRealUser item := (userMessage item).any fun text ↦ (stripSummaryLead text).isNone
  let insertionIndex := ((lastIndex isRealUser compactedHistory).or
    (lastIndex (fun item ↦ (userMessage item).isSome) compactedHistory)).or
    (lastIndex (fun item ↦ item matches .api .compaction _) compactedHistory)
  match insertionIndex with
  | some i => compactedHistory.take i ++ initialContext ++ compactedHistory.drop i
  | none => compactedHistory ++ initialContext

/-- What a task is given: the history it starts from, the kind of the compaction, and the
context that is injected. -/
structure TaskInput where
  rawHistoryItems : List ResponseItem
  inputModalities : List InputModality
  mode : LocalCompactMode
  maxRetries : Nat
  initialContext : Option (List ResponseItem)
  userMessage : ResponseItem → Option String

namespace TaskInput

/-- The plan that the task starts with. -/
def plan (input : TaskInput) : LocalCompactionPlan :=
  prepareLocalCompaction X bytes (forPrompt input.inputModalities input.rawHistoryItems) input.mode

/-- The loop, on the answers that have arrived. -/
def runAttempts (input : TaskInput) (answers : List Attempt) :
    Option (Except TaskError CompactLoop) :=
  feed (attemptRound X bytes input.maxRetries) ⟨input.plan X bytes, none, 0, 0⟩ answers

/-- The history that takes the place of the old one. -/
def newHistory (input : TaskInput) (task : CompactLoop) : List ResponseItem :=
  let history := buildLocalReplacementHistory task.takeSummaryFallback
    task.compactPlan.retainedItems
  let history := match input.initialContext with
    | some initialContext => insertInitialContext input.userMessage history initialContext
    | none => history
  history ++ input.rawHistoryItems.filter isWorkspaceCheckpoint

/-- `run_compact_task_inner`, where the session has the history `current` in the end: the history
that it is left with, and what is returned. -/
def run (input : TaskInput) (answers : List Attempt) (current : List ResponseItem) :
    Option (List ResponseItem × Except TaskError Unit) :=
  (input.runAttempts X bytes answers).map fun
    | .error error => (current, .error error)
    | .ok task =>
      if current ≠ input.rawHistoryItems then (current, .error .historyChanged)
      else (input.newHistory task, .ok ())

end TaskInput

/-! ## Shrinking -/

section Shrinking

variable {X bytes} {plan plan' : LocalCompactionPlan} {ratios : List Int}

/-- A plan is shrunk at its front. -/
structure Shrinks (plan plan' : LocalCompactionPlan) (limit : Nat) : Prop where
  retained_eq : plan'.retainedItems = plan.retainedItems
  count_eq : plan'.initialSummaryItemCount = plan.initialSummaryItemCount
  previous_eq : plan'.previousSummary = plan.previousSummary
  stage_lt : plan.overflowShrinkStage < plan'.overflowShrinkStage
  stage_le : plan'.overflowShrinkStage ≤ limit
  suffix : plan'.summaryItems <:+ plan.summaryItems
  ne_nil : plan'.summaryItems ≠ []

theorem shrinks_of_shrinkLoop (h : plan.shrinkLoop X bytes ratios = (plan', true)) :
    Shrinks plan plan' (plan.overflowShrinkStage + ratios.length) := by
  induction ratios generalizing plan with
  | nil => cases h
  | cons ratio ratios ih =>
    -- a ratio that finds no place to cut only counts the stage up
    have hskip (hnext : LocalCompactionPlan.shrinkLoop X bytes
        { plan with overflowShrinkStage := plan.overflowShrinkStage + 1 } ratios = (plan', true)) :
        Shrinks plan plan' (plan.overflowShrinkStage + (ratios.length + 1)) := by
      obtain ⟨hretained, hcount, hprevious, hlt, hle, hsuffix, hne⟩ := ih hnext
      exact ⟨hretained, hcount, hprevious, Nat.lt_of_succ_lt hlt, by dsimp only at hle; omega,
        hsuffix, hne⟩
    rw [LocalCompactionPlan.shrinkLoop] at h
    dsimp only at h
    split at h
    next => exact hskip h
    next start hstart =>
      split_ifs at h
      · obtain ⟨front, x, back, heq, hlength, -⟩ := safeRecentSuffixStart_spec hstart
        obtain rfl := (Prod.mk.inj h).1
        refine ⟨rfl, rfl, rfl, Nat.lt_succ_self _, ?_, List.drop_suffix start _, ?_⟩
        · rw [List.length_cons]
          dsimp only
          omega
        · dsimp only
          rw [heq, ← hlength, List.drop_left]
          exact List.cons_ne_nil x back
      · exact hskip h

/-- There are three stages. -/
theorem shrinks_of_shrinkSummaryForOverflow (hstage : plan.overflowShrinkStage ≤ 3)
    (h : plan.shrinkSummaryForOverflow X bytes = (plan', true)) : Shrinks plan plan' 3 := by
  have hshrinks := shrinks_of_shrinkLoop h
  rwa [List.length_drop, Nat.add_sub_of_le (by exact hstage)] at hshrinks

end Shrinking

/-! ## What a round does -/

section Rounds

variable {X bytes} {maxRetries : Nat} {task task' : CompactLoop} {answer : Attempt}

theorem attemptRound_again (h : attemptRound X bytes maxRetries task answer = .again task') :
    (task.retries < maxRetries ∧ task' = { task with retries := task.retries + 1 }) ∨
      ∃ plan, task.compactPlan.shrinkSummaryForOverflow X bytes = (plan, true) ∧
        task' = { task with
          compactPlan := plan, truncatedCount := plan.removedSummaryItemCount, retries := 0 } := by
  cases answer with
  | completed lastAssistantMessage =>
    rw [attemptRound] at h
    split at h
    · dsimp only at h
      split_ifs at h with hretries
      cases h
      exact .inl ⟨hretries, rfl⟩
    · cases h
  | interrupted => cases h
  | contextWindowExceeded =>
    rw [attemptRound] at h
    split at h
    next plan hshrink =>
      cases h
      exact .inr ⟨plan, hshrink, rfl⟩
    next => cases h
  | failed =>
    rw [attemptRound] at h
    split_ifs at h with hretries
    cases h
    exact .inl ⟨hretries, rfl⟩

theorem trim_trim (text : List Char) : trim (trim text) = trim text :=
  Foundation.strip_strip (p := isWhitespace)

/-- The loop ends well only with a summary of the model, or with the one before. -/
theorem attemptRound_ok (h : attemptRound X bytes maxRetries task answer = .done (.ok task')) :
    task'.compactPlan = task.compactPlan ∧ task'.truncatedCount = task.truncatedCount ∧
      ∃ summary, isBlank summary = false ∧
        task'.summaryOutput.or task.compactPlan.previousSummary = some summary ∧
        (task.compactPlan.previousSummary = some summary ∨
          ∃ message, answer = .completed (some message) ∧ summary = trim message) := by
  cases answer with
  | completed lastAssistantMessage =>
    rw [attemptRound] at h
    split at h
    next =>
      dsimp only at h
      split_ifs at h with hretries hprevious
      · cases h
      · cases h
        rw [Bool.not_eq_true, Bool.not_eq_false', Option.any_eq_true] at hprevious
        obtain ⟨summary, hsummary, hblank⟩ := hprevious
        exact ⟨rfl, rfl, summary, by simpa using hblank, hsummary, .inl hsummary⟩
    next summary hanswered =>
      cases h
      obtain ⟨hmap, hne⟩ := Option.filter_eq_some_iff.mp hanswered
      obtain ⟨message, rfl, rfl⟩ := Option.map_eq_some_iff.mp hmap
      refine ⟨rfl, rfl, trim message, ?_, rfl, .inr ⟨message, rfl, rfl⟩⟩
      rw [isBlank, trim_trim]
      simpa using hne
  | interrupted => cases h
  | contextWindowExceeded =>
    rw [attemptRound] at h
    split at h
    · cases h
    · cases h
  | failed =>
    rw [attemptRound] at h
    split_ifs at h
    cases h

/-- What every round keeps of the plan that the loop started with. -/
structure Accounted (plan : LocalCompactionPlan) (maxRetries : Nat) (task : CompactLoop) :
    Prop where
  stage_le : task.compactPlan.overflowShrinkStage ≤ 3
  retries_le : task.retries ≤ maxRetries
  retained_eq : task.compactPlan.retainedItems = plan.retainedItems
  previous_eq : task.compactPlan.previousSummary = plan.previousSummary
  count_eq : task.compactPlan.initialSummaryItemCount = plan.summaryItems.length
  suffix : task.compactPlan.summaryItems <:+ plan.summaryItems
  truncated_eq : task.truncatedCount = task.compactPlan.removedSummaryItemCount
  ne_nil : 0 < task.truncatedCount → task.compactPlan.summaryItems ≠ []

/-- The rounds that are left. -/
def roundsLeft (maxRetries : Nat) (task : CompactLoop) : Nat :=
  (3 - task.compactPlan.overflowShrinkStage) * (maxRetries + 1) + (maxRetries - task.retries)

theorem Accounted.again {plan : LocalCompactionPlan} (h : Accounted plan maxRetries task)
    (hround : attemptRound X bytes maxRetries task answer = .again task') :
    Accounted plan maxRetries task' ∧ roundsLeft maxRetries task' < roundsLeft maxRetries task := by
  rcases attemptRound_again hround with ⟨hlt, rfl⟩ | ⟨plan', hshrink, rfl⟩
  · refine ⟨{ h with retries_le := hlt }, ?_⟩
    have := h.retries_le
    simp only [roundsLeft]
    omega
  · have hshrinks := shrinks_of_shrinkSummaryForOverflow h.stage_le hshrink
    refine ⟨⟨hshrinks.stage_le, Nat.zero_le _, hshrinks.retained_eq.trans h.retained_eq,
      hshrinks.previous_eq.trans h.previous_eq, hshrinks.count_eq.trans h.count_eq,
      hshrinks.suffix.trans h.suffix, rfl, fun _ ↦ hshrinks.ne_nil⟩, ?_⟩
    have hstages :
        3 - plan'.overflowShrinkStage + 1 ≤ 3 - task.compactPlan.overflowShrinkStage := by
      have := hshrinks.stage_lt
      have := hshrinks.stage_le
      omega
    have hle := Nat.mul_le_mul_right (maxRetries + 1) hstages
    rw [Nat.add_mul, Nat.one_mul] at hle
    simp only [roundsLeft]
    omega

end Rounds

/-! ## The whole task -/

namespace TaskInput

variable {X bytes} {input : TaskInput} {answers : List Attempt} {task : CompactLoop}

theorem accounted_start (input : TaskInput) :
    Accounted (input.plan X bytes) input.maxRetries ⟨input.plan X bytes, none, 0, 0⟩ :=
  ⟨Nat.zero_le _, Nat.zero_le _, rfl, rfl, rfl, List.suffix_refl _,
    (Nat.sub_self _).symm, fun h ↦ absurd h (Nat.lt_irrefl 0)⟩

/-- When the loop ends well, the plan is accounted for and there is a summary. -/
theorem accounted_of_runAttempts (h : input.runAttempts X bytes answers = some (.ok task)) :
    (∃ last, Accounted (input.plan X bytes) input.maxRetries last ∧
      task.compactPlan = last.compactPlan ∧ task.truncatedCount = last.truncatedCount) ∧
    isBlank task.takeSummaryFallback = false ∧
      ((input.plan X bytes).previousSummary = some task.takeSummaryFallback ∨
        ∃ message, .completed (some message) ∈ answers ∧
          task.takeSummaryFallback = trim message) := by
  obtain ⟨last, answer, hmem, hlast, hdone⟩ :=
    exists_round_of_feed (fun s a t hs hround ↦ (Accounted.again hs hround).1)
      (accounted_start input) h
  obtain ⟨hplan, hcount, summary, hblank, hsummary, hfrom⟩ := attemptRound_ok hdone
  have hfallback : task.takeSummaryFallback = summary := by
    rw [CompactLoop.takeSummaryFallback, hplan, hsummary, Option.filter_some, hblank]
    rfl
  rw [hfallback]
  refine ⟨⟨last, hlast, hplan, hcount⟩, hblank, hfrom.imp (hlast.previous_eq ▸ ·) ?_⟩
  rintro ⟨message, rfl, rfl⟩
  exact ⟨message, hmem, rfl⟩

theorem run_eq_ok {current history : List ResponseItem}
    (h : input.run X bytes answers current = some (history, .ok ())) :
    ∃ task, input.runAttempts X bytes answers = some (.ok task) ∧
      current = input.rawHistoryItems ∧ history = input.newHistory task := by
  obtain ⟨result, hresult, heq⟩ := Option.map_eq_some_iff.mp h
  cases result with
  | error error => cases heq
  | ok task =>
    dsimp only at heq
    split_ifs at heq with hcurrent
    · cases heq
    · cases heq
      exact ⟨task, hresult, not_not.mp hcurrent, rfl⟩

end TaskInput

/-- The context goes in as a whole. -/
theorem insertInitialContext_spec (userMessage : ResponseItem → Option String)
    (history initialContext : List ResponseItem) :
    ∃ front back, history = front ++ back ∧
      insertInitialContext userMessage history initialContext =
        front ++ initialContext ++ back := by
  rw [insertInitialContext]
  split
  next i _ => exact ⟨history.take i, history.drop i, (List.take_append_drop i history).symm, rfl⟩
  next => exact ⟨history, [], (List.append_nil history).symm, (List.append_nil _).symm⟩

/-- The parts of the new history. -/
theorem newHistory_spec (input : TaskInput) (task : CompactLoop) :
    ∃ front back, summaryItem task.takeSummaryFallback :: task.compactPlan.retainedItems =
        front ++ back ∧
      input.newHistory task = front ++ input.initialContext.getD [] ++ back ++
        input.rawHistoryItems.filter isWorkspaceCheckpoint := by
  rw [TaskInput.newHistory]
  cases input.initialContext with
  | none => exact ⟨[], _, rfl, rfl⟩
  | some initialContext =>
    obtain ⟨front, back, heq, hinsert⟩ := insertInitialContext_spec input.userMessage
      (buildLocalReplacementHistory task.takeSummaryFallback task.compactPlan.retainedItems)
      initialContext
    exact ⟨front, back, heq, congrArg (· ++ _) hinsert⟩

theorem summaryItem_mem_newHistory (input : TaskInput) (task : CompactLoop) :
    summaryItem task.takeSummaryFallback ∈ input.newHistory task := by
  obtain ⟨front, back, hparts, hnew⟩ := newHistory_spec input task
  have hmem : summaryItem task.takeSummaryFallback ∈ front ++ back :=
    hparts ▸ List.mem_cons_self
  rw [hnew]
  simp only [List.mem_append] at hmem ⊢
  tauto

/-! ## Summaries that are read back -/

theorem summaryFromItem_summaryItem {summary : List Char}
    (hfits : (summaryText summary).utf8ByteSize ≤ isizeMax) :
    summaryFromItem (summaryItem summary) = some (trim summary) := by
  have hval : (Str.ofString (summaryText summary)).val = summaryText summary := by
    rw [Str.ofString, dif_pos hfits]
  have hlist : (summaryText summary).toList = (summaryLead ++ "\n").toList ++ trim summary := by
    simp only [summaryText, String.toList_append, String.toList_ofList]
  have hne : summaryText summary ≠ "" := by
    intro hempty
    rw [hempty] at hlist
    simp at hlist
  have htext : contentItemsToText [.inputText (.ofString (summaryText summary))] =
      some (summaryText summary) := by
    simp [contentItemsToText, hval, hne]
  have hstrip : stripSummaryLead (summaryText summary) = some (trim summary) :=
    List.dropPrefix?_eq_some_iff.mpr ⟨_, hlist, by simp⟩
  have huser : ¬ (Str.lit "user" fits_user).val ≠ "user" := not_not.mpr rfl
  rw [summaryItem, summaryFromItem, if_neg huser, htext, Option.bind_some, hstrip]
  exact congrArg some (trim_trim summary)

theorem summaryFromItem_eq_none {item : ResponseItem} (h : isPlain item = false) :
    summaryFromItem item = none := by
  cases item <;> first | rfl | cases h

/-- The summaries in a prompt. -/
theorem filterMap_summary_forPrompt (inputModalities : List InputModality)
    (items : List ResponseItem) :
    (forPrompt inputModalities items).filterMap summaryFromItem =
      items.filterMap fun item ↦ summaryFromItem (stripWhenUnsupported inputModalities item) := by
  have hplain (items : List ResponseItem) :
      items.filterMap summaryFromItem = (items.filter isPlain).filterMap summaryFromItem := by
    rw [List.filterMap_filter]
    refine List.filterMap_congr fun item _ ↦ ?_
    split_ifs with h
    · rfl
    · exact summaryFromItem_eq_none (Bool.eq_false_of_not_eq_true h)
  rw [hplain, filter_isPlain_forPrompt, List.filterMap_map, List.filterMap_filter]
  refine List.filterMap_congr fun item _ ↦ ?_
  split_ifs with h
  · rfl
  · refine (summaryFromItem_eq_none ?_).symm
    rw [strip_congr isPlain (fun item ↦ by cases item <;> rfl)]
    exact Bool.eq_false_of_not_eq_true h

/-- A retained item is in the prompt as it is, and is no summary. -/
theorem summaryFromItem_of_mem_retained {input : TaskInput} {item : ResponseItem}
    (h : item ∈ (input.plan X bytes).retainedItems) :
    summaryFromItem (stripWhenUnsupported input.inputModalities item) = none := by
  obtain ⟨hprompt, hkeep⟩ := List.mem_filter.mp (List.mem_of_mem_drop h)
  rw [strip_of_mem_normalizeHistory (List.mem_of_mem_filter hprompt)]
  have hsummary := (Bool.and_eq_true_iff.mp hkeep).1
  simpa [isSummaryItem] using hsummary

/-! ## A task with one answer -/

namespace Single

open Parallel

/-- A call with its output and a checkpoint are compacted. -/
def input : TaskInput where
  rawHistoryItems := [callA, outputA, .workspaceCheckpoint (.lit "checkpoint")]
  inputModalities := []
  mode := .manual
  maxRetries := 0
  initialContext := none
  userMessage _ := none

def answers : List Attempt := [.completed (some ['s'])]

/-- The task ends with a history. -/
def Ends (history : List ResponseItem) : Prop :=
  input.run externals sizes answers input.rawHistoryItems = some (history, .ok ())

theorem ends : ∃ task, input.runAttempts externals sizes answers = some (.ok task) ∧
    Ends (input.newHistory task) := ⟨_, rfl, rfl⟩

end Single

/-! ## The guarantees -/

section Guarantees

variable {input : TaskInput} {answers : List Attempt} {current history : List ResponseItem}

/-- Whatever the model answers, the task asks it at most `4 * (max_retries + 1)` times. -/
theorem compaction_ends (input : TaskInput) (answers : Nat → Attempt)
    (current : List ResponseItem) :
    (input.run X bytes ((List.range (4 * (input.maxRetries + 1))).map answers) current).isSome := by
  rw [TaskInput.run, Option.isSome_map]
  refine isSome_feed (roundsLeft input.maxRetries)
    (fun s a t hs hround ↦ Accounted.again hs hround) (TaskInput.accounted_start input) ?_
  have hstage : (input.plan X bytes).overflowShrinkStage = 0 := rfl
  simp only [roundsLeft, hstage, List.length_map, List.length_range]
  omega

/-- A history is replaced only by one with a summary: what the model has answered, or the
summary of the compaction before. -/
theorem compaction_has_summary
    (h : input.run X bytes answers current = some (history, .ok ())) :
    ∃ summary, isBlank summary = false ∧ summaryItem summary ∈ history ∧
      ((input.plan X bytes).previousSummary = some summary ∨
        ∃ message, .completed (some message) ∈ answers ∧ summary = trim message) := by
  obtain ⟨task, hattempts, -, rfl⟩ := TaskInput.run_eq_ok h
  obtain ⟨-, hblank, hfrom⟩ := TaskInput.accounted_of_runAttempts hattempts
  exact ⟨task.takeSummaryFallback, hblank, summaryItem_mem_newHistory input task, hfrom⟩

theorem compaction_has_summary_single : ∃ history, Single.Ends history ∧
    ∃ summary, isBlank summary = false ∧ summaryItem summary ∈ history := by
  obtain ⟨task, -, hrun⟩ := Single.ends
  obtain ⟨summary, hblank, hmem, -⟩ := compaction_has_summary _ _ hrun
  exact ⟨_, hrun, summary, hblank, hmem⟩

/-- The items of the history that can be compacted are, in this order, those that were left out
of the prompt, which are counted, those that are summarised, and those that are retained. -/
theorem compaction_accounts_for_items {task : CompactLoop}
    (h : input.runAttempts X bytes answers = some (.ok task)) :
    ∃ dropped, compactableItems X (forPrompt input.inputModalities input.rawHistoryItems) =
        dropped ++ task.compactPlan.summaryItems ++ task.compactPlan.retainedItems ∧
      dropped.length = task.truncatedCount ∧
      (dropped ≠ [] → task.compactPlan.summaryItems ≠ []) := by
  obtain ⟨⟨last, hlast, hplan, hcount⟩, -⟩ := TaskInput.accounted_of_runAttempts h
  rw [hplan, hcount]
  obtain ⟨dropped, hdropped⟩ := hlast.suffix
  have hlength : dropped.length = last.truncatedCount := by
    rw [hlast.truncated_eq, LocalCompactionPlan.removedSummaryItemCount, hlast.count_eq, ← hdropped,
      List.length_append, Nat.add_sub_cancel]
  refine ⟨dropped, ?_, hlength, fun hne ↦ hlast.ne_nil ?_⟩
  · rw [hdropped, hlast.retained_eq]
    exact (List.take_append_drop _ _).symm
  · rw [← hlength]
    exact List.length_pos_iff.mpr hne

theorem compaction_accounts_for_items_single : ∃ task,
    Single.input.runAttempts Parallel.externals Parallel.sizes Single.answers = some (.ok task) ∧
    ∃ dropped, dropped.length = task.truncatedCount ∧
      compactableItems Parallel.externals (forPrompt [] Single.input.rawHistoryItems) =
        dropped ++ task.compactPlan.summaryItems ++ task.compactPlan.retainedItems := by
  obtain ⟨task, hattempts, -⟩ := Single.ends
  obtain ⟨dropped, hitems, hlength, -⟩ := compaction_accounts_for_items _ _ hattempts
  exact ⟨task, hattempts, dropped, hlength, hitems⟩

/-- The task replaces the history that it has read or none: the checkpoints of the workspace stay,
and the items that are retained stay in their order. -/
theorem compaction_replaces_whole {result : Except TaskError Unit}
    (hcontext : ∀ item ∈ input.initialContext.getD [], isWorkspaceCheckpoint item = false)
    (h : input.run X bytes answers current = some (history, result)) :
    (∀ error, result = .error error → history = current) ∧
      (result = .ok () → current = input.rawHistoryItems ∧
        history.filter isWorkspaceCheckpoint = current.filter isWorkspaceCheckpoint ∧
        (input.plan X bytes).retainedItems.Sublist history) := by
  constructor
  · rintro error rfl
    obtain ⟨attempts, -, heq⟩ := Option.map_eq_some_iff.mp h
    cases attempts with
    | error => exact (Prod.mk.inj heq).1.symm
    | ok task =>
      dsimp only at heq
      split_ifs at heq
      · exact (Prod.mk.inj heq).1.symm
      · cases heq
  · rintro rfl
    obtain ⟨task, hattempts, rfl, rfl⟩ := TaskInput.run_eq_ok h
    obtain ⟨⟨last, hlast, hplan, -⟩, -⟩ := TaskInput.accounted_of_runAttempts hattempts
    obtain ⟨front, back, hparts, hnew⟩ := newHistory_spec input task
    have hretained : task.compactPlan.retainedItems = (input.plan X bytes).retainedItems :=
      (congrArg _ hplan).trans hlast.retained_eq
    have hnone : ∀ item ∈ front ++ back, isWorkspaceCheckpoint item = false := by
      rw [← hparts, hretained]
      rintro item (_ | ⟨_, hitem⟩)
      · rfl
      · have hprompt := List.mem_of_mem_filter (List.mem_of_mem_drop hitem)
        simpa using (List.mem_filter.mp hprompt).2
    have hnil (items : List ResponseItem) (hitems : ∀ item ∈ items,
        isWorkspaceCheckpoint item = false) : items.filter isWorkspaceCheckpoint = [] :=
      List.filter_eq_nil_iff.mpr fun item hitem ↦ by simp [hitems item hitem]
    rw [hnew]
    refine ⟨rfl, ?_, ?_⟩
    · simp only [List.filter_append, List.filter_filter, Bool.and_self, hnil _ hcontext,
        hnil front fun item hitem ↦ hnone item (List.mem_append_left back hitem),
        hnil back fun item hitem ↦ hnone item (List.mem_append_right front hitem), List.nil_append]
    · rw [← hretained]
      have hkept : task.compactPlan.retainedItems.Sublist (front ++ back) :=
        hparts ▸ List.sublist_cons_self _ _
      have hinserted := (List.sublist_append_left front (input.initialContext.getD [])).append
        (List.Sublist.refl back)
      exact (hkept.trans hinserted).trans (List.sublist_append_left _ _)

theorem compaction_replaces_whole_single : ∃ history, Single.Ends history ∧
    history.filter isWorkspaceCheckpoint = [.workspaceCheckpoint (.lit "checkpoint")] := by
  obtain ⟨task, -, hrun⟩ := Single.ends
  exact ⟨_, hrun, ((compaction_replaces_whole _ _ (by simp [Single.input]) hrun).2 rfl).2.1⟩

/-- The next compaction of the history, with what was recorded behind it, finds the summary. -/
theorem next_compaction_finds_summary {later : List ResponseItem} (mode : LocalCompactMode)
    (h : input.run X bytes answers current = some (history, .ok ()))
    (hother : ∀ item ∈ input.initialContext.getD [] ++ later,
      summaryFromItem (stripWhenUnsupported input.inputModalities item) = none) :
    ∃ summary, summaryItem summary ∈ history ∧
      ((summaryText summary).utf8ByteSize ≤ isizeMax →
        (prepareLocalCompaction X bytes
          (forPrompt input.inputModalities (history ++ later)) mode).previousSummary =
            some (trim summary)) := by
  obtain ⟨task, hattempts, -, rfl⟩ := TaskInput.run_eq_ok h
  obtain ⟨⟨last, hlast, hplan, -⟩, -⟩ := TaskInput.accounted_of_runAttempts hattempts
  refine ⟨_, summaryItem_mem_newHistory input task, fun hfits ↦ ?_⟩
  obtain ⟨front, back, hparts, hnew⟩ := newHistory_spec input task
  let read item := summaryFromItem (stripWhenUnsupported input.inputModalities item)
  have hnil {items : List ResponseItem} (hitems : ∀ item ∈ items, read item = none) :
      items.filterMap read = [] := List.filterMap_eq_nil_iff.mpr hitems
  have hretained : task.compactPlan.retainedItems.filterMap read = [] := by
    rw [hplan, hlast.retained_eq]
    exact hnil fun item ↦ summaryFromItem_of_mem_retained X bytes
  have hsummary : read (summaryItem task.takeSummaryFallback) =
      some (trim task.takeSummaryFallback) := by
    have hstrip : stripWhenUnsupported input.inputModalities
        (summaryItem task.takeSummaryFallback) = summaryItem task.takeSummaryFallback := by
      unfold stripWhenUnsupported
      split <;> rfl
    exact (congrArg summaryFromItem hstrip).trans (summaryFromItem_summaryItem hfits)
  have hread : front.filterMap read ++ back.filterMap read =
      [trim task.takeSummaryFallback] := by
    rw [← List.filterMap_append, ← hparts, List.filterMap_cons_some hsummary, hretained]
  have hcheckpoints : (input.rawHistoryItems.filter isWorkspaceCheckpoint).filterMap read = [] := by
    refine hnil fun item hitem ↦ summaryFromItem_eq_none ?_
    rw [strip_congr isPlain (fun item ↦ by cases item <;> rfl)]
    cases item <;> first | rfl | cases (List.mem_filter.mp hitem).2
  change ((forPrompt _ _).filterMap summaryFromItem).getLast? = _
  rw [filterMap_summary_forPrompt, hnew]
  change (List.filterMap read _).getLast? = _
  simp only [List.filterMap_append, hcheckpoints, List.append_nil,
    hnil fun item hitem ↦ hother item (List.mem_append_left later hitem),
    hnil fun item hitem ↦ hother item (List.mem_append_right _ hitem), hread,
    List.getLast?_singleton]

theorem next_compaction_finds_summary_single : ∃ history, Single.Ends history ∧
    ∃ summary, summaryItem summary ∈ history ∧
      ((summaryText summary).utf8ByteSize ≤ isizeMax →
        (prepareLocalCompaction Parallel.externals Parallel.sizes
          (forPrompt Single.input.inputModalities (history ++ [Parallel.callB]))
            .auto).previousSummary = some (trim summary)) := by
  obtain ⟨task, -, hrun⟩ := Single.ends
  exact ⟨_, hrun, next_compaction_finds_summary _ _ .auto hrun (by simp [Single.input]; rfl)⟩

end Guarantees

end Praxis.Compact
