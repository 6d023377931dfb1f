import Praxis.Loop.Turn

/-!
# The prompts of a turn

Between two requests of a turn the prompt only grows, unless it is made anew by a compaction
or a replacement: what was recorded since the first request is appended, and then what was
injected.  The two parts that the prompt is kept in are together the next prompt at any time
(`Tracks.next`); where the one ends and the other begins does not matter.
-/

namespace Praxis.Loop

open Foundation Program

variable {σ ε α : Type} {S : TurnServices σ} {H : TurnHooks σ} {ctx : TurnContext}
  {turn turn' : Turn σ} {moments : List Moment} {prompt : List PromptItem}

/-! ## What the moments say -/

/-- The prompt that follows from the last request, the last moment first. -/
def expected : List Moment → Option (List PromptItem)
  | [] => none
  | .request prompt :: _ => some prompt
  | .recorded items :: moments =>
    (expected moments).map (· ++ items.filterMap promptProjection)
  | .injected messages :: moments =>
    (expected moments).map (· ++ messages.flatMap (·.promptItems))
  | .refreshed :: _ => none
  | .ran _ :: moments => expected moments

/-- Nothing was injected since the last request. -/
def Quiet : List Moment → Prop
  | .injected _ :: _ => False
  | .recorded _ :: moments | .ran _ :: moments => Quiet moments
  | _ => True

/-- Every request has the prompt that follows from the one before, and between two requests
nothing is recorded after an injection. -/
def Consistent : List Moment → Prop
  | [] => True
  | .request prompt :: moments =>
    (∀ before, expected moments = some before → prompt = before) ∧ Consistent moments
  | .recorded _ :: moments => Quiet moments ∧ Consistent moments
  | _ :: moments => Consistent moments

/-- The two parts of the prompt are the prompt that follows from the moments. -/
structure Tracks (turn : Turn σ) : Prop where
  next : ∀ prompt, expected turn.moments = some prompt →
    buildRoundPrompt turn.promptBase turn.state = prompt
  past : Consistent turn.moments

/-- The same after a request. -/
structure Answering (turn : Turn σ) : Prop where
  tracks : Tracks turn
  quiet : Quiet turn.moments

/-! ## Steps -/

theorem Tracks.of_eq (h : Tracks turn) (hbase : turn'.promptBase = turn.promptBase)
    (hdelta : turn'.state.transcriptDelta = turn.state.transcriptDelta)
    (hmoments : turn'.moments = turn.moments) : Tracks turn' where
  next := by
    unfold buildRoundPrompt
    rw [hbase, hdelta, hmoments]
    exact h.next
  past := hmoments ▸ h.past

theorem buildRoundPrompt_recordItems (base : List PromptItem) (state : TurnState)
    (items : List TurnItem) : buildRoundPrompt base (state.recordItems items) =
      buildRoundPrompt base state ++ items.filterMap promptProjection := by
  unfold buildRoundPrompt TurnState.recordItems
  split_ifs with hitems
  · rw [hitems, List.filterMap_nil, List.append_nil]
  · rw [List.filterMap_append, List.append_assoc]

theorem Tracks.inject {messages : List SteeringMessage} (h : Tracks turn) : Tracks { turn with
    promptBase := buildRoundPrompt turn.promptBase turn.state ++ messages.flatMap (·.promptItems)
    state := turn.state.absorbDelta
    moments := .injected messages :: turn.moments } where
  next := by
    intro prompt hprompt
    obtain ⟨before, hbefore, rfl⟩ := Option.map_eq_some_iff.mp hprompt
    rw [h.next before hbefore]
    exact List.append_nil _
  past := h.past

theorem Tracks.refreshed (h : Tracks turn) (base : List PromptItem) (state : TurnState) :
    Tracks { turn with
      promptBase := base, state := state, moments := .refreshed :: turn.moments } where
  next := nofun
  past := h.past

/-- A request with the prompt that is expected. -/
theorem Tracks.request (h : Tracks turn)
    (hprompt : prompt = buildRoundPrompt turn.promptBase turn.state) :
    Answering { turn with moments := .request prompt :: turn.moments } where
  tracks := {
    next := by
      intro after hafter
      exact hprompt.symm.trans (Option.some.inj hafter)
    past := ⟨fun before hbefore ↦ hprompt.trans (h.next before hbefore), h.past⟩ }
  quiet := trivial

theorem Answering.recorded {items : List TurnItem} (h : Answering turn) : Answering { turn with
    state := turn.state.recordItems items, moments := .recorded items :: turn.moments } where
  tracks := {
    next := by
      intro prompt hprompt
      obtain ⟨before, hbefore, rfl⟩ := Option.map_eq_some_iff.mp hprompt
      rw [buildRoundPrompt_recordItems, h.tracks.next before hbefore]
    past := ⟨h.quiet, h.tracks.past⟩ }
  quiet := h.quiet

/-! ## Answering a request -/

namespace Answering

theorem keeps_call (c : StateM σ α) : Keeps Answering (call c : Program (Turn σ) ε α) :=
  .within fun _ _ h ↦ ⟨h.tracks.of_eq rfl rfl rfl, h.quiet⟩

theorem keeps_try (c : StateM σ (Except TurnError α)) : Keeps Answering (try' c) :=
  (keeps_call c).bind fun r ↦ .ofExcept r

theorem keeps_updateState {f : TurnState → TurnState}
    (hf : ∀ state, (f state).transcriptDelta = state.transcriptDelta) :
    Keeps Answering (updateState f : Program (Turn σ) ε Unit) :=
  .update fun turn h ↦ ⟨h.tracks.of_eq rfl (hf turn.state) rfl, h.quiet⟩

theorem keeps_record (items : List TurnItem) :
    Keeps Answering (record items : Program (Turn σ) ε Unit) :=
  .update fun _ h ↦ h.recorded

theorem keeps_noteRan (entries : List ToolBatchEntry) :
    Keeps Answering (note (.ran entries) : Program (Turn σ) ε Unit) :=
  .update fun _ h ↦ ⟨⟨h.tracks.next, h.tracks.past⟩, h.quiet⟩

theorem keeps_emitFinished (items : List TurnItem) : Keeps Answering (emitFinished S items) := by
  induction items with
  | nil => exact .pure ()
  | cons item items ih =>
    cases item
    case toolResult result => exact (keeps_try _).bind fun _ ↦ ih
    all_goals exact ih

theorem keeps_persistTurnItems (items : List TurnItem) :
    Keeps Answering (persistTurnItems S items) := by
  unfold persistTurnItems
  split_ifs
  · exact .pure ()
  · exact (keeps_try _).bind fun _ ↦ (keeps_record items).bind fun _ ↦ keeps_emitFinished items

theorem keeps_prepareToolCalls (permissions : EffectivePermissions) (calls : List ToolCall) :
    Keeps Answering (prepareToolCalls H permissions calls : Program (Turn σ) ε _) := by
  induction calls with
  | nil => exact .pure _
  | cons original calls ih =>
    refine (keeps_call _).bind fun decision ↦ ?_
    cases decision <;> exact ih.bind fun _ ↦ .pure _

theorem keeps_dispatchEntries (entries : List ToolBatchEntry) :
    Keeps Answering (dispatchEntries H entries) := by
  induction entries with
  | nil => exact .pure _
  | cons entry entries ih =>
    cases entry with
    | immediate item => exact ih.bind fun _ ↦ .pure _
    | run run =>
      refine (Keeps.ofExcept _).bind fun result ↦ (keeps_call _).bind fun decision ↦ ?_
      cases decision with
      | asIs => exact ih.bind fun _ ↦ .pure _
      | rewrite result => exact ih.bind fun _ ↦ .pure _
      | terminate result => exact .pure _

theorem keeps_runToolRound (calls : List ToolCall) :
    Keeps Answering (runToolRound S H ctx calls) := by
  unfold runToolRound
  refine (keeps_updateState fun _ ↦ by rfl).bind fun _ ↦ Keeps.state.bind fun turn ↦ ?_
  split_ifs
  · exact .pure _
  · refine (keeps_prepareToolCalls _ calls).bind fun preparation ↦
      (keeps_persistTurnItems _).bind fun _ ↦ ?_
    split_ifs
    · exact .pure _
    · refine ((keeps_call _).bind fun entries ↦ (keeps_noteRan entries).bind fun _ ↦
        keeps_dispatchEntries entries).bind fun dispatch ↦
          (keeps_persistTurnItems _).bind fun _ ↦ ?_
      split <;> exact .pure _

theorem keeps_recordEvent (stream : ModelStreamState) (event : ModelEvent) :
    Keeps Answering (recordEvent S stream event) := by
  unfold recordEvent
  cases event
  case textDelta => exact (keeps_try _).bind fun _ ↦ .pure _
  case reasoningDelta => exact (keeps_try _).bind fun _ ↦ .pure _
  case completed => exact (keeps_updateState fun _ ↦ by rfl).bind fun _ ↦ .pure _
  all_goals exact .pure _

theorem keeps_completeStream (stream : ModelStreamState) :
    Keeps Answering (completeStream S H ctx stream) := by
  unfold completeStream commitText
  refine (keeps_updateState fun state ↦ ?_).bind fun _ ↦
    (keeps_persistTurnItems _).bind fun _ ↦ ?_
  · split_ifs <;> rfl
  · split_ifs
    · exact .pure _
    · exact (keeps_runToolRound _).bind fun _ ↦ .pure _

theorem keeps_consumeModelStream (stream : ModelStreamState) (fuel : Nat) :
    Keeps Answering (consumeModelStream S H ctx stream fuel) := by
  induction fuel generalizing stream with
  | zero => exact .pure _
  | succ fuel ih =>
    unfold consumeModelStream
    refine (keeps_call _).bind fun arrival ↦ ?_
    rcases arrival with result | _ | _ | event
    · exact (Keeps.ofExcept result).bind fun _ ↦ .pure _
    · exact .fail _
    · exact (keeps_completeStream stream).bind fun _ ↦ .pure _
    · refine (Keeps.ofExcept event).bind fun event ↦
        (keeps_recordEvent stream event).bind fun ⟨complete, stream⟩ ↦ ?_
      dsimp only
      split_ifs
      · exact (keeps_completeStream stream).bind fun _ ↦ .pure _
      · exact ih stream

end Answering

/-! ## Rounds -/

namespace Tracks

theorem keeps_call (c : StateM σ α) : Keeps Tracks (call c : Program (Turn σ) ε α) :=
  .within fun _ _ h ↦ h.of_eq rfl rfl rfl

theorem keeps_updateState {f : TurnState → TurnState}
    (hf : ∀ state, (f state).transcriptDelta = state.transcriptDelta) :
    Keeps Tracks (updateState f : Program (Turn σ) ε Unit) :=
  .update fun turn h ↦ h.of_eq rfl (hf turn.state) rfl

end Tracks

/-- Between a refresh and the next request nothing is expected of the prompt. -/
structure Fresh (turn : Turn σ) : Prop where
  nothing : expected turn.moments = none
  past : Consistent turn.moments

namespace Fresh

theorem tracks (h : Fresh turn) : Tracks turn where
  next := by
    intro prompt hprompt
    cases h.nothing.symm.trans hprompt
  past := h.past

theorem keeps_updateState (f : TurnState → TurnState) :
    Keeps Fresh (updateState f : Program (Turn σ) ε Unit) :=
  .update fun _ h ↦ ⟨h.nothing, h.past⟩

theorem keeps_try (c : StateM σ (Except TurnError α)) : Keeps Fresh (try' c) :=
  (Keeps.within fun _ _ h ↦ ⟨h.nothing, h.past⟩).bind fun r ↦ .ofExcept r

end Fresh

namespace Tracks

theorem keeps_applyContextPressure : Keeps Tracks (applyContextPressure S H) := by
  refine Keeps.state.bind fun turn ↦ (keeps_call _).bind fun decision ↦ ?_
  cases decision with
  | proceed => exact .pure ()
  | abort reason => exact .fail reason
  | compacted promptItems transcriptItems =>
    have hrest : Keeps Fresh (do
        if transcriptItems ≠ [] then
          try' (S.persistItems transcriptItems)
          updateState (·.recordItems transcriptItems)
        updateState (·.absorbDelta) : Program (Turn σ) TurnError Unit) := by
      split_ifs
      · exact (Fresh.keeps_try _).bind fun _ ↦ (Fresh.keeps_updateState _).bind fun _ ↦
          Fresh.keeps_updateState _
      · exact Fresh.keeps_updateState _
    intro turn h
    have hfresh : Fresh { turn with
        promptBase := promptItems, moments := .refreshed :: turn.moments } := ⟨rfl, h.past⟩
    exact (hrest _ hfresh).tracks

/-- A prompt that is to be sampled is the one that the turn keeps. -/
def Sampled (decision : RoundPromptDecision) (turn : Turn σ) : Prop :=
  ∀ prompt, decision = .sample prompt → prompt = buildRoundPrompt turn.promptBase turn.state

theorem ends_prepareRoundPrompt (h : Tracks turn) :
    Ends (prepareRoundPrompt S H) (fun decision turn ↦ Tracks turn ∧ Sampled decision turn)
      (fun _ ↦ Tracks) turn := by
  refine .bind (.state (.bind (.bind (.within fun drain world _ ↦ .ofExcept (fun drain _ ↦ ?_)
    fun _ _ ↦ h.of_eq rfl rfl rfl))))
  have hdrained : Tracks { turn with world := world } := h.of_eq rfl rfl rfl
  rcases drain with ⟨messages, _ | _ | message⟩
  · dsimp only
    split_ifs with hmessages
    · refine .bind (.within fun decision world' _ ↦ ?_)
      cases decision with
      | injectAndContinue =>
        have hasked : Tracks { turn with world := world' } := h.of_eq rfl rfl rfl
        refine .bind (.update (.pure ⟨hasked.inject, ?_⟩))
        rintro prompt ⟨⟩
        exact (List.append_nil _).symm
      | dropAndContinue =>
        refine .pure ⟨h.of_eq rfl rfl rfl, ?_⟩
        rintro prompt ⟨⟩
        rfl
    · refine .pure ⟨hdrained, ?_⟩
      rintro prompt ⟨⟩
      rfl
  · exact .pure ⟨hdrained, nofun⟩
  · exact .pure ⟨hdrained, nofun⟩

theorem ends_noteRequest (h : Tracks turn)
    (hprompt : prompt = buildRoundPrompt turn.promptBase turn.state) (sent : Bool) :
    Ends (noteRequest sent prompt : Program (Turn σ) ε Unit)
      (fun _ turn ↦ Tracks turn ∧ (sent = true → Answering turn)) (fun _ ↦ Tracks) turn := by
  cases sent
  · exact .pure ⟨h, nofun⟩
  · exact .update ⟨(h.request hprompt).tracks, fun _ ↦ h.request hprompt⟩

theorem keeps_modelRound (fuel : Nat) : Keeps Tracks (modelRound S H ctx fuel) := by
  refine (keeps_updateState fun _ ↦ by rfl).bind fun _ ↦ keeps_applyContextPressure.bind fun _ ↦
    keeps_of_ends fun turn h ↦ .bind ((ends_prepareRoundPrompt h).weaken ?_ fun _ _ h ↦ h)
  rintro decision turn ⟨h, hsampled⟩
  cases decision with
  | retryWithoutModelRequest => exact .pure h
  | stopWithoutModelRequest message => exact .pure h
  | sample prompt =>
    refine .bind (.state (.bind (.within fun opening world _ ↦ ?_)))
    have hopened : Tracks { turn with world := world } := h.of_eq rfl rfl rfl
    have hnote (sent : Bool) := hopened.ends_noteRequest (ε := TurnError) (hsampled prompt rfl) sent
    cases opening with
    | cancelled sent => exact .bind ((hnote sent).weaken (fun _ _ h ↦ .fail h.1) fun _ _ h ↦ h)
    | steering sent result =>
      refine .bind ((hnote sent).weaken (fun _ turn h ↦ ?_) fun _ _ h ↦ h)
      exact .bind (.ofExcept (fun _ _ ↦ .pure h.1) fun _ _ ↦ h.1)
    | stream result =>
      refine .bind ((hnote true).weaken (fun _ turn h ↦ ?_) fun _ _ h ↦ h)
      refine .bind (.ofExcept (fun _ _ ↦ ?_) fun _ _ ↦ h.1)
      refine .bind (((Answering.keeps_consumeModelStream .new fuel).ends (h.2 rfl)).weaken
        (fun consumption turn h ↦ ?_) fun _ _ h ↦ h.tracks)
      rcases consumption with _ | outcome | _
      · exact .pure h.tracks
      · refine .bind (.state (.bind (.within fun decision world _ ↦ ?_)))
        have hasked : Tracks { turn with world := world } := h.tracks.of_eq rfl rfl rfl
        cases decision <;> exact .pure hasked
      · exact .pure h.tracks

theorem keeps_runModelRound (fuel : Nat) :
    Keeps Tracks (runModelRound S H ctx fuel : Program (Turn σ) ε _) :=
  (keeps_modelRound fuel).handle fun _ ↦ .pure _

theorem keeps_applyRoundContinuation (promptUpdate : RoundPromptUpdate) :
    Keeps Tracks (applyRoundContinuation H ctx promptUpdate : Program (Turn σ) ε Unit) := by
  have hrefresh : Keeps Tracks (applyPromptUpdate promptUpdate : Program (Turn σ) ε Unit) := by
    cases promptUpdate with
    | reuse => exact .pure ()
    | replace promptItems => exact .update fun turn h ↦ h.refreshed promptItems _
  refine hrefresh.bind fun _ ↦ (keeps_call _).bind fun decision ↦ ?_
  cases decision with
  | reuse => exact .pure ()
  | adjust adjustment => exact .update fun _ h ↦ h.of_eq rfl rfl rfl

theorem keeps_runTurnStopHooks (message : TurnCompletionMessage) :
    Keeps Tracks (runTurnStopHooks H ctx message : Program (Turn σ) ε _) := by
  refine (keeps_updateState fun state ↦ ?_).bind fun _ ↦ Keeps.state.bind fun _ ↦ keeps_call _
  cases message <;> rfl

theorem keeps_completeTurn : Keeps Tracks (completeTurn S H ctx : Program (Turn σ) ε _) := by
  refine (keeps_call _).bind fun result ↦ ?_
  cases result with
  | error reason => exact Keeps.state.bind fun _ ↦ .pure _
  | ok _ =>
    refine (keeps_call _).bind fun decision ↦ ?_
    cases decision <;> exact Keeps.state.bind fun _ ↦ .pure _

/-- Whatever the rounds do, the prompt is tracked. -/
theorem keeps_runRounds (fuel : Nat) :
    Keeps Tracks (runRounds S H ctx fuel : Program (Turn σ) ε _) := by
  induction fuel with
  | zero => exact .pure _
  | succ fuel ih =>
    refine (keeps_call _).bind fun cancelled ↦ ?_
    split_ifs
    · exact ((keeps_call _).bind fun _ ↦ Keeps.state.bind fun _ ↦ .pure _).bind fun _ ↦ .pure _
    · refine (keeps_runModelRound fuel).bind fun action ↦ ?_
      rcases action with _ | promptUpdate | message | _ | reason
      · exact .pure _
      · exact (keeps_applyRoundContinuation promptUpdate).bind fun _ ↦ ih
      · refine (keeps_runTurnStopHooks message).bind fun decision ↦ ?_
        cases decision with
        | complete => exact keeps_completeTurn.bind fun _ ↦ .pure _
        | continueTurn => exact ih
        | abort reason => exact Keeps.state.bind fun _ ↦ .pure _
      · exact ih
      · exact Keeps.state.bind fun _ ↦ .pure _

end Tracks

/-! ## A turn -/

theorem Fresh.keeps_call (c : StateM σ α) : Keeps Fresh (call c : Program (Turn σ) ε α) :=
  .within fun _ _ h ↦ ⟨h.nothing, h.past⟩

/-- Before the first round nothing is expected, so that the base may be set. -/
theorem Fresh.ends_startRounds (h : Fresh turn) (promptBase : List PromptItem) (fuel : Nat) :
    Ends (startRounds S H ctx promptBase fuel : Program (Turn σ) ε _) (fun _ ↦ Tracks)
      (fun _ ↦ Tracks) turn := by
  have hstart : Tracks { turn with
      promptBase := promptBase
      activeSettings := ⟨ctx.model, ctx.reasoning, ctx.serviceTier⟩ } :=
    Fresh.tracks ⟨h.nothing, h.past⟩
  exact .bind (.update ((Tracks.keeps_runRounds fuel).ends hstart))

theorem Fresh.keeps_runTurnStopHooks (message : TurnCompletionMessage) :
    Keeps Fresh (runTurnStopHooks H ctx message : Program (Turn σ) ε _) :=
  (keeps_updateState _).bind fun _ ↦ Keeps.state.bind fun _ ↦ keeps_call _

theorem Fresh.ends_prepareStartContext (h : Fresh turn) (input : List PromptItem) (fuel : Nat) :
    Ends (prepareStartContext S H ctx input fuel : Program (Turn σ) ε _) (fun _ ↦ Tracks)
      (fun _ ↦ Tracks) turn := by
  refine .bind (.state (.bind (((keeps_call _).ends h).weaken (fun decision turn h ↦ ?_)
    fun _ _ h ↦ h.tracks)))
  cases decision with
  | prepared items => exact h.ends_startRounds _ fuel
  | abort reason => exact .bind (.state (.pure h.tracks))
  | stop message =>
    refine .bind (((keeps_runTurnStopHooks message).ends h).weaken (fun decision turn h ↦ ?_)
      fun _ _ h ↦ h.tracks)
    cases decision with
    | complete =>
      exact .bind ((Tracks.keeps_completeTurn.ends h.tracks).weaken (fun _ _ h ↦ .pure h)
        fun _ _ h ↦ h)
    | continueTurn => exact h.ends_startRounds _ fuel
    | abort reason => exact .bind (.state (.pure h.tracks))

theorem Fresh.ends_runTurn (h : Fresh turn) (input : List PromptItem) (fuel : Nat) :
    Ends (runTurn S H ctx input fuel : Program (Turn σ) ε _) (fun _ ↦ Tracks) (fun _ ↦ Tracks)
      turn := by
  refine .bind (((keeps_call _).ends h).weaken (fun cancelled turn h ↦ ?_) fun _ _ h ↦ h.tracks)
  split_ifs
  · exact .bind (.state (.pure h.tracks))
  · refine .bind (((keeps_call _).ends h).weaken (fun decision turn h ↦ ?_) fun _ _ h ↦ h.tracks)
    cases decision with
    | proceed => exact h.ends_prepareStartContext input fuel
    | replaceInitialPrompt promptItems => exact h.ends_prepareStartContext input fuel
    | abort reason => exact .bind (.state (.pure h.tracks))

/-! ## The moments between two requests -/

/-- Neither a request nor a new prompt. -/
def Moment.IsBetween : Moment → Prop
  | .request _ | .refreshed => False
  | _ => True

def Moment.items : Moment → List TurnItem
  | .recorded items => items
  | _ => []

def Moment.messages : Moment → List SteeringMessage
  | .injected messages => messages
  | _ => []

/-- What was recorded, in the order in which it was; the last moment comes first. -/
def recordedItems (moments : List Moment) : List TurnItem := moments.reverse.flatMap Moment.items

def injectedMessages (moments : List Moment) : List SteeringMessage :=
  moments.reverse.flatMap Moment.messages

theorem recordedItems_cons (moment : Moment) (moments : List Moment) :
    recordedItems (moment :: moments) = recordedItems moments ++ moment.items := by
  simp [recordedItems]

theorem injectedMessages_cons (moment : Moment) (moments : List Moment) :
    injectedMessages (moment :: moments) = injectedMessages moments ++ moment.messages := by
  simp [injectedMessages]

theorem injectedMessages_of_quiet {before : List Moment}
    (hbetween : ∀ moment ∈ moments, moment.IsBetween)
    (hquiet : Quiet (moments ++ .request prompt :: before)) : injectedMessages moments = [] := by
  induction moments with
  | nil => rfl
  | cons moment moments ih =>
    obtain ⟨hmoment, hmoments⟩ := List.forall_mem_cons.mp hbetween
    rw [injectedMessages_cons]
    cases moment with
    | request => exact hmoment.elim
    | refreshed => exact hmoment.elim
    | injected => exact hquiet.elim
    | recorded => rw [ih hmoments hquiet]; rfl
    | ran => rw [ih hmoments hquiet]; rfl

/-- What follows from a request and the moments after it. -/
theorem expected_eq {before : List Moment} (hbetween : ∀ moment ∈ moments, moment.IsBetween)
    (hpast : Consistent (moments ++ .request prompt :: before)) :
    expected (moments ++ .request prompt :: before) = some (prompt ++
      (recordedItems moments).filterMap promptProjection ++
      (injectedMessages moments).flatMap (·.promptItems)) := by
  induction moments with
  | nil => simp [expected, recordedItems, injectedMessages]
  | cons moment moments ih =>
    obtain ⟨hmoment, hmoments⟩ := List.forall_mem_cons.mp hbetween
    rw [recordedItems_cons, injectedMessages_cons]
    cases moment with
    | request => exact hmoment.elim
    | refreshed => exact hmoment.elim
    | recorded items =>
      obtain ⟨hquiet, hpast⟩ := hpast
      have hnone := injectedMessages_of_quiet hmoments hquiet
      rw [List.cons_append, expected, ih hmoments hpast, hnone]
      simp [Moment.items, Moment.messages]
    | injected messages =>
      rw [List.cons_append, expected, ih hmoments hpast]
      simp [Moment.items, Moment.messages]
    | ran entries =>
      rw [List.cons_append, expected, ih hmoments hpast]
      simp [Moment.items, Moment.messages]

theorem Consistent.of_append {later earlier : List Moment} (h : Consistent (later ++ earlier)) :
    Consistent earlier := by
  induction later with
  | nil => exact h
  | cons moment later ih =>
    cases moment with
    | request => exact ih h.2
    | recorded => exact ih h.2
    | injected => exact ih h
    | refreshed => exact ih h
    | ran => exact ih h

/-- **Prompts of a turn.**  Between two consecutive requests, without a compaction or a
replacement in between, the prompt grows by what was recorded and then by what was injected,
each once and in order. -/
theorem prompt_extends_previous {world : σ} {state : TurnState} {settings : RoundSettings}
    {input : List PromptItem} {fuel : Nat} {later between earlier : List Moment}
    {first second : List PromptItem}
    (hrun : ((runTurn S H ctx input fuel : Program (Turn σ) ε _)
      (.start world state settings)).2.moments =
        later ++ .request second :: (between ++ .request first :: earlier))
    (hbetween : ∀ moment ∈ between, moment.IsBetween) :
    second = first ++ (recordedItems between).filterMap promptProjection ++
      (injectedMessages between).flatMap (·.promptItems) := by
  have hstart : Fresh (Turn.start world state settings) := ⟨rfl, trivial⟩
  have htracks : Tracks ((runTurn S H ctx input fuel : Program (Turn σ) ε _)
      (.start world state settings)).2 := (hstart.ends_runTurn input fuel).after
  have hpast := htracks.past
  rw [hrun] at hpast
  obtain ⟨hexpected, hpast⟩ := hpast.of_append
  exact hexpected _ (expected_eq hbetween hpast)

section Steered

/-- Hooks that want a second round. -/
private def twoRoundHooks : TurnHooks Nat :=
  { noopHooks with afterModelRound := fun _ requests ↦
      (if requests < 2 then .continue .reuse else .stop .noMessage, requests) }

/-- A model that answers "hi"; a user who says "wait" after the first answer. -/
private def steeredServices : TurnServices Nat where
  isCancelled := pure false
  streamModel _ := fun requests ↦ (.stream (.ok ()), requests + 1)
  nextEvent := pure (.event none)
  nextEventOrSteering := pure (.arrival (.event (some (.ok (.finalText none "hi")))))
  emitEvent _ := pure (.ok ())
  persistItems _ := pure (.ok ())
  drainSteering := fun requests ↦
    (.ok ⟨if requests = 1 then [⟨[.userText "wait"]⟩] else [], .continue⟩, requests)
  runToolCalls _ := pure []

private def steeredModel : ModelSpec := ⟨"model", none, none, []⟩

private def steeredContext : TurnContext :=
  ⟨"turn", steeredModel, none, none, ⟨false, false, true⟩, []⟩

private def steeredState : TurnState :=
  ⟨[], ⟨⟨0, 0, 0, 0⟩, ⟨0, 0, 0, 0⟩⟩, 0, 0, none, ⟨none⟩, false⟩

theorem prompt_extends_previous_steered :
    [.userText "go", .assistantText "hi", .userText "wait"] =
      [.userText "go"] ++ (recordedItems [.injected [⟨[.userText "wait"]⟩],
        .recorded [.assistantText none "hi"]]).filterMap promptProjection ++
      (injectedMessages [.injected [⟨[.userText "wait"]⟩],
        .recorded [.assistantText none "hi"]]).flatMap (·.promptItems) := by
  have hrun : ((runTurn steeredServices twoRoundHooks steeredContext [.userText "go"] 5 :
      Program (Turn Nat) Empty _) (.start 0 steeredState ⟨steeredModel, none, none⟩)).2.moments =
      [.recorded [.assistantText none "hi"]] ++
        .request [.userText "go", .assistantText "hi", .userText "wait"] ::
          ([.injected [⟨[.userText "wait"]⟩], .recorded [.assistantText none "hi"]] ++
            .request [.userText "go"] :: []) := by
    decide +kernel
  exact prompt_extends_previous hrun (by simp [Moment.IsBetween])

end Steered

end Praxis.Loop
