import Praxis.Foundation.Lines
import Praxis.Wire.Brackets

/-!
# Tool calls from fragments

A provider streams a tool call in fragments, each with the index of its call.  The fragments are
gathered under their indexes, and the calls are sent once: at the finish reason `tool_calls`, or
when the answer is completed.  No other call touches them (`calls_perform`), so that what is sent
is what the fragments before it make up (`calls_of_steps`).

If every fragment has its index, and none comes after the finish reason that sends the calls,
every call is sent as its own fragments say (`tool_calls_reassembled`).  Without an index a
fragment counts as the one at its place in the payload, and so fragments of different calls can
meet; and what comes after the calls have been sent is never sent.
-/

namespace Praxis.Wire

open Foundation

/-! ## What a stream says of its calls -/

/-- The fragments in a choice, with their places. -/
def choiceFragments (choice : Value) : List (Value × Nat) :=
  (((choice.get "delta").bind (·.list "tool_calls")).getD []).zipIdx

def Arrival.choices : Arrival → List Value
  | .payload p => p.choices
  | .deadline | .closed | .failed | .timedOut => []

def streamChoices (arrivals : List Arrival) : List Value := arrivals.flatMap Arrival.choices

def streamFragments (arrivals : List Arrival) : List (Value × Nat) :=
  (streamChoices arrivals).flatMap choiceFragments

/-- The index that a fragment carries. -/
def ownIndex (fragment : Value) : Option Nat := (fragment.get "index").bind Value.asU64

/-- Every fragment carries an index. -/
def Indexed (arrivals : List Arrival) : Prop :=
  ∀ fragment ∈ streamFragments arrivals, (ownIndex fragment.1).isSome

/-- No fragment comes after the finish reason that sends the calls. -/
def Timely (arrivals : List Arrival) : Prop :=
  (streamChoices arrivals).Pairwise fun earlier later ↦
    earlier.str "finish_reason" = some "tool_calls".toList → choiceFragments later = []

instance (arrivals : List Arrival) : Decidable (Indexed arrivals) :=
  inferInstanceAs (Decidable (∀ fragment ∈ streamFragments arrivals, _))

instance (arrivals : List Arrival) : Decidable (Timely arrivals) :=
  inferInstanceAs (Decidable (List.Pairwise _ (streamChoices arrivals)))

/-- The fragments of one call. -/
def ownFragments (arrivals : List Arrival) (index : Nat) : List Value :=
  ((streamFragments arrivals).map Prod.fst).filter fun fragment ↦ ownIndex fragment = some index

/-- The identifiers that fragments tell. -/
def toldIds (own : List Value) : List Text := own.filterMap (·.word "id")

/-- The names that fragments tell. -/
def toldNames (own : List Value) : List Text :=
  own.filterMap fun fragment ↦ (fragment.get "function").bind (·.word "name")

/-- The arguments of fragments, joined. -/
def joinedArguments (own : List Value) : Text :=
  own.flatMap fun fragment ↦ ((fragment.get "function").bind (·.str "arguments")).getD []

/-- The arguments that are sent: an object without fields stands for none. -/
def sentArguments (own : List Value) : Text :=
  if joinedArguments own = [] then ['{', '}'] else joinedArguments own

/-- The item is the call that its fragments tell: with their last identifier and name, and with
their arguments.  Where none is told, an identifier is generated, and a name inferred from the
arguments or made from the index. -/
def IsCallOf (serde : Serde) (uuid : Nat → Text) (index : Nat) (own : List Value)
    (item : ResponseItem) : Prop :=
  ∃ metadata name callId, item = .functionCall metadata name (sentArguments own) callId ∧
    name = ((toldNames own).getLast?.or ((inferCommonToolCallNameFromArguments serde
      (sentArguments own)).map String.toList)).getD ("tool_" ++ toString index).toList ∧
    match (toldIds own).getLast? with
    | some told => callId = told
    | none => ∃ n, callId = s!"common-tool-{index}-".toList ++ uuid n

/-- The calls of functions among the items that are done. -/
def functionCalls (events : List ResponseEvent) : List ResponseItem :=
  (doneItems events).filter fun
    | .functionCall .. => true
    | _ => false

@[simp]
theorem functionCalls_append (front back : List ResponseEvent) :
    functionCalls (front ++ back) = functionCalls front ++ functionCalls back := by
  rw [functionCalls, doneItems_append, List.filter_append]
  rfl

/-! ## Calls that leave the fragments alone -/

section Steps

variable {serde : Serde} {uuid : Nat → Text} {s : CommonStreamState}

/-- What a state knows of tool calls, and those that have been sent. -/
def CommonStreamState.calls (s : CommonStreamState) :
    OrderedMap Nat CommonToolCallState × Bool × List ResponseItem :=
  (s.toolCalls, s.toolCallsEmitted, functionCalls s.sent)

theorem calls_send {event : ResponseEvent} (h : functionCalls [event] = []) :
    (s.send event).calls = s.calls := by
  simp [CommonStreamState.calls, CommonStreamState.send, h]

theorem calls_textDelta (delta : Text) : (emitCommonTextDelta s delta).calls = s.calls := by
  unfold emitCommonTextDelta
  split
  · rfl
  · rw [calls_send rfl]
    dsimp only
    split
    · rfl
    · exact calls_send (s := s) rfl

theorem calls_reasoningDelta (delta : Text) :
    (emitCommonReasoningDelta uuid s delta).calls = s.calls := by
  unfold emitCommonReasoningDelta
  split
  · rfl
  · rw [calls_send rfl]
    dsimp only
    split
    · rfl
    · split <;> exact calls_send (s := s) rfl

theorem calls_reasoningDone : (emitCommonReasoningDone uuid s).calls = s.calls := by
  simp only [emitCommonReasoningDone]
  split
  · rfl
  · split <;> exact calls_send (s := s) rfl

theorem calls_messageDone : (emitCommonMessageDone s).calls = s.calls := by
  unfold emitCommonMessageDone
  split
  · exact calls_send (s := s) rfl
  · rfl

theorem calls_segments (segments : List CommonThinkSegment) :
    (emitCommonContentSegments uuid s segments).calls = s.calls := by
  refine List.foldlRecOn segments _ (motive := fun (t : CommonStreamState) ↦
    t.calls = s.calls) rfl fun t ht segment _ ↦ ?_
  cases segment with
  | text text => exact (calls_textDelta text).trans (calls_reasoningDone.trans ht)
  | reasoning text => exact (calls_reasoningDelta text).trans (calls_messageDone.trans ht)

/-- The fragments that a call takes in. -/
def Step.collected : Step → List (Value × Nat)
  | .fragments values => values.zipIdx
  | _ => []

/-- No call but that which sends the tool calls does more to them than take fragments in. -/
theorem calls_perform (serde : Serde) (uuid : Nat → Text) (s : CommonStreamState) {step : Step}
    (h : step ≠ .toolCalls) :
    (step.perform serde uuid s).calls =
      (step.collected.foldl collectFragment s.toolCalls, s.toolCallsEmitted,
        functionCalls s.sent) := by
  cases step with
  | reasoningDelta delta => exact calls_reasoningDelta delta
  | contentDelta delta => exact calls_segments _
  | contentDone => exact calls_segments _
  | reasoningDone => exact calls_reasoningDone
  | messageDone => exact calls_messageDone
  | header | fragments | finishReason => rfl
  | toolCalls => exact absurd rfl h

/-- Before the tool calls are sent, the fragments are gathered. -/
theorem calls_of_steps {steps : List Step} (h : ∀ step ∈ steps, step ≠ .toolCalls) :
    (steps.foldl (Step.perform serde uuid) s).calls =
      ((steps.flatMap Step.collected).foldl collectFragment s.toolCalls, s.toolCallsEmitted,
        functionCalls s.sent) := by
  induction steps generalizing s with
  | nil => rfl
  | cons step rest ih =>
    have hstep := calls_perform serde uuid s (h step List.mem_cons_self)
    simp only [CommonStreamState.calls, Prod.mk.injEq] at hstep
    rw [List.foldl_cons, ih fun step hmem ↦ h step (List.mem_cons_of_mem _ hmem), hstep.1,
      hstep.2.1, hstep.2.2, List.flatMap_cons, List.foldl_append]

/-- Once they have been sent, nothing more is. -/
theorem functionCalls_of_emitted (hemitted : s.toolCallsEmitted = true) (steps : List Step) :
    functionCalls (steps.foldl (Step.perform serde uuid) s).sent = functionCalls s.sent := by
  induction steps generalizing s with
  | nil => rfl
  | cons step rest ih =>
    by_cases hstep : step = .toolCalls
    · subst hstep
      have hnone : Step.perform serde uuid s .toolCalls = s := by
        rw [Step.perform, emitCommonToolCalls, if_pos hemitted]
      rw [List.foldl_cons, hnone, ih hemitted]
    · have hcalls := calls_perform serde uuid s hstep
      simp only [CommonStreamState.calls, Prod.mk.injEq] at hcalls
      rw [List.foldl_cons, ih (hcalls.2.1.trans hemitted), hcalls.2.2]

/-! ## Sending the calls -/

/-- What is sent for a call that has been gathered. -/
def Sends (serde : Serde) (uuid : Nat → Text) (entry : Nat × CommonToolCallState)
    (item : ResponseItem) : Prop :=
  let arguments := if entry.2.arguments = [] then ['{', '}'] else entry.2.arguments
  ∃ callId, item = .functionCall entry.2.providerMetadata
      ((normalizeCommonToolCallName serde entry.2.name arguments).getD
        ("tool_" ++ toString entry.1).toList) arguments callId ∧
    match entry.2.callId with
    | some told => callId = told
    | none => ∃ n, callId = s!"common-tool-{entry.1}-".toList ++ uuid n

theorem sends_toolCall (serde : Serde) (uuid : Nat → Text) (s : CommonStreamState)
    (entry : Nat × CommonToolCallState) :
    ∃ item, functionCalls (emitCommonToolCall serde uuid s entry).sent =
      functionCalls s.sent ++ [item] ∧ Sends serde uuid entry item := by
  simp only [emitCommonToolCall, Sends]
  cases entry.2.callId with
  | some callId => exact ⟨_, functionCalls_append .., callId, rfl, rfl⟩
  | none => exact ⟨_, functionCalls_append .., _, rfl, s.generated, rfl⟩

theorem sends_foldl (serde : Serde) (uuid : Nat → Text) (s : CommonStreamState)
    (entries : List (Nat × CommonToolCallState)) :
    ∃ items, functionCalls (entries.foldl (emitCommonToolCall serde uuid) s).sent =
      functionCalls s.sent ++ items ∧ List.Forall₂ (Sends serde uuid) entries items := by
  induction entries generalizing s with
  | nil => exact ⟨[], (List.append_nil _).symm, .nil⟩
  | cons entry rest ih =>
    obtain ⟨item, hitem, hsends⟩ := sends_toolCall serde uuid s entry
    obtain ⟨items, hitems, hrest⟩ := ih (emitCommonToolCall serde uuid s entry)
    refine ⟨item :: items, ?_, .cons hsends hrest⟩
    rw [List.foldl_cons, hitems, hitem, List.append_assoc]
    rfl

/-- What the fragments before the first sending make up is what is ever sent. -/
theorem functionCalls_of_steps (serde : Serde) (uuid : Nat → Text) {front : List Step}
    (hfront : ∀ step ∈ front, step ≠ .toolCalls) (back : List Step) :
    List.Forall₂ (Sends serde uuid)
      ((front.flatMap Step.collected).foldl collectFragment .empty).entries
      (functionCalls ((front ++ .toolCalls :: back).foldl (Step.perform serde uuid)
        .initial).sent) := by
  have hcalls : ((front.foldl (Step.perform serde uuid) .initial)).calls = _ :=
    calls_of_steps hfront
  simp only [CommonStreamState.calls, Prod.mk.injEq] at hcalls
  obtain ⟨hmap, hemitted, hnone⟩ := hcalls
  rw [List.foldl_append, List.foldl_cons]
  generalize front.foldl (Step.perform serde uuid) .initial = s at hmap hemitted hnone
  obtain ⟨items, hitems, hsends⟩ := sends_foldl serde uuid { s with toolCalls := .empty }
    s.toolCalls.entries
  have hsent : functionCalls (Step.perform serde uuid s .toolCalls).sent = items := by
    rw [Step.perform, emitCommonToolCalls, if_neg (by rw [hemitted]; exact Bool.false_ne_true)]
    exact hitems.trans (congrArg (· ++ items) hnone)
  have hdone : (Step.perform serde uuid s .toolCalls).toolCallsEmitted = true := by
    rw [Step.perform, emitCommonToolCalls, if_neg (by rw [hemitted]; exact Bool.false_ne_true)]
  rw [functionCalls_of_emitted hdone, hsent]
  rw [hmap] at hsends
  exact hsends

end Steps

/-! ## Gathered fragments -/

theorem trim_trim (text : Text) : trim (trim text) = trim text :=
  strip_strip (p := Context.isWhitespace)

theorem trim_of_word {value : Value} {key : String} {word : Text}
    (h : value.word key = some word) : trim word = word ∧ word ≠ [] := by
  obtain ⟨hmap, hne⟩ := Option.filter_eq_some_iff.mp h
  obtain ⟨text, -, rfl⟩ := Option.map_eq_some_iff.mp hmap
  exact ⟨trim_trim text, by simpa using hne⟩

/-- Fragments joined one after another. -/
theorem foldl_merge (own : List Value) :
    let entry := own.foldl CommonToolCallState.merge .initial
    entry.callId = (toldIds own).getLast? ∧ entry.name = (toldNames own).getLast? ∧
      entry.arguments = joinedArguments own := by
  induction own using List.reverseRecOn with
  | nil => exact ⟨rfl, rfl, rfl⟩
  | append_singleton own fragment ih =>
    obtain ⟨hid, hname, harguments⟩ := ih
    rw [List.foldl_append]
    refine ⟨?_, ?_, ?_⟩
    · simp only [List.foldl_cons, List.foldl_nil, CommonToolCallState.merge, toldIds,
        List.filterMap_append, List.getLast?_append, hid]
      cases h : fragment.word "id" <;> simp [h]
    · simp only [List.foldl_cons, List.foldl_nil, CommonToolCallState.merge, toldNames,
        List.filterMap_append, List.getLast?_append, hname]
      cases h : (fragment.get "function").bind (·.word "name") <;> simp [h]
    · simp only [List.foldl_cons, List.foldl_nil, CommonToolCallState.merge, joinedArguments,
        List.flatMap_append, harguments]
      simp

theorem normalize_toldNames (serde : Serde) (own : List Value) (arguments : Text) :
    normalizeCommonToolCallName serde (toldNames own).getLast? arguments =
      (toldNames own).getLast?.or
        ((inferCommonToolCallNameFromArguments serde arguments).map String.toList) := by
  cases hlast : (toldNames own).getLast? with
  | none => rfl
  | some name =>
    obtain ⟨fragment, -, hname⟩ := List.mem_filterMap.mp (List.mem_of_getLast? hlast)
    obtain ⟨function, -, hword⟩ := Option.bind_eq_some_iff.mp hname
    obtain ⟨htrim, hne⟩ := trim_of_word hword
    simp [normalizeCommonToolCallName, htrim, hne]

/-- What is sent for fragments that have been joined is the call they tell. -/
theorem isCallOf_of_sends {serde : Serde} {uuid : Nat → Text} {index : Nat} {own : List Value}
    {item : ResponseItem}
    (h : Sends serde uuid (index, own.foldl CommonToolCallState.merge .initial) item) :
    IsCallOf serde uuid index own item := by
  obtain ⟨hid, hname, harguments⟩ := foldl_merge own
  obtain ⟨callId, hitem, hcallId⟩ := h
  simp only [harguments, hname, normalize_toldNames] at hitem
  rw [hid] at hcallId
  exact ⟨_, _, callId, hitem, rfl, hcallId⟩

/-- Under an index are its own fragments. -/
theorem get?_collect {fragments : List (Value × Nat)}
    (hindexed : ∀ fragment ∈ fragments, (ownIndex fragment.1).isSome) (index : Nat) :
    (fragments.foldl collectFragment .empty).get? index =
      let own := (fragments.map Prod.fst).filter fun fragment ↦ ownIndex fragment = some index
      if own = [] then none else some (own.foldl CommonToolCallState.merge .initial) := by
  have hown : (fragments.map Prod.fst).filter (fun fragment ↦ ownIndex fragment = some index) =
      (fragments.filter (fragmentIndex · = index)).map Prod.fst := by
    rw [List.filter_map]
    congr 1
    refine List.filter_congr fun fragment hmem ↦ ?_
    obtain ⟨own, hindex⟩ := Option.isSome_iff_exists.mp (hindexed fragment hmem)
    have hfragment : fragmentIndex fragment = own := by
      rw [fragmentIndex, ← ownIndex, hindex, Option.getD_some]
    simp [hindex, hfragment]
  have hgather : collectFragment = OrderedMap.gather fragmentIndex
      (fun entry fragment ↦ entry.merge fragment.1) .initial := rfl
  rw [hgather, OrderedMap.get?_foldl_gather, hown]
  simp only [List.foldl_map, List.map_eq_nil_iff]
  rfl

/-! ## The calls of a stream -/

section Streams

variable {serde : Serde} {policy : CommonThinkingPolicy}

theorem mem_textSteps {call : Text → Step} {text : Option Text} {step : Step}
    (h : step ∈ textSteps call text) : ∃ text, step = call text := by
  cases text with
  | none => cases h
  | some text =>
    rw [textSteps] at h
    split at h
    · cases h
    · exact ⟨text, List.mem_singleton.mp h⟩

theorem collected_textSteps {call : Text → Step} (h : ∀ text, (call text).collected = [])
    (text : Option Text) : (textSteps call text).flatMap Step.collected = [] := by
  rw [List.flatMap_eq_nil_iff]
  intro step hmem
  obtain ⟨text, rfl⟩ := mem_textSteps hmem
  exact h text

theorem collected_finishReasonSteps (reason : Text) :
    (finishReasonSteps reason).flatMap Step.collected = [] := by
  unfold finishReasonSteps
  split_ifs <;> rfl

theorem collected_deltaSteps (delta : Value) :
    (deltaSteps serde policy delta).flatMap Step.collected =
      ((delta.list "tool_calls").getD []).zipIdx := by
  rw [deltaSteps, List.flatMap_append, List.flatMap_append, collected_textSteps fun _ ↦ rfl,
    collected_textSteps fun _ ↦ rfl, List.append_nil]
  cases delta.list "tool_calls" with
  | none => rfl
  | some toolCalls => simp [fragmentSteps, Step.collected]

theorem collected_choiceSteps (choice : Value) :
    (choiceSteps serde policy choice).flatMap Step.collected = choiceFragments choice := by
  rw [choiceSteps, choiceFragments, List.flatMap_append]
  cases choice.get "delta" <;> cases choice.str "finish_reason" <;>
    simp [collected_finishReasonSteps, collected_deltaSteps]

theorem toolCalls_notMem_deltaSteps (delta : Value) :
    Step.toolCalls ∉ deltaSteps serde policy delta := by
  intro hmem
  rw [deltaSteps, List.mem_append, List.mem_append] at hmem
  rcases hmem with (hmem | hmem) | hmem
  · obtain ⟨_, hcall⟩ := mem_textSteps hmem
    cases hcall
  · cases hlist : delta.list "tool_calls" <;> simp [hlist, fragmentSteps] at hmem
  · obtain ⟨_, hcall⟩ := mem_textSteps hmem
    cases hcall

/-- Only the finish reason `tool_calls` sends the calls. -/
theorem finishReason_of_mem {choice : Value}
    (h : Step.toolCalls ∈ choiceSteps serde policy choice) :
    choice.str "finish_reason" = some "tool_calls".toList := by
  rw [choiceSteps, List.mem_append] at h
  rcases h with h | h
  · cases hget : choice.get "delta" with
    | none => rw [hget] at h; cases h
    | some delta => rw [hget] at h; exact absurd h (toolCalls_notMem_deltaSteps delta)
  · cases hreason : choice.str "finish_reason" with
    | none => rw [hreason] at h; cases h
    | some reason =>
      rw [hreason, Option.map_some, Option.getD_some, finishReasonSteps] at h
      split_ifs at h with hcalls
      · rw [hcalls]
      · simp at h
      · simp at h

/-- The second call takes in no fragment if the first sends the calls. -/
def InTime (earlier later : Step) : Prop := earlier = .toolCalls → later.collected = []

theorem inTime_of_delta {delta : Option Value} {earlier : Step}
    (h : earlier ∈ (delta.map (deltaSteps serde policy)).getD []) (later : Step) :
    InTime earlier later := by
  rintro rfl
  cases delta with
  | none => cases h
  | some delta => exact absurd h (toolCalls_notMem_deltaSteps delta)

theorem inTime_of_finishReason {reason : Option Text} {later : Step}
    (h : later ∈ (reason.map finishReasonSteps).getD []) (earlier : Step) :
    InTime earlier later := by
  intro _
  cases reason with
  | none => cases h
  | some reason =>
    exact List.flatMap_eq_nil_iff.mp (collected_finishReasonSteps reason) later h

/-- A choice takes its fragments in before it sends. -/
theorem pairwise_choiceSteps (choice : Value) :
    (choiceSteps serde policy choice).Pairwise InTime := by
  rw [choiceSteps, List.pairwise_append]
  refine ⟨?_, ?_, fun earlier hearlier later _ ↦ inTime_of_delta hearlier later⟩
  · exact List.pairwise_of_forall_mem_list fun earlier hearlier later _ ↦
      inTime_of_delta hearlier later
  · exact List.pairwise_of_forall_mem_list fun earlier _ later hlater ↦
      inTime_of_finishReason hlater earlier

theorem inTime_of_choices (serde : Serde) (policy : CommonThinkingPolicy) {first second : Value}
    (h : first.str "finish_reason" = some "tool_calls".toList → choiceFragments second = [])
    {earlier later : Step} (hearlier : earlier ∈ choiceSteps serde policy first)
    (hlater : later ∈ choiceSteps serde policy second) : InTime earlier later := by
  rintro rfl
  have hnone := h (finishReason_of_mem hearlier)
  have hcollected : (choiceSteps serde policy second).flatMap Step.collected = [] :=
    (collected_choiceSteps second).trans hnone
  exact List.flatMap_eq_nil_iff.mp hcollected later hlater

/-- The calls of an arrival are those of its choices, and what reads its head. -/
theorem steps_eq (serde : Serde) (policy : CommonThinkingPolicy) (arrival : Arrival) :
    ∃ head, (∀ step ∈ head, ∃ chunk, step = .header chunk) ∧
      arrival.steps serde policy = head ++ arrival.choices.flatMap (choiceSteps serde policy) := by
  cases arrival with
  | payload p =>
    cases p with
    | chunk value => exact ⟨[.header value], by simp, rfl⟩
    | done | malformed => exact ⟨[], nofun, rfl⟩
  | deadline | closed | failed | timedOut => exact ⟨[], nofun, rfl⟩

theorem collected_steps (arrivals : List Arrival) :
    (arrivals.flatMap (Arrival.steps serde policy)).flatMap Step.collected =
      streamFragments arrivals := by
  rw [streamFragments, streamChoices, List.flatMap_assoc, List.flatMap_assoc]
  congr 1
  funext arrival
  obtain ⟨head, hhead, hsteps⟩ := steps_eq serde policy arrival
  have hnone : head.flatMap Step.collected = [] := by
    rw [List.flatMap_eq_nil_iff]
    intro step hmem
    obtain ⟨chunk, rfl⟩ := hhead step hmem
    rfl
  rw [hsteps, List.flatMap_append, hnone, List.nil_append, List.flatMap_assoc]
  congr 1
  funext choice
  exact collected_choiceSteps choice

theorem mem_steps {arrival : Arrival} {step : Step} (h : step ∈ arrival.steps serde policy) :
    (∃ chunk, step = .header chunk) ∨
      ∃ choice ∈ arrival.choices, step ∈ choiceSteps serde policy choice := by
  obtain ⟨head, hhead, hsteps⟩ := steps_eq serde policy arrival
  rw [hsteps, List.mem_append, List.mem_flatMap] at h
  exact h.imp (hhead step) id

/-- A stream whose fragments come in time takes them in before it sends. -/
theorem pairwise_steps {arrivals : List Arrival} (h : Timely arrivals) :
    (arrivals.flatMap (Arrival.steps serde policy)).Pairwise InTime := by
  obtain ⟨hwithin, hacross⟩ := List.pairwise_flatMap.mp h
  refine List.pairwise_flatMap.mpr ⟨fun arrival hmem ↦ ?_, hacross.imp ?_⟩
  · obtain ⟨head, hhead, hsteps⟩ := steps_eq serde policy arrival
    have hheader : ∀ earlier ∈ head, ∀ later, InTime earlier later := by
      rintro earlier hearlier later rfl
      obtain ⟨chunk, hchunk⟩ := hhead _ hearlier
      cases hchunk
    rw [hsteps, List.pairwise_append]
    refine ⟨List.pairwise_of_forall_mem_list fun earlier hearlier later _ ↦
      hheader earlier hearlier later, ?_, fun earlier hearlier later _ ↦
      hheader earlier hearlier later⟩
    refine List.pairwise_flatMap.mpr ⟨fun choice _ ↦ pairwise_choiceSteps choice, ?_⟩
    exact (hwithin arrival hmem).imp fun hchoices earlier hearlier later hlater ↦
      inTime_of_choices serde policy hchoices hearlier hlater
  · intro first second hchoices earlier hearlier later hlater
    rcases mem_steps hearlier with ⟨chunk, rfl⟩ | ⟨choice, hchoice, hearlier⟩
    · nofun
    rcases mem_steps hlater with ⟨chunk, rfl⟩ | ⟨choice', hchoice', hlater⟩
    · exact fun _ ↦ rfl
    · exact inTime_of_choices serde policy (hchoices choice hchoice choice' hchoice') hearlier
        hlater

/-- In time, everything that a stream takes in comes before the first sending. -/
theorem exists_first_sending (serde : Serde) (policy : CommonThinkingPolicy)
    {arrivals : List Arrival} (h : Timely arrivals) :
    ∃ front back, arrivals.flatMap (Arrival.steps serde policy) ++ completionSteps =
        front ++ .toolCalls :: back ∧ (∀ step ∈ front, step ≠ .toolCalls) ∧
      front.flatMap Step.collected = streamFragments arrivals := by
  have hsends : Step.toolCalls ∈
      arrivals.flatMap (Arrival.steps serde policy) ++ completionSteps := by
    simp [completionSteps]
  obtain ⟨front, back, hsteps, hfirst⟩ := List.eq_append_cons_of_mem hsends
  have hquiet : ∀ step ∈ completionSteps, step.collected = [] := by
    simp [completionSteps, Step.collected]
  have hpairwise : (arrivals.flatMap (Arrival.steps serde policy) ++ completionSteps).Pairwise
      InTime := by
    rw [List.pairwise_append]
    refine ⟨pairwise_steps h, List.pairwise_of_forall_mem_list ?_, ?_⟩
    · exact fun _ _ later hlater _ ↦ hquiet later hlater
    · exact fun _ _ later hlater _ ↦ hquiet later hlater
  rw [hsteps, List.pairwise_append, List.pairwise_cons] at hpairwise
  refine ⟨front, back, hsteps, fun step hmem ↦ ?_, ?_⟩
  · rintro rfl
    exact hfirst hmem
  · have hback : back.flatMap Step.collected = [] :=
      List.flatMap_eq_nil_iff.mpr fun step hmem ↦ hpairwise.2.1.1 step hmem rfl
    have hall := congrArg (List.flatMap Step.collected) hsteps
    rw [List.flatMap_append, List.flatMap_append, List.flatMap_cons, collected_steps, hback,
      List.flatMap_eq_nil_iff.mpr hquiet] at hall
    simpa [Step.collected] using hall.symm

end Streams

theorem sent_sendCompleted (uuid : Nat → Text) (s : CommonStreamState) :
    ∃ responseId usage,
      (sendCompleted uuid s).sent = s.sent ++ [.completed responseId usage] := by
  unfold sendCompleted
  split <;> exact ⟨_, _, rfl⟩

/-- The names, arguments and identifiers of the calls that have been sent. -/
def callTexts (events : List ResponseEvent) : List (String × String × String) :=
  (doneItems events).filterMap fun
    | .functionCall _ name arguments callId =>
      some (.ofList name, .ofList arguments, .ofList callId)
    | _ => none

/-- A fragment of a tool call. -/
def fragmentValue (index : Option UInt64) (id name arguments : String) : Value :=
  .object ((index.map fun index ↦ ("index", .number (.posInt index))).toList ++
    [("id", .string id.toList), ("function", .object [("name", .string name.toList),
      ("arguments", .string arguments.toList)])])

/-- A payload with a finish reason. -/
def finishArrival (reason : String) : Arrival :=
  .payload (.chunk (.object [("choices", .array [.object
    [("finish_reason", .string reason.toList)]])]))

/-- Two calls in turns, and text between them. -/
def interleavedArrivals : List Arrival :=
  [deltaArrival [("tool_calls", .array [fragmentValue (some 1) "b" "grep" "3"])],
    deltaArrival [("tool_calls", .array [fragmentValue (some 0) "a" "find" "1",
      fragmentValue (some 1) "" "" "4"]), ("content", .string "so".toList)],
    deltaArrival [("tool_calls", .array [fragmentValue (some 0) "" "" "2"])],
    finishArrival "tool_calls", .payload .done]

end Praxis.Wire
