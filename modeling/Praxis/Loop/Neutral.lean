import Praxis.Loop.Turn

/-!
# A layer of default hooks

`NoopHooks` beside other hooks changes nothing at nine of the ten points where a turn asks.
The tenth is `after_model_round`, where the default is a decision: on a final outcome it
stops the turn.  As the first layer it keeps the second from being asked, and as the second
it answers where the first one said `Continue`.  The layer is neutral exactly for hooks that
decide these outcomes as the default does.
-/

namespace Praxis.Loop

open TurnHooks

variable {σ ε : Type} {H : TurnHooks σ}

/-- On the outcomes that end a turn by default, the hooks do what the default does. -/
def EndsByDefault (H : TurnHooks σ) : Prop :=
  ∀ view, defaultAfterModelRound view.outcome ≠ .continue .reuse →
    H.afterModelRound view = pure (defaultAfterModelRound view.outcome)

theorem bind_eq_self {α : Type} {c : StateM σ α} {next : α → StateM σ α}
    (h : ∀ a, next a = pure a) : c >>= next = c := by
  have hnext : next = pure := funext h
  rw [hnext, bind_pure]

/-- Asking the defaults first changes only what is asked about a final outcome. -/
theorem chained_noopHooks (H : TurnHooks σ) : chained noopHooks H = { H with
    afterModelRound := fun view ↦
      if defaultAfterModelRound view.outcome = .continue .reuse then H.afterModelRound view
      else pure (defaultAfterModelRound view.outcome) } := by
  apply TurnHooks.ext
  case afterModelRound =>
    funext view
    change chainAfterModelRound noopHooks H view = _
    unfold chainAfterModelRound noopHooks
    rw [pure_bind]
    dsimp only
    split_ifs with hdefault
    · rw [hdefault]
    · split
      · contradiction
      · rfl
  case prepareContext =>
    funext view
    change chainPrepareContext noopHooks H view = H.prepareContext view
    unfold chainPrepareContext noopHooks
    rw [pure_bind]
    apply bind_eq_self
    intro decision
    cases decision <;> rfl
  all_goals rfl

/-- Asking the defaults afterwards changes only what `Continue` means on a final outcome. -/
theorem chained_noopHooks_right (H : TurnHooks σ) : chained H noopHooks = { H with
    afterModelRound := fun view ↦ do
      match ← H.afterModelRound view with
      | .continue .reuse => return defaultAfterModelRound view.outcome
      | decision => return decision } := by
  apply TurnHooks.ext
  case afterModelRound => rfl
  all_goals
    funext view
    apply bind_eq_self
    intro decision
    cases decision
  case prepareContext.prepared items =>
    change (pure (.prepared (items ++ [])) : StateM σ PrepareContextDecision) = _
    rw [List.append_nil]
  all_goals rfl

/-- The defaults are a unit on the left for these hooks and no others. -/
theorem chained_noopHooks_eq_iff : chained noopHooks H = H ↔ EndsByDefault H := by
  rw [chained_noopHooks]
  constructor
  · intro h view hfinal
    have hview := congrFun (congrArg TurnHooks.afterModelRound h) view
    rw [← hview]
    exact if_neg hfinal
  · intro h
    apply TurnHooks.ext
    case afterModelRound =>
      funext view
      dsimp only
      split_ifs with hdefault
      · rfl
      · exact (h view hdefault).symm
    all_goals rfl

theorem chained_noopHooks_right_eq (h : EndsByDefault H) : chained H noopHooks = H := by
  rw [chained_noopHooks_right]
  apply TurnHooks.ext
  case afterModelRound =>
    funext view
    dsimp only
    by_cases hdefault : defaultAfterModelRound view.outcome = .continue .reuse
    · apply bind_eq_self
      intro decision
      split
      · rw [hdefault]
      · rfl
    · rw [h view hdefault, pure_bind]
      split
      · rfl
      · rfl
  all_goals rfl

/-- **A layer of default hooks.**  Every phase of the two chains is that of the hooks
themselves, with the same effect on the world, exactly if the hooks decide the final outcomes
as the default does; and then every turn takes the same course. -/
theorem noop_layer_neutral (H : TurnHooks σ) :
    (chained noopHooks H = H ∧ chained H noopHooks = H ↔ EndsByDefault H) ∧
      (EndsByDefault H → ∀ (S : TurnServices σ) (ctx : TurnContext) (input : List PromptItem)
        (fuel : Nat), (runTurn S (chained noopHooks H) ctx input fuel : Foundation.Program _ ε _) =
            runTurn S H ctx input fuel ∧
          (runTurn S (chained H noopHooks) ctx input fuel : Foundation.Program _ ε _) =
            runTurn S H ctx input fuel) := by
  refine ⟨⟨fun h ↦ chained_noopHooks_eq_iff.mp h.1, fun h ↦
    ⟨chained_noopHooks_eq_iff.mpr h, chained_noopHooks_right_eq h⟩⟩, fun h S ctx input fuel ↦ ?_⟩
  rw [chained_noopHooks_eq_iff.mpr h, chained_noopHooks_right_eq h]
  exact ⟨rfl, rfl⟩

/-- Hooks that only look at tool calls. -/
theorem noop_layer_neutral_blocking :
    let H : TurnHooks Unit := { noopHooks with beforeToolCall := fun _ ↦ pure (.block "no") }
    chained noopHooks H = H ∧ chained H noopHooks = H :=
  (noop_layer_neutral (ε := Empty) _).1.mpr fun _ _ ↦ rfl

/-! ## A layer that is not neutral -/

section Persistent

/-- Hooks that want a second round after a final answer. -/
private def persistentHooks : TurnHooks Nat :=
  { noopHooks with afterModelRound := fun _ requests ↦
      (if requests < 2 then .continue .reuse else .stop .noMessage, requests) }

/-- A model that always answers with the same text; the world counts the requests. -/
private def countingServices : TurnServices Nat where
  isCancelled := pure false
  streamModel _ := fun requests ↦ (.stream (.ok ()), requests + 1)
  nextEvent := pure (.event none)
  nextEventOrSteering := pure (.arrival (.event (some (.ok (.finalText none "done")))))
  emitEvent _ := pure (.ok ())
  persistItems _ := pure (.ok ())
  drainSteering := pure (.ok ⟨[], .continue⟩)
  runToolCalls _ := pure []

private def plainModel : ModelSpec := ⟨"model", none, none, []⟩

private def plainContext : TurnContext :=
  ⟨"turn", plainModel, none, none, ⟨false, false, true⟩, []⟩

private def plainUsage : TokenUsage := ⟨0, 0, 0, 0⟩

private def plainState : TurnState := ⟨[], ⟨plainUsage, plainUsage⟩, 0, 0, none, ⟨none⟩, false⟩

/-- How many requests a turn makes with these hooks. -/
private def requestsOf (H : TurnHooks Nat) : Nat :=
  (runTurn (ε := Empty) countingServices H plainContext [] 5
    (.start 0 plainState ⟨plainModel, none, none⟩)).2.world

/-- With the defaults on either side the turn makes one request and not two. -/
theorem noop_layer_swallows_continue :
    requestsOf persistentHooks = 2 ∧ requestsOf (chained noopHooks persistentHooks) = 1 ∧
      requestsOf (chained persistentHooks noopHooks) = 1 := by
  decide +kernel

end Persistent

end Praxis.Loop
