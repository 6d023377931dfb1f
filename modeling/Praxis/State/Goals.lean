import Mathlib.Logic.Function.Basic

/-!
# The goals of threads

A thread has a goal at most, with a budget of tokens if it has one (`state/src/runtime/goals.rs`).
The calls insert a goal, change its objective, status or budget, pause it, mark its usage limit,
add the usage of a turn and delete it.  Each is one statement on a table with a row for each
thread; what a statement sets is computed from the row as it is before.

`goal_budgets` is about every sequence of calls: an active goal is below its budget, what it has
used is what was accepted since it was inserted, and usage that names a goal is added to no other.
Sums do not leave the range of `i64`, so that they are sums of integers.
-/

namespace Praxis.State

variable {τ : Type} [DecidableEq τ]

inductive ThreadGoalStatus where
  | active | paused | blocked | usageLimited | budgetLimited | complete
deriving DecidableEq

/-- A row of `thread_goals`; the thread is the key. -/
structure ThreadGoal where
  goalId : String
  objective : String
  status : ThreadGoalStatus
  tokenBudget : Option Int
  tokensUsed : Int
  timeUsedSeconds : Int
  createdAtMs : Int
  updatedAtMs : Int
deriving DecidableEq

/-- The table. -/
abbrev ThreadGoals (τ : Type) := τ → Option ThreadGoal

structure GoalUpdate where
  objective : Option String
  status : Option ThreadGoalStatus
  tokenBudget : Option (Option Int)
  expectedGoalId : Option String

inductive GoalAccountingOutcome where
  | unchanged (goal : Option ThreadGoal)
  | updated (goal : ThreadGoal)

inductive GoalAccountingMode where
  | activeStatusOnly | activeOnly | activeOrComplete | activeOrStopped

namespace ThreadGoals

/-! ## Statements -/

/-- `UPDATE thread_goals SET .. WHERE thread_id = ? AND ..`, with the number of rows. -/
def updateWhere (s : ThreadGoals τ) (threadId : τ) (cond : ThreadGoal → Bool)
    (set : ThreadGoal → ThreadGoal) : ThreadGoals τ × Nat :=
  match s threadId with
  | none => (s, 0)
  | some goal => if cond goal then (Function.update s threadId (some (set goal)), 1) else (s, 0)

/-- `budget IS NOT NULL AND tokens_used >= budget`. -/
def reached (tokenBudget : Option Int) (tokensUsed : Int) : Bool :=
  tokenBudget.any fun budget ↦ budget ≤ tokensUsed

def statusAfterBudgetLimit (status : ThreadGoalStatus) (tokensUsed : Int)
    (tokenBudget : Option Int) : ThreadGoalStatus :=
  if status = .active ∧ reached tokenBudget tokensUsed then .budgetLimited else status

/-- `? IS NULL OR goal_id = ?`. -/
def isExpected (expectedGoalId : Option String) (goal : ThreadGoal) : Bool :=
  expectedGoalId.all fun expected ↦ goal.goalId = expected

/-! ## Calls -/

def insertThreadGoal (s : ThreadGoals τ) (threadId : τ) (goalId objective : String)
    (status : ThreadGoalStatus) (tokenBudget : Option Int) (now : Int) :
    ThreadGoals τ × Option ThreadGoal :=
  let goal : ThreadGoal :=
    ⟨goalId, objective, statusAfterBudgetLimit status 0 tokenBudget, tokenBudget, 0, 0, now, now⟩
  match s threadId with
  | some _ => (s, none)
  | none => (Function.update s threadId (some goal), some goal)

/-- The status that an update sets, for a goal with a budget. -/
def statusCase (status : ThreadGoalStatus) (tokenBudget : Option Int) (goal : ThreadGoal) :
    ThreadGoalStatus :=
  if goal.status = .budgetLimited ∧ (status = .paused ∨ status = .blocked) then goal.status
  else if status = .active ∧ reached tokenBudget goal.tokensUsed then .budgetLimited
  else status

/-- The row that the statement of an update sets. -/
def updatedGoal (update : GoalUpdate) (now : Int) (goal : ThreadGoal) : ThreadGoal :=
  let goal' := { goal with objective := update.objective.getD goal.objective, updatedAtMs := now }
  match update.status, update.tokenBudget with
  | some status, some tokenBudget =>
    { goal' with status := statusCase status tokenBudget goal, tokenBudget }
  | some status, none => { goal' with status := statusCase status goal.tokenBudget goal }
  | none, some tokenBudget =>
    { goal' with
      tokenBudget
      status :=
        if goal.status = .active ∧ reached tokenBudget goal.tokensUsed then .budgetLimited
        else goal.status }
  | none, none => goal'

def updateThreadGoal (s : ThreadGoals τ) (threadId : τ) (update : GoalUpdate) (now : Int) :
    ThreadGoals τ × Option ThreadGoal :=
  if update.status = none ∧ update.tokenBudget = none ∧ update.objective = none then
    (s, (s threadId).filter (isExpected update.expectedGoalId))
  else
    match s.updateWhere threadId (isExpected update.expectedGoalId) (updatedGoal update now) with
    | (s, 0) => (s, none)
    | (s, _ + 1) => (s, s threadId)

def updateActiveThreadGoalStatus (s : ThreadGoals τ) (threadId : τ) (status : ThreadGoalStatus)
    (now : Int) : ThreadGoals τ × Option ThreadGoal :=
  let cond (goal : ThreadGoal) : Bool :=
    goal.status = .active || status = .usageLimited && goal.status = .budgetLimited
  match s.updateWhere threadId cond fun goal ↦ { goal with status, updatedAtMs := now } with
  | (s, 0) => (s, none)
  | (s, _ + 1) => (s, s threadId)

def pauseActiveThreadGoal (s : ThreadGoals τ) (threadId : τ) (now : Int) :
    ThreadGoals τ × Option ThreadGoal := s.updateActiveThreadGoalStatus threadId .paused now

def usageLimitActiveThreadGoal (s : ThreadGoals τ) (threadId : τ) (now : Int) :
    ThreadGoals τ × Option ThreadGoal := s.updateActiveThreadGoalStatus threadId .usageLimited now

def deleteThreadGoal (s : ThreadGoals τ) (threadId : τ) : ThreadGoals τ × Bool :=
  (Function.update s threadId none, (s threadId).isSome)

/-- `active_or_stopped_status_filter`. -/
def isActiveOrStopped : ThreadGoalStatus → Bool
  | .complete => false
  | _ => true

/-- `status_filter`. -/
def statusFilter : GoalAccountingMode → ThreadGoalStatus → Bool
  | .activeStatusOnly, status => status = .active
  | .activeOnly, status => status = .active || status = .budgetLimited
  | .activeOrComplete, status =>
    status = .active || status = .budgetLimited || status = .complete
  | .activeOrStopped, status => isActiveOrStopped status

/-- `budget_limit_status_filter`. -/
def budgetLimitStatusFilter : GoalAccountingMode → ThreadGoalStatus → Bool
  | .activeOrStopped, status => isActiveOrStopped status
  | _, status => status = .active

def accountedGoal (timeDeltaSeconds tokenDelta : Int) (mode : GoalAccountingMode) (now : Int)
    (goal : ThreadGoal) : ThreadGoal :=
  { goal with
    timeUsedSeconds := goal.timeUsedSeconds + timeDeltaSeconds
    tokensUsed := goal.tokensUsed + tokenDelta
    status :=
      if budgetLimitStatusFilter mode goal.status ∧
          reached goal.tokenBudget (goal.tokensUsed + tokenDelta) then .budgetLimited
      else goal.status
    updatedAtMs := now }

def accountThreadGoalUsage (s : ThreadGoals τ) (threadId : τ) (timeDeltaSeconds tokenDelta : Int)
    (mode : GoalAccountingMode) (expectedGoalId : Option String) (now : Int) :
    ThreadGoals τ × GoalAccountingOutcome :=
  let timeDeltaSeconds := max timeDeltaSeconds 0
  let tokenDelta := max tokenDelta 0
  if timeDeltaSeconds = 0 ∧ tokenDelta = 0 then (s, .unchanged (s threadId))
  else
    let cond (goal : ThreadGoal) : Bool :=
      statusFilter mode goal.status && isExpected expectedGoalId goal
    match s.updateWhere threadId cond (accountedGoal timeDeltaSeconds tokenDelta mode now) with
    | (s, 0) => (s, .unchanged (s threadId))
    | (s, _ + 1) =>
      match s threadId with
      | some goal => (s, .updated goal)
      | none => (s, .unchanged none)

end ThreadGoals

inductive GoalCall (τ : Type) where
  | insert (threadId : τ) (goalId objective : String) (status : ThreadGoalStatus)
      (tokenBudget : Option Int)
  | update (threadId : τ) (update : GoalUpdate)
  | pause (threadId : τ)
  | usageLimit (threadId : τ)
  | account (threadId : τ) (timeDeltaSeconds tokenDelta : Int) (mode : GoalAccountingMode)
      (expectedGoalId : Option String)
  | delete (threadId : τ)

inductive GoalResponse where
  | goal (goal : Option ThreadGoal)
  | accounted (outcome : GoalAccountingOutcome)
  | deleted (found : Bool)

/-- The table, and the calls with their responses. -/
structure GoalStore (τ : Type) where
  table : ThreadGoals τ
  log : List (GoalCall τ × GoalResponse)

namespace GoalStore

def new : GoalStore τ := ⟨fun _ ↦ none, []⟩

/-- A call at a time. -/
def perform (table : ThreadGoals τ) (now : Int) : GoalCall τ → ThreadGoals τ × GoalResponse
  | .insert threadId goalId objective status tokenBudget =>
    (table.insertThreadGoal threadId goalId objective status tokenBudget now).map id .goal
  | .update threadId update => (table.updateThreadGoal threadId update now).map id .goal
  | .pause threadId => (table.pauseActiveThreadGoal threadId now).map id .goal
  | .usageLimit threadId => (table.usageLimitActiveThreadGoal threadId now).map id .goal
  | .account threadId timeDeltaSeconds tokenDelta mode expectedGoalId =>
    (table.accountThreadGoalUsage threadId timeDeltaSeconds tokenDelta mode expectedGoalId now).map
      id .accounted
  | .delete threadId => (table.deleteThreadGoal threadId).map id .deleted

def step (s : GoalStore τ) (call : GoalCall τ × Int) : GoalStore τ :=
  ⟨(perform s.table call.2 call.1).1, s.log ++ [(call.1, (perform s.table call.2 call.1).2)]⟩

/-- The calls, each with its time. -/
def run (calls : List (GoalCall τ × Int)) : GoalStore τ := calls.foldl step new

/-! ## Usage -/

/-- The seconds and tokens that were accepted. -/
structure Usage where
  seconds : Int
  tokens : Int
deriving DecidableEq

/-- What a call and its response mean for the usage of the thread's goal. -/
def Usage.after (threadId : τ) (usage : Usage) : GoalCall τ × GoalResponse → Usage
  | (.insert thread _ _ _ _, .goal (some _)) => if thread = threadId then ⟨0, 0⟩ else usage
  | (.account thread timeDeltaSeconds tokenDelta _ _, .accounted (.updated _)) =>
    if thread = threadId then
      ⟨usage.seconds + max timeDeltaSeconds 0, usage.tokens + max tokenDelta 0⟩
    else usage
  | _ => usage

/-- What was accepted since the goal of the thread was inserted. -/
def accepted (log : List (GoalCall τ × GoalResponse)) (threadId : τ) : Usage :=
  log.foldl (Usage.after threadId) ⟨0, 0⟩

/-- An active goal has no budget, or has used less. -/
def WithinBudget (goal : ThreadGoal) : Prop :=
  goal.status = .active → ∀ budget, goal.tokenBudget = some budget → goal.tokensUsed < budget

variable {table : ThreadGoals τ} {threadId thread : τ} {usage : Usage} {goal : ThreadGoal}

/-- The goal of the thread, if there is one, is within its budget and has used so much. -/
def Holds (table : ThreadGoals τ) (threadId : τ) (usage : Usage) : Prop :=
  ∀ goal, table threadId = some goal →
    WithinBudget goal ∧ (⟨goal.timeUsedSeconds, goal.tokensUsed⟩ : Usage) = usage

/-- Every goal is within its budget and has used what was accepted. -/
def Sound (s : GoalStore τ) : Prop := ∀ threadId, Holds s.table threadId (accepted s.log threadId)

theorem withinBudget_of_not_reached {goal : ThreadGoal}
    (h : goal.status = .active → ThreadGoals.reached goal.tokenBudget goal.tokensUsed = false) :
    WithinBudget goal := by
  intro hactive budget hbudget
  have hreached := h hactive
  rw [ThreadGoals.reached, hbudget, Option.any_some, decide_eq_false_iff_not] at hreached
  exact Int.not_le.mp hreached

/-- The rule that each statement has: a goal that stays active is below the budget. -/
theorem not_reached_of_active {P : Prop} [Decidable P] {status : ThreadGoalStatus} {spent : Bool}
    (h : (if P ∧ spent = true then ThreadGoalStatus.budgetLimited else status) = .active)
    (hP : status = .active → P) : spent = false := by
  split at h
  next => cases h
  next hnot => exact eq_false_of_ne_true fun hover ↦ hnot ⟨hP h, hover⟩

/-! ## One statement -/

theorem updateWhere_cases (s : ThreadGoals τ) (threadId : τ) (cond : ThreadGoal → Bool)
    (set : ThreadGoal → ThreadGoal) :
    s.updateWhere threadId cond set = (s, 0) ∨
      ∃ goal, s threadId = some goal ∧ cond goal = true ∧
        s.updateWhere threadId cond set = (Function.update s threadId (some (set goal)), 1) := by
  rw [ThreadGoals.updateWhere]
  split
  next => exact .inl rfl
  next goal hgoal =>
    split
    next hcond => exact .inr ⟨goal, hgoal, hcond, rfl⟩
    next => exact .inl rfl

/-- The row of another thread is not touched. -/
theorem Holds.update_of_ne (h : Holds table threadId usage) (hne : threadId ≠ thread)
    (row : Option ThreadGoal) : Holds (Function.update table thread row) threadId usage := by
  rw [Holds, Function.update_of_ne hne]
  exact h

theorem holds_update_self (hgoal : WithinBudget goal)
    (husage : (⟨goal.timeUsedSeconds, goal.tokensUsed⟩ : Usage) = usage) :
    Holds (Function.update table threadId (some goal)) threadId usage := by
  intro goal' hgoal'
  rw [Function.update_self] at hgoal'
  obtain rfl := Option.some.inj hgoal'
  exact ⟨hgoal, husage⟩

/-- A statement that leaves what was used. -/
theorem Holds.updateWhere (h : Holds table threadId usage) {cond : ThreadGoal → Bool}
    {set : ThreadGoal → ThreadGoal}
    (hset : ∀ goal, WithinBudget goal → WithinBudget (set goal) ∧
      (set goal).timeUsedSeconds = goal.timeUsedSeconds ∧ (set goal).tokensUsed = goal.tokensUsed) :
    Holds (table.updateWhere thread cond set).1 threadId usage := by
  rcases updateWhere_cases table thread cond set with hkeep | ⟨goal, hgoal, -, hupdate⟩
  · rw [hkeep]
    exact h
  · rw [hupdate]
    by_cases hthread : threadId = thread
    · subst hthread
      obtain ⟨hbudget, husage⟩ := h goal hgoal
      obtain ⟨hwithin, htime, htokens⟩ := hset goal hbudget
      refine holds_update_self hwithin ?_
      rw [htime, htokens, husage]
    · exact h.update_of_ne hthread _

/-- An update sets the status by the budget that the goal has then. -/
theorem updatedGoal_spec (update : GoalUpdate) (now : Int) (goal : ThreadGoal)
    (h : WithinBudget goal) :
    WithinBudget (ThreadGoals.updatedGoal update now goal) ∧
      (ThreadGoals.updatedGoal update now goal).timeUsedSeconds = goal.timeUsedSeconds ∧
      (ThreadGoals.updatedGoal update now goal).tokensUsed = goal.tokensUsed := by
  have hcase (status : ThreadGoalStatus) (tokenBudget : Option Int)
      (hactive : ThreadGoals.statusCase status tokenBudget goal = .active) :
      ThreadGoals.reached tokenBudget goal.tokensUsed = false := by
    rw [ThreadGoals.statusCase] at hactive
    split at hactive
    next hlimited => cases hlimited.1.symm.trans hactive
    next => exact not_reached_of_active hactive id
  unfold ThreadGoals.updatedGoal
  dsimp only
  split
  next status tokenBudget _ _ =>
    exact ⟨withinBudget_of_not_reached (hcase status tokenBudget), rfl, rfl⟩
  next status _ _ => exact ⟨withinBudget_of_not_reached (hcase status goal.tokenBudget), rfl, rfl⟩
  next tokenBudget _ _ =>
    exact ⟨withinBudget_of_not_reached fun hactive ↦ not_reached_of_active hactive id, rfl, rfl⟩
  next => exact ⟨h, rfl, rfl⟩

/-- Every mode looks at the budget of a goal that is active. -/
theorem budgetLimitStatusFilter_active (mode : GoalAccountingMode) :
    ThreadGoals.budgetLimitStatusFilter mode .active = true := by
  cases mode <;> rfl

theorem withinBudget_accountedGoal (timeDeltaSeconds tokenDelta : Int) (mode : GoalAccountingMode)
    (now : Int) (goal : ThreadGoal) :
    WithinBudget (ThreadGoals.accountedGoal timeDeltaSeconds tokenDelta mode now goal) := by
  refine withinBudget_of_not_reached fun hactive ↦ not_reached_of_active hactive fun hstatus ↦ ?_
  rw [hstatus]
  exact budgetLimitStatusFilter_active mode

theorem holds_insert (h : Holds table threadId usage) (goalId objective : String)
    (status : ThreadGoalStatus) (tokenBudget : Option Int) (now : Int) :
    Holds (perform table now (.insert thread goalId objective status tokenBudget)).1 threadId
      (usage.after threadId (.insert thread goalId objective status tokenBudget,
        (perform table now (.insert thread goalId objective status tokenBudget)).2)) := by
  rw [perform, ThreadGoals.insertThreadGoal]
  split
  next => exact h
  next =>
    dsimp only [Prod.map, id_eq, Usage.after]
    by_cases hthread : thread = threadId
    · subst hthread
      rw [if_pos rfl]
      refine holds_update_self (withinBudget_of_not_reached fun hactive ↦ ?_) rfl
      exact not_reached_of_active hactive id
    · rw [if_neg hthread]
      exact h.update_of_ne (Ne.symm hthread) _

theorem holds_account (h : Holds table threadId usage) (timeDeltaSeconds tokenDelta : Int)
    (mode : GoalAccountingMode) (expectedGoalId : Option String) (now : Int) :
    Holds (perform table now
      (.account thread timeDeltaSeconds tokenDelta mode expectedGoalId)).1 threadId
      (usage.after threadId (.account thread timeDeltaSeconds tokenDelta mode expectedGoalId,
        (perform table now (.account thread timeDeltaSeconds tokenDelta mode
          expectedGoalId)).2)) := by
  rw [perform, ThreadGoals.accountThreadGoalUsage]
  dsimp only
  split
  next => exact h
  next =>
    rcases updateWhere_cases table thread (fun goal ↦
        ThreadGoals.statusFilter mode goal.status && ThreadGoals.isExpected expectedGoalId goal)
      (ThreadGoals.accountedGoal (max timeDeltaSeconds 0) (max tokenDelta 0) mode now) with
      hkeep | ⟨goal, hgoal, -, hupdate⟩
    · rw [hkeep]
      exact h
    · rw [hupdate]
      dsimp only
      rw [Function.update_self]
      dsimp only [Prod.map, id_eq, Usage.after]
      by_cases hthread : thread = threadId
      · subst hthread
        rw [if_pos rfl]
        refine holds_update_self (withinBudget_accountedGoal _ _ mode now goal) ?_
        rw [← (h goal hgoal).2]
        rfl
      · rw [if_neg hthread]
        exact h.update_of_ne (Ne.symm hthread) _

/-- The table that a statement leaves does not depend on what the call returns. -/
theorem fst_updateThreadGoal (s : ThreadGoals τ) (threadId : τ) (update : GoalUpdate) (now : Int) :
    (s.updateThreadGoal threadId update now).1 = s ∨
      (s.updateThreadGoal threadId update now).1 =
        (s.updateWhere threadId (ThreadGoals.isExpected update.expectedGoalId)
          (ThreadGoals.updatedGoal update now)).1 := by
  rw [ThreadGoals.updateThreadGoal]
  split
  next => exact .inl rfl
  next =>
    refine .inr ?_
    split
    next heq => rw [heq]
    next heq => rw [heq]

theorem holds_updateActive (h : Holds table threadId usage) (status : ThreadGoalStatus)
    (hstatus : status ≠ .active) (now : Int) :
    Holds (table.updateActiveThreadGoalStatus thread status now).1 threadId usage := by
  have hupdate : (table.updateActiveThreadGoalStatus thread status now).1 =
      (table.updateWhere thread (fun goal ↦
        goal.status = .active || status = .usageLimited && goal.status = .budgetLimited)
        fun goal ↦ { goal with status, updatedAtMs := now }).1 := by
    rw [ThreadGoals.updateActiveThreadGoalStatus]
    split
    next heq => rw [heq]
    next heq => rw [heq]
  rw [hupdate]
  exact h.updateWhere fun goal _ ↦ ⟨fun hactive ↦ absurd hactive hstatus, rfl, rfl⟩

/-- What a call leaves of a goal and adds to it is what its response says. -/
theorem Holds.perform (h : Holds table threadId usage) (now : Int) (call : GoalCall τ) :
    Holds (perform table now call).1 threadId
      (usage.after threadId (call, (GoalStore.perform table now call).2)) := by
  cases call with
  | insert thread goalId objective status tokenBudget =>
    exact holds_insert h goalId objective status tokenBudget now
  | update thread update =>
    change Holds (table.updateThreadGoal thread update now).1 threadId usage
    rcases fst_updateThreadGoal table thread update now with heq | heq <;> rw [heq]
    · exact h
    · exact h.updateWhere (updatedGoal_spec update now)
  | pause thread => exact holds_updateActive h .paused nofun now
  | usageLimit thread => exact holds_updateActive h .usageLimited nofun now
  | account thread timeDeltaSeconds tokenDelta mode expectedGoalId =>
    exact holds_account h timeDeltaSeconds tokenDelta mode expectedGoalId now
  | delete thread =>
    change Holds (Function.update table thread none) threadId usage
    by_cases hthread : threadId = thread
    · intro goal hgoal
      rw [hthread, Function.update_self] at hgoal
      cases hgoal
    · exact h.update_of_ne hthread none

/-! ## Whole runs -/

theorem Sound.step {s : GoalStore τ} (h : Sound s) (call : GoalCall τ × Int) :
    Sound (s.step call) := by
  intro threadId
  have hstep := (h threadId).perform call.2 call.1
  rw [GoalStore.step, accepted, List.foldl_append]
  exact hstep

theorem sound_run (calls : List (GoalCall τ × Int)) : Sound (run calls) :=
  List.foldlRecOn calls step nofun fun _ h call _ ↦ h.step call

/-- Usage for a goal leaves the others. -/
theorem account_expected {expected : String} (hgoal : table threadId = some goal)
    (hne : goal.goalId ≠ expected) (thread : τ) (timeDeltaSeconds tokenDelta : Int)
    (mode : GoalAccountingMode) (now : Int) :
    (table.accountThreadGoalUsage thread timeDeltaSeconds tokenDelta mode (some expected) now).1
      threadId = some goal := by
  rw [ThreadGoals.accountThreadGoalUsage]
  dsimp only
  split
  next => exact hgoal
  next =>
    rcases updateWhere_cases table thread (fun goal ↦
        ThreadGoals.statusFilter mode goal.status && ThreadGoals.isExpected (some expected) goal)
      (ThreadGoals.accountedGoal (max timeDeltaSeconds 0) (max tokenDelta 0) mode now) with
      hkeep | ⟨goal', hgoal', hcond, hupdate⟩
    · rw [hkeep]
      exact hgoal
    · rw [hupdate]
      dsimp only
      rw [Function.update_self]
      by_cases hthread : threadId = thread
      · subst hthread
        obtain rfl := Option.some.inj (hgoal.symm.trans hgoal')
        have hexpected := (Bool.and_eq_true_iff.mp hcond).2
        exact absurd (of_decide_eq_true hexpected) hne
      · exact (Function.update_of_ne hthread _ _).trans hgoal

theorem goal_budgets (calls : List (GoalCall τ × Int)) (threadId : τ) (goal : ThreadGoal)
    (hgoal : (run calls).table threadId = some goal) :
    (goal.status = .active → ∀ budget, goal.tokenBudget = some budget → goal.tokensUsed < budget) ∧
      goal.tokensUsed = (accepted (run calls).log threadId).tokens ∧
      goal.timeUsedSeconds = (accepted (run calls).log threadId).seconds ∧
      ∀ expected thread timeDeltaSeconds tokenDelta mode now, goal.goalId ≠ expected →
        ((run calls).table.accountThreadGoalUsage thread timeDeltaSeconds tokenDelta mode
          (some expected) now).1 threadId = some goal := by
  obtain ⟨hbudget, husage⟩ := sound_run calls threadId goal hgoal
  refine ⟨hbudget, congrArg Usage.tokens husage, congrArg Usage.seconds husage, ?_⟩
  intro expected thread timeDeltaSeconds tokenDelta mode now hne
  exact account_expected hgoal hne thread timeDeltaSeconds tokenDelta mode now

/-- A goal with a budget of ten tokens, two reports of which the second is negative in part, one
for another goal, and a larger budget after the goal was stopped. -/
def budgetCalls : List (GoalCall Nat × Int) :=
  [(.insert 0 "g" "objective" .active (some 10), 1), (.account 0 5 4 .activeOnly (some "g"), 2),
    (.account 0 (-3) 7 .activeOnly none, 3), (.account 0 1 1 .activeOrStopped (some "h"), 4),
    (.update 0 ⟨none, some .active, some (some 20), some "g"⟩, 5)]

theorem goal_budgets_budgetCalls :
    (run budgetCalls).table 0 = some ⟨"g", "objective", .active, some 20, 11, 5, 1, 5⟩ ∧
      11 = (accepted (run budgetCalls).log 0).tokens := by
  have hgoal : (run budgetCalls).table 0 =
      some ⟨"g", "objective", .active, some 20, 11, 5, 1, 5⟩ := rfl
  exact ⟨hgoal, (goal_budgets budgetCalls 0 _ hgoal).2.1⟩

end GoalStore

end Praxis.State
