import Praxis.Foundation.OrderedMap
import Praxis.Foundation.Rust
import Praxis.Foundation.Steps
import Mathlib.Data.String.Basic

/-!
# The status of threads

The gateway keeps a few facts about every thread and derives from them the status that it reports.
Requests for a permission or for input are counted while their guards are held; a guard that is
dropped lets its request be counted down later, by a task of its own.

The ends of turns, errors and shutdowns set the counters back while guards are still held.  What
the flags are to show is therefore kept apart, in an `Account` of what has happened to a thread,
and the facts agree with it as long as guards from before do not meet requests from after
(`thread_flags_truthful`).
-/

namespace Praxis.Gateway

open Foundation

/-! ## Status and control -/

abbrev ThreadId := String

inductive ThreadActiveFlag where
  | running
  | waitingOnResource
  | waitingOnApproval
  | waitingOnUserInput
  | controlled
  deriving DecidableEq

inductive ThreadStatus where
  | notLoaded
  | idle
  | systemError
  | active (activeFlags : List ThreadActiveFlag)
  deriving DecidableEq

def ThreadStatus.flags : ThreadStatus → List ThreadActiveFlag
  | active activeFlags => activeFlags
  | _ => []

inductive ThreadControllerKind where
  | thread
  | external
  deriving DecidableEq

structure ThreadController where
  kind : ThreadControllerKind
  id : String
  label : Option String
  rank : Option UInt8
  deriving DecidableEq

structure ThreadControlState where
  controller : ThreadController
  reason : Option String
  readOnly : Bool
  acquiredAt : Int
  updatedAt : Int
  deriving DecidableEq

/-- The control state that `acquire_thread_control` sets at the time `now`. -/
def acquiredControlState (previousControl : Option ThreadControlState)
    (controller : ThreadController) (reason : Option String) (now : Int) : ThreadControlState where
  controller := controller
  reason := reason
  readOnly := true
  acquiredAt := ((previousControl.filter (·.controller = controller)).map (·.acquiredAt)).getD now
  updatedAt := now

/-- `ThreadWatchActiveGuardType`. -/
inductive GuardType where
  | permission
  | userInput
  deriving DecidableEq

/-- The flag that a request of the kind sets. -/
def GuardType.flag : GuardType → ThreadActiveFlag
  | permission => .waitingOnApproval
  | userInput => .waitingOnUserInput

/-- `ThreadWatchActiveGuard`.  The number tells guards of one thread and kind apart. -/
structure ThreadWatchActiveGuard where
  threadId : ThreadId
  guardType : GuardType
  number : Nat
  deriving DecidableEq

/-! ## The facts about a thread -/

structure RuntimeFacts where
  isLoaded : Bool
  running : Bool
  waitingOnResource : Bool
  pendingPermissionRequests : UInt32
  pendingUserInputRequests : UInt32
  hasSystemError : Bool
  controlState : Option ThreadControlState
  deriving DecidableEq

namespace RuntimeFacts

/-- `Default for RuntimeFacts`. -/
def default : RuntimeFacts := ⟨false, false, false, 0, 0, false, none⟩

/-- `pending_counter`. -/
def pendingCounter (runtime : RuntimeFacts) : GuardType → UInt32
  | .permission => runtime.pendingPermissionRequests
  | .userInput => runtime.pendingUserInputRequests

/-- Changes the counter that `pending_counter` gives. -/
def updatePendingCounter (runtime : RuntimeFacts) (update : UInt32 → UInt32) :
    GuardType → RuntimeFacts
  | .permission =>
    { runtime with pendingPermissionRequests := update runtime.pendingPermissionRequests }
  | .userInput =>
    { runtime with pendingUserInputRequests := update runtime.pendingUserInputRequests }

/-- The flags in the order in which `loaded_thread_status` pushes them. -/
def activeFlags (runtime : RuntimeFacts) : List ThreadActiveFlag :=
  (if runtime.running then [.running] else []) ++
  (if runtime.waitingOnResource then [.waitingOnResource] else []) ++
  (if 0 < runtime.pendingPermissionRequests then [.waitingOnApproval] else []) ++
  (if 0 < runtime.pendingUserInputRequests then [.waitingOnUserInput] else []) ++
  (if runtime.controlState.isSome then [.controlled] else [])

/-- `loaded_thread_status`. -/
def loadedThreadStatus (runtime : RuntimeFacts) : ThreadStatus :=
  if !runtime.isLoaded then .notLoaded
  else if runtime.activeFlags ≠ [] then .active runtime.activeFlags
  else if runtime.hasSystemError then .systemError
  else .idle

theorem flags_loadedThreadStatus {runtime : RuntimeFacts} (h : runtime.isLoaded = true) :
    runtime.loadedThreadStatus.flags = runtime.activeFlags := by
  unfold loadedThreadStatus
  rw [h, Bool.not_true, if_neg Bool.false_ne_true]
  split_ifs with hflags herror
  · rfl
  · exact (not_not.mp hflags).symm
  · exact (not_not.mp hflags).symm

theorem flag_mem_activeFlags {runtime : RuntimeFacts} {kind : GuardType} :
    kind.flag ∈ runtime.activeFlags ↔ 0 < runtime.pendingCounter kind := by
  cases kind <;> simp [activeFlags, GuardType.flag, pendingCounter]

theorem pendingCounter_update {runtime : RuntimeFacts} {update : UInt32 → UInt32}
    {kind other : GuardType} :
    (runtime.updatePendingCounter update kind).pendingCounter other =
      if other = kind then update (runtime.pendingCounter other)
      else runtime.pendingCounter other := by
  cases kind <;> cases other <;> rfl

theorem running_update {runtime : RuntimeFacts} {update : UInt32 → UInt32} {kind : GuardType} :
    (runtime.updatePendingCounter update kind).running = runtime.running := by
  cases kind <;> rfl

theorem isLoaded_update {runtime : RuntimeFacts} {update : UInt32 → UInt32} {kind : GuardType} :
    (runtime.updatePendingCounter update kind).isLoaded = runtime.isLoaded := by
  cases kind <;> rfl

theorem pendingCounter_load {runtime : RuntimeFacts} {kind : GuardType} :
    ({ runtime with isLoaded := true }).pendingCounter kind = runtime.pendingCounter kind := by
  cases kind <;> rfl

end RuntimeFacts

/-! ## The state of the watch -/

structure ThreadStatusChangedNotification where
  threadId : ThreadId
  status : ThreadStatus
  deriving DecidableEq

structure ThreadControlChangedNotification where
  threadId : ThreadId
  controlState : Option ThreadControlState
  deriving DecidableEq

structure ThreadWatchState where
  runtimeByThreadId : OrderedMap ThreadId RuntimeFacts

namespace ThreadWatchState

variable (s : ThreadWatchState) (threadId : ThreadId)

def initial : ThreadWatchState := ⟨.empty⟩

/-- The entry of the thread, made where there is none and changed. -/
def modifyRuntime (mutate : RuntimeFacts → RuntimeFacts) : ThreadWatchState :=
  ⟨s.runtimeByThreadId.insert threadId
    (mutate ((s.runtimeByThreadId.get? threadId).getD .default))⟩

/-- `status_for`. -/
def statusFor : Option ThreadStatus :=
  (s.runtimeByThreadId.get? threadId).map RuntimeFacts.loadedThreadStatus

/-- `loaded_status_for_thread`. -/
def loadedStatusForThread : ThreadStatus := (s.statusFor threadId).getD .notLoaded

/-- `loaded_control_state_for_thread`. -/
def loadedControlStateForThread : Option ThreadControlState :=
  (s.runtimeByThreadId.get? threadId).bind RuntimeFacts.controlState

/-- `running_turn_count`. -/
def runningTurnCount : Nat := (s.runtimeByThreadId.values.filter RuntimeFacts.running).length

/-- `status_changed_notification`. -/
def statusChangedNotification (previousStatus : Option ThreadStatus) :
    Option ThreadStatusChangedNotification :=
  match s.statusFor threadId with
  | none => none
  | some status => if previousStatus = some status then none else some ⟨threadId, status⟩

/-- The state after a section, and the notifications that it has made. -/
structure Section where
  state : ThreadWatchState
  status : Option ThreadStatusChangedNotification
  control : Option ThreadControlChangedNotification

/-- `upsert_thread`. -/
def upsertThread (emitNotification : Bool) : Section :=
  let state := s.modifyRuntime threadId fun runtime ↦ { runtime with isLoaded := true }
  ⟨state,
    if emitNotification then state.statusChangedNotification threadId (s.statusFor threadId)
    else none, none⟩

/-- `remove_thread` of the state. -/
def removeThread : Section :=
  ⟨⟨s.runtimeByThreadId.erase threadId⟩,
    if (s.statusFor threadId).isSome ∧ s.statusFor threadId ≠ some .notLoaded then
      some ⟨threadId, .notLoaded⟩
    else none, none⟩

/-- `update_runtime`. -/
def updateRuntime (mutate : RuntimeFacts → RuntimeFacts) : Section :=
  let state := s.modifyRuntime threadId fun runtime ↦ mutate { runtime with isLoaded := true }
  ⟨state, state.statusChangedNotification threadId (s.statusFor threadId), none⟩

/-- The section of `clear_active_state`. -/
def clearActiveState : Section :=
  let state := s.modifyRuntime threadId fun runtime ↦
    { runtime with
      isLoaded := true
      running := false
      waitingOnResource := false
      pendingPermissionRequests := 0
      pendingUserInputRequests := 0 }
  ⟨state, state.statusChangedNotification threadId (s.statusFor threadId), none⟩

/-- The section of `acquire_thread_control`. -/
def acquireThreadControl (controller : ThreadController) (reason : Option String) (now : Int) :
    Section :=
  let previousControl := s.loadedControlStateForThread threadId
  let controlState := acquiredControlState previousControl controller reason now
  let state := s.modifyRuntime threadId fun runtime ↦
    { runtime with isLoaded := true, controlState := some controlState }
  ⟨state, state.statusChangedNotification threadId (s.statusFor threadId),
    if previousControl ≠ some controlState then some ⟨threadId, some controlState⟩ else none⟩

/-- The section of `release_thread_control`. -/
def releaseThreadControl : Section :=
  let state : ThreadWatchState := ⟨s.runtimeByThreadId.modify threadId fun runtime ↦
    { runtime with controlState := none }⟩
  ⟨state, state.statusChangedNotification threadId (s.statusFor threadId),
    (s.loadedControlStateForThread threadId).map fun _ ↦ ⟨threadId, none⟩⟩

end ThreadWatchState

/-! ## Operations -/

/-- What is done to the state at once, under its lock. -/
inductive Change where
  | upsert (threadId : ThreadId) (emitNotification : Bool)
  | remove (threadId : ThreadId)
  | turnStarted (threadId : ThreadId)
  /-- The end of a turn, by its completion or an interruption. -/
  | clearActive (threadId : ThreadId)
  | resourceWait (threadId : ThreadId) (waiting : Bool)
  | shutdown (threadId : ThreadId)
  | systemError (threadId : ThreadId)
  | acquireControl (threadId : ThreadId) (controller : ThreadController)
      (reason : Option String) (now : Int)
  | releaseControl (threadId : ThreadId)
  | pendingRequest (guard : ThreadWatchActiveGuard)
  | guardReleased (guard : ThreadWatchActiveGuard)
  deriving DecidableEq

namespace Change

def threadId : Change → ThreadId
  | upsert threadId _ | remove threadId | turnStarted threadId | clearActive threadId
  | resourceWait threadId _ | shutdown threadId | systemError threadId
  | acquireControl threadId _ _ _ | releaseControl threadId => threadId
  | pendingRequest guard | guardReleased guard => guard.threadId

/-- The section of a change. -/
def apply (s : ThreadWatchState) : Change → ThreadWatchState.Section
  | upsert threadId emitNotification => s.upsertThread threadId emitNotification
  | remove threadId => s.removeThread threadId
  | turnStarted threadId => s.updateRuntime threadId fun runtime ↦
      { runtime with isLoaded := true, running := true, hasSystemError := false }
  | clearActive threadId => s.clearActiveState threadId
  | resourceWait threadId waiting => s.updateRuntime threadId fun runtime ↦
      { runtime with isLoaded := true, waitingOnResource := waiting }
  | shutdown threadId => s.updateRuntime threadId fun runtime ↦
      { runtime with
        running := false
        pendingPermissionRequests := 0
        pendingUserInputRequests := 0
        waitingOnResource := false
        isLoaded := false }
  | systemError threadId => s.updateRuntime threadId fun runtime ↦
      { runtime with
        running := false
        pendingPermissionRequests := 0
        pendingUserInputRequests := 0
        waitingOnResource := false
        hasSystemError := true }
  | acquireControl threadId controller reason now =>
      s.acquireThreadControl threadId controller reason now
  | releaseControl threadId => s.releaseThreadControl threadId
  | pendingRequest guard => s.updateRuntime guard.threadId fun runtime ↦
      { runtime with isLoaded := true }.updatePendingCounter (saturatingAddU32 · 1)
        guard.guardType
  | guardReleased guard => s.updateRuntime guard.threadId fun runtime ↦
      runtime.updatePendingCounter (saturatingSubU32 · 1) guard.guardType

end Change

/-- What a change makes of the facts about its thread. -/
def Change.becomes (runtime : RuntimeFacts) : Change → RuntimeFacts
  | upsert _ _ => { runtime with isLoaded := true }
  | remove _ => .default
  | turnStarted _ => { runtime with isLoaded := true, running := true, hasSystemError := false }
  | clearActive _ =>
    { runtime with
      isLoaded := true
      running := false
      waitingOnResource := false
      pendingPermissionRequests := 0
      pendingUserInputRequests := 0 }
  | resourceWait _ waiting => { runtime with isLoaded := true, waitingOnResource := waiting }
  | shutdown _ =>
    { runtime with
      running := false
      pendingPermissionRequests := 0
      pendingUserInputRequests := 0
      waitingOnResource := false
      isLoaded := false }
  | systemError _ =>
    { runtime with
      isLoaded := true
      running := false
      pendingPermissionRequests := 0
      pendingUserInputRequests := 0
      waitingOnResource := false
      hasSystemError := true }
  | acquireControl _ controller reason now =>
    { runtime with
      isLoaded := true
      controlState := some (acquiredControlState runtime.controlState controller reason now) }
  | releaseControl _ => { runtime with controlState := none }
  | pendingRequest guard =>
    { runtime with isLoaded := true }.updatePendingCounter (saturatingAddU32 · 1) guard.guardType
  | guardReleased guard =>
    { runtime with isLoaded := true }.updatePendingCounter (saturatingSubU32 · 1) guard.guardType

namespace ThreadWatchState

variable {s : ThreadWatchState} {threadId other : ThreadId}

/-- The facts about a thread; a thread without an entry is not loaded. -/
def runtime (s : ThreadWatchState) (threadId : ThreadId) : RuntimeFacts :=
  (s.runtimeByThreadId.get? threadId).getD .default

theorem runtime_modifyRuntime {mutate : RuntimeFacts → RuntimeFacts} :
    (s.modifyRuntime threadId mutate).runtime other =
      if other = threadId then mutate (s.runtime other) else s.runtime other := by
  unfold runtime modifyRuntime
  rw [OrderedMap.get?_insert]
  split_ifs with h
  · rw [h]
    rfl
  · rfl

theorem loadedStatusForThread_eq :
    s.loadedStatusForThread threadId = (s.runtime threadId).loadedThreadStatus := by
  unfold loadedStatusForThread statusFor runtime
  cases s.runtimeByThreadId.get? threadId <;> rfl

theorem loadedControlStateForThread_eq :
    s.loadedControlStateForThread threadId = (s.runtime threadId).controlState := by
  unfold loadedControlStateForThread runtime
  cases s.runtimeByThreadId.get? threadId <;> rfl

theorem runtime_removeThread : (s.removeThread threadId).state.runtime other =
    if other = threadId then .default else s.runtime other := by
  unfold runtime removeThread
  rw [OrderedMap.get?_erase]
  split_ifs <;> rfl

theorem runtime_releaseThreadControl : (s.releaseThreadControl threadId).state.runtime other =
    if other = threadId then { s.runtime other with controlState := none }
    else s.runtime other := by
  unfold runtime releaseThreadControl
  rw [OrderedMap.get?_modify]
  split_ifs with h
  · rw [h]
    cases s.runtimeByThreadId.get? threadId <;> rfl
  · rfl

/-- A change touches its own thread only. -/
theorem runtime_apply (change : Change) : (change.apply s).state.runtime other =
    if other = change.threadId then change.becomes (s.runtime other) else s.runtime other := by
  cases change with
  | remove threadId => exact runtime_removeThread
  | releaseControl threadId => exact runtime_releaseThreadControl
  | acquireControl threadId controller reason now =>
    refine runtime_modifyRuntime.trans ?_
    rw [loadedControlStateForThread_eq]
    by_cases h : other = threadId
    · subst h
      rfl
    · rw [if_neg h]
      exact (if_neg h).symm
  | _ => exact runtime_modifyRuntime

end ThreadWatchState

/-- The operations of `ThreadWatchManager`, as the changes that they make one after another. -/
inductive Operation where
  | upsertThread (threadId : ThreadId)
  | upsertThreadSilently (threadId : ThreadId)
  | removeThread (threadId : ThreadId)
  | noteTurnStarted (threadId : ThreadId)
  | noteTurnCompleted (threadId : ThreadId) (failed : Bool)
  | noteTurnInterrupted (threadId : ThreadId)
  | noteResourceWait (threadId : ThreadId) (waiting : Bool)
  | noteThreadShutdown (threadId : ThreadId)
  | noteSystemError (threadId : ThreadId)
  | acquireThreadControl (threadId : ThreadId) (controller : ThreadController)
      (reason : Option String) (now : Int)
  | releaseThreadControl (threadId : ThreadId)
  | notePendingRequest (guard : ThreadWatchActiveGuard)
  | noteActiveGuardReleased (guard : ThreadWatchActiveGuard)

def Operation.changes : Operation → List Change
  | upsertThread threadId => [.upsert threadId true]
  | upsertThreadSilently threadId => [.upsert threadId false]
  | removeThread threadId => [.releaseControl threadId, .remove threadId]
  | noteTurnStarted threadId => [.turnStarted threadId]
  | noteTurnCompleted threadId _ | noteTurnInterrupted threadId => [.clearActive threadId]
  | noteResourceWait threadId waiting => [.resourceWait threadId waiting]
  | noteThreadShutdown threadId => [.releaseControl threadId, .shutdown threadId]
  | noteSystemError threadId => [.releaseControl threadId, .systemError threadId]
  | acquireThreadControl threadId controller reason now =>
      [.acquireControl threadId controller reason now]
  | releaseThreadControl threadId => [.releaseControl threadId]
  | notePendingRequest guard => [.pendingRequest guard]
  | noteActiveGuardReleased guard => [.guardReleased guard]

/-! ## What the status has to show -/

/-- The number of guards of a kind. -/
def heldOf (kind : GuardType) (guards : List ThreadWatchActiveGuard) : Nat :=
  guards.countP (·.guardType = kind)

theorem heldOf_cons (guard : ThreadWatchActiveGuard) (guards : List ThreadWatchActiveGuard)
    (kind : GuardType) : heldOf kind (guard :: guards) =
      if kind = guard.guardType then heldOf kind guards + 1 else heldOf kind guards := by
  unfold heldOf
  rw [List.countP_cons]
  by_cases h : kind = guard.guardType
  · rw [if_pos h, if_pos (decide_eq_true h.symm)]
  · rw [if_neg h, if_neg (mt of_decide_eq_true (Ne.symm h)), Nat.add_zero]

/-- One guard less of its kind, unless there was none. -/
theorem heldOf_erase {guard : ThreadWatchActiveGuard} {guards : List ThreadWatchActiveGuard}
    (h : guard ∈ guards ∨ heldOf guard.guardType guards = 0) (kind : GuardType) :
    heldOf kind (guards.erase guard) =
      if kind = guard.guardType then heldOf kind guards - 1 else heldOf kind guards := by
  by_cases hmem : guard ∈ guards
  · have hperm : heldOf kind guards = heldOf kind (guard :: guards.erase guard) :=
      (List.perm_cons_erase hmem).countP_eq _
    rw [hperm, heldOf_cons]
    split_ifs with hkind
    · rw [Nat.add_sub_cancel]
    · rfl
  · rw [List.erase_of_not_mem hmem]
    split_ifs with hkind
    · rw [hkind, h.resolve_left hmem]
    · rfl

/-- What has happened to a thread: whether it is in a turn, which guards issued since the last end
of a turn, error or shutdown are held, and whether it has been shut down or removed and not been
used again. -/
structure Account where
  inTurn : Bool
  pending : List ThreadWatchActiveGuard
  gone : Bool

namespace Account

def initial : Account := ⟨false, [], false⟩

/-- A change of the thread goes into its account. -/
def note (a : Account) : Change → Account
  | .upsert _ _ => { a with gone := false }
  | .remove _ => { a with inTurn := false, gone := true }
  | .turnStarted _ => { a with inTurn := true, gone := false }
  | .clearActive _ | .systemError _ => { a with inTurn := false, pending := [] }
  | .shutdown _ => ⟨false, [], true⟩
  | .pendingRequest guard => { a with pending := guard :: a.pending, gone := false }
  | .guardReleased guard => { a with pending := a.pending.erase guard }
  | .resourceWait _ _ | .acquireControl _ _ _ _ | .releaseControl _ => a

/-- The number of guards of a kind that are held. -/
def waiting (a : Account) (kind : GuardType) : Nat := heldOf kind a.pending

/-- What has to be the case when a change comes: a thread that has been shut down or removed is
used again by a new request, a turn or an upsert only; a guard from before comes while none of its
kind is held; a thread is removed when none is held; and the counters do not run over. -/
def Orderly (a : Account) : Change → Prop
  | .clearActive _ | .systemError _ | .resourceWait _ _ | .acquireControl _ _ _ _ =>
    a.gone = false
  | .remove _ => a.pending = []
  | .pendingRequest guard => a.waiting guard.guardType + 1 < 2 ^ 32
  | .guardReleased guard =>
    a.gone = false ∧ (guard ∈ a.pending ∨ a.waiting guard.guardType = 0)
  | .upsert _ _ | .turnStarted _ | .shutdown _ | .releaseControl _ => True

instance decidableOrderly (a : Account) (change : Change) : Decidable (a.Orderly change) :=
  match change with
  | .clearActive _ | .systemError _ | .resourceWait _ _ | .acquireControl _ _ _ _ =>
    inferInstanceAs (Decidable (a.gone = false))
  | .remove _ => inferInstanceAs (Decidable (a.pending = []))
  | .pendingRequest guard =>
    inferInstanceAs (Decidable (a.waiting guard.guardType + 1 < 2 ^ 32))
  | .guardReleased guard => inferInstanceAs
      (Decidable (a.gone = false ∧ (guard ∈ a.pending ∨ a.waiting guard.guardType = 0)))
  | .upsert _ _ | .turnStarted _ | .shutdown _ | .releaseControl _ => .isTrue trivial

/-- The facts are those of the account. -/
structure Agrees (a : Account) (runtime : RuntimeFacts) : Prop where
  inTurn : a.inTurn = runtime.running
  loaded : runtime.running = true → runtime.isLoaded = true
  gone : a.gone = true → runtime.isLoaded = false
  waiting : ∀ kind, (runtime.pendingCounter kind).toNat = a.waiting kind

variable {a : Account} {runtime : RuntimeFacts}

/-- The facts stay those of the account. -/
theorem Agrees.note (h : a.Agrees runtime) {change : Change} (horderly : a.Orderly change) :
    (a.note change).Agrees (change.becomes runtime) := by
  cases change with
  | upsert _ _ =>
    exact ⟨h.inTurn, fun _ ↦ rfl, fun hgone ↦ absurd hgone Bool.false_ne_true, h.waiting⟩
  | remove _ =>
    refine ⟨rfl, fun hrunning ↦ absurd hrunning Bool.false_ne_true, fun _ ↦ rfl, fun kind ↦ ?_⟩
    have hpending : a.waiting kind = 0 := congrArg (heldOf kind) horderly
    refine Eq.trans ?_ hpending.symm
    cases kind <;> rfl
  | turnStarted _ =>
    exact ⟨rfl, fun _ ↦ rfl, fun hgone ↦ absurd hgone Bool.false_ne_true, h.waiting⟩
  | clearActive _ =>
    refine ⟨rfl, fun _ ↦ rfl, fun hgone ↦ ?_, fun kind ↦ by cases kind <;> rfl⟩
    exact absurd (horderly.symm.trans hgone) Bool.false_ne_true
  | resourceWait _ _ =>
    refine ⟨h.inTurn, fun _ ↦ rfl, fun hgone ↦ ?_, h.waiting⟩
    exact absurd (horderly.symm.trans hgone) Bool.false_ne_true
  | shutdown _ =>
    refine ⟨rfl, fun hrunning ↦ absurd hrunning Bool.false_ne_true, fun _ ↦ rfl, fun kind ↦ ?_⟩
    cases kind <;> rfl
  | systemError _ =>
    refine ⟨rfl, fun _ ↦ rfl, fun hgone ↦ ?_, fun kind ↦ by cases kind <;> rfl⟩
    exact absurd (horderly.symm.trans hgone) Bool.false_ne_true
  | acquireControl _ _ _ _ =>
    refine ⟨h.inTurn, fun _ ↦ rfl, fun hgone ↦ ?_, h.waiting⟩
    exact absurd (horderly.symm.trans hgone) Bool.false_ne_true
  | releaseControl _ => exact ⟨h.inTurn, h.loaded, h.gone, h.waiting⟩
  | pendingRequest guard =>
    have hrunning : ((Change.pendingRequest guard).becomes runtime).running = runtime.running :=
      RuntimeFacts.running_update
    refine ⟨h.inTurn.trans hrunning.symm, fun _ ↦ RuntimeFacts.isLoaded_update,
      fun hgone ↦ absurd hgone Bool.false_ne_true, fun kind ↦ ?_⟩
    have hheld : (runtime.pendingCounter kind).toNat = heldOf kind a.pending := h.waiting kind
    change _ = heldOf kind (guard :: a.pending)
    rw [Change.becomes, RuntimeFacts.pendingCounter_update, RuntimeFacts.pendingCounter_load,
      heldOf_cons]
    split_ifs with hkind
    · subst hkind
      rw [← hheld]
      refine toNat_saturatingAddU32_one ?_
      rw [hheld]
      exact horderly
    · exact hheld
  | guardReleased guard =>
    obtain ⟨hloaded, hguard⟩ := horderly
    have hrunning : ((Change.guardReleased guard).becomes runtime).running = runtime.running :=
      RuntimeFacts.running_update
    refine ⟨h.inTurn.trans hrunning.symm, fun _ ↦ RuntimeFacts.isLoaded_update,
      fun hgone ↦ absurd (hloaded.symm.trans hgone) Bool.false_ne_true, fun kind ↦ ?_⟩
    have hheld : (runtime.pendingCounter kind).toNat = heldOf kind a.pending := h.waiting kind
    change _ = heldOf kind (a.pending.erase guard)
    rw [Change.becomes, RuntimeFacts.pendingCounter_update, RuntimeFacts.pendingCounter_load,
      heldOf_erase hguard]
    split_ifs with hkind
    · rw [toNat_saturatingSubU32_one, hheld]
    · exact hheld

end Account

/-! ## Runs -/

/-- The state, and the accounts of the threads. -/
structure Watch where
  state : ThreadWatchState
  accounts : ThreadId → Account

namespace Watch

def initial : Watch := ⟨.initial, fun _ ↦ .initial⟩

/-- A change is made, and goes into the account of its thread. -/
def next (w : Watch) (change : Change) : Watch where
  state := (change.apply w.state).state
  accounts threadId :=
    if threadId = change.threadId then (w.accounts threadId).note change
    else w.accounts threadId

/-- The changes come in any order: those of an operation with two of them may have others
between. -/
def Step (guard : Account → Change → Prop) (w : Watch) (change : Change) (t : Watch) : Prop :=
  guard (w.accounts change.threadId) change ∧ t = w.next change

/-- The facts about every thread are those of its account. -/
def Agrees (w : Watch) : Prop :=
  ∀ threadId, (w.accounts threadId).Agrees (w.state.runtime threadId)

theorem agrees_initial : initial.Agrees := by
  refine fun threadId ↦ ⟨rfl, fun h ↦ absurd h Bool.false_ne_true,
    fun h ↦ absurd h Bool.false_ne_true, fun kind ↦ ?_⟩
  cases kind <;> rfl

theorem Agrees.next {w : Watch} (h : w.Agrees) {change : Change}
    (horderly : (w.accounts change.threadId).Orderly change) : (w.next change).Agrees := by
  intro threadId
  unfold Watch.next
  dsimp only
  rw [ThreadWatchState.runtime_apply]
  split_ifs with hthread
  · subst hthread
    exact (h _).note horderly
  · exact h threadId

end Watch

/-- What the status of a thread shows. -/
structure Truthful (a : Account) (status : ThreadStatus) : Prop where
  flag : a.inTurn = true →
    ∀ kind : GuardType, kind.flag ∈ status.flags ↔ ∃ guard ∈ a.pending, guard.guardType = kind
  gone : a.gone = true → status = .notLoaded

theorem Account.Agrees.truthful {a : Account} {runtime : RuntimeFacts} (h : a.Agrees runtime) :
    Truthful a runtime.loadedThreadStatus := by
  refine ⟨fun hturn kind ↦ ?_, fun hgone ↦ ?_⟩
  · have hloaded := h.loaded (h.inTurn.symm.trans hturn)
    rw [RuntimeFacts.flags_loadedThreadStatus hloaded, RuntimeFacts.flag_mem_activeFlags,
      UInt32.lt_iff_toNat_lt, h.waiting]
    refine List.countP_pos_iff.trans ?_
    simp only [decide_eq_true_eq]
  · unfold RuntimeFacts.loadedThreadStatus
    rw [h.gone hgone]
    rfl

/-- In every run of orderly changes, a thread that is in a turn shows the flag of a kind exactly
if a guard of that kind is held that was issued since the last end of a turn, error or shutdown,
and a thread that has been shut down or removed is not loaded until it is used again. -/
theorem thread_flags_truthful {changes : List Change} {w : Watch}
    (hrun : Steps (Watch.Step Account.Orderly) .initial changes w) (threadId : ThreadId) :
    Truthful (w.accounts threadId) (w.state.loadedStatusForThread threadId) := by
  have hagrees : w.Agrees := by
    refine hrun.invariant (fun w change t hw hstep ↦ ?_) Watch.agrees_initial
    obtain ⟨horderly, rfl⟩ := hstep
    exact hw.next horderly
  rw [ThreadWatchState.loadedStatusForThread_eq]
  exact (hagrees threadId).truthful

/-- Where changes lead. -/
def Watch.after (changes : List Change) : Watch := changes.foldl Watch.next .initial

theorem Watch.steps_foldl_next (w : Watch) (changes : List Change) :
    Steps (Watch.Step fun _ _ ↦ True) w changes (changes.foldl Watch.next w) := by
  induction changes generalizing w with
  | nil => exact .nil w
  | cons change changes ih => exact .cons ⟨trivial, rfl⟩ (ih (w.next change))

/-- A permission is asked for and granted during a turn. -/
theorem thread_flags_truthful_request :
    Truthful ((Watch.after [.upsert "t" true, .turnStarted "t",
        .pendingRequest ⟨"t", .permission, 0⟩, .guardReleased ⟨"t", .permission, 0⟩]).accounts "t")
      (.active [.running]) :=
  thread_flags_truthful (steps_foldl (fun _ _ h ↦ ⟨h, rfl⟩) (by decide +kernel)) "t"

/-- A guard of a turn that has ended is released during the next turn: the request of that turn is
not shown any more.  And a guard that is released after a shutdown brings the thread back. -/
theorem late_guard_release_misreports :
    (∃ w, Steps (Watch.Step fun _ _ ↦ True) .initial
        [.upsert "t" true, .turnStarted "t", .pendingRequest ⟨"t", .permission, 0⟩,
          .clearActive "t", .turnStarted "t", .pendingRequest ⟨"t", .permission, 1⟩,
          .guardReleased ⟨"t", .permission, 0⟩] w ∧
      (w.accounts "t").inTurn = true ∧
      ⟨"t", .permission, 1⟩ ∈ (w.accounts "t").pending ∧
      w.state.loadedStatusForThread "t" = .active [.running]) ∧
    (∃ w, Steps (Watch.Step fun _ _ ↦ True) .initial
        [.upsert "t" true, .turnStarted "t", .pendingRequest ⟨"t", .permission, 0⟩,
          .releaseControl "t", .shutdown "t", .guardReleased ⟨"t", .permission, 0⟩] w ∧
      (w.accounts "t").gone = true ∧ w.state.loadedStatusForThread "t" = .idle) :=
  ⟨⟨_, Watch.steps_foldl_next _ _, by decide +kernel, by decide +kernel, by decide +kernel⟩,
    ⟨_, Watch.steps_foldl_next _ _, by decide +kernel, by decide +kernel⟩⟩

end Praxis.Gateway
