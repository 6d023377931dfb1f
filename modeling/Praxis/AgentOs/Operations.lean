import Praxis.AgentOs.RuntimeCommands
import Praxis.Foundation.Steps
import Praxis.Foundation.Sweep

/-!
# Histories of the runtime commands

The operations on threads, tasks, coordinators and runtime commands as labels of one transition
relation, and what each of them does to a command (`get?_perform`), to the index of the live
commands, and to the active coordinators (`coordinatorStep_perform`).
-/

namespace Praxis.AgentOs

open Foundation

/-- An operation of the runtime with its arguments. -/
inductive Operation where
  | registerThread (registration : ThreadRegistration)
  | createTask (taskId : String) (priority : Int) (assignedThreadId : Option ThreadId)
      (scopeIsEmpty exploratory : Bool) (createdBy : ThreadId)
  | assignTask (taskId : String) (threadId : ThreadId)
  /-- Messages, tickets and worker requests make or renew the active coordinator as well. -/
  | claimCoordinator (threadId : ThreadId) (activeAction : Option String)
  /-- Resource leases draw their tokens from the counter of the coordinators. -/
  | raiseFencing
  | issue (commandId : String) (fromThreadId toThreadId : ThreadId)
      (commandType : RuntimeCommandType) (taskId : Option String)
  | poll (threadId : ThreadId) (autoAck : Bool) (order : List String)
  | claim (threadId : ThreadId) (order : List String)
  | expire (order : List String)
  | noteStarted (threadId : ThreadId) (order : List String)
  | updateStatus (commandId : String) (actorThreadId : ThreadId) (status : RuntimeCommandStatus)

namespace AgentOsState

/-- The operation at a time of the clock.  One that fails leaves the state as it is, apart from
`assignTask`. -/
def perform (s : AgentOsState) (policy : AgentOsPolicy) (now : Time) : Operation → AgentOsState
  | .registerThread registration => (s.registerThread policy registration now).toOption.getD s
  | .createTask taskId priority assignedThreadId scopeIsEmpty exploratory createdBy =>
    (s.createTask taskId priority assignedThreadId scopeIsEmpty exploratory createdBy
      now).toOption.getD s
  | .assignTask taskId threadId => (s.assignTask taskId threadId now).2
  | .claimCoordinator threadId activeAction =>
    match s.threads.get? threadId with
    | none => s
    | some thread =>
      ((s.claimOrRenewActiveCoordinator policy thread now activeAction).toOption.map
        Prod.snd).getD s
  | .raiseFencing => { s with fencingCounter := saturatingAdd s.fencingCounter 1 }
  | .issue commandId fromThreadId toThreadId commandType taskId =>
    ((s.issueRuntimeCommand policy commandId fromThreadId toThreadId commandType taskId
      now).toOption.map Prod.snd).getD s
  | .poll threadId autoAck order =>
    ((s.pollRuntimeCommands threadId autoAck order now).toOption.map Prod.snd).getD s
  | .claim threadId order =>
    ((s.claimRuntimeCommandsForTurn policy threadId order now).toOption.map Prod.snd).getD s
  | .expire order => s.expireRuntimeCommands order now
  | .noteStarted threadId order => (s.noteWorkerStartedCommand policy threadId order now).2
  | .updateStatus commandId actorThreadId status =>
    ((s.updateRuntimeCommandStatus commandId actorThreadId status now).toOption.map
      Prod.snd).getD s

end AgentOsState

/-- The list goes through the set. -/
def Enumerates (order : List String) (ids : OrderedSet String) : Prop :=
  order.Nodup ∧ ∀ id, id ∈ order ↔ id ∈ ids

instance (order : List String) (ids : OrderedSet String) : Decidable (Enumerates order ids) :=
  decidable_of_iff
    (order.Nodup ∧ (∀ id ∈ order, id ∈ ids) ∧ ∀ id ∈ ids.elements, id ∈ order)
    (and_congr_right fun _ ↦ forall_and.symm.trans (forall_congr' fun _ ↦ iff_def.symm))

/-- Fresh ids are fresh, and loops go through the live commands. -/
def Operation.Admissible (s : AgentOsState) : Operation → Prop
  | .createTask taskId .. => s.tasks.get? taskId = none
  | .issue commandId .. => s.runtimeCommands.get? commandId = none
  | .poll _ _ order => Enumerates order s.liveRuntimeCommandIds
  | .claim _ order => Enumerates order s.liveRuntimeCommandIds
  | .expire order => Enumerates order s.liveRuntimeCommandIds
  | .noteStarted _ order => Enumerates order s.liveRuntimeCommandIds
  | _ => True

instance (s : AgentOsState) : (op : Operation) → Decidable (op.Admissible s)
  | .registerThread .. => .isTrue trivial
  | .createTask taskId .. => inferInstanceAs (Decidable (s.tasks.get? taskId = none))
  | .assignTask .. => .isTrue trivial
  | .claimCoordinator .. => .isTrue trivial
  | .raiseFencing => .isTrue trivial
  | .issue commandId .. => inferInstanceAs (Decidable (s.runtimeCommands.get? commandId = none))
  | .poll _ _ order => inferInstanceAs (Decidable (Enumerates order s.liveRuntimeCommandIds))
  | .claim _ order => inferInstanceAs (Decidable (Enumerates order s.liveRuntimeCommandIds))
  | .expire order => inferInstanceAs (Decidable (Enumerates order s.liveRuntimeCommandIds))
  | .noteStarted _ order => inferInstanceAs (Decidable (Enumerates order s.liveRuntimeCommandIds))
  | .updateStatus .. => .isTrue trivial

/-- Operations on threads, tasks and coordinators. -/
def Operation.isPlain : Operation → Bool
  | .registerThread .. => true
  | .createTask .. => true
  | .assignTask .. => true
  | .claimCoordinator .. => true
  | .raiseFencing => true
  | _ => false

def Operation.isIssue : Operation → Bool
  | .issue .. => true
  | _ => false

/-- One operation of a history. -/
def Performs (policy : AgentOsPolicy) (s : AgentOsState) (label : Time × Operation)
    (t : AgentOsState) : Prop :=
  label.2.Admissible s ∧ t = s.perform policy label.1 label.2

/-! ## What an operation makes of a command -/

namespace RuntimeCommandRecord

/-- The record after a poll by its receiver. -/
def polled (command : RuntimeCommandRecord) (active : Option ActiveCoordinatorLease) (now : Time)
    (autoAck : Bool) : RuntimeCommandRecord :=
  let nextStatus := command.pollStatus active now autoAck
  if nextStatus ≠ command.status then { command with status := nextStatus, updatedAt := now }
  else command

/-- The record after a claim. -/
def claimed (command : RuntimeCommandRecord) (policy : AgentOsPolicy)
    (active : Option ActiveCoordinatorLease) (now : Time) : RuntimeCommandRecord :=
  { command with
    status := command.claimStatus active now
    updatedAt := now
    expiresAt := now + policy.ticketTtl }

/-- The record after it was found expired. -/
def expiredAt (command : RuntimeCommandRecord) (now : Time) : RuntimeCommandRecord :=
  { command with status := .expired, updatedAt := now }

/-- The actor may report the status. -/
def mayReport (command : RuntimeCommandRecord) (actorThreadId : ThreadId)
    (status : RuntimeCommandStatus) : Bool :=
  (actorThreadId = command.fromThreadId || actorThreadId = command.toThreadId) &&
    (!(status = .acked || status = .executing || status = .completed) ||
      actorThreadId = command.toThreadId)

/-- The record after a report. -/
def reported (command : RuntimeCommandRecord) (actorThreadId : ThreadId)
    (status : RuntimeCommandStatus) (active : Option ActiveCoordinatorLease) (now : Time) :
    RuntimeCommandRecord :=
  { command with
    status := command.reportedStatus actorThreadId status active now
    updatedAt := now }

end RuntimeCommandRecord

namespace Operation

variable (policy : AgentOsPolicy) (s : AgentOsState) (now : Time)

/-- The operation goes to the command. -/
def visits (commandId : String) (command : RuntimeCommandRecord) : Operation → Bool
  | .poll threadId _ _ => s.threads.contains threadId &&
      (commandId ∈ s.liveRuntimeCommandIds && command.toThreadId = threadId)
  | .claim threadId _ => s.threads.contains threadId &&
      (commandId ∈ s.liveRuntimeCommandIds &&
        (command.toThreadId = threadId && command.status.isUnclaimed))
  | .expire _ => commandId ∈ s.liveRuntimeCommandIds && command.expiresAt ≤ now
  | .noteStarted threadId _ =>
    commandId ∈ s.liveRuntimeCommandIds && command.toThreadId = threadId
  | .updateStatus id actorThreadId status =>
    id = commandId && command.mayReport actorThreadId status
  | _ => false

/-- The record of a command after the operation has gone to it. -/
def becomes (command : RuntimeCommandRecord) : Operation → RuntimeCommandRecord
  | .poll threadId autoAck _ =>
    command.polled (s.activeCoordinatorForThread threadId) now autoAck
  | .claim threadId _ => command.claimed policy (s.activeCoordinatorForThread threadId) now
  | .expire _ => command.expiredAt now
  | .noteStarted threadId _ =>
    (command.applyWorkerStartedCommand ((s.threads.get? threadId).bind (·.currentTaskId)) now
      policy.ticketTtl).1
  | .updateStatus _ actorThreadId status =>
    command.reported actorThreadId status (s.activeCoordinatorForThread command.toThreadId) now
  | _ => command

end Operation

namespace AgentOsState

variable {policy : AgentOsPolicy} {s t : AgentOsState} {now : Time} {op : Operation}
  {id : String} {command : RuntimeCommandRecord}

/-! ### Records -/

/-- A live command that has not expired stays live when its worker has started. -/
theorem isLive_applyWorkerStartedCommand {currentTaskId : Option String} {ttl : Time}
    (hnow : now < command.expiresAt) (hlive : command.status.isLive = true) :
    (command.applyWorkerStartedCommand currentTaskId now ttl).1.status.isLive = true := by
  unfold RuntimeCommandRecord.applyWorkerStartedCommand
  rw [if_neg (not_le.mpr hnow), hlive]
  dsimp only
  rw [if_pos rfl]
  split_ifs
  · rfl
  · rfl
  · exact hlive

/-! ### Frames -/

section Frames

variable {setCurrentCommand : Bool}

/-- The assignment is a matter of tasks and threads. -/
theorem applyAssign_frame : ∃ tasks threads,
    s.applyAssignRuntimeStatus command now setCurrentCommand = { s with tasks, threads } := by
  unfold applyAssignRuntimeStatus
  by_cases htype : command.commandType = .assignTask
  · rw [if_neg (not_not.mpr htype)]
    cases command.taskId with
    | none => exact ⟨s.tasks, s.threads, rfl⟩
    | some taskId => exact ⟨_, _, rfl⟩
  · rw [if_pos htype]
    exact ⟨s.tasks, s.threads, rfl⟩

@[simp] theorem applyAssign_runtimeCommands :
    (s.applyAssignRuntimeStatus command now setCurrentCommand).runtimeCommands =
      s.runtimeCommands := by
  obtain ⟨_, _, h⟩ := applyAssign_frame
  rw [h]

@[simp] theorem applyAssign_liveRuntimeCommandIds :
    (s.applyAssignRuntimeStatus command now setCurrentCommand).liveRuntimeCommandIds =
      s.liveRuntimeCommandIds := by
  obtain ⟨_, _, h⟩ := applyAssign_frame
  rw [h]

end Frames

/-! ### Loops -/

section Loops

variable {threadId : ThreadId} {active : Option ActiveCoordinatorLease} {autoAck : Bool}
  {order : List String} {currentTaskId : Option String}

theorem poll_sweep (horder : order.Nodup) (p : Poll) :
    (order.foldl (Poll.visit threadId active now autoAck) p).state.runtimeCommands.get? id =
        (if id ∈ order then (p.state.runtimeCommands.get? id).map fun command ↦
          if command.toThreadId = threadId then command.polled active now autoAck else command
        else p.state.runtimeCommands.get? id) ∧
      (id ∈ (order.foldl (Poll.visit threadId active now autoAck) p).terminalIds ↔
        id ∈ p.terminalIds ∨ (id ∈ order ∧ ∀ command,
          p.state.runtimeCommands.get? id = some command → command.toThreadId = threadId ∧
            (command.polled active now autoAck).status ≠ command.status ∧
            (command.polled active now autoAck).status.isLive = false)) := by
  refine foldl_sweep (fun (p : Poll) id ↦ p.state.runtimeCommands.get? id)
    (fun p id ↦ id ∈ p.terminalIds) _
    (fun o ↦ ∀ command, o = some command → command.toThreadId = threadId ∧
      (command.polled active now autoAck).status ≠ command.status ∧
      (command.polled active now autoAck).status.isLive = false) ?_ ?_ horder p id
  · intro p k k'
    unfold Poll.visit RuntimeCommandRecord.polled
    split
    · rename_i hnone
      split_ifs with hk
      · rw [hk, hnone]
        rfl
      · rfl
    · rename_i command hcommand
      dsimp only
      split_ifs <;> simp_all [OrderedMap.get?_insert]
  · intro p k k'
    unfold Poll.visit RuntimeCommandRecord.polled
    split
    · simp_all
    · rename_i command hcommand
      dsimp only
      split_ifs <;> simp_all

theorem claim_sweep (horder : order.Nodup) (c : List RuntimeCommandRecord × AgentOsState) :
    (order.foldl (claimVisit policy active now) c).2.runtimeCommands.get? id =
        (if id ∈ order then (c.2.runtimeCommands.get? id).map (·.claimed policy active now)
        else c.2.runtimeCommands.get? id) ∧
      (id ∉ (order.foldl (claimVisit policy active now) c).2.liveRuntimeCommandIds ↔
        id ∉ c.2.liveRuntimeCommandIds ∨ (id ∈ order ∧ ∃ command,
          c.2.runtimeCommands.get? id = some command ∧
            (command.claimStatus active now).isLive = false)) := by
  refine foldl_sweep (fun (c : List RuntimeCommandRecord × AgentOsState) id ↦
      c.2.runtimeCommands.get? id) (fun c id ↦ id ∉ c.2.liveRuntimeCommandIds) _
    (fun o ↦ ∃ command, o = some command ∧ (command.claimStatus active now).isLive = false)
    ?_ ?_ horder c id
  · rintro ⟨claimed, s⟩ k k'
    unfold claimVisit
    dsimp only
    split
    · rename_i hnone
      split_ifs with hk
      · rw [hk, hnone]
        rfl
      · rfl
    · rename_i command hcommand
      rw [hcommand]
      split_ifs <;> simp_all [OrderedMap.get?_insert, RuntimeCommandRecord.claimed]
  · rintro ⟨claimed, s⟩ k k'
    unfold claimVisit
    dsimp only
    split
    · simp_all
    · rename_i command hcommand
      rw [hcommand]
      split_ifs <;> simp_all [OrderedSet.notMem_erase]

theorem expire_sweep (horder : order.Nodup) (s : AgentOsState) :
    (order.foldl (expireVisit now) s).runtimeCommands.get? id =
        (if id ∈ order then (s.runtimeCommands.get? id).map fun command ↦
          if command.expiresAt ≤ now then command.expiredAt now else command
        else s.runtimeCommands.get? id) ∧
      (id ∉ (order.foldl (expireVisit now) s).liveRuntimeCommandIds ↔
        id ∉ s.liveRuntimeCommandIds ∨ (id ∈ order ∧ ∀ command,
          s.runtimeCommands.get? id = some command → command.expiresAt ≤ now)) := by
  refine foldl_sweep (fun (s : AgentOsState) id ↦ s.runtimeCommands.get? id)
    (fun s id ↦ id ∉ s.liveRuntimeCommandIds) _
    (fun o ↦ ∀ command, o = some command → command.expiresAt ≤ now) ?_ ?_ horder s id
  · intro s k k'
    unfold expireVisit
    split
    · rename_i hnone
      split_ifs with hk
      · rw [hk, hnone]
        rfl
      · rfl
    · rename_i command hcommand
      rw [hcommand]
      split_ifs <;> simp_all [OrderedMap.get?_insert, RuntimeCommandRecord.expiredAt]
  · intro s k k'
    unfold expireVisit
    split
    · rename_i hnone
      simp [hnone, OrderedSet.notMem_erase]
    · rename_i command hcommand
      rw [hcommand]
      split_ifs <;> simp_all [OrderedSet.notMem_erase]

theorem start_sweep (horder : order.Nodup) (c : List RuntimeCommandRecord × AgentOsState) :
    (order.foldl (startVisit policy threadId currentTaskId now) c).2.runtimeCommands.get? id =
        (if id ∈ order then (c.2.runtimeCommands.get? id).map fun command ↦
          if command.toThreadId = threadId then
            (command.applyWorkerStartedCommand currentTaskId now policy.ticketTtl).1
          else command
        else c.2.runtimeCommands.get? id) ∧
      (id ∉ (order.foldl (startVisit policy threadId currentTaskId now)
          c).2.liveRuntimeCommandIds ↔
        id ∉ c.2.liveRuntimeCommandIds ∨ (id ∈ order ∧ c.2.runtimeCommands.get? id = none)) := by
  refine foldl_sweep (fun (c : List RuntimeCommandRecord × AgentOsState) id ↦
      c.2.runtimeCommands.get? id) (fun c id ↦ id ∉ c.2.liveRuntimeCommandIds) _
    (fun o ↦ o = none) ?_ ?_ horder c id
  · rintro ⟨changed, s⟩ k k'
    unfold startVisit
    dsimp only
    split
    · rename_i hnone
      split_ifs with hk
      · rw [hk, hnone]
        rfl
      · rfl
    · rename_i command hcommand
      rw [hcommand]
      split_ifs <;> simp_all [OrderedMap.get?_insert]
  · rintro ⟨changed, s⟩ k k'
    unfold startVisit
    dsimp only
    split
    · rename_i hnone
      simp [hnone, OrderedSet.notMem_erase]
    · rename_i command hcommand
      rw [hcommand]
      split_ifs <;> simp_all

end Loops

/-! ### Coordinators -/

section Coordinators

variable {thread : ThreadRegistryEntry} {scope : String} {owner : ThreadId}
  {activeAction : Option String} {active : Option ActiveCoordinatorLease}

/-- A state in which some coordinator was made active or renewed. -/
inductive Coordinated (policy : AgentOsPolicy) (now : Time) (s : AgentOsState) :
    AgentOsState → Prop where
  | same : Coordinated policy now s s
  | renew (scope : String) : Coordinated policy now s (s.renew policy scope now)
  | takeOver (scope : String) (owner : ThreadId) :
      Coordinated policy now s (s.takeOver policy scope owner now).2

theorem coordinated_claimOrRenew
    (h : s.claimOrRenewActiveCoordinator policy thread now activeAction = .ok (active, t)) :
    Coordinated policy now s t ∧
      ∀ lease, active = some lease →
        t.activeCoordinators.get? thread.coordinationScope = some lease := by
  unfold claimOrRenewActiveCoordinator at h
  split_ifs at h with hrank
  · cases activeAction with
    | some _ => cases h
    | none =>
      cases h
      exact ⟨.same, nofun⟩
  · dsimp only at h
    split at h
    · rename_i lease hlease
      split_ifs at h with howner hexpires
      · cases h
        refine ⟨.renew _, ?_⟩
        rintro _ ⟨⟩
        rw [renew, OrderedMap.get?_modify, if_pos rfl, hlease]
        rfl
      · cases activeAction with
        | some _ => cases h
        | none =>
          cases h
          exact ⟨.same, nofun⟩
      · cases h
        refine ⟨.takeOver _ _, ?_⟩
        rintro _ ⟨⟩
        rw [takeOver, OrderedMap.get?_insert, if_pos rfl]
    · cases h
      refine ⟨.takeOver _ _, ?_⟩
      rintro _ ⟨⟩
      rw [takeOver, OrderedMap.get?_insert, if_pos rfl]

theorem coordinated_registerRankZero
    (h : s.registerRankZeroCoordinator policy thread now = .ok t) : Coordinated policy now s t := by
  unfold registerRankZeroCoordinator at h
  dsimp only at h
  split_ifs at h
  split at h
  · split_ifs at h
    · cases h
      exact .renew _
    · cases h
      exact .same
    · cases h
      exact .takeOver _ _
  · cases h
    exact .takeOver _ _

theorem Coordinated.runtimeCommands (h : Coordinated policy now s t) :
    t.runtimeCommands = s.runtimeCommands := by
  cases h <;> rfl

theorem Coordinated.liveRuntimeCommandIds (h : Coordinated policy now s t) :
    t.liveRuntimeCommandIds = s.liveRuntimeCommandIds := by
  cases h <;> rfl

theorem Coordinated.tasks (h : Coordinated policy now s t) : t.tasks = s.tasks := by
  cases h <;> rfl

theorem exists_registerThread {registration : ThreadRegistration}
    (h : s.registerThread policy registration now = .ok t) :
    ∃ s' entry, Coordinated policy now s s' ∧
      t = { s' with threads := s'.threads.insert registration.threadId entry } := by
  unfold registerThread at h
  obtain ⟨s', hs', ht⟩ := bind_eq_ok_iff.mp h
  cases ht
  refine ⟨s', _, ?_, rfl⟩
  unfold registerCoordinator at hs'
  split_ifs at hs'
  · exact coordinated_registerRankZero hs'
  · cases hs'
    exact .same

theorem exists_task_of_checkAssignment {toThreadId : ThreadId} {taskId : Option String} {u : Unit}
    (h : s.checkAssignment .assignTask toThreadId taskId = .ok u) :
    ∃ task, taskId = some task ∧ ∃ record, s.tasks.get? task = some record := by
  unfold checkAssignment at h
  rw [if_pos rfl] at h
  cases taskId with
  | none => cases h
  | some task =>
    refine ⟨task, rfl, ?_⟩
    dsimp only at h
    cases hrecord : s.tasks.get? task with
    | none =>
      rw [hrecord] at h
      cases h
    | some record => exact ⟨record, rfl⟩

/-- A command is issued under the pair of the active coordinator of the sender's scope. -/
theorem exists_issueRuntimeCommand {commandId : String} {fromThreadId toThreadId : ThreadId}
    {commandType : RuntimeCommandType} {taskId : Option String}
    (h : s.issueRuntimeCommand policy commandId fromThreadId toThreadId commandType taskId now =
      .ok (command, t)) :
    ∃ s' sender lease, Coordinated policy now s s' ∧
      s'.activeCoordinators.get? sender = some lease ∧
      command.coordinatorEpoch = lease.epoch ∧ command.fencingToken = lease.fencingToken ∧
      command.status = .pending ∧ command.commandType = commandType ∧ command.taskId = taskId ∧
      (commandType = .assignTask → ∃ task, taskId = some task ∧ ∃ record,
        s.tasks.get? task = some record) ∧
      t = { s' with
        liveRuntimeCommandIds := s'.liveRuntimeCommandIds.insert commandId
        runtimeCommands := s'.runtimeCommands.insert commandId command } := by
  unfold issueRuntimeCommand at h
  obtain ⟨sender, -, h⟩ := bind_eq_ok_iff.mp h
  obtain ⟨receiver, -, h⟩ := bind_eq_ok_iff.mp h
  obtain ⟨-, -, h⟩ := bind_eq_ok_iff.mp h
  obtain ⟨_, hcheck, h⟩ := bind_eq_ok_iff.mp h
  obtain ⟨⟨active, s'⟩, hclaim, h⟩ := bind_eq_ok_iff.mp h
  obtain ⟨lease, hlease, h⟩ := bind_eq_ok_iff.mp h
  cases h
  obtain ⟨hs', hactive⟩ := coordinated_claimOrRenew hclaim
  refine ⟨s', _, lease, hs', hactive lease (okOr_eq_ok_iff.mp hlease), rfl, rfl, rfl, rfl, rfl, ?_,
    rfl⟩
  rintro rfl
  exact exists_task_of_checkAssignment hcheck

end Coordinators

/-! ### Operations -/

/-- What holds of the state and of the state that the call leaves holds after the operation. -/
theorem of_result {α : Type} {result : Except PraxisErr (α × AgentOsState)}
    {P : AgentOsState → Prop} (herror : ∀ e, result = .error e → P s)
    (hok : ∀ a t, result = .ok (a, t) → P t) : P ((result.toOption.map Prod.snd).getD s) := by
  cases h : result with
  | error e => exact herror e h
  | ok r => exact hok r.1 r.2 h

theorem of_outcome {result : Except PraxisErr AgentOsState} {P : AgentOsState → Prop} (hs : P s)
    (hok : ∀ t, result = .ok t → P t) : P (result.toOption.getD s) := by
  cases h : result with
  | error e => exact hs
  | ok t => exact hok t h

/-- The pair that commands of a scope are issued under. -/
def pair (s : AgentOsState) (scope : String) : Option (UInt64 × UInt64) :=
  (s.activeCoordinators.get? scope).map fun active ↦ (active.epoch, active.fencingToken)

/-- What may happen to the coordinators: nothing, but that the counter of the tokens is raised,
or one scope is taken over under the next epoch and the next token. -/
inductive CoordinatorStep (s t : AgentOsState) : Prop where
  | same (hepoch : t.coordinatorEpoch = s.coordinatorEpoch)
      (hfencing : t.fencingCounter = s.fencingCounter ∨
        t.fencingCounter = saturatingAdd s.fencingCounter 1)
      (hpair : ∀ scope, t.pair scope = s.pair scope)
  | takeOver (scope : String) (hepoch : t.coordinatorEpoch = saturatingAdd s.coordinatorEpoch 1)
      (hfencing : t.fencingCounter = saturatingAdd s.fencingCounter 1)
      (hpair : ∀ scope', t.pair scope' =
        if scope' = scope then some (t.coordinatorEpoch, t.fencingCounter) else s.pair scope')

/-- It is the coordinators and the counters that matter. -/
theorem CoordinatorStep.congr {t' : AgentOsState} (h : CoordinatorStep s t)
    (hactive : t'.activeCoordinators = t.activeCoordinators)
    (hepoch : t'.coordinatorEpoch = t.coordinatorEpoch)
    (hfencing : t'.fencingCounter = t.fencingCounter) : CoordinatorStep s t' := by
  have hpairs : ∀ scope, t'.pair scope = t.pair scope := fun scope ↦ by rw [pair, hactive, pair]
  cases h with
  | same hepoch' hfencing' hpair =>
    refine .same (hepoch.trans hepoch') ?_ fun scope ↦ (hpairs scope).trans (hpair scope)
    rwa [hfencing]
  | takeOver scope hepoch' hfencing' hpair =>
    refine .takeOver scope (hepoch.trans hepoch') (hfencing.trans hfencing') fun scope' ↦ ?_
    rw [hpairs, hpair, hepoch, hfencing]

theorem CoordinatorStep.of_eq (hactive : t.activeCoordinators = s.activeCoordinators)
    (hepoch : t.coordinatorEpoch = s.coordinatorEpoch)
    (hfencing : t.fencingCounter = s.fencingCounter) : CoordinatorStep s t :=
  .congr (.same rfl (.inl rfl) fun _ ↦ rfl) hactive hepoch hfencing

theorem Coordinated.coordinatorStep (h : Coordinated policy now s t) : CoordinatorStep s t := by
  cases h with
  | same => exact .of_eq rfl rfl rfl
  | renew scope =>
    refine .same rfl (.inl rfl) fun scope' ↦ ?_
    rw [pair, AgentOsState.renew, OrderedMap.get?_modify]
    split_ifs with hscope
    · rw [hscope, pair, Option.map_map]
      rfl
    · rfl
  | takeOver scope owner =>
    refine .takeOver scope rfl rfl fun scope' ↦ ?_
    rw [pair, AgentOsState.takeOver, OrderedMap.get?_insert]
    split_ifs <;> rfl

section Plain

variable {threadId : ThreadId} {taskId : String}

/-- An operation that is not about runtime commands. -/
structure Plain (s t : AgentOsState) : Prop where
  runtimeCommands : t.runtimeCommands = s.runtimeCommands
  live : t.liveRuntimeCommandIds = s.liveRuntimeCommandIds
  tasks : ∀ task, s.tasks.get? task ≠ none → t.tasks.get? task ≠ none
  coordinators : CoordinatorStep s t

theorem Plain.refl : Plain s s := ⟨rfl, rfl, fun _ h ↦ h, .of_eq rfl rfl rfl⟩

theorem Coordinated.plain (h : Coordinated policy now s t) : Plain s t :=
  ⟨h.runtimeCommands, h.liveRuntimeCommandIds, fun _ htask ↦ h.tasks ▸ htask, h.coordinatorStep⟩

theorem get?_insert_ne_none {tasks : OrderedMap String TaskRecord} {record : TaskRecord}
    {task : String} (h : tasks.get? task ≠ none) :
    (tasks.insert taskId record).get? task ≠ none := by
  rw [OrderedMap.get?_insert]
  split_ifs
  · exact nofun
  · exact h

theorem plain_createTask {priority : Int} {assignedThreadId : Option ThreadId}
    {scopeIsEmpty exploratory : Bool} {createdBy : ThreadId}
    (h : s.createTask taskId priority assignedThreadId scopeIsEmpty exploratory createdBy now =
      .ok t) : Plain s t := by
  unfold createTask at h
  split at h
  · cases h
  · obtain rfl := Except.ok.inj h
    exact ⟨rfl, rfl, fun _ ↦ get?_insert_ne_none, .of_eq rfl rfl rfl⟩

theorem plain_assignTask : Plain s (s.assignTask taskId threadId now).2 := by
  unfold assignTask
  split
  · exact .refl
  · dsimp only
    split
    · exact ⟨rfl, rfl, fun _ ↦ get?_insert_ne_none, .of_eq rfl rfl rfl⟩
    · exact ⟨rfl, rfl, fun _ ↦ get?_insert_ne_none, .of_eq rfl rfl rfl⟩

theorem plain_perform (h : op.isPlain = true) : Plain s (s.perform policy now op) := by
  cases op with
  | registerThread registration =>
    refine of_outcome .refl fun t ht ↦ ?_
    obtain ⟨s', entry, hs', rfl⟩ := exists_registerThread ht
    exact ⟨hs'.plain.runtimeCommands, hs'.plain.live, hs'.plain.tasks,
      hs'.coordinatorStep.congr rfl rfl rfl⟩
  | createTask taskId priority assignedThreadId scopeIsEmpty exploratory createdBy =>
    exact of_outcome .refl fun t ht ↦ plain_createTask ht
  | assignTask taskId threadId => exact plain_assignTask
  | claimCoordinator threadId activeAction =>
    dsimp only [perform]
    split
    · exact .refl
    · exact of_result (fun _ _ ↦ .refl) fun _ t ht ↦ (coordinated_claimOrRenew ht).1.plain
  | raiseFencing => exact ⟨rfl, rfl, fun _ h ↦ h, .same rfl (.inr rfl) fun _ ↦ rfl⟩
  | issue => cases h
  | poll => cases h
  | claim => cases h
  | expire => cases h
  | noteStarted => cases h
  | updateStatus => cases h

end Plain

section Commands

variable {threadId : ThreadId} {autoAck : Bool} {order : List String}

theorem get?_issue {commandId : String} {fromThreadId toThreadId : ThreadId}
    {commandType : RuntimeCommandType} {taskId : Option String}
    (h : s.issueRuntimeCommand policy commandId fromThreadId toThreadId commandType taskId now =
      .ok (command, t)) :
    t.runtimeCommands.get? id = if id = commandId then some command
      else s.runtimeCommands.get? id := by
  obtain ⟨s', _, _, hs', -, -, -, -, -, -, -, rfl⟩ := exists_issueRuntimeCommand h
  rw [OrderedMap.get?_insert, hs'.runtimeCommands]

theorem perform_poll (h : s.threads.contains threadId = true) :
    s.perform policy now (.poll threadId autoAck order) =
      let p := order.foldl
        (Poll.visit threadId (s.activeCoordinatorForThread threadId) now autoAck) ⟨s, [], []⟩
      { p.state with
        liveRuntimeCommandIds := p.terminalIds.foldl .erase p.state.liveRuntimeCommandIds } := by
  dsimp only [perform, pollRuntimeCommands]
  rw [if_neg (by simp [h])]
  rfl

theorem perform_poll_of_unknown (h : s.threads.contains threadId = false) :
    s.perform policy now (.poll threadId autoAck order) = s := by
  dsimp only [perform, pollRuntimeCommands]
  rw [if_pos (by simp [h])]
  rfl

theorem perform_claim (h : s.threads.contains threadId = true) :
    s.perform policy now (.claim threadId order) =
      ((order.filter (s.unclaimed threadId)).foldl
        (claimVisit policy (s.activeCoordinatorForThread threadId) now) ([], s)).2 := by
  dsimp only [perform, claimRuntimeCommandsForTurn]
  rw [if_neg (by simp [h])]
  rfl

theorem perform_claim_of_unknown (h : s.threads.contains threadId = false) :
    s.perform policy now (.claim threadId order) = s := by
  dsimp only [perform, claimRuntimeCommandsForTurn]
  rw [if_pos (by simp [h])]
  rfl

/-- Every command of the table after an operation that goes to some of them. -/
def Goes (policy : AgentOsPolicy) (s : AgentOsState) (now : Time) (op : Operation)
    (t : AgentOsState) : Prop :=
  ∀ id, t.runtimeCommands.get? id = (s.runtimeCommands.get? id).map fun command ↦
    if op.visits s now id command then op.becomes policy s now command else command

theorem goes_poll (horder : Enumerates order s.liveRuntimeCommandIds) :
    Goes policy s now (.poll threadId autoAck order)
      (s.perform policy now (.poll threadId autoAck order)) := by
  intro id
  dsimp only [Operation.visits, Operation.becomes]
  by_cases hthread : s.threads.contains threadId = true
  · rw [perform_poll hthread]
    refine (poll_sweep horder.1 ⟨s, [], []⟩).1.trans ?_
    by_cases hlive : id ∈ s.liveRuntimeCommandIds
    · rw [if_pos ((horder.2 id).mpr hlive)]
      simp [hlive, hthread]
    · rw [if_neg (mt (horder.2 id).mp hlive)]
      simp [hlive]
  · rw [perform_poll_of_unknown (by simpa using hthread)]
    simp [hthread]

theorem goes_claim (horder : Enumerates order s.liveRuntimeCommandIds) :
    Goes policy s now (.claim threadId order)
      (s.perform policy now (.claim threadId order)) := by
  intro id
  dsimp only [Operation.visits, Operation.becomes]
  by_cases hthread : s.threads.contains threadId = true
  · rw [perform_claim hthread]
    refine (claim_sweep (horder.1.filter _) ([], s)).1.trans ?_
    cases hcommand : s.runtimeCommands.get? id with
    | none => split_ifs <;> rfl
    | some command =>
      have hmem : id ∈ order.filter (s.unclaimed threadId) ↔ id ∈ s.liveRuntimeCommandIds ∧
          command.toThreadId = threadId ∧ command.status.isUnclaimed = true := by
        rw [List.mem_filter, horder.2, unclaimed, hcommand, Option.any_some, Bool.and_eq_true,
          decide_eq_true_iff]
      by_cases hvisit : id ∈ s.liveRuntimeCommandIds ∧ command.toThreadId = threadId ∧
          command.status.isUnclaimed = true
      · rw [if_pos (hmem.mpr hvisit)]
        simp [hvisit, hthread]
      · rw [if_neg (mt hmem.mp hvisit)]
        simpa [hthread] using fun h h' h'' ↦ absurd ⟨h, h', h''⟩ hvisit
  · rw [perform_claim_of_unknown (by simpa using hthread)]
    simp [hthread]

theorem goes_expire (horder : Enumerates order s.liveRuntimeCommandIds) :
    Goes policy s now (.expire order) (s.perform policy now (.expire order)) := by
  intro id
  dsimp only [Operation.visits, Operation.becomes]
  refine (expire_sweep horder.1 s).1.trans ?_
  by_cases hlive : id ∈ s.liveRuntimeCommandIds
  · rw [if_pos ((horder.2 id).mpr hlive)]
    simp [hlive]
  · rw [if_neg (mt (horder.2 id).mp hlive)]
    simp [hlive]

theorem goes_noteStarted (horder : Enumerates order s.liveRuntimeCommandIds) :
    Goes policy s now (.noteStarted threadId order)
      (s.perform policy now (.noteStarted threadId order)) := by
  intro id
  dsimp only [Operation.visits, Operation.becomes]
  refine (start_sweep horder.1 _).1.trans ?_
  by_cases hlive : id ∈ s.liveRuntimeCommandIds
  · rw [if_pos ((horder.2 id).mpr hlive)]
    simp [hlive]
  · rw [if_neg (mt (horder.2 id).mp hlive)]
    simp [hlive]

section Reports

variable {actorThreadId : ThreadId} {status : RuntimeCommandStatus}

/-- A report that is taken. -/
theorem perform_updateStatus (hcommand : s.runtimeCommands.get? id = some command)
    (hreport : command.mayReport actorThreadId status = true) :
    s.perform policy now (.updateStatus id actorThreadId status) =
      let command := command.reported actorThreadId status
        (s.activeCoordinatorForThread command.toThreadId) now
      AgentOsState.applyAssignRuntimeStatus
        { s with
          runtimeCommands := s.runtimeCommands.insert id command
          liveRuntimeCommandIds := if !command.status.isLive then s.liveRuntimeCommandIds.erase id
            else s.liveRuntimeCommandIds } command now false := by
  obtain ⟨hactor, hreceiver⟩ := Bool.and_eq_true_iff.mp hreport
  have hresult : s.updateRuntimeCommandStatus id actorThreadId status now = .ok _ :=
    bind_eq_ok_iff.mpr ⟨command, okOr_eq_ok_iff.mpr hcommand,
      bind_eq_ok_iff.mpr ⟨(), ensure_eq_ok_iff.mpr hactor,
        bind_eq_ok_iff.mpr ⟨(), ensure_eq_ok_iff.mpr hreceiver, rfl⟩⟩⟩
  rw [perform, hresult]
  rfl

theorem perform_updateStatus_of_refused
    (h : ∀ command, s.runtimeCommands.get? id = some command →
      command.mayReport actorThreadId status = false) :
    s.perform policy now (.updateStatus id actorThreadId status) = s := by
  refine of_result (P := (· = s)) (fun _ _ ↦ rfl) fun r t ht ↦ ?_
  obtain ⟨command, hcommand, ht⟩ := bind_eq_ok_iff.mp ht
  obtain ⟨_, hactor, ht⟩ := bind_eq_ok_iff.mp ht
  obtain ⟨_, hreceiver, -⟩ := bind_eq_ok_iff.mp ht
  have hrefused := h command (okOr_eq_ok_iff.mp hcommand)
  rw [RuntimeCommandRecord.mayReport, ensure_eq_ok_iff.mp hactor, ensure_eq_ok_iff.mp hreceiver]
    at hrefused
  cases hrefused

theorem goes_updateStatus {commandId : String} :
    Goes policy s now (.updateStatus commandId actorThreadId status)
      (s.perform policy now (.updateStatus commandId actorThreadId status)) := by
  intro id
  dsimp only [Operation.visits, Operation.becomes]
  by_cases h : ∃ command, s.runtimeCommands.get? commandId = some command ∧
      command.mayReport actorThreadId status = true
  · obtain ⟨command, hcommand, hreport⟩ := h
    rw [perform_updateStatus hcommand hreport]
    dsimp only
    rw [applyAssign_runtimeCommands, OrderedMap.get?_insert]
    split_ifs with hid
    · subst hid
      rw [hcommand]
      simp [hreport]
    · simp [Ne.symm hid]
  · rw [perform_updateStatus_of_refused]
    · cases hcommand : s.runtimeCommands.get? id with
      | none => rfl
      | some command =>
        refine congrArg some (if_neg fun hvisit ↦ ?_).symm
        obtain ⟨hid, hreport⟩ := Bool.and_eq_true_iff.mp hvisit
        exact h ⟨command, of_decide_eq_true hid ▸ hcommand, hreport⟩
    · intro command hcommand
      simpa using fun hreport ↦ h ⟨command, hcommand, hreport⟩

end Reports

/-! ### What the operations on commands leave alone -/

/-- No task disappears, and the coordinators stay as they are. -/
structure Keeps (s t : AgentOsState) : Prop where
  tasks : ∀ task, s.tasks.get? task ≠ none → t.tasks.get? task ≠ none
  activeCoordinators : t.activeCoordinators = s.activeCoordinators
  coordinatorEpoch : t.coordinatorEpoch = s.coordinatorEpoch
  fencingCounter : t.fencingCounter = s.fencingCounter

theorem Keeps.refl : Keeps s s := ⟨fun _ h ↦ h, rfl, rfl, rfl⟩

theorem Keeps.trans {u : AgentOsState} (h : Keeps s t) (h' : Keeps t u) : Keeps s u where
  tasks task htask := h'.tasks task (h.tasks task htask)
  activeCoordinators := h'.activeCoordinators.trans h.activeCoordinators
  coordinatorEpoch := h'.coordinatorEpoch.trans h.coordinatorEpoch
  fencingCounter := h'.fencingCounter.trans h.fencingCounter

theorem Keeps.after {u : AgentOsState} (h' : Keeps t u) (h : Keeps s t) : Keeps s u := h.trans h'

theorem Keeps.coordinatorStep (h : Keeps s t) : CoordinatorStep s t :=
  .of_eq h.activeCoordinators h.coordinatorEpoch h.fencingCounter

/-- What every visit keeps the loop keeps. -/
theorem Keeps.foldl {β : Type} {visit : β → String → β} (state : β → AgentOsState)
    (h : ∀ b id, Keeps (state b) (state (visit b id))) (b : β) :
    Keeps (state b) (state (order.foldl visit b)) := by
  induction order generalizing b with
  | nil => exact .refl
  | cons id order ih => exact (h b id).trans (ih _)

theorem keeps_applyAssign {setCurrentCommand : Bool} :
    Keeps s (s.applyAssignRuntimeStatus command now setCurrentCommand) := by
  unfold applyAssignRuntimeStatus
  split
  · exact .refl
  · cases command.taskId with
    | none => exact .refl
    | some taskId =>
      refine ⟨fun task htask ↦ ?_, rfl, rfl, rfl⟩
      dsimp only
      rw [OrderedMap.get?_modify]
      split_ifs with heq
      · subst heq
        rwa [ne_eq, Option.map_eq_none_iff]
      · exact htask

theorem keeps_pollVisit {active : Option ActiveCoordinatorLease} (p : Poll) (id : String) :
    Keeps p.state (Poll.visit threadId active now autoAck p id).state := by
  unfold Poll.visit
  split
  · exact .refl
  · dsimp only
    split_ifs <;> exact ⟨fun _ h ↦ h, rfl, rfl, rfl⟩

theorem keeps_claimVisit {active : Option ActiveCoordinatorLease}
    (c : List RuntimeCommandRecord × AgentOsState) (id : String) :
    Keeps c.2 (claimVisit policy active now c id).2 := by
  obtain ⟨claimed, s⟩ := c
  unfold claimVisit
  dsimp only
  split
  · exact .refl
  · dsimp only
    split_ifs <;> first
      | exact ⟨fun _ h ↦ h, rfl, rfl, rfl⟩
      | exact keeps_applyAssign.after ⟨fun _ h ↦ h, rfl, rfl, rfl⟩

theorem keeps_expireVisit (s : AgentOsState) (id : String) : Keeps s (expireVisit now s id) := by
  unfold expireVisit
  split
  · exact ⟨fun _ h ↦ h, rfl, rfl, rfl⟩
  · split_ifs
    · exact ⟨fun _ h ↦ h, rfl, rfl, rfl⟩
    · exact .refl

theorem keeps_startVisit {currentTaskId : Option String}
    (c : List RuntimeCommandRecord × AgentOsState) (id : String) :
    Keeps c.2 (startVisit policy threadId currentTaskId now c id).2 := by
  obtain ⟨changed, s⟩ := c
  unfold startVisit
  dsimp only
  split
  · exact ⟨fun _ h ↦ h, rfl, rfl, rfl⟩
  · split_ifs <;> exact ⟨fun _ h ↦ h, rfl, rfl, rfl⟩

theorem keeps_perform (h : op.isPlain = false) (hissue : op.isIssue = false) :
    Keeps s (s.perform policy now op) := by
  cases op with
  | registerThread => cases h
  | createTask => cases h
  | assignTask => cases h
  | claimCoordinator => cases h
  | raiseFencing => cases h
  | issue => cases hissue
  | poll threadId autoAck order =>
    by_cases hthread : s.threads.contains threadId = true
    · rw [perform_poll hthread]
      exact .trans (Keeps.foldl Poll.state keeps_pollVisit ⟨s, [], []⟩)
        ⟨fun _ h ↦ h, rfl, rfl, rfl⟩
    · rw [perform_poll_of_unknown (by simpa using hthread)]
      exact .refl
  | claim threadId order =>
    by_cases hthread : s.threads.contains threadId = true
    · rw [perform_claim hthread]
      exact Keeps.foldl Prod.snd keeps_claimVisit ([], s)
    · rw [perform_claim_of_unknown (by simpa using hthread)]
      exact .refl
  | expire order => exact Keeps.foldl (fun s ↦ s) keeps_expireVisit s
  | noteStarted threadId order =>
    exact (Keeps.foldl Prod.snd keeps_startVisit ([], _)).after ⟨fun _ h ↦ h, rfl, rfl, rfl⟩
  | updateStatus commandId actorThreadId status =>
    by_cases h : ∃ command, s.runtimeCommands.get? commandId = some command ∧
        command.mayReport actorThreadId status = true
    · obtain ⟨command, hcommand, hreport⟩ := h
      rw [perform_updateStatus hcommand hreport]
      exact keeps_applyAssign.after ⟨fun _ h ↦ h, rfl, rfl, rfl⟩
    · rw [perform_updateStatus_of_refused]
      · exact .refl
      · intro command hcommand
        simpa using fun hreport ↦ h ⟨command, hcommand, hreport⟩

end Commands

/-! ### Every operation -/

/-- An operation that issues no command goes to the commands it visits and leaves the others. -/
theorem goes_perform (hop : op.Admissible s) (hissue : op.isIssue = false) :
    Goes policy s now op (s.perform policy now op) := by
  by_cases hplain : op.isPlain = true
  · intro id
    rw [(plain_perform hplain).runtimeCommands]
    have hvisits : ∀ command, op.visits s now id command = false := by
      intro command
      cases op <;> first | rfl | cases hplain
    simp [hvisits]
  · cases op with
    | registerThread => exact absurd rfl hplain
    | createTask => exact absurd rfl hplain
    | assignTask => exact absurd rfl hplain
    | claimCoordinator => exact absurd rfl hplain
    | raiseFencing => exact absurd rfl hplain
    | issue => cases hissue
    | poll threadId autoAck order => exact goes_poll hop
    | claim threadId order => exact goes_claim hop
    | expire order => exact goes_expire hop
    | noteStarted threadId order => exact goes_noteStarted hop
    | updateStatus commandId actorThreadId status => exact goes_updateStatus

/-- An operation that issues a command adds it or fails. -/
theorem issue_perform {commandId : String} {fromThreadId toThreadId : ThreadId}
    {commandType : RuntimeCommandType} {taskId : Option String} :
    s.perform policy now (.issue commandId fromThreadId toThreadId commandType taskId) = s ∨
      ∃ command, s.issueRuntimeCommand policy commandId fromThreadId toThreadId commandType taskId
        now = .ok (command,
          s.perform policy now (.issue commandId fromThreadId toThreadId commandType taskId)) := by
  dsimp only [perform]
  cases h : s.issueRuntimeCommand policy commandId fromThreadId toThreadId commandType taskId
    now with
  | error e => exact .inl rfl
  | ok r => exact .inr ⟨r.1, rfl⟩

theorem coordinatorStep_perform : CoordinatorStep s (s.perform policy now op) := by
  by_cases hplain : op.isPlain = true
  · exact (plain_perform hplain).coordinators
  · by_cases hissue : op.isIssue = true
    · cases op with
      | issue =>
        rcases issue_perform with hs | ⟨command, h⟩
        · rw [hs]
          exact .of_eq rfl rfl rfl
        · obtain ⟨s', _, _, hs', -, -, -, -, -, -, -, ht⟩ := exists_issueRuntimeCommand h
          rw [ht]
          exact hs'.coordinatorStep.congr rfl rfl rfl
      | _ => cases hissue
    · exact (keeps_perform (by simpa using hplain) (by simpa using hissue)).coordinatorStep

/-- A command after an operation. -/
theorem get?_perform (hop : op.Admissible s)
    (hcommand : s.runtimeCommands.get? id = some command) :
    (s.perform policy now op).runtimeCommands.get? id =
      some (if op.visits s now id command then op.becomes policy s now command else command) := by
  by_cases hissue : op.isIssue = true
  · cases op with
    | issue =>
      rcases issue_perform with hs | ⟨command, h⟩
      · rw [hs, hcommand]
        rfl
      · rw [get?_issue h, if_neg, hcommand]
        · rfl
        · rintro rfl
          cases hcommand.symm.trans hop
    | _ => cases hissue
  · rw [goes_perform hop (by simpa using hissue), hcommand]
    rfl

end AgentOsState

end Praxis.AgentOs
