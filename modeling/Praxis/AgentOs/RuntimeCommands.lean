import Praxis.AgentOs.Records
import Praxis.Foundation.Fallible

/-!
# Runtime commands

Commands that the active coordinator of a scope sends to the threads of the scope, with the
operations that change their status.  Each operation is one critical section.

A set of ids is a hash set in the source, and an operation that goes through it does so in an
order of the set's own; the order is an argument of the operation here.
-/

namespace Praxis.AgentOs

open Foundation

/-! ## Statuses -/

namespace RuntimeCommandStatus

def isUnclaimed (status : RuntimeCommandStatus) : Bool := status = pending

def isLive : RuntimeCommandStatus → Bool
  | pending => true
  | acked => true
  | executing => true
  | _ => false

def assignTaskStatus : RuntimeCommandStatus → TaskStatus
  | executing => .running
  | completed => .completed
  | failed => .failed
  | expired => .failed
  | rejected => .cancelled
  | pending => .assigned
  | acked => .assigned

def assignThreadState : RuntimeCommandStatus → ThreadRuntimeState
  | executing => .running
  | completed => .idle
  | failed => .idle
  | expired => .idle
  | rejected => .idle
  | pending => .assigned
  | acked => .assigned

def clearsAssignedTask : RuntimeCommandStatus → Bool
  | completed => true
  | failed => true
  | expired => true
  | rejected => true
  | _ => false

def isTurnClaimed : RuntimeCommandStatus → Bool
  | acked => true
  | executing => true
  | _ => false

end RuntimeCommandStatus

/-! ## Records -/

namespace RuntimeCommandRecord

/-- `apply_worker_started_command`, with whether the record has changed. -/
def applyWorkerStartedCommand (command : RuntimeCommandRecord) (currentTaskId : Option String)
    (now ttl : Time) : RuntimeCommandRecord × Bool :=
  if command.expiresAt ≤ now then
    if command.status.isLive then ({ command with status := .expired, updatedAt := now }, true)
    else (command, false)
  else
    let changed := command.status.isLive
    let command :=
      if changed then { command with expiresAt := now + ttl, updatedAt := now } else command
    if command.status = .pending then ({ command with status := .acked }, true)
    else if command.status = .acked && command.commandType = .assignTask &&
        command.taskId = currentTaskId then
      ({ command with status := .executing }, true)
    else (command, changed)

/-- `matches_coordinator`. -/
def matchesCoordinator (command : RuntimeCommandRecord) (active : Option ActiveCoordinatorLease) :
    Bool :=
  active.any fun active ↦
    command.coordinatorEpoch = active.epoch && command.fencingToken = active.fencingToken

/-- `claim_status`. -/
def claimStatus (command : RuntimeCommandRecord) (active : Option ActiveCoordinatorLease)
    (now : Time) : RuntimeCommandStatus :=
  if command.expiresAt ≤ now then .expired
  else if !command.matchesCoordinator active then .rejected
  else if command.commandType = .assignTask then .executing
  else .acked

/-- `poll_status`. -/
def pollStatus (command : RuntimeCommandRecord) (active : Option ActiveCoordinatorLease)
    (now : Time) (autoAck : Bool) : RuntimeCommandStatus :=
  if command.expiresAt ≤ now then .expired
  else if !command.matchesCoordinator active then .rejected
  else if autoAck && command.status = .pending then .acked
  else command.status

/-- `reported_status`. -/
def reportedStatus (command : RuntimeCommandRecord) (actorThreadId : ThreadId)
    (status : RuntimeCommandStatus) (active : Option ActiveCoordinatorLease) (now : Time) :
    RuntimeCommandStatus :=
  let receiverTerminalReport := actorThreadId = command.toThreadId &&
    (status = .completed || status = .failed) &&
    (command.status = .acked || command.status = .executing)
  if receiverTerminalReport || (status = .failed || status = .rejected) then status
  else if command.expiresAt ≤ now then .expired
  else if !command.matchesCoordinator active then .rejected
  else status

end RuntimeCommandRecord

/-! ## Coordinators -/

def coordinatorRank : UInt8 := 0

def maxCoordinators : Nat := 3

namespace AgentOsState

/-- `active_coordinator_for_thread`. -/
def activeCoordinatorForThread (s : AgentOsState) (threadId : ThreadId) :
    Option ActiveCoordinatorLease := do
  let thread ← s.threads.get? threadId
  s.activeCoordinators.get? thread.coordinationScope

/-- A new coordinator takes the scope over. -/
def takeOver (s : AgentOsState) (policy : AgentOsPolicy) (scope : String) (owner : ThreadId)
    (now : Time) : ActiveCoordinatorLease × AgentOsState :=
  let coordinatorEpoch := saturatingAdd s.coordinatorEpoch 1
  let fencingCounter := saturatingAdd s.fencingCounter 1
  let active : ActiveCoordinatorLease :=
    ⟨scope, owner, coordinatorEpoch, fencingCounter, now + policy.leaseTtl⟩
  (active,
    { s with
      coordinatorEpoch
      fencingCounter
      activeCoordinators := s.activeCoordinators.insert scope active })

/-- The active coordinator of the scope stays for another period. -/
def renew (s : AgentOsState) (policy : AgentOsPolicy) (scope : String) (now : Time) :
    AgentOsState :=
  { s with
    activeCoordinators := s.activeCoordinators.modify scope fun active ↦
      { active with expiresAt := now + policy.leaseTtl } }

/-- `claim_or_renew_active_coordinator_locked`. -/
def claimOrRenewActiveCoordinator (s : AgentOsState) (policy : AgentOsPolicy)
    (thread : ThreadRegistryEntry) (now : Time) (activeAction : Option String) :
    Except PraxisErr (Option ActiveCoordinatorLease × AgentOsState) :=
  if thread.rank ≠ coordinatorRank then
    match activeAction with
    | some activeAction =>
      .error (.unsupportedOperation s!"only rank-0 coordinators can {activeAction}")
    | none => .ok (none, s)
  else
    let scope := thread.coordinationScope
    match s.activeCoordinators.get? scope with
    | some active =>
      if active.ownerThreadId = thread.threadId then
        .ok (some { active with expiresAt := now + policy.leaseTtl }, s.renew policy scope now)
      else if active.expiresAt > now then
        match activeAction with
        | some activeAction =>
          .error (.unsupportedOperation
            s!"only the active rank-0 coordinator can {activeAction}")
        | none => .ok (none, s)
      else
        let (active, s) := s.takeOver policy scope thread.threadId now
        .ok (some active, s)
    | none =>
      let (active, s) := s.takeOver policy scope thread.threadId now
      .ok (some active, s)

end AgentOsState

/-! ## Registration -/

structure ThreadRegistration where
  threadId : ThreadId
  coordinationScope : String
  rank : UInt8
  priority : Int

def ThreadRuntimeState.isOver : ThreadRuntimeState → Bool
  | .stopped => true
  | .failed => true
  | .completed => true
  | _ => false

namespace AgentOsState

/-- `register_rank_zero_coordinator_locked`. -/
def registerRankZeroCoordinator (s : AgentOsState) (policy : AgentOsPolicy)
    (entry : ThreadRegistryEntry) (now : Time) : Except PraxisErr AgentOsState :=
  let coordinatorCount := s.threads.values.countP fun thread ↦
    thread.rank = coordinatorRank && thread.coordinationScope = entry.coordinationScope &&
      thread.threadId ≠ entry.threadId && !thread.state.isOver
  if coordinatorCount ≥ maxCoordinators then
    let scope := entry.coordinationScope
    .error (.unsupportedOperation s!"rank-0 coordinator limit reached for scope `{scope}`")
  else
    match s.activeCoordinators.get? entry.coordinationScope with
    | some active =>
      if active.expiresAt > now then
        if active.ownerThreadId = entry.threadId then
          .ok (s.renew policy entry.coordinationScope now)
        else .ok s
      else .ok (s.takeOver policy entry.coordinationScope entry.threadId now).2
    | none => .ok (s.takeOver policy entry.coordinationScope entry.threadId now).2

/-- A coordinator is registered as such. -/
def registerCoordinator (s : AgentOsState) (policy : AgentOsPolicy) (entry : ThreadRegistryEntry)
    (now : Time) : Except PraxisErr AgentOsState :=
  if entry.rank = coordinatorRank then s.registerRankZeroCoordinator policy entry now else .ok s

/-- `register_thread`. -/
def registerThread (s : AgentOsState) (policy : AgentOsPolicy) (registration : ThreadRegistration)
    (now : Time) : Except PraxisErr AgentOsState := do
  let entry : ThreadRegistryEntry :=
    { threadId := registration.threadId
      coordinationScope := registration.coordinationScope
      rank := registration.rank
      currentTaskId := none
      currentCommandId := none
      state := .idle
      heartbeatAt := now
      priority := registration.priority
      createdAt := now }
  let s ← s.registerCoordinator policy entry now
  return { s with threads := s.threads.insert entry.threadId entry }

/-! ## Tasks -/

/-- `create_task`. -/
def createTask (s : AgentOsState) (taskId : String) (priority : Int)
    (assignedThreadId : Option ThreadId) (scopeIsEmpty exploratory : Bool) (createdBy : ThreadId)
    (now : Time) : Except PraxisErr AgentOsState :=
  if assignedThreadId.isSome && scopeIsEmpty && !exploratory then
    .error (.unsupportedOperation
      "assigned AgentOS tasks require non-empty scope unless exploratory=true")
  else
    let status := if assignedThreadId.isSome then TaskStatus.assigned else .pending
    .ok { s with
      tasks := s.tasks.insert taskId
        ⟨taskId, status, priority, assignedThreadId, createdBy, now, now⟩ }

/-- `assign_task`: the task is changed before the thread is looked up. -/
def assignTask (s : AgentOsState) (taskId : String) (threadId : ThreadId) (now : Time) :
    Except PraxisErr Unit × AgentOsState :=
  match s.tasks.get? taskId with
  | none => (.error (.unsupportedOperation s!"unknown task `{taskId}`"), s)
  | some task =>
    let task :=
      { task with assignedThreadId := some threadId, status := .assigned, updatedAt := now }
    let s := { s with tasks := s.tasks.insert taskId task }
    match s.threads.get? threadId with
    | none => (.error (.unsupportedOperation s!"unknown AgentOS thread `{threadId}`"), s)
    | some thread =>
      let thread :=
        { thread with currentTaskId := some taskId, state := .assigned, heartbeatAt := now }
      (.ok (), { s with threads := s.threads.insert threadId thread })

/-! ## Runtime commands -/

/-- `apply_assign_runtime_status`. -/
def applyAssignRuntimeStatus (s : AgentOsState) (command : RuntimeCommandRecord) (now : Time)
    (setCurrentCommand : Bool) : AgentOsState :=
  if command.commandType ≠ .assignTask then s
  else
    match command.taskId with
    | none => s
    | some taskId =>
      { s with
        tasks := s.tasks.modify taskId fun task ↦
          { task with status := command.status.assignTaskStatus, updatedAt := now }
        threads := s.threads.modify command.toThreadId fun thread ↦
          let thread :=
            if command.status.clearsAssignedTask then
              if thread.currentTaskId = some taskId then
                { thread with currentTaskId := none, state := command.status.assignThreadState }
              else thread
            else
              { thread with
                currentTaskId := some taskId
                state := command.status.assignThreadState }
          let thread :=
            if setCurrentCommand && command.status = .executing then
              { thread with currentCommandId := some command.commandId }
            else thread
          { thread with heartbeatAt := now } }

/-- The checks of `issue_runtime_command` for a command that assigns a task. -/
def checkAssignment (s : AgentOsState) (commandType : RuntimeCommandType) (toThreadId : ThreadId)
    (taskId : Option String) : Except PraxisErr Unit :=
  if commandType = .assignTask then
    match taskId with
    | none => .error (.unsupportedOperation "AssignTask runtime commands require task_id")
    | some taskId =>
      match s.tasks.get? taskId with
      | none => .error (.unsupportedOperation s!"AssignTask references unknown task `{taskId}`")
      | some task =>
        if task.assignedThreadId ≠ some toThreadId then
          .error (.unsupportedOperation
            "AssignTask runtime command task owner does not match receiver")
        else .ok ()
  else .ok ()

/-- `issue_runtime_command`, with the id made for the command. -/
def issueRuntimeCommand (s : AgentOsState) (policy : AgentOsPolicy) (commandId : String)
    (fromThreadId toThreadId : ThreadId) (commandType : RuntimeCommandType)
    (taskId : Option String) (now : Time) :
    Except PraxisErr (RuntimeCommandRecord × AgentOsState) := do
  let sender ← okOr (s.threads.get? fromThreadId)
    (.unsupportedOperation s!"unknown AgentOS sender thread `{fromThreadId}`")
  let receiver ← okOr (s.threads.get? toThreadId)
    (.unsupportedOperation s!"unknown AgentOS receiver thread `{toThreadId}`")
  ensure (sender.coordinationScope = receiver.coordinationScope)
    (.unsupportedOperation "runtime commands cannot cross coordination scopes")
  s.checkAssignment commandType toThreadId taskId
  let (active, s) ←
    s.claimOrRenewActiveCoordinator policy sender now (some "issue runtime commands")
  let active ← okOr active
    (.unsupportedOperation "only rank-0 coordinators can issue runtime commands")
  let command : RuntimeCommandRecord :=
    { commandId, fromThreadId, toThreadId, taskId, commandType
      coordinatorEpoch := active.epoch
      fencingToken := active.fencingToken
      status := .pending
      createdAt := now
      updatedAt := now
      expiresAt := now + policy.ticketTtl }
  return (command,
    { s with
      liveRuntimeCommandIds := s.liveRuntimeCommandIds.insert commandId
      runtimeCommands := s.runtimeCommands.insert commandId command })

/-- What `poll_runtime_commands` collects. -/
structure Poll where
  state : AgentOsState
  commands : List RuntimeCommandRecord
  terminalIds : List String

/-- One command in `poll_runtime_commands`. -/
def Poll.visit (threadId : ThreadId) (active : Option ActiveCoordinatorLease) (now : Time)
    (autoAck : Bool) (p : Poll) (commandId : String) : Poll :=
  match p.state.runtimeCommands.get? commandId with
  | none => { p with terminalIds := p.terminalIds ++ [commandId] }
  | some command =>
    if command.toThreadId ≠ threadId then p
    else
      let nextStatus := command.pollStatus active now autoAck
      if nextStatus ≠ command.status then
        let command := { command with status := nextStatus, updatedAt := now }
        let state := { p.state with
          runtimeCommands := p.state.runtimeCommands.insert commandId command }
        if !nextStatus.isLive then
          { p with state, terminalIds := p.terminalIds ++ [commandId] }
        else { p with state, commands := p.commands ++ [command] }
      else { p with commands := p.commands ++ [command] }

/-- `poll_runtime_commands`. -/
def pollRuntimeCommands (s : AgentOsState) (threadId : ThreadId) (autoAck : Bool)
    (order : List String) (now : Time) :
    Except PraxisErr (List RuntimeCommandRecord × AgentOsState) :=
  if !s.threads.contains threadId then
    .error (.unsupportedOperation s!"unknown AgentOS thread `{threadId}`")
  else
    let active := s.activeCoordinatorForThread threadId
    let p := order.foldl (Poll.visit threadId active now autoAck) ⟨s, [], []⟩
    .ok (p.commands,
      { p.state with
        liveRuntimeCommandIds := p.terminalIds.foldl .erase p.state.liveRuntimeCommandIds })

/-- The commands that a turn may claim. -/
def unclaimed (s : AgentOsState) (threadId : ThreadId) (commandId : String) : Bool :=
  (s.runtimeCommands.get? commandId).any fun command ↦
    command.toThreadId = threadId && command.status.isUnclaimed

/-- One command in `claim_runtime_commands_for_turn`. -/
def claimVisit (policy : AgentOsPolicy) (active : Option ActiveCoordinatorLease) (now : Time)
    (c : List RuntimeCommandRecord × AgentOsState) (commandId : String) :
    List RuntimeCommandRecord × AgentOsState :=
  let (claimed, s) := c
  match s.runtimeCommands.get? commandId with
  | none => c
  | some command =>
    let nextStatus := command.claimStatus active now
    let command :=
      { command with status := nextStatus, updatedAt := now, expiresAt := now + policy.ticketTtl }
    let s := { s with runtimeCommands := s.runtimeCommands.insert commandId command }
    let s := if !nextStatus.isLive then
        { s with liveRuntimeCommandIds := s.liveRuntimeCommandIds.erase commandId }
      else s
    let s := if nextStatus = .executing then s.applyAssignRuntimeStatus command now true else s
    (if nextStatus.isTurnClaimed then claimed ++ [command] else claimed, s)

/-- `claim_runtime_commands_for_turn`. -/
def claimRuntimeCommandsForTurn (s : AgentOsState) (policy : AgentOsPolicy) (threadId : ThreadId)
    (order : List String) (now : Time) :
    Except PraxisErr (List RuntimeCommandRecord × AgentOsState) :=
  if !s.threads.contains threadId then
    .error (.unsupportedOperation s!"unknown AgentOS thread `{threadId}`")
  else
    let active := s.activeCoordinatorForThread threadId
    let commandIds := order.filter (s.unclaimed threadId)
    .ok (commandIds.foldl (claimVisit policy active now) ([], s))

/-- One command in `expire_runtime_commands`. -/
def expireVisit (now : Time) (s : AgentOsState) (commandId : String) : AgentOsState :=
  match s.runtimeCommands.get? commandId with
  | none => { s with liveRuntimeCommandIds := s.liveRuntimeCommandIds.erase commandId }
  | some command =>
    if command.expiresAt ≤ now then
      { s with
        runtimeCommands := s.runtimeCommands.insert commandId
          { command with status := .expired, updatedAt := now }
        liveRuntimeCommandIds := s.liveRuntimeCommandIds.erase commandId }
    else s

/-- `expire_runtime_commands`. -/
def expireRuntimeCommands (s : AgentOsState) (order : List String) (now : Time) : AgentOsState :=
  order.foldl (expireVisit now) s

/-- One command in `note_worker_started_command`. -/
def startVisit (policy : AgentOsPolicy) (threadId : ThreadId) (currentTaskId : Option String)
    (now : Time) (c : List RuntimeCommandRecord × AgentOsState) (commandId : String) :
    List RuntimeCommandRecord × AgentOsState :=
  let (changed, s) := c
  match s.runtimeCommands.get? commandId with
  | none =>
    (changed, { s with liveRuntimeCommandIds := s.liveRuntimeCommandIds.erase commandId })
  | some command =>
    if command.toThreadId ≠ threadId then c
    else
      let (command, applied) :=
        command.applyWorkerStartedCommand currentTaskId now policy.ticketTtl
      (if applied then changed ++ [command] else changed,
        { s with runtimeCommands := s.runtimeCommands.insert commandId command })

/-- `note_worker_started_command`. -/
def noteWorkerStartedCommand (s : AgentOsState) (policy : AgentOsPolicy) (threadId : ThreadId)
    (order : List String) (now : Time) : List RuntimeCommandRecord × AgentOsState :=
  let currentTaskId := (s.threads.get? threadId).bind (·.currentTaskId)
  let s := { s with
    threads := s.threads.modify threadId fun thread ↦ { thread with heartbeatAt := now } }
  order.foldl (startVisit policy threadId currentTaskId now) ([], s)

/-- `update_runtime_command_status`. -/
def updateRuntimeCommandStatus (s : AgentOsState) (commandId : String) (actorThreadId : ThreadId)
    (status : RuntimeCommandStatus) (now : Time) :
    Except PraxisErr (RuntimeCommandRecord × AgentOsState) := do
  let existing ← okOr (s.runtimeCommands.get? commandId)
    (.unsupportedOperation s!"unknown runtime command `{commandId}`")
  ensure (actorThreadId = existing.fromThreadId || actorThreadId = existing.toThreadId)
    (.unsupportedOperation "runtime command status can only be updated by sender or receiver")
  ensure (!(status = .acked || status = .executing || status = .completed) ||
      actorThreadId = existing.toThreadId)
    (.unsupportedOperation
      "runtime command ack/execution status must be reported by the receiver")
  let active := s.activeCoordinatorForThread existing.toThreadId
  let status := existing.reportedStatus actorThreadId status active now
  let command := { existing with status, updatedAt := now }
  let s :=
    { s with
      runtimeCommands := s.runtimeCommands.insert commandId command
      liveRuntimeCommandIds :=
        if !status.isLive then s.liveRuntimeCommandIds.erase commandId
        else s.liveRuntimeCommandIds }
  return (command, s.applyAssignRuntimeStatus command now false)

end AgentOsState

end Praxis.AgentOs
