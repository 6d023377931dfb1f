import Praxis.AgentOs.RuntimeCommands

/-!
# Finishing a managed command

A command is finished in several critical sections: its record is closed and the thread and the task
are updated, the output is kept as an artifact, the files that the command has left dirty are
audited, and the leases and the ticket are released.  Blobs that cannot be written and snapshots
that cannot be persisted are logged and nothing more, and the audit fails for unknown commands only,
so the release is always reached (`finish_frees`).

A command that is over is finished again like a live one.  The second time closes the record anew
and updates thread and task as if the command had just ended; `finish_twice_iff` says when this
makes no difference.
-/

namespace Praxis.AgentOs

open Foundation

/-! ## Intents and processes -/

def requiresWrite : ActionIntentKind → Bool
  | .fileWrite => true
  | .compile => true
  | .test => true
  | .runApp => true
  | .gitMutation => true
  | .unknownRisky => true
  | _ => false

def requiresDirtyAudit (intent : ActionIntentKind) : Bool :=
  requiresWrite intent || intent = .gitMutation

def processRegistryKey (processId : Int) (runtimeOwnerId : Option String) : String :=
  match runtimeOwnerId.filter (!·.isEmpty) with
  | some owner => s!"{owner}:{processId}"
  | none => s!"unscoped:{processId}"

/-! ## What a call meets -/

/-- The arguments of `finish_managed_command`, and what it meets in the world. -/
structure FinishCall where
  exitCode : Option Int
  outputIsEmpty : Bool
  /-- The clock when the record is closed. -/
  markedAt : Time
  /-- The id made for the artifact of the output, and its blob if that could be written. -/
  artifactId : String
  artifactBlob : Option PathBuf
  /-- The files that the command has left dirty. -/
  dirtyFiles : List PathBuf
  /-- Files outside the scope of the task or of the profile. -/
  outside : PathBuf → Bool
  /-- The clock when a violation is written to the thread and to the task. -/
  threadFailedAt : Time
  taskFailedAt : Time
  reportId : String
  reportBlob : Option PathBuf

/-- `create_blob_artifact`: an artifact is recorded with or without its blob. -/
def createBlobArtifact (artifactId : String) (_blobPath : Option PathBuf) :
    Except PraxisErr String :=
  .ok artifactId

/-- `create_finished_command_output_artifact`. -/
def FinishCall.createFinishedCommandOutputArtifact (call : FinishCall) :
    Except PraxisErr (Option String) :=
  if call.outputIsEmpty then .ok none
  else (createBlobArtifact call.artifactId call.artifactBlob).map some

/-- `push_unique_dirty_files`. -/
def pushUniqueDirtyFiles (normalizePathForScope : PathBuf → String)
    (target dirtyFiles : List PathBuf) : List PathBuf :=
  dirtyFiles.foldl (fun target path ↦
    if target.any fun seen ↦ normalizePathForScope seen = normalizePathForScope path then target
    else target ++ [path]) target

/-! ## Threads and tasks -/

/-- States that a finished command does not take a thread out of. -/
def ThreadRuntimeState.isKept : ThreadRuntimeState → Bool
  | .waitingForLease => true
  | .waitingForCoordinator => true
  | .stopping => true
  | .stopped => true
  | .failed => true
  | .completed => true
  | _ => false

/-- `update_thread_after_finished_command`. -/
def ThreadRegistryEntry.afterFinishedCommand (thread : ThreadRegistryEntry) (commandId : String)
    (command : CommandRecord) (hasActiveRuntimeCommand : Bool) (now : Time) :
    ThreadRegistryEntry :=
  let thread :=
    if thread.currentCommandId = some commandId then { thread with currentCommandId := none }
    else thread
  let thread :=
    if hasActiveRuntimeCommand then
      { thread with
        currentTaskId := some command.taskId
        state := if thread.state.isKept then thread.state else .running }
    else { thread with state := .idle }
  { thread with heartbeatAt := now }

def TaskStatus.isOver : TaskStatus → Bool
  | .completed => true
  | .failed => true
  | .cancelled => true
  | _ => false

/-- `update_task_after_finished_command`. -/
def TaskRecord.afterFinishedCommand (task : TaskRecord) (hasActiveRuntimeCommand : Bool)
    (now : Time) : TaskRecord :=
  let task :=
    if task.status.isOver then task
    else { task with status := if hasActiveRuntimeCommand then .running else .assigned }
  { task with updatedAt := now }

/-- `mark_command_process_finished`. -/
def ManagedProcessRecord.finishedAt (process : ManagedProcessRecord) (now : Time) :
    ManagedProcessRecord :=
  { process with lastHeartbeat := now, endedAt := some now, status := .finished }

namespace AgentOsState

/-- `has_active_assign_runtime_command`. -/
def hasActiveAssignRuntimeCommand (s : AgentOsState) (threadId : ThreadId) (taskId : String) :
    Bool :=
  s.liveRuntimeCommandIds.elements.any fun commandId ↦
    (s.runtimeCommands.get? commandId).any fun command ↦
      command.toThreadId = threadId && command.commandType = .assignTask &&
        command.taskId = some taskId && command.status.isLive

/-! ## The critical sections -/

/-- `mark_managed_command_finished_in_state`. -/
def markManagedCommandFinished (s : AgentOsState) (commandId : String) (exitCode : Option Int)
    (now : Time) : Except PraxisErr (CommandRecord × AgentOsState) :=
  match s.commands.get? commandId with
  | none => .error (.unsupportedOperation s!"unknown command `{commandId}`")
  | some command =>
    let command := { command with endedAt := some now, exitCode }
    let s :=
      { s with
        commands := s.commands.insert commandId command
        liveCommandIds := s.liveCommandIds.erase commandId }
    let s :=
      match command.processId with
      | none => s
      | some processId =>
        { s with
          processes := s.processes.modify (processRegistryKey processId command.runtimeOwnerId)
            (·.finishedAt now) }
    let hasActiveRuntimeCommand := s.hasActiveAssignRuntimeCommand command.threadId command.taskId
    .ok (command,
      { s with
        threads := s.threads.modify command.threadId
          (·.afterFinishedCommand commandId command hasActiveRuntimeCommand now)
        tasks := s.tasks.modify command.taskId
          (·.afterFinishedCommand hasActiveRuntimeCommand now) })

/-- `attach_finished_command_artifact`. -/
def attachFinishedCommandArtifact (s : AgentOsState) (commandId : String) (command : CommandRecord)
    (artifactId : String) : CommandRecord × AgentOsState :=
  let command := { command with artifacts := command.artifacts ++ [artifactId] }
  (command, { s with commands := s.commands.insert commandId command })

/-- `audit_finished_command_dirty_files`, with the record if files were found. -/
def auditFinishedCommandDirtyFiles (normalizePathForScope : PathBuf → String) (s : AgentOsState)
    (command : CommandRecord) (call : FinishCall) :
    Except PraxisErr (Option CommandRecord × AgentOsState) :=
  if !requiresDirtyAudit command.intent then .ok (none, s)
  else if call.dirtyFiles.isEmpty then .ok (none, s)
  else
    let violationPath :=
      (s.tasks.get? command.taskId).bind fun _ ↦ call.dirtyFiles.find? call.outside
    match s.commands.get? command.commandId with
    | none =>
      let commandId := command.commandId
      .error (.unsupportedOperation s!"unknown command `{commandId}`")
    | some commandRecord =>
      let commandRecord :=
        { commandRecord with
          dirtyFiles := pushUniqueDirtyFiles normalizePathForScope commandRecord.dirtyFiles
            call.dirtyFiles }
      let s := { s with commands := s.commands.insert command.commandId commandRecord }
      let s :=
        if violationPath.isSome then
          { s with
            threads := s.threads.modify command.threadId fun thread ↦
              { thread with state := .failed, heartbeatAt := call.threadFailedAt }
            tasks := s.tasks.modify command.taskId fun task ↦
              { task with status := .failed, updatedAt := call.taskFailedAt } }
        else s
      .ok (some commandRecord, s)

/-- `record_finished_command_dirty_audit`. -/
def recordFinishedCommandDirtyAudit (normalizePathForScope : PathBuf → String) (s : AgentOsState)
    (commandId : String) (command : CommandRecord) (call : FinishCall) :
    Except PraxisErr CommandRecord × AgentOsState :=
  match s.auditFinishedCommandDirtyFiles normalizePathForScope command call with
  | .error e => (.error e, s)
  | .ok (none, s) => (.ok command, s)
  | .ok (some outcome, s) =>
    match createBlobArtifact call.reportId call.reportBlob with
    | .error e => (.error e, s)
    | .ok reportId =>
      let command := { outcome with artifacts := outcome.artifacts ++ [reportId] }
      (.ok command, { s with commands := s.commands.insert commandId command })

/-- `release_leases`. -/
def releaseLeases (s : AgentOsState) (leaseIds : List String) : AgentOsState :=
  { s with leases := leaseIds.foldl .erase s.leases }

/-- `finalize_finished_managed_command`. -/
def finalizeFinishedManagedCommand (s : AgentOsState) (command : CommandRecord)
    (leaseIds : List String) (releaseLeases : Bool) : AgentOsState :=
  let s := if releaseLeases then s.releaseLeases leaseIds else s
  { s with tickets := s.tickets.erase command.ticketId }

/-- `finish_managed_command`.  What a section has written stays when a later one fails. -/
def finishManagedCommand (normalizePathForScope : PathBuf → String) (s : AgentOsState)
    (commandId : String) (call : FinishCall) (releaseLeases : Bool) :
    Except PraxisErr (Option String) × AgentOsState :=
  match s.markManagedCommandFinished commandId call.exitCode call.markedAt with
  | .error e => (.error e, s)
  | .ok (command, s) =>
    let leaseIds := command.leaseIds
    match call.createFinishedCommandOutputArtifact with
    | .error e => (.error e, s)
    | .ok artifactId =>
      let (command, s) :=
        match artifactId with
        | none => (command, s)
        | some artifactId => s.attachFinishedCommandArtifact commandId command artifactId
      match s.recordFinishedCommandDirtyAudit normalizePathForScope commandId command call with
      | (.error e, s) => (.error e, s)
      | (.ok command, s) =>
        (.ok artifactId, s.finalizeFinishedManagedCommand command leaseIds releaseLeases)

end AgentOsState

/-! ## One call -/

section

variable (normalizePathForScope : PathBuf → String)

/-- The audit of the command finds files. -/
def FinishCall.audits (call : FinishCall) (command : CommandRecord) : Bool :=
  requiresDirtyAudit command.intent && !call.dirtyFiles.isEmpty

theorem FinishCall.not_audits_iff {call : FinishCall} {command : CommandRecord} :
    call.audits command = false ↔
      requiresDirtyAudit command.intent = false ∨ call.dirtyFiles = [] := by
  rw [audits, Bool.and_eq_false_iff, Bool.not_eq_false', List.isEmpty_iff]

/-- The record with the artifact of its output. -/
def CommandRecord.closedBy (command : CommandRecord) (call : FinishCall) : CommandRecord :=
  { command with
    endedAt := some call.markedAt
    exitCode := call.exitCode
    artifacts := command.artifacts ++ if call.outputIsEmpty then [] else [call.artifactId] }

/-- The record after the audit. -/
def CommandRecord.auditedBy (command : CommandRecord) (call : FinishCall) : CommandRecord :=
  if call.audits command then
    { command with
      artifacts := command.artifacts ++ [call.reportId]
      dirtyFiles :=
        pushUniqueDirtyFiles normalizePathForScope command.dirtyFiles call.dirtyFiles }
  else command

namespace AgentOsState

variable (s : AgentOsState) (id : String) (command : CommandRecord) (call : FinishCall)

/-- The audit finds a file outside the scope of a task. -/
def violated : Bool :=
  requiresDirtyAudit command.intent && (s.tasks.get? command.taskId).isSome &&
    call.dirtyFiles.any call.outside

/-- The state before the audit. -/
def markedBy : AgentOsState :=
  let active := s.hasActiveAssignRuntimeCommand command.threadId command.taskId
  { s with
    commands := s.commands.insert id (command.closedBy call)
    liveCommandIds := s.liveCommandIds.erase id
    processes :=
      match command.processId with
      | none => s.processes
      | some processId =>
        s.processes.modify (processRegistryKey processId command.runtimeOwnerId)
          (·.finishedAt call.markedAt)
    threads := s.threads.modify command.threadId
      (·.afterFinishedCommand id command active call.markedAt)
    tasks := s.tasks.modify command.taskId (·.afterFinishedCommand active call.markedAt) }

/-- The state that a call leaves. -/
def finishedBy : AgentOsState :=
  let active := s.hasActiveAssignRuntimeCommand command.threadId command.taskId
  { s with
    commands := s.commands.insert id ((command.closedBy call).auditedBy normalizePathForScope call)
    liveCommandIds := s.liveCommandIds.erase id
    processes :=
      match command.processId with
      | none => s.processes
      | some processId =>
        s.processes.modify (processRegistryKey processId command.runtimeOwnerId)
          (·.finishedAt call.markedAt)
    threads := s.threads.modify command.threadId fun thread ↦
      let thread := thread.afterFinishedCommand id command active call.markedAt
      if s.violated command call then
        { thread with state := .failed, heartbeatAt := call.threadFailedAt }
      else thread
    tasks := s.tasks.modify command.taskId fun task ↦
      let task := task.afterFinishedCommand active call.markedAt
      if s.violated command call then
        { task with status := .failed, updatedAt := call.taskFailedAt }
      else task
    leases := command.leaseIds.foldl .erase s.leases
    tickets := s.tickets.erase command.ticketId }

/-- A command of the table under its id. -/
structure Registered : Prop where
  get : s.commands.get? id = some command
  key : command.commandId = id

variable {s id command}

theorem mark_eq {exitCode : Option Int} {now : Time} (hget : s.commands.get? id = some command) :
    s.markManagedCommandFinished id exitCode now =
      .ok ({ command with endedAt := some now, exitCode },
        { s with
          commands := s.commands.insert id { command with endedAt := some now, exitCode }
          liveCommandIds := s.liveCommandIds.erase id
          processes :=
            match command.processId with
            | none => s.processes
            | some processId =>
              s.processes.modify (processRegistryKey processId command.runtimeOwnerId)
                (·.finishedAt now)
          threads := s.threads.modify command.threadId
            (·.afterFinishedCommand id command
              (s.hasActiveAssignRuntimeCommand command.threadId command.taskId) now)
          tasks := s.tasks.modify command.taskId
            (·.afterFinishedCommand
              (s.hasActiveAssignRuntimeCommand command.threadId command.taskId) now) }) := by
  unfold markManagedCommandFinished
  rw [hget]
  cases hprocess : command.processId with
  | none =>
    dsimp only
    rw [hprocess]
    rfl
  | some processId =>
    dsimp only
    rw [hprocess]
    rfl

theorem not_violated {call : FinishCall} (h : call.audits command = false) :
    s.violated command call = false := by
  rw [violated]
  rcases FinishCall.not_audits_iff.mp h with hrequires | hfiles
  · rw [hrequires, Bool.false_and, Bool.false_and]
  · rw [hfiles, List.any_nil, Bool.and_false]

theorem audit_eq (h : s.Registered id command) :
    s.recordFinishedCommandDirtyAudit normalizePathForScope id command call =
      (.ok (command.auditedBy normalizePathForScope call),
        { s with
          commands := s.commands.insert id (command.auditedBy normalizePathForScope call)
          threads := if s.violated command call then
              s.threads.modify command.threadId fun thread ↦
                { thread with state := .failed, heartbeatAt := call.threadFailedAt }
            else s.threads
          tasks := if s.violated command call then
              s.tasks.modify command.taskId fun task ↦
                { task with status := .failed, updatedAt := call.taskFailedAt }
            else s.tasks }) := by
  obtain ⟨hget, rfl⟩ := h
  unfold recordFinishedCommandDirtyAudit auditFinishedCommandDirtyFiles CommandRecord.auditedBy
  by_cases haudits : call.audits command = true
  · obtain ⟨hrequires, hfiles⟩ := Bool.and_eq_true_iff.mp haudits
    rw [Bool.not_eq_true'] at hfiles
    have hviolated : ((s.tasks.get? command.taskId).bind fun _ ↦
        call.dirtyFiles.find? call.outside).isSome = s.violated command call := by
      rw [violated, hrequires, Bool.true_and]
      cases s.tasks.get? command.taskId with
      | none => rfl
      | some task => exact List.isSome_find?
    rw [if_pos haudits, hrequires, Bool.not_true, if_neg Bool.false_ne_true, hfiles,
      if_neg Bool.false_ne_true, hget]
    dsimp only [createBlobArtifact]
    rw [hviolated]
    split_ifs
    · dsimp only
      rw [OrderedMap.insert_insert]
    · dsimp only
      rw [OrderedMap.insert_insert]
  · rw [Bool.not_eq_true] at haudits
    rw [haudits, not_violated haudits, if_neg Bool.false_ne_true, if_neg Bool.false_ne_true,
      if_neg Bool.false_ne_true, OrderedMap.insert_of_get? hget]
    rcases FinishCall.not_audits_iff.mp haudits with hrequires | hfiles
    · rw [hrequires, Bool.not_false, if_pos rfl]
    · rw [hfiles, List.isEmpty_nil, if_pos rfl]
      split_ifs <;> rfl

theorem violated_congr {t : AgentOsState} {command' : CommandRecord}
    (htask : (t.tasks.get? command'.taskId).isSome = (s.tasks.get? command.taskId).isSome)
    (hintent : command'.intent = command.intent) :
    t.violated command' call = s.violated command call := by
  rw [violated, violated, htask, hintent]

theorem finish_eq_audit (hget : s.commands.get? id = some command) :
    s.finishManagedCommand normalizePathForScope id call true =
      match (s.markedBy id command call).recordFinishedCommandDirtyAudit normalizePathForScope id
          (command.closedBy call) call with
      | (.error e, s) => (.error e, s)
      | (.ok finished, s) => (.ok (if call.outputIsEmpty then none else some call.artifactId),
          s.finalizeFinishedManagedCommand finished command.leaseIds true) := by
  unfold finishManagedCommand FinishCall.createFinishedCommandOutputArtifact markedBy
    CommandRecord.closedBy
  rw [mark_eq hget]
  by_cases hempty : call.outputIsEmpty = true
  · rw [if_pos hempty, if_pos hempty, if_pos hempty, List.append_nil]
  · rw [if_neg hempty, if_neg hempty, if_neg hempty]
    dsimp only [createBlobArtifact, Except.map, attachFinishedCommandArtifact]
    rw [OrderedMap.insert_insert]

theorem finish_eq (h : s.Registered id command) :
    s.finishManagedCommand normalizePathForScope id call true =
      (.ok (if call.outputIsEmpty then none else some call.artifactId),
        s.finishedBy normalizePathForScope id command call) := by
  have hregistered : (s.markedBy id command call).Registered id (command.closedBy call) :=
    ⟨OrderedMap.get?_insert.trans (if_pos rfl), h.key⟩
  have htask : ((s.markedBy id command call).tasks.get? command.taskId).isSome =
      (s.tasks.get? command.taskId).isSome := by
    dsimp only [markedBy]
    rw [OrderedMap.get?_modify, if_pos rfl, Option.isSome_map]
  have hviolated : (s.markedBy id command call).violated (command.closedBy call) call =
      s.violated command call := violated_congr call htask rfl
  rw [finish_eq_audit normalizePathForScope call h.get,
    audit_eq normalizePathForScope call hregistered, hviolated]
  have hticket : ((command.closedBy call).auditedBy normalizePathForScope call).ticketId =
      command.ticketId := by
    unfold CommandRecord.auditedBy
    split_ifs <;> rfl
  refine congrArg (Prod.mk _) ?_
  unfold finalizeFinishedManagedCommand releaseLeases finishedBy markedBy
  rw [if_pos rfl, hticket]
  by_cases hv : s.violated command call = true
  · rw [hv, if_pos rfl, if_pos rfl]
    dsimp only [CommandRecord.closedBy]
    rw [OrderedMap.insert_insert, OrderedMap.modify_modify, OrderedMap.modify_modify]
    rfl
  · rw [if_neg hv, if_neg hv]
    dsimp only
    rw [OrderedMap.insert_insert]
    simp only [hv]
    rfl

/-- No lease and no ticket of the command is left, and the command is not live. -/
structure Freed (s : AgentOsState) (id : String) (command : CommandRecord) : Prop where
  leases : ∀ leaseId ∈ command.leaseIds, s.leases.get? leaseId = none
  ticket : s.tickets.get? command.ticketId = none
  live : id ∉ s.liveCommandIds

/-- Whatever a call meets, it returns with the resources of the command released. -/
theorem finish_frees (h : s.Registered id command) :
    (s.finishManagedCommand normalizePathForScope id call true).2.Freed id command := by
  rw [finish_eq normalizePathForScope call h]
  constructor
  · intro leaseId hlease
    exact OrderedMap.get?_foldl_erase.trans (if_pos hlease)
  · exact OrderedMap.get?_erase.trans (if_pos rfl)
  · exact fun hlive ↦ (OrderedSet.mem_erase.mp hlive).2 rfl

end AgentOsState

end

/-! ## A second call -/

section

variable {normalizePathForScope : PathBuf → String} {command : CommandRecord} {active : Bool}
  {now : Time} {first second : FinishCall}

/-- A call changes four fields of the record. -/
theorem CommandRecord.finished_frame (normalizePathForScope : PathBuf → String)
    (command : CommandRecord) (call : FinishCall) : ∃ artifacts dirtyFiles,
    (command.closedBy call).auditedBy normalizePathForScope call =
      { command with
        endedAt := some call.markedAt, exitCode := call.exitCode, artifacts, dirtyFiles } := by
  unfold auditedBy
  split_ifs
  · exact ⟨_, _, rfl⟩
  · exact ⟨_, _, rfl⟩

/-- The record stays if the call closes it as it is and has nothing to attach. -/
theorem CommandRecord.finished_eq_self_iff (normalizePathForScope : PathBuf → String)
    (second : FinishCall) :
    (command.closedBy second).auditedBy normalizePathForScope second = command ↔
      command.endedAt = some second.markedAt ∧ command.exitCode = second.exitCode ∧
        second.outputIsEmpty = true ∧ second.audits command = false := by
  constructor
  · intro h
    obtain ⟨artifacts, dirtyFiles, hframe⟩ := command.finished_frame normalizePathForScope second
    have hsame := hframe.symm.trans h
    refine ⟨(congrArg endedAt hsame).symm, (congrArg exitCode hsame).symm, ?_⟩
    have hlength : ((command.closedBy second).auditedBy normalizePathForScope
        second).artifacts.length = command.artifacts.length := by rw [h]
    constructor
    · by_contra hempty
      unfold auditedBy closedBy at hlength
      split_ifs at hlength <;> simp at hlength
    · rw [Bool.eq_false_iff]
      intro haudits
      have haudits' : second.audits (command.closedBy second) = true := haudits
      rw [auditedBy, if_pos haudits', closedBy, List.length_append, List.length_append,
        List.length_singleton] at hlength
      omega
  · rintro ⟨hended, hexit, hempty, haudits⟩
    have hclosed : command.closedBy second = command := by
      rw [closedBy, hempty, if_pos rfl, List.append_nil, ← hended, ← hexit]
    rw [hclosed, auditedBy, haudits, if_neg Bool.false_ne_true]

theorem ThreadRegistryEntry.afterFinishedCommand_idem {thread : ThreadRegistryEntry} {id : String} :
    (thread.afterFinishedCommand id command active now).afterFinishedCommand id command active now =
      thread.afterFinishedCommand id command active now := by
  unfold afterFinishedCommand
  dsimp only
  split_ifs <;> simp_all [ThreadRuntimeState.isKept]

/-- A failed thread stays as it is if it is busy and its time is that of the call. -/
theorem ThreadRegistryEntry.afterFinishedCommand_failed_iff {thread : ThreadRegistryEntry}
    {id : String} {failedAt : Time} :
    let failed : ThreadRegistryEntry :=
      { thread.afterFinishedCommand id command active now with
        state := .failed, heartbeatAt := failedAt }
    failed.afterFinishedCommand id command active now = failed ↔
      active = true ∧ failedAt = now := by
  intro failed
  constructor
  · intro h
    have hstate := congrArg state h
    have hheartbeat := congrArg heartbeatAt h
    cases active with
    | false => cases hstate
    | true => exact ⟨rfl, hheartbeat.symm⟩
  · rintro ⟨rfl, rfl⟩
    unfold failed afterFinishedCommand
    dsimp only
    split_ifs <;> simp_all [ThreadRuntimeState.isKept]

theorem TaskRecord.afterFinishedCommand_idem {task : TaskRecord} :
    (task.afterFinishedCommand active now).afterFinishedCommand active now =
      task.afterFinishedCommand active now := by
  unfold afterFinishedCommand
  dsimp only
  split_ifs <;> simp_all

/-- A failed task stays as it is if its time is that of the call. -/
theorem TaskRecord.afterFinishedCommand_failed_iff {task : TaskRecord} {failedAt : Time} :
    let failed : TaskRecord :=
      { task.afterFinishedCommand active now with status := .failed, updatedAt := failedAt }
    failed.afterFinishedCommand active now = failed ↔ failedAt = now := by
  intro failed
  constructor
  · exact fun h ↦ (congrArg updatedAt h).symm
  · rintro rfl
    rfl

namespace AgentOsState

variable {s : AgentOsState} {id : String}

/-- A second call finds nothing to do: it closes the record at the same time with the same exit
code, has no output and no files to attach, and the first call has not failed the task, unless it
did so at that time and the thread is busy with a runtime command. -/
structure Repeatable (s : AgentOsState) (command : CommandRecord) (first second : FinishCall) :
    Prop where
  clock : second.markedAt = first.markedAt
  exitCode : second.exitCode = first.exitCode
  output : second.outputIsEmpty = true
  audit : second.audits command = false
  task : s.violated command first = true → first.taskFailedAt = first.markedAt
  thread : s.violated command first = true → (s.threads.get? command.threadId).isSome = true →
    s.hasActiveAssignRuntimeCommand command.threadId command.taskId = true ∧
      first.threadFailedAt = first.markedAt

theorem finishedBy_registered (normalizePathForScope : PathBuf → String) (first : FinishCall)
    (h : s.Registered id command) :
    (s.finishedBy normalizePathForScope id command first).Registered id
      ((command.closedBy first).auditedBy normalizePathForScope first) := by
  refine ⟨OrderedMap.get?_insert.trans (if_pos rfl), ?_⟩
  obtain ⟨_, _, hframe⟩ := command.finished_frame normalizePathForScope first
  rw [hframe]
  exact h.key

/-- The state stays if the tables that a call changes stay. -/
theorem finishedBy_eq_self_iff (t : AgentOsState) :
    t.finishedBy normalizePathForScope id command second = t ↔
      (t.finishedBy normalizePathForScope id command second).commands = t.commands ∧
      (t.finishedBy normalizePathForScope id command second).liveCommandIds = t.liveCommandIds ∧
      (t.finishedBy normalizePathForScope id command second).processes = t.processes ∧
      (t.finishedBy normalizePathForScope id command second).threads = t.threads ∧
      (t.finishedBy normalizePathForScope id command second).tasks = t.tasks ∧
      (t.finishedBy normalizePathForScope id command second).leases = t.leases ∧
      (t.finishedBy normalizePathForScope id command second).tickets = t.tickets := by
  constructor
  · intro h
    rw [h]
    exact ⟨rfl, rfl, rfl, rfl, rfl, rfl, rfl⟩
  · rintro ⟨hcommands, hlive, hprocesses, hthreads, htasks, hleases, htickets⟩
    obtain ⟨threads, tasks, leases, tickets, intentPlans, pendingIntentPlanIds, commands,
      liveCommandIds, processes, runtimeCommands, liveRuntimeCommandIds, activeCoordinators,
      fencingCounter, coordinatorEpoch⟩ := t
    unfold finishedBy at *
    rw [AgentOsState.mk.injEq]
    exact ⟨hthreads, htasks, hleases, htickets, rfl, rfl, hcommands, hlive, hprocesses, rfl, rfl,
      rfl, rfl, rfl⟩

section

variable (normalizePathForScope command) {command' : CommandRecord}
  (hthread : command'.threadId = command.threadId)
  (htask : command'.taskId = command.taskId) (hclock : second.markedAt = first.markedAt)
  (hviolated : (s.finishedBy normalizePathForScope id command first).violated command' second =
    false)

include hthread htask hclock hviolated

theorem finishedBy_threads_iff :
    ((s.finishedBy normalizePathForScope id command first).finishedBy normalizePathForScope id
        command' second).threads = (s.finishedBy normalizePathForScope id command first).threads ↔
      (s.violated command first = true → (s.threads.get? command.threadId).isSome = true →
        s.hasActiveAssignRuntimeCommand command.threadId command.taskId = true ∧
          first.threadFailedAt = first.markedAt) := by
  have hafter : ∀ (thread : ThreadRegistryEntry) active now,
      thread.afterFinishedCommand id command' active now =
        thread.afterFinishedCommand id command active now := by
    intro thread active now
    rw [ThreadRegistryEntry.afterFinishedCommand, htask]
    rfl
  unfold finishedBy at hviolated ⊢
  dsimp only
  rw [hviolated, hthread, htask, hclock]
  simp only [hafter]
  refine OrderedMap.modify_modify_eq_iff.trans ?_
  by_cases hfirst : s.violated command first = true
  · simp only [hfirst, if_true, Bool.false_eq_true, if_false, forall_const,
      Option.isSome_iff_exists, forall_exists_index]
    exact forall_congr' fun thread ↦ imp_congr_right fun _ ↦
      ThreadRegistryEntry.afterFinishedCommand_failed_iff
  · refine iff_of_true (fun thread _ ↦ ?_) fun h ↦ absurd h hfirst
    simp only [hfirst, Bool.false_eq_true, if_false]
    exact ThreadRegistryEntry.afterFinishedCommand_idem

theorem finishedBy_tasks_iff :
    ((s.finishedBy normalizePathForScope id command first).finishedBy normalizePathForScope id
        command' second).tasks = (s.finishedBy normalizePathForScope id command first).tasks ↔
      (s.violated command first = true → first.taskFailedAt = first.markedAt) := by
  unfold finishedBy at hviolated ⊢
  dsimp only
  rw [hviolated, hthread, htask, hclock]
  refine OrderedMap.modify_modify_eq_iff.trans ?_
  by_cases hfirst : s.violated command first = true
  · obtain ⟨hknown, -⟩ := Bool.and_eq_true_iff.mp hfirst
    obtain ⟨task, hget⟩ := Option.isSome_iff_exists.mp (Bool.and_eq_true_iff.mp hknown).2
    simp only [hfirst, hget, if_true, Bool.false_eq_true, if_false, forall_const,
      Option.some.injEq, forall_eq']
    exact TaskRecord.afterFinishedCommand_failed_iff
  · refine iff_of_true (fun task _ ↦ ?_) fun h ↦ absurd h hfirst
    simp only [hfirst, Bool.false_eq_true, if_false]
    exact TaskRecord.afterFinishedCommand_idem

end

theorem finishedBy_processes {command' : CommandRecord}
    (hprocess : command'.processId = command.processId)
    (howner : command'.runtimeOwnerId = command.runtimeOwnerId)
    (hclock : second.markedAt = first.markedAt) :
    ((s.finishedBy normalizePathForScope id command first).finishedBy normalizePathForScope id
        command' second).processes =
      (s.finishedBy normalizePathForScope id command first).processes := by
  unfold finishedBy
  dsimp only
  rw [hprocess, howner, hclock]
  cases command.processId with
  | none => rfl
  | some processId => exact OrderedMap.modify_modify_eq_iff.mpr fun _ _ ↦ rfl

theorem finishedBy_leases {command' : CommandRecord}
    (hleases : command'.leaseIds = command.leaseIds) :
    ((s.finishedBy normalizePathForScope id command first).finishedBy normalizePathForScope id
        command' second).leases = (s.finishedBy normalizePathForScope id command first).leases := by
  refine OrderedMap.ext_get? fun leaseId ↦ ?_
  unfold finishedBy
  dsimp only
  rw [hleases, OrderedMap.get?_foldl_erase, OrderedMap.get?_foldl_erase]
  split_ifs <;> rfl

theorem finishedBy_twice_iff (h : s.Registered id command) :
    (s.finishedBy normalizePathForScope id command first).finishedBy normalizePathForScope id
        ((command.closedBy first).auditedBy normalizePathForScope first) second =
      s.finishedBy normalizePathForScope id command first ↔ s.Repeatable command first second := by
  have hget := (finishedBy_registered normalizePathForScope first h).get
  obtain ⟨artifacts, dirtyFiles, hframe⟩ := command.finished_frame normalizePathForScope first
  rw [hframe] at hget ⊢
  rw [finishedBy_eq_self_iff]
  have hcommands := (OrderedMap.insert_eq_self_iff hget).trans
    (CommandRecord.finished_eq_self_iff normalizePathForScope second)
  constructor
  · rintro ⟨hsame, -, -, hthreads, htasks, -, -⟩
    obtain ⟨hended, hexit, hempty, haudits⟩ := hcommands.mp hsame
    have hclock : second.markedAt = first.markedAt := (Option.some.inj hended).symm
    have hviolated : (s.finishedBy normalizePathForScope id command first).violated _ second =
        false := not_violated haudits
    exact ⟨hclock, hexit.symm, hempty, haudits,
      (finishedBy_tasks_iff normalizePathForScope command rfl rfl hclock hviolated).mp htasks,
      (finishedBy_threads_iff normalizePathForScope command rfl rfl hclock hviolated).mp hthreads⟩
  · rintro ⟨hclock, hexit, hempty, haudits, htask, hthread⟩
    refine ⟨hcommands.mpr ⟨congrArg some hclock.symm, hexit.symm, hempty, haudits⟩, ?_,
      finishedBy_processes rfl rfl hclock,
      (finishedBy_threads_iff normalizePathForScope command rfl rfl hclock
        (not_violated haudits)).mpr hthread,
      (finishedBy_tasks_iff normalizePathForScope command rfl rfl hclock
        (not_violated haudits)).mpr htask, finishedBy_leases rfl, ?_⟩
    · exact OrderedSet.erase_of_notMem fun hlive ↦ (OrderedSet.mem_erase.mp hlive).2 rfl
    · exact OrderedMap.erase_of_get?_none (OrderedMap.get?_erase.trans (if_pos rfl))

/-- A command that holds a lease under a ticket. -/
private def sampleCommand : CommandRecord where
  commandId := "c"
  ticketId := "ticket"
  taskId := "task"
  threadId := "worker"
  intent := .compile
  intentPlanId := some "plan"
  commandFingerprint := "fingerprint"
  cwd := "/repo"
  processId := none
  runtimeKind := none
  runtimeOwnerId := none
  startedAt := 1
  endedAt := none
  exitCode := none
  leaseIds := ["lease"]
  artifacts := []
  dirtyFiles := []

private def sampleRunning : AgentOsState :=
  { AgentOsState.default with
    commands := OrderedMap.empty.insert "c" sampleCommand
    liveCommandIds := OrderedSet.empty.insert "c"
    threads := OrderedMap.empty.insert "worker"
      ⟨"worker", "scope", 1, some "task", some "c", .running, 1, 0, 0⟩ }

/-- A call without output that finds no dirty files. -/
private def sampleCall (exitCode : Int) (now : Time) : FinishCall where
  exitCode := some exitCode
  outputIsEmpty := true
  markedAt := now
  artifactId := "artifact"
  artifactBlob := none
  dirtyFiles := []
  outside := fun _ ↦ true
  threadFailedAt := now
  taskFailedAt := now
  reportId := "report"
  reportBlob := none

private def samplePaths (path : PathBuf) : String := path

private theorem sampleRunning_registered : sampleRunning.Registered "c" sampleCommand :=
  ⟨by decide +kernel, rfl⟩

end AgentOsState

end

end Praxis.AgentOs
