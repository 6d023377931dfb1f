import Praxis.AgentOs.Operations

/-!
# Tasks follow the commands that assign them

A command that assigns a task is issued for a task of the table, and tasks are never removed
(`TasksKnown`).  When the command is over, its task should be over too, and its receiver should
work on it no longer (`Followed`).  A report sees to this.  The loops do not: they let a command
expire, or reject it for another coordinator, and leave the task as it is.  The results below are
about histories in which no loop takes an assignment to its end (`AssignmentsStand`).
-/

namespace Praxis.AgentOs

open Foundation

theorem RuntimeCommandStatus.clearsAssignedTask_of_not_isLive {status : RuntimeCommandStatus}
    (h : status.isLive = false) : status.clearsAssignedTask = true := by
  cases status with
  | pending => cases h
  | acked => cases h
  | executing => cases h
  | completed => rfl
  | failed => rfl
  | expired => rfl
  | rejected => rfl

namespace Operation

/-- No operation changes what a command is about. -/
theorem becomes_frame (policy : AgentOsPolicy) (s : AgentOsState) (now : Time)
    (command : RuntimeCommandRecord) (op : Operation) :
    (op.becomes policy s now command).commandType = command.commandType ∧
      (op.becomes policy s now command).taskId = command.taskId ∧
      (op.becomes policy s now command).toThreadId = command.toThreadId := by
  cases op with
  | poll threadId autoAck order =>
    dsimp only [becomes, RuntimeCommandRecord.polled]
    split_ifs <;> exact ⟨rfl, rfl, rfl⟩
  | noteStarted threadId order =>
    dsimp only [becomes, RuntimeCommandRecord.applyWorkerStartedCommand]
    split_ifs <;> exact ⟨rfl, rfl, rfl⟩
  | _ => exact ⟨rfl, rfl, rfl⟩

end Operation

namespace AgentOsState

variable {policy : AgentOsPolicy} {s t : AgentOsState} {now : Time} {op : Operation}
  {id : String} {command : RuntimeCommandRecord}

/-! ## Commands and their tasks -/

/-- Commands that assign a task name one of the table. -/
def TasksKnown (s : AgentOsState) : Prop :=
  ∀ id command, s.runtimeCommands.get? id = some command → command.commandType = .assignTask →
    ∃ taskId, command.taskId = some taskId ∧ s.tasks.get? taskId ≠ none

/-- The task of the command has the status that goes with the command, and the receiver does not
work on it. -/
def Followed (s : AgentOsState) (command : RuntimeCommandRecord) : Prop :=
  ∃ taskId task, command.taskId = some taskId ∧ s.tasks.get? taskId = some task ∧
    task.status = command.status.assignTaskStatus ∧
    ∀ thread, s.threads.get? command.toThreadId = some thread → thread.currentTaskId ≠ some taskId

/-- What holds of the assignments that a loop goes to. -/
def OnAssignments (s : AgentOsState) (P : RuntimeCommandRecord → Prop) : Prop :=
  ∀ id command, id ∈ s.liveRuntimeCommandIds → s.runtimeCommands.get? id = some command →
    command.commandType = .assignTask → P command

/-- No loop goes to an assignment that has expired, nor looks at one of another coordinator. -/
def AssignmentsStand (s : AgentOsState) (now : Time) : Operation → Prop
  | .poll threadId _ _ => s.OnAssignments fun command ↦ command.toThreadId = threadId →
      now < command.expiresAt ∧
        command.matchesCoordinator (s.activeCoordinatorForThread threadId) = true
  | .claim threadId _ => s.OnAssignments fun command ↦ command.toThreadId = threadId →
      command.status = .pending → now < command.expiresAt ∧
        command.matchesCoordinator (s.activeCoordinatorForThread threadId) = true
  | .expire _ => s.OnAssignments fun command ↦ now < command.expiresAt
  | .noteStarted threadId _ => s.OnAssignments fun command ↦ command.toThreadId = threadId →
      now < command.expiresAt
  | _ => True

theorem tasks_perform {taskId : String} (h : s.tasks.get? taskId ≠ none) :
    (s.perform policy now op).tasks.get? taskId ≠ none := by
  by_cases hplain : op.isPlain = true
  · exact (plain_perform hplain).tasks taskId h
  · rw [Bool.not_eq_true] at hplain
    by_cases hissue : op.isIssue = false
    · exact (keeps_perform hplain hissue).tasks taskId h
    · cases op with
      | issue =>
        refine of_result (P := fun t ↦ t.tasks.get? taskId ≠ none) (fun _ _ ↦ h) fun _ t ht ↦ ?_
        obtain ⟨s', _, _, hs', -, -, -, -, -, -, -, rfl⟩ := exists_issueRuntimeCommand ht
        exact hs'.plain.tasks taskId h
      | _ => exact absurd rfl hissue

theorem tasksKnown_default : TasksKnown .default := nofun

theorem TasksKnown.issue {commandId : String} {fromThreadId toThreadId : ThreadId}
    {commandType : RuntimeCommandType} {taskId : Option String} (h : s.TasksKnown) :
    (s.perform policy now
      (.issue commandId fromThreadId toThreadId commandType taskId)).TasksKnown := by
  refine of_result (fun _ _ ↦ h) fun issued t ht ↦ ?_
  obtain ⟨s', _, _, hs', -, -, -, -, htype, htask, hknown, rfl⟩ := exists_issueRuntimeCommand ht
  intro id command hget hassign
  rw [OrderedMap.get?_insert] at hget
  dsimp only
  rw [hs'.tasks]
  split_ifs at hget
  · cases hget
    obtain ⟨task, htaskId, record, hrecord⟩ := hknown (htype.symm.trans hassign)
    exact ⟨task, htask.trans htaskId, Option.ne_none_iff_exists'.mpr ⟨record, hrecord⟩⟩
  · rw [hs'.runtimeCommands] at hget
    exact h id command hget hassign

theorem TasksKnown.perform (h : s.TasksKnown) (hop : op.Admissible s) :
    (s.perform policy now op).TasksKnown := by
  by_cases hissue : op.isIssue = false
  · intro id command hget hassign
    rw [goes_perform hop hissue id] at hget
    obtain ⟨earlier, hearlier, rfl⟩ := Option.map_eq_some_iff.mp hget
    obtain ⟨htype, htask, -⟩ := op.becomes_frame policy s now earlier
    have hsame : (if op.visits s now id earlier then op.becomes policy s now earlier
        else earlier).commandType = earlier.commandType ∧
        (if op.visits s now id earlier then op.becomes policy s now earlier
          else earlier).taskId = earlier.taskId := by
      split_ifs
      · exact ⟨htype, htask⟩
      · exact ⟨rfl, rfl⟩
    obtain ⟨taskId, htaskId, hknown⟩ := h id earlier hearlier (hsame.1.symm.trans hassign)
    exact ⟨taskId, hsame.2.trans htaskId, tasks_perform hknown⟩
  · cases op with
    | issue => exact h.issue
    | _ => exact absurd rfl hissue

/-! ## Ends of an assignment -/

/-- The assignment of a command that is over is undone. -/
theorem followed_applyAssign {taskId : String} (hassign : command.commandType = .assignTask)
    (htask : command.taskId = some taskId) (hknown : s.tasks.get? taskId ≠ none)
    (hover : command.status.isLive = false) :
    (s.applyAssignRuntimeStatus command now false).Followed command := by
  obtain ⟨task, hget⟩ := Option.ne_none_iff_exists'.mp hknown
  have hclears := RuntimeCommandStatus.clearsAssignedTask_of_not_isLive hover
  unfold applyAssignRuntimeStatus
  rw [if_neg (not_not.mpr hassign), htask]
  refine ⟨taskId, { task with status := command.status.assignTaskStatus, updatedAt := now }, htask,
    ?_, rfl, ?_⟩
  · dsimp only
    rw [OrderedMap.get?_modify, if_pos rfl, hget]
    rfl
  · intro thread hthread
    dsimp only at hthread
    rw [OrderedMap.get?_modify, if_pos rfl] at hthread
    obtain ⟨before, -, rfl⟩ := Option.map_eq_some_iff.mp hthread
    rw [hclears, if_pos rfl, Bool.false_and, if_neg Bool.false_ne_true]
    dsimp only
    split_ifs with hcurrent
    · exact nofun
    · exact hcurrent

section Statuses

variable {active : Option ActiveCoordinatorLease} {autoAck : Bool}
  (hnow : now < command.expiresAt) (hmatches : command.matchesCoordinator active = true)

include hnow hmatches

theorem isLive_pollStatus (hlive : command.status.isLive = true) :
    (command.pollStatus active now autoAck).isLive = true := by
  rw [RuntimeCommandRecord.pollStatus, if_neg (not_le.mpr hnow), hmatches, Bool.not_true,
    if_neg Bool.false_ne_true]
  split_ifs
  · rfl
  · exact hlive

theorem isLive_claimStatus : (command.claimStatus active now).isLive = true := by
  rw [RuntimeCommandRecord.claimStatus, if_neg (not_le.mpr hnow), hmatches, Bool.not_true,
    if_neg Bool.false_ne_true]
  split_ifs <;> rfl

end Statuses

/-- Under the condition only a report takes an assignment to its end. -/
theorem exists_report_of_over (hstand : s.AssignmentsStand now op)
    (hget : s.runtimeCommands.get? id = some command) (hassign : command.commandType = .assignTask)
    (hlive : command.status.isLive = true) (hvisits : op.visits s now id command = true)
    (hover : (op.becomes policy s now command).status.isLive = false) :
    ∃ actorThreadId status, op = .updateStatus id actorThreadId status ∧
      command.mayReport actorThreadId status = true := by
  rw [Bool.eq_false_iff] at hover
  cases op with
  | registerThread => cases hvisits
  | createTask => cases hvisits
  | assignTask => cases hvisits
  | claimCoordinator => cases hvisits
  | raiseFencing => cases hvisits
  | issue => cases hvisits
  | poll threadId autoAck order =>
    simp only [Operation.visits, Bool.and_eq_true, decide_eq_true_eq] at hvisits
    obtain ⟨-, hid, hto⟩ := hvisits
    obtain ⟨hnow, hmatches⟩ := hstand id command hid hget hassign hto
    refine absurd ?_ hover
    dsimp only [Operation.becomes, RuntimeCommandRecord.polled]
    split_ifs
    · exact isLive_pollStatus hnow hmatches hlive
    · exact hlive
  | claim threadId order =>
    simp only [Operation.visits, Bool.and_eq_true, decide_eq_true_eq] at hvisits
    obtain ⟨-, hid, hto, hpending⟩ := hvisits
    obtain ⟨hnow, hmatches⟩ := hstand id command hid hget hassign hto (of_decide_eq_true hpending)
    exact absurd (isLive_claimStatus hnow hmatches) hover
  | expire order =>
    simp only [Operation.visits, Bool.and_eq_true, decide_eq_true_eq] at hvisits
    exact absurd (hstand id command hvisits.1 hget hassign) (not_lt.mpr hvisits.2)
  | noteStarted threadId order =>
    simp only [Operation.visits, Bool.and_eq_true, decide_eq_true_eq] at hvisits
    obtain ⟨hid, hto⟩ := hvisits
    exact absurd (isLive_applyWorkerStartedCommand (hstand id command hid hget hassign hto) hlive)
      hover
  | updateStatus commandId actorThreadId status =>
    simp only [Operation.visits, Bool.and_eq_true, decide_eq_true_eq] at hvisits
    obtain ⟨rfl, hreport⟩ := hvisits
    exact ⟨actorThreadId, status, rfl, hreport⟩

/-! ## Histories -/

/-- An operation that takes no assignment to its end in a loop. -/
def Assigns (policy : AgentOsPolicy) (s : AgentOsState) (label : Time × Operation)
    (t : AgentOsState) : Prop :=
  Performs policy s label t ∧ s.AssignmentsStand label.1 label.2

theorem tasksKnown_steps {labels : List (Time × Operation)}
    (hrun : Steps (Assigns policy) .default labels s) : s.TasksKnown := by
  refine hrun.invariant (fun s label t hs hstep ↦ ?_) tasksKnown_default
  obtain ⟨⟨hop, rfl⟩, -⟩ := hstep
  exact hs.perform hop

/-! ### A history with an assignment -/

instance (s : AgentOsState) (P : RuntimeCommandRecord → Prop) [DecidablePred P] :
    Decidable (s.OnAssignments P) :=
  decidable_of_iff
    (∀ id ∈ s.liveRuntimeCommandIds.elements, ∀ command ∈ s.runtimeCommands.get? id,
      command.commandType = .assignTask → P command)
    ⟨fun h id command hid hget ↦ h id hid command hget,
      fun h id hid command hget ↦ h id command hid hget⟩

instance (s : AgentOsState) (now : Time) : (op : Operation) → Decidable (s.AssignmentsStand now op)
  | .registerThread .. => .isTrue trivial
  | .createTask .. => .isTrue trivial
  | .assignTask .. => .isTrue trivial
  | .claimCoordinator .. => .isTrue trivial
  | .raiseFencing => .isTrue trivial
  | .issue .. => .isTrue trivial
  | .poll .. => inferInstanceAs (Decidable (s.OnAssignments _))
  | .claim .. => inferInstanceAs (Decidable (s.OnAssignments _))
  | .expire .. => inferInstanceAs (Decidable (s.OnAssignments _))
  | .noteStarted .. => inferInstanceAs (Decidable (s.OnAssignments _))
  | .updateStatus .. => .isTrue trivial

/-- The guards along the labels make a history. -/
theorem steps_assigns {labels : List (Time × Operation)}
    (h : Allowed (fun s label ↦ s.perform policy label.1 label.2)
      (fun s label ↦ label.2.Admissible s ∧ s.AssignmentsStand label.1 label.2) s labels) :
    Steps (Assigns policy) s labels
      (labels.foldl (fun s label ↦ s.perform policy label.1 label.2) s) :=
  steps_foldl (fun _ _ hguard ↦ ⟨⟨hguard.1, rfl⟩, hguard.2⟩) h

private def assignmentPolicy : AgentOsPolicy := ⟨100, 100, by decide, by decide⟩

/-- The coordinator has assigned a task to the worker, and the worker has claimed the command. -/
private def taskClaimed : List (Time × Operation) :=
  [(0, .registerThread ⟨"coordinator", "scope", 0, 0⟩),
    (0, .registerThread ⟨"worker", "scope", 1, 0⟩),
    (1, .createTask "task" 0 (some "worker") false false "coordinator"),
    (1, .issue "c" "coordinator" "worker" .assignTask (some "task")),
    (2, .claim "worker" ["c"])]

private def afterClaim : AgentOsState :=
  taskClaimed.foldl (fun s label ↦ s.perform assignmentPolicy label.1 label.2) .default

private theorem taskClaimed_assigns :
    Steps (Assigns assignmentPolicy) .default taskClaimed afterClaim :=
  steps_assigns (by decide +kernel)

/-! ### Ends of the tasks -/

/-- In a history an operation that takes an assignment to its end takes its task to its end and
from the receiver. -/
theorem assigned_task_follows_command {labels : List (Time × Operation)}
    {label : Time × Operation} {command' : RuntimeCommandRecord}
    (hrun : Steps (Assigns policy) .default labels s) (hstep : Assigns policy s label t)
    (hget : s.runtimeCommands.get? id = some command) (hassign : command.commandType = .assignTask)
    (hlive : command.status.isLive = true) (hget' : t.runtimeCommands.get? id = some command')
    (hover : command'.status.isLive = false) : t.Followed command' := by
  obtain ⟨⟨hop, rfl⟩, hstand⟩ := hstep
  cases (get?_perform hop hget).symm.trans hget'
  split_ifs at hover with hvisits
  · rw [if_pos hvisits]
    obtain ⟨actorThreadId, status, hupdate, hreport⟩ :=
      exists_report_of_over hstand hget hassign hlive hvisits hover
    obtain ⟨taskId, htask, hknown⟩ := tasksKnown_steps hrun id command hget hassign
    obtain ⟨now, op⟩ := label
    obtain rfl : op = .updateStatus id actorThreadId status := hupdate
    dsimp only
    rw [perform_updateStatus hget hreport]
    exact followed_applyAssign hassign htask hknown hover
  · rw [hlive] at hover
    cases hover

/-- A report that the worker has completed its task. -/
theorem assigned_task_follows_report :
    (afterClaim.runtimeCommands.get? "c").map (fun command ↦ (command.commandType,
      command.status)) = some (.assignTask, .executing) ∧
    ∀ command command', afterClaim.runtimeCommands.get? "c" = some command →
      command.commandType = .assignTask → command.status.isLive = true →
      (afterClaim.perform assignmentPolicy 3
        (.updateStatus "c" "worker" .completed)).runtimeCommands.get? "c" = some command' →
      command'.status.isLive = false →
      (afterClaim.perform assignmentPolicy 3
        (.updateStatus "c" "worker" .completed)).Followed command' :=
  ⟨by decide +kernel, fun _ _ hget hassign hlive hget' hover ↦
    assigned_task_follows_command taskClaimed_assigns
      (⟨⟨by decide +kernel, rfl⟩, by decide +kernel⟩ :
        Assigns assignmentPolicy afterClaim (3, .updateStatus "c" "worker" .completed) _)
      hget hassign hlive hget' hover⟩

/-- The command expires in a sweep, and the worker keeps a running task. -/
theorem expiry_leaves_assigned_task :
    ∃ s t, Steps (Performs assignmentPolicy) .default taskClaimed s ∧
      Performs assignmentPolicy s (200, .expire ["c"]) t ∧
      (s.runtimeCommands.get? "c").map (fun command ↦
        (command.commandType, command.taskId, command.status)) =
          some (.assignTask, some "task", .executing) ∧
      (t.runtimeCommands.get? "c").map (·.status) = some .expired ∧
      (t.tasks.get? "task").map (·.status) = some .running ∧
      (t.threads.get? "worker").map (·.currentTaskId) = some (some "task") :=
  ⟨afterClaim, _, taskClaimed_assigns.mono fun _ _ _ _ h ↦ h.1, ⟨by decide +kernel, rfl⟩,
    by decide +kernel, by decide +kernel, by decide +kernel, by decide +kernel⟩

end AgentOsState

end Praxis.AgentOs
