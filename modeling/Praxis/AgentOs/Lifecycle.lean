import Praxis.AgentOs.Operations

/-!
# The life of a runtime command

The ids of the commands that are not over yet are kept in an index of their own, which the loops go
through.  As long as the index is exact (`Indexed`), no loop reaches a command that is over.  Two
operations break this: a report on a command that is over is taken like any other, and the note that
a worker has started lets a command expire without taking it out of the index.  The results below
are about histories without them (`Orderly`).
-/

namespace Praxis.AgentOs

open Foundation

namespace AgentOsState

variable {policy : AgentOsPolicy} {s t : AgentOsState} {now : Time} {op : Operation}
  {id : String} {command : RuntimeCommandRecord}

/-- The index has the ids of the live commands. -/
def Indexed (s : AgentOsState) : Prop :=
  ∀ id, id ∈ s.liveRuntimeCommandIds ↔
    ∃ command, s.runtimeCommands.get? id = some command ∧ command.status.isLive = true

/-- Reports are about live commands, and notes that a worker has started find none that has
expired. -/
def Orderly (s : AgentOsState) (now : Time) : Operation → Prop
  | .updateStatus commandId actorThreadId status => ∀ command,
      s.runtimeCommands.get? commandId = some command →
      command.mayReport actorThreadId status = true → command.status.isLive = true
  | .noteStarted threadId _ => ∀ id command, id ∈ s.liveRuntimeCommandIds →
      s.runtimeCommands.get? id = some command → command.toThreadId = threadId →
      now < command.expiresAt
  | _ => True

theorem Indexed.isLive (h : s.Indexed) (hget : s.runtimeCommands.get? id = some command)
    (hid : id ∈ s.liveRuntimeCommandIds) : command.status.isLive = true := by
  obtain ⟨_, hget', hlive⟩ := (h id).mp hid
  cases hget.symm.trans hget'
  exact hlive

/-- An operation goes to live commands only. -/
theorem Indexed.isLive_of_visits (h : s.Indexed) (horderly : s.Orderly now op)
    (hget : s.runtimeCommands.get? id = some command)
    (hvisits : op.visits s now id command = true) : command.status.isLive = true := by
  cases op with
  | registerThread => cases hvisits
  | createTask => cases hvisits
  | assignTask => cases hvisits
  | claimCoordinator => cases hvisits
  | raiseFencing => cases hvisits
  | issue => cases hvisits
  | poll threadId autoAck order =>
    simp only [Operation.visits, Bool.and_eq_true, decide_eq_true_eq] at hvisits
    exact h.isLive hget hvisits.2.1
  | claim threadId order =>
    simp only [Operation.visits, Bool.and_eq_true, decide_eq_true_eq] at hvisits
    exact h.isLive hget hvisits.2.1
  | expire order =>
    simp only [Operation.visits, Bool.and_eq_true, decide_eq_true_eq] at hvisits
    exact h.isLive hget hvisits.1
  | noteStarted threadId order =>
    simp only [Operation.visits, Bool.and_eq_true, decide_eq_true_eq] at hvisits
    exact h.isLive hget hvisits.1
  | updateStatus commandId actorThreadId status =>
    simp only [Operation.visits, Bool.and_eq_true, decide_eq_true_eq] at hvisits
    obtain ⟨rfl, hreport⟩ := hvisits
    exact horderly command hget hreport

/-! ## The index after an operation -/

/-- What an operation does to the index: it takes out what it takes to an end. -/
structure Reindexes (policy : AgentOsPolicy) (s : AgentOsState) (now : Time) (op : Operation)
    (t : AgentOsState) : Prop where
  subset : ∀ id, id ∈ t.liveRuntimeCommandIds → id ∈ s.liveRuntimeCommandIds
  mem_iff : ∀ id command, s.runtimeCommands.get? id = some command →
    command.status.isLive = true →
    (id ∈ t.liveRuntimeCommandIds ↔ id ∈ s.liveRuntimeCommandIds ∧
      (op.visits s now id command = true → (op.becomes policy s now command).status.isLive = true))

theorem Indexed.of_goes (h : s.Indexed) (horderly : s.Orderly now op)
    (hgoes : Goes policy s now op t) (hindex : Reindexes policy s now op t) : t.Indexed := by
  intro id
  rw [hgoes id]
  cases hget : s.runtimeCommands.get? id with
  | none =>
    constructor
    · intro hid
      obtain ⟨command, hcommand, -⟩ := (h id).mp (hindex.subset id hid)
      cases hget.symm.trans hcommand
    · rintro ⟨command, hcommand, -⟩
      cases hcommand
  | some command =>
    simp only [Option.map_some, Option.some.injEq, exists_eq_left']
    by_cases hlive : command.status.isLive = true
    · rw [hindex.mem_iff id command hget hlive, and_iff_right ((h id).mpr ⟨command, hget, hlive⟩)]
      split_ifs with hvisits
      · exact ⟨fun hbecomes ↦ hbecomes hvisits, fun hbecomes _ ↦ hbecomes⟩
      · exact ⟨fun _ ↦ hlive, fun _ hvisits' ↦ absurd hvisits' hvisits⟩
    · rw [if_neg fun hvisits ↦ hlive (h.isLive_of_visits horderly hget hvisits)]
      refine ⟨fun hid ↦ ?_, fun hlive' ↦ absurd hlive' hlive⟩
      exact h.isLive hget (hindex.subset id hid)

section Loops

variable {threadId : ThreadId} {autoAck : Bool} {order : List String}

theorem reindexes_of_live_eq (hlive : t.liveRuntimeCommandIds = s.liveRuntimeCommandIds)
    (hvisits : ∀ id command, op.visits s now id command = false) :
    Reindexes policy s now op t := by
  refine ⟨fun id hid ↦ hlive ▸ hid, fun id command _ _ ↦ ?_⟩
  rw [hlive, hvisits]
  exact ⟨fun hid ↦ ⟨hid, nofun⟩, And.left⟩

theorem dropped_iff {p q : Prop} : ¬p ∨ p ∧ q ↔ ¬(p ∧ ¬q) := by tauto

theorem live_poll_foldl {active : Option ActiveCoordinatorLease} (p : Poll) :
    (order.foldl (Poll.visit threadId active now autoAck) p).state.liveRuntimeCommandIds =
      p.state.liveRuntimeCommandIds := by
  induction order generalizing p with
  | nil => rfl
  | cons id order ih =>
    rw [List.foldl_cons, ih]
    unfold Poll.visit
    split
    · rfl
    · dsimp only
      split_ifs <;> rfl

theorem reindexes_poll (horder : Enumerates order s.liveRuntimeCommandIds) :
    Reindexes policy s now (.poll threadId autoAck order)
      (s.perform policy now (.poll threadId autoAck order)) := by
  by_cases hthread : s.threads.contains threadId = true
  · have hmem : ∀ id, id ∈ (s.perform policy now
        (.poll threadId autoAck order)).liveRuntimeCommandIds ↔ id ∈ s.liveRuntimeCommandIds ∧
        ¬∀ command, s.runtimeCommands.get? id = some command → command.toThreadId = threadId ∧
          (command.polled (s.activeCoordinatorForThread threadId) now autoAck).status ≠
            command.status ∧
          (command.polled (s.activeCoordinatorForThread threadId) now autoAck).status.isLive =
            false := by
      intro id
      rw [perform_poll hthread]
      dsimp only
      rw [OrderedSet.mem_foldl_erase, live_poll_foldl, (poll_sweep horder.1 ⟨s, [], []⟩).2,
        horder.2 id]
      simp only [List.not_mem_nil, false_or]
      exact and_congr_right fun hid ↦ not_congr (and_iff_right hid)
    refine ⟨fun id hid ↦ ((hmem id).mp hid).1, fun id command hget hlive ↦ ?_⟩
    rw [hmem id]
    refine and_congr_right fun hid ↦ ?_
    dsimp only [Operation.visits, Operation.becomes]
    simp only [hget, hthread, hid, Option.some.injEq, forall_eq', decide_true, Bool.true_and,
      decide_eq_true_eq]
    constructor
    · intro hstays hto
      rw [← Bool.not_eq_false]
      intro hends
      refine hstays ⟨hto, fun hsame ↦ ?_, hends⟩
      rw [hsame, hlive] at hends
      cases hends
    · rintro hstays ⟨hto, -, hends⟩
      rw [hstays hto] at hends
      cases hends
  · rw [Bool.not_eq_true] at hthread
    rw [perform_poll_of_unknown hthread]
    refine reindexes_of_live_eq rfl fun id command ↦ ?_
    dsimp only [Operation.visits]
    rw [hthread, Bool.false_and]

theorem reindexes_claim (horder : Enumerates order s.liveRuntimeCommandIds) :
    Reindexes policy s now (.claim threadId order)
      (s.perform policy now (.claim threadId order)) := by
  by_cases hthread : s.threads.contains threadId = true
  · have hmem : ∀ id, id ∈ (s.perform policy now (.claim threadId order)).liveRuntimeCommandIds ↔
        id ∈ s.liveRuntimeCommandIds ∧ ¬(s.unclaimed threadId id = true ∧ ∃ command,
          s.runtimeCommands.get? id = some command ∧
          (command.claimStatus (s.activeCoordinatorForThread threadId) now).isLive = false) := by
      intro id
      rw [perform_claim hthread, ← not_iff_not, (claim_sweep (horder.1.filter _) ([], s)).2,
        List.mem_filter, horder.2 id, and_assoc]
      exact dropped_iff
    refine ⟨fun id hid ↦ ((hmem id).mp hid).1, fun id command hget hlive ↦ ?_⟩
    rw [hmem id]
    refine and_congr_right fun hid ↦ ?_
    dsimp only [Operation.visits, Operation.becomes, RuntimeCommandRecord.claimed]
    simp only [unclaimed, hget, hthread, hid, Option.any_some, Option.some.injEq, exists_eq_left',
      decide_true, Bool.true_and, not_and, Bool.not_eq_false]
  · rw [Bool.not_eq_true] at hthread
    rw [perform_claim_of_unknown hthread]
    refine reindexes_of_live_eq rfl fun id command ↦ ?_
    dsimp only [Operation.visits]
    rw [hthread, Bool.false_and]

theorem reindexes_expire (horder : Enumerates order s.liveRuntimeCommandIds) :
    Reindexes policy s now (.expire order) (s.perform policy now (.expire order)) := by
  have hmem : ∀ id, id ∈ (s.perform policy now (.expire order)).liveRuntimeCommandIds ↔
      id ∈ s.liveRuntimeCommandIds ∧ ¬∀ command, s.runtimeCommands.get? id = some command →
        command.expiresAt ≤ now := by
    intro id
    rw [perform, expireRuntimeCommands, ← not_iff_not, (expire_sweep horder.1 s).2, horder.2 id]
    exact dropped_iff
  refine ⟨fun id hid ↦ ((hmem id).mp hid).1, fun id command hget hlive ↦ ?_⟩
  rw [hmem id]
  refine and_congr_right fun hid ↦ ?_
  simp [Operation.visits, Operation.becomes, RuntimeCommandRecord.expiredAt, hget, hid,
    RuntimeCommandStatus.isLive]

theorem reindexes_noteStarted (horder : Enumerates order s.liveRuntimeCommandIds)
    (horderly : s.Orderly now (.noteStarted threadId order)) :
    Reindexes policy s now (.noteStarted threadId order)
      (s.perform policy now (.noteStarted threadId order)) := by
  have hmem : ∀ id, id ∈ (s.perform policy now
      (.noteStarted threadId order)).liveRuntimeCommandIds ↔
      id ∈ s.liveRuntimeCommandIds ∧ ¬s.runtimeCommands.get? id = none := by
    intro id
    rw [perform, noteWorkerStartedCommand, ← not_iff_not, (start_sweep horder.1 _).2, horder.2 id]
    exact dropped_iff
  refine ⟨fun id hid ↦ ((hmem id).mp hid).1, fun id command hget hlive ↦ ?_⟩
  rw [hmem id, hget]
  refine and_congr_right fun hid ↦ ⟨fun _ hvisits ↦ ?_, fun _ hnone ↦ by cases hnone⟩
  obtain ⟨-, hto⟩ := Bool.and_eq_true_iff.mp hvisits
  exact isLive_applyWorkerStartedCommand
    (horderly id command hid hget (of_decide_eq_true hto)) hlive

theorem reindexes_updateStatus {commandId : String} {actorThreadId : ThreadId}
    {status : RuntimeCommandStatus} :
    Reindexes policy s now (.updateStatus commandId actorThreadId status)
      (s.perform policy now (.updateStatus commandId actorThreadId status)) := by
  by_cases h : ∃ command, s.runtimeCommands.get? commandId = some command ∧
      command.mayReport actorThreadId status = true
  · obtain ⟨reported, hreported, hreport⟩ := h
    rw [perform_updateStatus hreported hreport]
    constructor
    · intro id hid
      rw [applyAssign_liveRuntimeCommandIds] at hid
      dsimp only at hid
      split_ifs at hid
      · exact (OrderedSet.mem_erase.mp hid).1
      · exact hid
    · intro id command hget hlive
      rw [applyAssign_liveRuntimeCommandIds]
      dsimp only [Operation.visits, Operation.becomes]
      by_cases hid : commandId = id
      · subst hid
        cases hreported.symm.trans hget
        split_ifs with hends
        · rw [Bool.not_eq_true'] at hends
          simp [OrderedSet.mem_erase, hends, hreport]
        · rw [Bool.not_eq_true', Bool.not_eq_false] at hends
          simp [hends]
      · split_ifs
        · simp [OrderedSet.mem_erase, hid, Ne.symm hid]
        · simp [hid]
  · rw [perform_updateStatus_of_refused fun command hget ↦ by
      simpa using fun hreport ↦ h ⟨command, hget, hreport⟩]
    refine ⟨fun _ hid ↦ hid, fun id command hget hlive ↦ ⟨fun hid ↦ ⟨hid, fun hvisits ↦ ?_⟩,
      And.left⟩⟩
    obtain ⟨hcommand, hreport⟩ := Bool.and_eq_true_iff.mp hvisits
    exact absurd ⟨command, of_decide_eq_true hcommand ▸ hget, hreport⟩ h

end Loops

/-! ## Histories -/

theorem Indexed.issue {commandId : String} {fromThreadId toThreadId : ThreadId}
    {commandType : RuntimeCommandType} {taskId : Option String} (h : s.Indexed) :
    (s.perform policy now
      (.issue commandId fromThreadId toThreadId commandType taskId)).Indexed := by
  refine of_result (fun _ _ ↦ h) fun command t ht ↦ ?_
  obtain ⟨s', _, _, hs', -, -, -, hpending, -, -, -, rfl⟩ := exists_issueRuntimeCommand ht
  intro id
  rw [OrderedSet.mem_insert, OrderedMap.get?_insert, hs'.liveRuntimeCommandIds,
    hs'.runtimeCommands]
  split_ifs with hid
  · simp [hid, hpending, RuntimeCommandStatus.isLive]
  · simp [hid, h id]

theorem Indexed.perform (h : s.Indexed) (hop : op.Admissible s) (horderly : s.Orderly now op) :
    (s.perform policy now op).Indexed := by
  by_cases hissue : op.isIssue = false
  · have hgoes : Goes policy s now op (s.perform policy now op) := goes_perform hop hissue
    refine h.of_goes horderly hgoes ?_
    cases op with
    | registerThread => exact reindexes_of_live_eq (plain_perform rfl).live fun _ _ ↦ rfl
    | createTask => exact reindexes_of_live_eq (plain_perform rfl).live fun _ _ ↦ rfl
    | assignTask => exact reindexes_of_live_eq (plain_perform rfl).live fun _ _ ↦ rfl
    | claimCoordinator => exact reindexes_of_live_eq (plain_perform rfl).live fun _ _ ↦ rfl
    | raiseFencing => exact reindexes_of_live_eq (plain_perform rfl).live fun _ _ ↦ rfl
    | issue => cases hissue
    | poll => exact reindexes_poll hop
    | claim => exact reindexes_claim hop
    | expire => exact reindexes_expire hop
    | noteStarted => exact reindexes_noteStarted hop horderly
    | updateStatus => exact reindexes_updateStatus
  · cases op with
    | issue => exact h.issue
    | _ => exact absurd rfl hissue

/-- An operation that is orderly. -/
def Proceeds (policy : AgentOsPolicy) (s : AgentOsState) (label : Time × Operation)
    (t : AgentOsState) : Prop :=
  Performs policy s label t ∧ s.Orderly label.1 label.2

theorem indexed_default : Indexed .default := by
  intro id
  constructor
  · intro hid
    exact absurd hid OrderedSet.not_mem_empty
  · rintro ⟨command, hget, -⟩
    cases hget

theorem indexed_steps {labels : List (Time × Operation)}
    (hrun : Steps (Proceeds policy) .default labels s) : s.Indexed := by
  refine hrun.invariant (fun s label t hs hstep ↦ ?_) indexed_default
  obtain ⟨⟨hop, rfl⟩, horderly⟩ := hstep
  exact hs.perform hop horderly

/-! ### A history with a report -/

instance (s : AgentOsState) (now : Time) : (op : Operation) → Decidable (s.Orderly now op)
  | .noteStarted threadId _ => decidable_of_iff
      (∀ id ∈ s.liveRuntimeCommandIds.elements, ∀ command ∈ s.runtimeCommands.get? id,
        command.toThreadId = threadId → now < command.expiresAt)
      ⟨fun h id command hid hget ↦ h id hid command hget,
        fun h id hid command hget ↦ h id command hid hget⟩
  | .updateStatus commandId actorThreadId status =>
    inferInstanceAs (Decidable (∀ command ∈ s.runtimeCommands.get? commandId,
      command.mayReport actorThreadId status = true → command.status.isLive = true))
  | .registerThread .. => .isTrue trivial
  | .createTask .. => .isTrue trivial
  | .assignTask .. => .isTrue trivial
  | .claimCoordinator .. => .isTrue trivial
  | .raiseFencing => .isTrue trivial
  | .issue .. => .isTrue trivial
  | .poll .. => .isTrue trivial
  | .claim .. => .isTrue trivial
  | .expire .. => .isTrue trivial

/-- The guards along the labels make a history. -/
theorem steps_proceeds {labels : List (Time × Operation)}
    (h : Allowed (fun s label ↦ s.perform policy label.1 label.2)
      (fun s label ↦ label.2.Admissible s ∧ s.Orderly label.1 label.2) s labels) :
    Steps (Proceeds policy) s labels
      (labels.foldl (fun s label ↦ s.perform policy label.1 label.2) s) :=
  steps_foldl (fun _ _ hguard ↦ ⟨⟨hguard.1, rfl⟩, hguard.2⟩) h

private theorem lifecyclePolicy_pos : (0 : Time) < 100 := by decide

private def lifecyclePolicy : AgentOsPolicy :=
  ⟨100, 100, lifecyclePolicy_pos, lifecyclePolicy_pos⟩

/-- The worker has reported that it has completed the command of the coordinator. -/
private def reportedCompleted : List (Time × Operation) :=
  [(0, .registerThread ⟨"coordinator", "scope", 0, 0⟩),
    (0, .registerThread ⟨"worker", "scope", 1, 0⟩),
    (1, .issue "c" "coordinator" "worker" .pause none),
    (2, .updateStatus "c" "worker" .completed)]

private def afterReport : AgentOsState :=
  reportedCompleted.foldl (fun s label ↦ s.perform lifecyclePolicy label.1 label.2) .default

private theorem reportedCompleted_proceeds :
    Steps (Proceeds lifecyclePolicy) .default reportedCompleted afterReport :=
  steps_proceeds (by decide +kernel)

/-! ### The life of a command -/

/-- After every history the index has the ids of the live commands, and an operation leaves the
status of the commands that are over. -/
theorem runtime_command_lifecycle {labels : List (Time × Operation)} {label : Time × Operation}
    (hrun : Steps (Proceeds policy) .default labels s) (hstep : Proceeds policy s label t) :
    t.Indexed ∧ ∀ id command, s.runtimeCommands.get? id = some command →
      command.status.isLive = false →
      ∃ command', t.runtimeCommands.get? id = some command' ∧ command'.status = command.status := by
  obtain ⟨⟨hop, rfl⟩, horderly⟩ := hstep
  have hindexed := indexed_steps hrun
  refine ⟨hindexed.perform hop horderly, fun id command hget hover ↦ ?_⟩
  refine ⟨_, get?_perform hop hget, ?_⟩
  rw [if_neg fun hvisits ↦ ?_]
  rw [hindexed.isLive_of_visits horderly hget hvisits] at hover
  cases hover

/-- A poll after the report. -/
theorem runtime_command_lifecycle_poll :
    (afterReport.perform lifecyclePolicy 3 (.poll "worker" true [])).Indexed ∧
      ∀ id command, afterReport.runtimeCommands.get? id = some command →
        command.status.isLive = false →
        ∃ command',
          (afterReport.perform lifecyclePolicy 3 (.poll "worker" true [])).runtimeCommands.get? id =
            some command' ∧ command'.status = command.status :=
  runtime_command_lifecycle reportedCompleted_proceeds
    (⟨⟨by decide +kernel, rfl⟩, by decide +kernel⟩ :
      Proceeds lifecyclePolicy afterReport (3, .poll "worker" true []) _)

/-- A second report takes a completed command back to life, and the index does not have it. -/
theorem report_revives_completed_command :
    ∃ s t, Steps (Performs lifecyclePolicy) .default reportedCompleted s ∧
      Performs lifecyclePolicy s (3, .updateStatus "c" "worker" .executing) t ∧
      (s.runtimeCommands.get? "c").map (·.status) = some .completed ∧
      (t.runtimeCommands.get? "c").map (·.status) = some .executing ∧
      "c" ∉ t.liveRuntimeCommandIds :=
  ⟨afterReport, _, reportedCompleted_proceeds.mono fun _ _ _ _ h ↦ h.1, ⟨by decide +kernel, rfl⟩,
    by decide +kernel, by decide +kernel, by decide +kernel⟩

end AgentOsState

end Praxis.AgentOs
