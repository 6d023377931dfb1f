import Praxis.AgentOs.Operations

/-!
# Fencing of coordinators

A runtime command carries the epoch and the token of the coordinator that issued it.  When another
coordinator takes the scope over, both counters are raised, and as they are never lowered and
shared by all scopes, the earlier pair is not the pair of any scope again (`Retired`).  Polling,
claiming and reporting compare the pair of a command with that of the active coordinator of its
receiver before they let it proceed.  The note that a worker has started does not, and takes
commands of an earlier coordinator further; the results below are about histories in which no note
finds such a command.
-/

namespace Praxis.AgentOs

open Foundation

/-! ## Commands that match no coordinator -/

namespace RuntimeCommandRecord

variable {command : RuntimeCommandRecord} {active : Option ActiveCoordinatorLease} {now : Time}
  (h : command.matchesCoordinator active = false)

include h

theorem pollStatus_of_not_matches {autoAck : Bool} :
    (command.pollStatus active now autoAck).isLive = false := by
  rw [pollStatus, h, Bool.not_false, if_pos rfl]
  split_ifs <;> rfl

theorem claimStatus_of_not_matches : (command.claimStatus active now).isLive = false := by
  rw [claimStatus, h, Bool.not_false, if_pos rfl]
  split_ifs <;> rfl

theorem reportedStatus_of_not_matches {actorThreadId : ThreadId} {status : RuntimeCommandStatus} :
    (command.reportedStatus actorThreadId status active now).isLive = false := by
  rw [reportedStatus, h, Bool.not_false, if_pos rfl]
  split_ifs with hreport
  · simp only [Bool.or_eq_true, Bool.and_eq_true, decide_eq_true_eq] at hreport
    rcases hreport with ⟨⟨-, rfl | rfl⟩, -⟩ | rfl | rfl <;> rfl
  · rfl
  · rfl

end RuntimeCommandRecord

namespace AgentOsState

variable {policy : AgentOsPolicy} {s t : AgentOsState} {now : Time} {op : Operation}
  {id scope : String} {p : UInt64 × UInt64} {command : RuntimeCommandRecord}

/-! ## Pairs -/

/-- The counters can be raised. -/
def HasRoom (s : AgentOsState) : Prop :=
  s.coordinatorEpoch.toNat + 1 < 2 ^ 64 ∧ s.fencingCounter.toNat + 1 < 2 ^ 64

/-- The pairs are at most the counters, and no two scopes have the same epoch. -/
structure Numbered (s : AgentOsState) : Prop where
  bounded : ∀ scope p, s.pair scope = some p →
    p.1.toNat ≤ s.coordinatorEpoch.toNat ∧ p.2.toNat ≤ s.fencingCounter.toNat
  unique : ∀ scope scope' p q, s.pair scope = some p → s.pair scope' = some q → p.1 = q.1 →
    scope = scope'

/-- The pair is not that of an active coordinator, and it has been one before. -/
structure Retired (s : AgentOsState) (p : UInt64 × UInt64) : Prop where
  inactive : ∀ scope, s.pair scope ≠ some p
  bounded : p.1.toNat ≤ s.coordinatorEpoch.toNat

theorem numbered_default : Numbered .default := ⟨nofun, nofun⟩

theorem fencing_le (hroom : s.HasRoom)
    (h : t.fencingCounter = s.fencingCounter ∨
      t.fencingCounter = saturatingAdd s.fencingCounter 1) :
    s.fencingCounter.toNat ≤ t.fencingCounter.toNat := by
  rcases h with h | h
  · rw [h]
  · rw [h, toNat_saturatingAdd_one hroom.2]
    omega

theorem Numbered.step (h : s.Numbered) (hroom : s.HasRoom) (hstep : CoordinatorStep s t) :
    t.Numbered := by
  cases hstep with
  | same hepoch hfencing hpair =>
    constructor
    · intro scope p hp
      rw [hpair] at hp
      obtain ⟨hfst, hsnd⟩ := h.bounded scope p hp
      rw [hepoch]
      exact ⟨hfst, hsnd.trans (fencing_le hroom hfencing)⟩
    · intro scope scope' p q hp hq
      rw [hpair] at hp hq
      exact h.unique scope scope' p q hp hq
  | takeOver scope hepoch hfencing hpair =>
    have hepoch' : t.coordinatorEpoch.toNat = s.coordinatorEpoch.toNat + 1 := by
      rw [hepoch, toNat_saturatingAdd_one hroom.1]
    have hfencing' : t.fencingCounter.toNat = s.fencingCounter.toNat + 1 := by
      rw [hfencing, toNat_saturatingAdd_one hroom.2]
    have hold : ∀ scope p, s.pair scope = some p → p.1 ≠ t.coordinatorEpoch := by
      rintro scope p hp heq
      have hle := (h.bounded scope p hp).1
      rw [heq] at hle
      omega
    constructor
    · intro scope' p hp
      rw [hpair] at hp
      split_ifs at hp
      · cases hp
        exact ⟨le_rfl, le_rfl⟩
      · obtain ⟨hfst, hsnd⟩ := h.bounded scope' p hp
        omega
    · intro scope₁ scope₂ p q hp hq heq
      rw [hpair] at hp hq
      split_ifs at hp hq with h₁ h₂ h₂
      · rw [h₁, h₂]
      · cases hp
        exact absurd heq.symm (hold scope₂ q hq)
      · cases hq
        exact absurd heq (hold scope₁ p hp)
      · exact h.unique scope₁ scope₂ p q hp hq heq

/-- The pair of a scope stays, or both parts of it grow. -/
theorem Numbered.pair_step (h : s.Numbered) (hroom : s.HasRoom) (hstep : CoordinatorStep s t)
    (hp : s.pair scope = some p) :
    ∃ q, t.pair scope = some q ∧ (q ≠ p → p.1 < q.1 ∧ p.2 < q.2) := by
  cases hstep with
  | same hepoch hfencing hpair => exact ⟨p, (hpair scope).trans hp, fun h ↦ absurd rfl h⟩
  | takeOver scope' hepoch hfencing hpair =>
    by_cases hscope : scope = scope'
    · refine ⟨(t.coordinatorEpoch, t.fencingCounter), by rw [hpair, if_pos hscope], fun _ ↦ ?_⟩
      obtain ⟨hfst, hsnd⟩ := h.bounded scope p hp
      rw [UInt64.lt_iff_toNat_lt, UInt64.lt_iff_toNat_lt]
      dsimp only
      rw [hepoch, hfencing, toNat_saturatingAdd_one hroom.1, toNat_saturatingAdd_one hroom.2]
      omega
    · exact ⟨p, by rw [hpair, if_neg hscope, hp], fun h ↦ absurd rfl h⟩

/-- A pair that a scope no longer has is retired. -/
theorem Numbered.retired_step (h : s.Numbered) (hroom : s.HasRoom) (hstep : CoordinatorStep s t)
    (hp : s.pair scope = some p) (hchange : t.pair scope ≠ some p) : t.Retired p := by
  cases hstep with
  | same hepoch hfencing hpair => exact absurd ((hpair scope).trans hp) hchange
  | takeOver scope' hepoch hfencing hpair =>
    have hfst := (h.bounded scope p hp).1
    have hepoch' : t.coordinatorEpoch.toNat = s.coordinatorEpoch.toNat + 1 := by
      rw [hepoch, toNat_saturatingAdd_one hroom.1]
    refine ⟨fun other hother ↦ ?_, by omega⟩
    rw [hpair] at hother
    split_ifs at hother
    · cases hother
      dsimp only at hfst
      omega
    · rename_i hne
      obtain rfl := h.unique other scope p p hother hp rfl
      exact hchange (by rw [hpair, if_neg hne, hp])

theorem Retired.step (h : s.Retired p) (hroom : s.HasRoom) (hstep : CoordinatorStep s t) :
    t.Retired p := by
  cases hstep with
  | same hepoch hfencing hpair =>
    exact ⟨fun scope ↦ hpair scope ▸ h.inactive scope, hepoch ▸ h.bounded⟩
  | takeOver scope hepoch hfencing hpair =>
    have hepoch' : t.coordinatorEpoch.toNat = s.coordinatorEpoch.toNat + 1 := by
      rw [hepoch, toNat_saturatingAdd_one hroom.1]
    have hfst := h.bounded
    refine ⟨fun other hother ↦ ?_, by omega⟩
    rw [hpair] at hother
    split_ifs at hother
    · cases hother
      dsimp only at hfst
      omega
    · exact h.inactive other hother

/-! ## Commands -/

theorem pair_of_activeCoordinatorForThread {threadId : ThreadId} {active : ActiveCoordinatorLease}
    (h : s.activeCoordinatorForThread threadId = some active) :
    ∃ scope, s.pair scope = some (active.epoch, active.fencingToken) := by
  obtain ⟨thread, -, hactive⟩ := Option.bind_eq_some_iff.mp h
  exact ⟨thread.coordinationScope, by rw [pair, hactive]; rfl⟩

theorem Retired.not_matches (h : s.Retired p)
    (hcommand : (command.coordinatorEpoch, command.fencingToken) = p) (threadId : ThreadId) :
    command.matchesCoordinator (s.activeCoordinatorForThread threadId) = false := by
  cases hactive : s.activeCoordinatorForThread threadId with
  | none => rfl
  | some active =>
    obtain ⟨scope, hscope⟩ := pair_of_activeCoordinatorForThread hactive
    rw [Bool.eq_false_iff]
    intro hmatches
    simp only [RuntimeCommandRecord.matchesCoordinator, Option.any_some, Bool.and_eq_true,
      decide_eq_true_eq] at hmatches
    refine h.inactive scope ?_
    rw [hscope, ← hcommand, hmatches.1, hmatches.2]

/-- A note that a worker has started finds only commands of the active coordinator. -/
def NotesCurrent (s : AgentOsState) (now : Time) : Operation → Prop
  | .noteStarted threadId _ => ∀ id command, id ∈ s.liveRuntimeCommandIds →
      s.runtimeCommands.get? id = some command → command.toThreadId = threadId →
      now < command.expiresAt →
      command.matchesCoordinator (s.activeCoordinatorForThread threadId) = true
  | _ => True

/-- A command under a retired pair does not proceed. -/
theorem Retired.status_becomes (policy : AgentOsPolicy) (h : s.Retired p)
    (hcommand : (command.coordinatorEpoch, command.fencingToken) = p)
    (hget : s.runtimeCommands.get? id = some command) (hnotes : s.NotesCurrent now op)
    (hvisits : op.visits s now id command = true) :
    (op.becomes policy s now command).status = command.status ∨
      (op.becomes policy s now command).status.isLive = false := by
  have hmatches := h.not_matches hcommand
  cases op with
  | registerThread => cases hvisits
  | createTask => cases hvisits
  | assignTask => cases hvisits
  | claimCoordinator => cases hvisits
  | raiseFencing => cases hvisits
  | issue => cases hvisits
  | poll threadId autoAck order =>
    dsimp only [Operation.becomes, RuntimeCommandRecord.polled]
    split_ifs
    · exact .inr (RuntimeCommandRecord.pollStatus_of_not_matches (hmatches threadId))
    · exact .inl rfl
  | claim threadId order =>
    exact .inr (RuntimeCommandRecord.claimStatus_of_not_matches (hmatches threadId))
  | expire order => exact .inr rfl
  | noteStarted threadId order =>
    obtain ⟨hlive, hto⟩ := Bool.and_eq_true_iff.mp hvisits
    have hexpired : command.expiresAt ≤ now := by
      refine not_lt.mp fun hnow ↦ ?_
      have hcurrent := hnotes id command (of_decide_eq_true hlive) hget (of_decide_eq_true hto) hnow
      rw [hmatches] at hcurrent
      cases hcurrent
    dsimp only [Operation.becomes, RuntimeCommandRecord.applyWorkerStartedCommand]
    rw [if_pos hexpired]
    split_ifs
    · exact .inr rfl
    · exact .inl rfl
  | updateStatus commandId actorThreadId status =>
    exact .inr (RuntimeCommandRecord.reportedStatus_of_not_matches (hmatches _))

/-! ## Histories -/

/-- An operation while the counters have room, with notes that find only commands of the active
coordinator. -/
def Fences (policy : AgentOsPolicy) (s : AgentOsState) (label : Time × Operation)
    (t : AgentOsState) : Prop :=
  Performs policy s label t ∧ s.HasRoom ∧ s.NotesCurrent label.1 label.2

theorem Numbered.steps {labels : List (Time × Operation)} (h : s.Numbered)
    (hrun : Steps (Fences policy) s labels t) : t.Numbered := by
  refine hrun.invariant (fun s label t hs hstep ↦ ?_) h
  obtain ⟨⟨-, rfl⟩, hroom, -⟩ := hstep
  exact hs.step hroom coordinatorStep_perform

/-- A pair that a scope has had is still its pair or retired. -/
theorem Numbered.retired_steps {labels : List (Time × Operation)} (h : s.Numbered)
    (hp : s.pair scope = some p) (hrun : Steps (Fences policy) s labels t) :
    t.pair scope = some p ∨ t.Retired p := by
  have hinv : t.Numbered ∧ (t.pair scope = some p ∨ t.Retired p) := by
    refine hrun.invariant (P := fun t ↦ t.Numbered ∧ (t.pair scope = some p ∨ t.Retired p))
      (fun s label t hs hstep ↦ ?_) ⟨h, .inl hp⟩
    obtain ⟨⟨-, rfl⟩, hroom, -⟩ := hstep
    have hcoordinators : CoordinatorStep s (s.perform policy label.1 label.2) :=
      coordinatorStep_perform
    refine ⟨hs.1.step hroom hcoordinators, ?_⟩
    rcases hs.2 with hpair | hretired
    · by_cases hchange : (s.perform policy label.1 label.2).pair scope = some p
      · exact .inl hchange
      · exact .inr (hs.1.retired_step hroom hcoordinators hpair hchange)
    · exact .inr (hretired.step hroom hcoordinators)
  exact hinv.2

/-! ### A history with a change of coordinators -/

instance (s : AgentOsState) : Decidable s.HasRoom := inferInstanceAs (Decidable (_ ∧ _))

instance (s : AgentOsState) (now : Time) : (op : Operation) → Decidable (s.NotesCurrent now op)
  | .noteStarted threadId _ => decidable_of_iff
      (∀ id ∈ s.liveRuntimeCommandIds.elements, ∀ command ∈ s.runtimeCommands.get? id,
        command.toThreadId = threadId → now < command.expiresAt →
          command.matchesCoordinator (s.activeCoordinatorForThread threadId) = true)
      ⟨fun h id command hid hget ↦ h id hid command hget,
        fun h id hid command hget ↦ h id command hid hget⟩
  | .registerThread .. => .isTrue trivial
  | .createTask .. => .isTrue trivial
  | .assignTask .. => .isTrue trivial
  | .claimCoordinator .. => .isTrue trivial
  | .raiseFencing => .isTrue trivial
  | .issue .. => .isTrue trivial
  | .poll .. => .isTrue trivial
  | .claim .. => .isTrue trivial
  | .expire .. => .isTrue trivial
  | .updateStatus .. => .isTrue trivial

/-- The guards along the labels make a history. -/
theorem steps_fences {labels : List (Time × Operation)}
    (h : Allowed (fun s label ↦ s.perform policy label.1 label.2)
      (fun s label ↦ label.2.Admissible s ∧ s.HasRoom ∧ s.NotesCurrent label.1 label.2) s labels) :
    Steps (Fences policy) s labels
      (labels.foldl (fun s label ↦ s.perform policy label.1 label.2) s) :=
  steps_foldl (fun _ _ hguard ↦ ⟨⟨hguard.1, rfl⟩, hguard.2⟩) h

/-- Leases of the coordinators end before the commands do. -/
private theorem shortLeases_pos : (0 : Time) < 100 := by decide

private def shortLeases : AgentOsPolicy := ⟨100, 10, shortLeases_pos, by decide⟩

/-- Two coordinators and a worker are in one scope, and the first coordinator has issued a command
to the worker. -/
private def issuedByFirst : List (Time × Operation) :=
  [(0, .registerThread ⟨"first", "scope", 0, 0⟩), (0, .registerThread ⟨"second", "scope", 0, 0⟩),
    (0, .registerThread ⟨"worker", "scope", 1, 0⟩), (1, .issue "c" "first" "worker" .pause none)]

private def afterIssue : AgentOsState :=
  issuedByFirst.foldl (fun s label ↦ s.perform shortLeases label.1 label.2) .default

/-- The lease of the first coordinator has ended, and the second takes the scope over. -/
private def takenOver : List (Time × Operation) := [(20, .claimCoordinator "second" none)]

private def afterTakeOver : AgentOsState :=
  takenOver.foldl (fun s label ↦ s.perform shortLeases label.1 label.2) afterIssue

private theorem issuedByFirst_fences :
    Steps (Fences shortLeases) .default issuedByFirst afterIssue :=
  steps_fences (by decide +kernel)

private theorem takenOver_fences : Steps (Fences shortLeases) afterIssue takenOver afterTakeOver :=
  steps_fences (by decide +kernel)

/-! ### Fencing -/

/-- At every operation of a history the pair of a scope stays or grows, and a command under a pair
that its scope had earlier in the history and has no longer does not become acknowledged or
executing. -/
theorem coordinator_fencing {earlier later : List (Time × Operation)} {s₀ s₁ s₂ : AgentOsState}
    {label : Time × Operation} (hearlier : Steps (Fences policy) .default earlier s₀)
    (hlater : Steps (Fences policy) s₀ later s₁) (hstep : Fences policy s₁ label s₂) :
    (∀ scope p, s₁.pair scope = some p →
      ∃ q, s₂.pair scope = some q ∧ (q ≠ p → p.1 < q.1 ∧ p.2 < q.2)) ∧
    ∀ scope p id command, s₀.pair scope = some p → s₁.pair scope ≠ some p →
      s₁.runtimeCommands.get? id = some command →
      (command.coordinatorEpoch, command.fencingToken) = p →
      ∃ command', s₂.runtimeCommands.get? id = some command' ∧
        (command'.status = .acked ∨ command'.status = .executing →
          command'.status = command.status) := by
  obtain ⟨⟨hop, rfl⟩, hroom, hnotes⟩ := hstep
  have hnumbered : s₀.Numbered := numbered_default.steps hearlier
  constructor
  · intro scope p hp
    exact (hnumbered.steps hlater).pair_step hroom coordinatorStep_perform hp
  · intro scope p id command hp hchange hget hcommand
    refine ⟨_, get?_perform hop hget, ?_⟩
    have hretired := (hnumbered.retired_steps hp hlater).resolve_left hchange
    split_ifs with hvisits
    · intro hstatus
      rcases hretired.status_becomes policy hcommand hget hnotes hvisits with h | h
      · exact h
      · rcases hstatus with hstatus | hstatus <;> rw [hstatus] at h <;> cases h
    · exact fun _ ↦ rfl

/-- A poll after the change of coordinators. -/
theorem coordinator_fencing_poll :
    afterIssue.pair "scope" = some (1, 1) ∧ afterTakeOver.pair "scope" = some (2, 2) ∧
    ∀ command, afterTakeOver.runtimeCommands.get? "c" = some command →
      (command.coordinatorEpoch, command.fencingToken) = (1, 1) →
      ∃ command',
        (afterTakeOver.perform shortLeases 21
          (.poll "worker" true ["c"])).runtimeCommands.get? "c" = some command' ∧
        (command'.status = .acked ∨ command'.status = .executing →
          command'.status = command.status) :=
  have hfencing := coordinator_fencing issuedByFirst_fences takenOver_fences
    (⟨⟨by decide +kernel, rfl⟩, by decide +kernel, by decide +kernel⟩ :
      Fences shortLeases afterTakeOver (21, .poll "worker" true ["c"]) _)
  ⟨by decide +kernel, by decide +kernel, fun command hget hpair ↦
    hfencing.2 "scope" (1, 1) "c" command (by decide +kernel) (by decide +kernel) hget hpair⟩

/-- The note that the worker has started takes the command of the first coordinator further, though
the second has taken the scope over. -/
theorem noteStarted_acks_retired_command :
    ∃ s₀ s₁ s₂, Steps (Performs shortLeases) .default issuedByFirst s₀ ∧
      Steps (Performs shortLeases) s₀ takenOver s₁ ∧
      Performs shortLeases s₁ (21, .noteStarted "worker" ["c"]) s₂ ∧
      s₀.pair "scope" = some (1, 1) ∧ s₁.pair "scope" = some (2, 2) ∧
      (s₁.runtimeCommands.get? "c").map (fun command ↦
        (command.coordinatorEpoch, command.fencingToken, command.status)) =
          some (1, 1, .pending) ∧
      (s₂.runtimeCommands.get? "c").map (·.status) = some .acked :=
  ⟨afterIssue, afterTakeOver, _, issuedByFirst_fences.mono fun _ _ _ _ h ↦ h.1,
    takenOver_fences.mono fun _ _ _ _ h ↦ h.1, ⟨by decide +kernel, rfl⟩, by decide +kernel,
    by decide +kernel, by decide +kernel, by decide +kernel⟩

end AgentOsState

end Praxis.AgentOs
