import Praxis.Foundation.Sections
import Praxis.Gateway.ThreadStatus

/-!
# What clients are told of threads

An operation changes the state under its lock, and lets the clients know afterwards: first the
subscribers of the number of running turns, then, where it has changed, of the status and of the
control of the thread.  Other operations may change the state and publish in between.

Where everything is still true when it is published, what was published last is true when all
operations have returned (`clients_know_current`).  Four things have to be excluded: that an
operation publishes after another one that has changed the state later, that a thread comes under
control while it is removed, that a thread whose status has been published is loaded silently, and
that the number of turns changes while there is no subscriber.
-/

namespace Praxis.Gateway

open Foundation

/-! ## Publications -/

inductive Publication where
  | runningTurnCount (count : Nat)
  | threadStatusChanged (notification : ThreadStatusChangedNotification)
  | threadControlChanged (notification : ThreadControlChangedNotification)
  deriving DecidableEq

inductive Topic where
  | runningTurnCount
  | status (threadId : ThreadId)
  | control (threadId : ThreadId)
  deriving DecidableEq

def Publication.topic : Publication → Topic
  | runningTurnCount _ => .runningTurnCount
  | threadStatusChanged notification => .status notification.threadId
  | threadControlChanged notification => .control notification.threadId

/-- What is true of the state. -/
def ThreadWatchState.current (s : ThreadWatchState) : Topic → Publication
  | .runningTurnCount => .runningTurnCount s.runningTurnCount
  | .status threadId => .threadStatusChanged ⟨threadId, s.loadedStatusForThread threadId⟩
  | .control threadId => .threadControlChanged ⟨threadId, s.loadedControlStateForThread threadId⟩

/-- What `publish_runtime_notifications` publishes for a section. -/
def ThreadWatchState.Section.publications (done : ThreadWatchState.Section) : List Publication :=
  .runningTurnCount done.state.runningTurnCount ::
    ((done.status.map .threadStatusChanged).toList ++
      (done.control.map .threadControlChanged).toList)

/-- The state with what has gone out of it: the notifications that were sent, and the value of the
channel for the number of running turns with the number of its receivers. -/
structure Manager where
  state : ThreadWatchState
  sent : List Publication
  runningTurnCount : Nat
  subscribers : Nat

namespace Manager

def initial : Manager := ⟨.initial, [], 0, 0⟩

/-- A value that is sent while there is no receiver is lost. -/
def publish (m : Manager) : Publication → Manager
  | .runningTurnCount count => if m.subscribers = 0 then m else { m with runningTurnCount := count }
  | notification => { m with sent := m.sent ++ [notification] }

/-- What has been published last. -/
def last (m : Manager) : Topic → Option Publication
  | .runningTurnCount => some (.runningTurnCount m.runningTurnCount)
  | topic => (m.sent.filter (·.topic = topic)).getLast?

end Manager

/-! ## Calls -/

/-- Where a call is. -/
inductive WatchPoint where
  | operation (op : Operation)
  | changing (change : Change) (changes : List Change)
  | publishing (publication : Publication) (publications : List Publication)
      (changes : List Change)
  | subscribe
  | unsubscribe

namespace WatchPoint

/-- The calls that clients can make. -/
def Starts : WatchPoint → Prop
  | operation _ | subscribe | unsubscribe => True
  | changing _ _ | publishing _ _ _ => False

instance : DecidablePred Starts
  | operation _ | subscribe | unsubscribe => .isTrue trivial
  | changing _ _ | publishing _ _ _ => .isFalse id

/-- Where a call with this to be published and these changes to be made goes on. -/
def rest : List Publication → List Change → Option WatchPoint
  | publication :: publications, changes => some (.publishing publication publications changes)
  | [], change :: changes => some (.changing change changes)
  | [], [] => none

/-- The section of a change. -/
def change (m : Manager) (change : Change) (changes : List Change) :
    Manager × Option WatchPoint :=
  ({ m with state := (change.apply m.state).state },
    rest (change.apply m.state).publications changes)

/-- The sections of the calls. -/
def act (point : WatchPoint) (_ : Unit) (m : Manager) : Manager × Option WatchPoint :=
  match point with
  | operation op =>
    match op.changes with
    | first :: changes => change m first changes
    | [] => (m, none)
  | changing first changes => change m first changes
  | publishing publication publications changes =>
    (m.publish publication, rest publications changes)
  | subscribe => ({ m with subscribers := m.subscribers + 1 }, none)
  | unsubscribe => ({ m with subscribers := m.subscribers - 1 }, none)

end WatchPoint

/-! ## What a change publishes -/

namespace ThreadWatchState

variable {s t : ThreadWatchState} {threadId : ThreadId}

/-- The status that is new goes into the notification. -/
theorem statusChangedNotification_spec
    (h : t.statusFor threadId = none → s.statusFor threadId = none) :
    t.loadedStatusForThread threadId = s.loadedStatusForThread threadId ∨
      t.statusChangedNotification threadId (s.statusFor threadId) =
        some ⟨threadId, t.loadedStatusForThread threadId⟩ := by
  unfold statusChangedNotification loadedStatusForThread
  cases hstatus : t.statusFor threadId with
  | none => exact .inl (by rw [h hstatus])
  | some status =>
    dsimp only [Option.getD_some]
    split_ifs with hsame
    · exact .inl (by rw [hsame, Option.getD_some])
    · exact .inr rfl

theorem statusFor_modifyRuntime {mutate : RuntimeFacts → RuntimeFacts} :
    (s.modifyRuntime threadId mutate).statusFor threadId ≠ none := by
  unfold statusFor modifyRuntime
  rw [OrderedMap.get?_insert, if_pos rfl]
  exact Option.some_ne_none _

theorem statusFor_releaseThreadControl
    (h : (s.releaseThreadControl threadId).state.statusFor threadId = none) :
    s.statusFor threadId = none := by
  unfold statusFor releaseThreadControl at h
  rw [OrderedMap.get?_modify, if_pos rfl, Option.map_map] at h
  exact Option.map_eq_none_iff.mpr (Option.map_eq_none_iff.mp h)

/-- The status of a thread changes with a notification, or silently. -/
theorem status_apply (change : Change) :
    (change.apply s).state.loadedStatusForThread change.threadId =
        s.loadedStatusForThread change.threadId ∨
      (change.apply s).status = some
        ⟨change.threadId, (change.apply s).state.loadedStatusForThread change.threadId⟩ ∨
      ∃ threadId, change = .upsert threadId false ∧ (s.runtime threadId).isLoaded = false := by
  cases change with
  | upsert threadId emitNotification =>
    cases emitNotification with
    | true =>
      exact (statusChangedNotification_spec fun h ↦ absurd h statusFor_modifyRuntime).imp id .inl
    | false =>
      by_cases hloaded : (s.runtime threadId).isLoaded = true
      · left
        rw [loadedStatusForThread_eq, loadedStatusForThread_eq, runtime_apply, if_pos rfl]
        congr 1
        rw [Change.becomes]
        exact congrArg (fun isLoaded ↦ { s.runtime threadId with isLoaded := isLoaded })
          hloaded.symm
      · exact .inr (.inr ⟨threadId, rfl, Bool.eq_false_iff.mpr hloaded⟩)
  | remove threadId =>
    have hafter : (s.removeThread threadId).state.loadedStatusForThread threadId = .notLoaded := by
      rw [loadedStatusForThread_eq, runtime_removeThread, if_pos rfl]
      rfl
    by_cases hshown : (s.statusFor threadId).isSome ∧ s.statusFor threadId ≠ some .notLoaded
    · refine .inr (.inl ?_)
      change (if _ then _ else _) = some (⟨threadId,
        (s.removeThread threadId).state.loadedStatusForThread threadId⟩ :
          ThreadStatusChangedNotification)
      rw [if_pos hshown, hafter]
    · refine .inl (hafter.trans ?_)
      change ThreadStatus.notLoaded = (s.statusFor threadId).getD .notLoaded
      cases hstatus : s.statusFor threadId with
      | none => rfl
      | some status =>
        rw [hstatus] at hshown
        have hnot : some status = some ThreadStatus.notLoaded :=
          not_not.mp fun hne ↦ hshown ⟨rfl, hne⟩
        rw [hnot]
        rfl
  | releaseControl threadId =>
    exact (statusChangedNotification_spec statusFor_releaseThreadControl).imp id .inl
  | _ => exact (statusChangedNotification_spec fun h ↦ absurd h statusFor_modifyRuntime).imp id .inl

/-- The control of a thread changes with a notification, or with its removal. -/
theorem control_apply (change : Change) :
    (change.apply s).state.loadedControlStateForThread change.threadId =
        s.loadedControlStateForThread change.threadId ∨
      (change.apply s).control = some
        ⟨change.threadId, (change.apply s).state.loadedControlStateForThread change.threadId⟩ ∨
      ∃ threadId, change = .remove threadId ∧ s.loadedControlStateForThread threadId ≠ none := by
  have hafter : (change.apply s).state.loadedControlStateForThread change.threadId =
      (change.becomes (s.runtime change.threadId)).controlState := by
    rw [loadedControlStateForThread_eq, runtime_apply, if_pos rfl]
  rw [hafter]
  cases change with
  | remove threadId =>
    by_cases hcontrol : s.loadedControlStateForThread threadId = none
    · exact .inl hcontrol.symm
    · exact .inr (.inr ⟨threadId, rfl, hcontrol⟩)
  | acquireControl threadId controller reason now =>
    by_cases hsame : s.loadedControlStateForThread threadId = some
        (acquiredControlState (s.loadedControlStateForThread threadId) controller reason now)
    · left
      rw [loadedControlStateForThread_eq] at hsame
      exact hsame.symm.trans loadedControlStateForThread_eq.symm
    · refine .inr (.inl ((if_pos hsame).trans ?_))
      rw [loadedControlStateForThread_eq]
      rfl
  | releaseControl threadId =>
    change none = s.loadedControlStateForThread threadId ∨ Option.map _ _ = some
      (⟨threadId, none⟩ : ThreadControlChangedNotification) ∨ _
    cases s.loadedControlStateForThread threadId with
    | none => exact .inl rfl
    | some control => exact .inr (.inl rfl)
  | pendingRequest guard =>
    refine .inl (Eq.trans ?_ loadedControlStateForThread_eq.symm)
    rw [Change.becomes]
    cases guard.guardType <;> rfl
  | guardReleased guard =>
    refine .inl (Eq.trans ?_ loadedControlStateForThread_eq.symm)
    rw [Change.becomes]
    cases guard.guardType <;> rfl
  | _ => exact .inl loadedControlStateForThread_eq.symm

/-- What has become true with a change is published by it, but for two cases. -/
theorem current_apply (change : Change) (topic : Topic) :
    (change.apply s).state.current topic = s.current topic ∨
      (change.apply s).state.current topic ∈ (change.apply s).publications ∨
      (∃ threadId, change = .upsert threadId false ∧ topic = .status threadId ∧
        (s.runtime threadId).isLoaded = false) ∨
      ∃ threadId, change = .remove threadId ∧ topic = .control threadId ∧
        s.loadedControlStateForThread threadId ≠ none := by
  cases topic with
  | runningTurnCount => exact .inr (.inl List.mem_cons_self)
  | status threadId =>
    by_cases hthread : threadId = change.threadId
    · subst hthread
      rcases status_apply change (s := s) with hsame | hnew | ⟨threadId, rfl, hloaded⟩
      · refine .inl ?_
        rw [current, current, hsame]
      · refine .inr (.inl (List.mem_cons_of_mem _ (List.mem_append_left _ ?_)))
        rw [hnew]
        exact List.mem_singleton_self _
      · exact .inr (.inr (.inl ⟨threadId, rfl, rfl, hloaded⟩))
    · refine .inl ?_
      rw [current, current, loadedStatusForThread_eq, runtime_apply, if_neg hthread,
        loadedStatusForThread_eq]
  | control threadId =>
    by_cases hthread : threadId = change.threadId
    · subst hthread
      rcases control_apply change (s := s) with hsame | hnew | ⟨threadId, rfl, hcontrol⟩
      · refine .inl ?_
        rw [current, current, hsame]
      · refine .inr (.inl (List.mem_cons_of_mem _ (List.mem_append_right _ ?_)))
        rw [hnew]
        exact List.mem_singleton_self _
      · exact .inr (.inr (.inr ⟨threadId, rfl, rfl, hcontrol⟩))
    · refine .inl ?_
      rw [current, current, loadedControlStateForThread_eq, runtime_apply, if_neg hthread,
        loadedControlStateForThread_eq]

end ThreadWatchState

/-! ## When what is published is current -/

namespace Manager

variable {m : Manager} {publication : Publication} {topic : Topic}

/-- What a change that publishes nothing of it does not change. -/
def Settles (m : Manager) : Change → Prop
  | .upsert threadId false =>
    (m.state.runtime threadId).isLoaded = true ∨ m.last (.status threadId) = none
  | .remove threadId => m.state.loadedControlStateForThread threadId = none
  | _ => True

instance (m : Manager) : DecidablePred m.Settles
  | .upsert threadId false => inferInstanceAs
      (Decidable ((m.state.runtime threadId).isLoaded = true ∨ m.last (.status threadId) = none))
  | .remove threadId =>
    inferInstanceAs (Decidable (m.state.loadedControlStateForThread threadId = none))
  | .upsert _ true | .turnStarted _ | .clearActive _ | .resourceWait _ _ | .shutdown _
  | .systemError _ | .acquireControl _ _ _ _ | .releaseControl _ | .pendingRequest _
  | .guardReleased _ => .isTrue trivial

/-- What is published is true, and is not lost. -/
def Receives (m : Manager) (publication : Publication) : Prop :=
  publication = m.state.current publication.topic ∧
    (publication.topic = .runningTurnCount →
      0 < m.subscribers ∨ m.last .runningTurnCount = some publication)

instance : Decidable (m.Receives publication) := inferInstanceAs (Decidable (_ ∧ _))

theorem last_of_ne (h : topic ≠ .runningTurnCount) :
    m.last topic = (m.sent.filter (·.topic = topic)).getLast? := by
  cases topic with
  | runningTurnCount => exact absurd rfl h
  | _ => rfl

theorem last_send (h : publication.topic ≠ .runningTurnCount) :
    ({ m with sent := m.sent ++ [publication] } : Manager).last topic =
      if topic = publication.topic then some publication else m.last topic := by
  by_cases hcount : topic = .runningTurnCount
  · subst hcount
    rw [if_neg h.symm]
    rfl
  · rw [last_of_ne hcount, last_of_ne hcount, List.filter_append]
    split_ifs with htopic
    · rw [List.filter_singleton, htopic, decide_eq_true rfl, cond_true, List.getLast?_concat]
    · rw [List.filter_singleton, decide_eq_false (Ne.symm htopic), cond_false, List.append_nil]

theorem last_publish (h : m.Receives publication) : (m.publish publication).last topic =
    if topic = publication.topic then some publication else m.last topic := by
  cases publication with
  | runningTurnCount count =>
    by_cases hsubscribers : m.subscribers = 0
    · have hlast := (h.2 rfl).resolve_left (Nat.not_lt.mpr hsubscribers.le)
      have hlost : m.publish (.runningTurnCount count) = m := if_pos hsubscribers
      rw [hlost]
      split_ifs with htopic
      · rw [htopic]
        exact hlast
      · rfl
    · have hset : m.publish (.runningTurnCount count) = { m with runningTurnCount := count } :=
        if_neg hsubscribers
      rw [hset]
      cases topic <;> rfl
  | threadStatusChanged notification => exact last_send (by rintro ⟨⟩)
  | threadControlChanged notification => exact last_send (by rintro ⟨⟩)

theorem state_publish : (m.publish publication).state = m.state := by
  cases publication with
  | runningTurnCount count =>
    change (if m.subscribers = 0 then m else { m with runningTurnCount := count }).state = m.state
    split_ifs <;> rfl
  | threadStatusChanged notification => rfl
  | threadControlChanged notification => rfl

/-- What was published last is true. -/
def Current (m : Manager) (topic : Topic) : Prop :=
  ∀ publication, m.last topic = some publication → publication = m.state.current topic

end Manager

namespace WatchPoint

variable {m : Manager} {topic : Topic}

/-- What a call finds when it takes a section. -/
def Settled (point : WatchPoint) (_ : Unit) (m : Manager) : Prop :=
  match point with
  | operation op => ∀ first ∈ op.changes.head?, m.Settles first
  | changing first _ => m.Settles first
  | publishing publication _ _ => m.Receives publication
  | subscribe | unsubscribe => True

instance (point : WatchPoint) (answer : Unit) (m : Manager) :
    Decidable (point.Settled answer m) :=
  match point with
  | operation op => inferInstanceAs (Decidable (∀ first ∈ op.changes.head?, m.Settles first))
  | changing first _ => inferInstanceAs (Decidable (m.Settles first))
  | publishing publication _ _ => inferInstanceAs (Decidable (m.Receives publication))
  | subscribe | unsubscribe => .isTrue trivial

/-- The call is going to publish what is true. -/
def Due (m : Manager) (point : WatchPoint) (topic : Topic) : Prop :=
  match point with
  | publishing publication publications _ =>
    m.state.current topic ∈ publication :: publications
  | _ => False

/-- After a change the call is going to publish what is new. -/
theorem change_spec {first : Change} (changes : List Change) (h : m.Settles first)
    (topic : Topic) :
    (change m first changes).1.state.current topic = m.state.current topic ∨
      (change m first changes).1.last topic = none ∨
      ∃ next, (change m first changes).2 = some next ∧
        Due (change m first changes).1 next topic := by
  rcases ThreadWatchState.current_apply (s := m.state) first topic with
    hsame | hnew | ⟨threadId, rfl, rfl, hloaded⟩ | ⟨threadId, rfl, rfl, hcontrol⟩
  · exact .inl hsame
  · exact .inr (.inr ⟨_, rfl, hnew⟩)
  · refine .inr (.inl (h.resolve_left ?_))
    rw [hloaded]
    exact Bool.false_ne_true
  · exact absurd h hcontrol

/-- What is to be published does not depend on more than what is true. -/
theorem Due.of_current {n : Manager} {point : WatchPoint} (h : Due m point topic)
    (hcurrent : n.state.current topic = m.state.current topic) : Due n point topic := by
  cases point with
  | publishing publication publications changes =>
    change n.state.current topic ∈ publication :: publications
    rw [hcurrent]
    exact h
  | _ => exact h

theorem change_own {first : Change} (changes : List Change) (h : m.Settles first)
    (hcurrent : m.Current topic) :
    (change m first changes).1.Current topic ∨ ∃ next, (change m first changes).2 = some next ∧
      Due (change m first changes).1 next topic := by
  rcases change_spec changes h topic with hsame | hlast | hnext
  · refine .inl fun publication hpublication ↦ ?_
    rw [hsame]
    exact hcurrent publication hpublication
  · refine .inl fun publication hpublication ↦ ?_
    cases hlast.symm.trans hpublication
  · exact .inr hnext

theorem change_other {first : Change} (changes : List Change) (h : m.Settles first)
    {other : WatchPoint} (hdue : Due m other topic) :
    Due (change m first changes).1 other topic ∨ (change m first changes).1.Current topic ∨
      ∃ next, (change m first changes).2 = some next ∧
        Due (change m first changes).1 next topic := by
  rcases change_spec changes h topic with hsame | hlast | hnext
  · exact .inl (hdue.of_current hsame)
  · refine .inr (.inl fun publication hpublication ↦ ?_)
    cases hlast.symm.trans hpublication
  · exact .inr (.inr hnext)

/-- What is published is current; the rest is still to be published. -/
theorem publish_own {publication : Publication} {publications : List Publication}
    (changes : List Change) (h : m.Receives publication)
    (hkept : m.Current topic ∨ m.state.current topic ∈ publication :: publications) :
    (m.publish publication).Current topic ∨
      ∃ next, rest publications changes = some next ∧ Due (m.publish publication) next topic := by
  by_cases htopic : topic = publication.topic
  · refine .inl fun last hlast ↦ ?_
    rw [Manager.last_publish h, if_pos htopic] at hlast
    rw [Manager.state_publish, htopic, ← h.1]
    exact (Option.some.inj hlast).symm
  · rcases hkept with hcurrent | hdue
    · refine .inl fun last hlast ↦ ?_
      rw [Manager.last_publish h, if_neg htopic] at hlast
      rw [Manager.state_publish]
      exact hcurrent last hlast
    · rcases List.mem_cons.mp hdue with hthis | hlater
      · refine absurd ?_ htopic
        rw [← hthis]
        cases topic <;> rfl
      · cases publications with
        | nil => cases hlater
        | cons head tail =>
          refine .inr ⟨_, rfl, ?_⟩
          change (m.publish publication).state.current topic ∈ head :: tail
          rw [Manager.state_publish]
          exact hlater

variable {point : WatchPoint} {answer : Unit}

/-- A call leaves what is true unpublished only as long as it is going to publish it. -/
theorem act_own (h : point.Settled answer m) (hkept : m.Current topic ∨ Due m point topic) :
    (point.act answer m).1.Current topic ∨
      ∃ next, (point.act answer m).2 = some next ∧ Due (point.act answer m).1 next topic := by
  cases point with
  | operation op =>
    have hcurrent := hkept.resolve_right id
    unfold act
    dsimp only
    split
    · rename_i first changes hchanges
      exact change_own changes (h first (by rw [hchanges]; rfl)) hcurrent
    · exact .inl hcurrent
  | changing first changes => exact change_own changes h (hkept.resolve_right id)
  | publishing publication publications changes => exact publish_own changes h hkept
  | subscribe => exact .inl (hkept.resolve_right id)
  | unsubscribe => exact .inl (hkept.resolve_right id)

/-- What another call is going to publish stays true, or this call publishes what is. -/
theorem act_other (h : point.Settled answer m) {other : WatchPoint} (hdue : Due m other topic) :
    Due (point.act answer m).1 other topic ∨ (point.act answer m).1.Current topic ∨
      ∃ next, (point.act answer m).2 = some next ∧ Due (point.act answer m).1 next topic := by
  cases point with
  | operation op =>
    unfold act
    dsimp only
    split
    · rename_i first changes hchanges
      exact change_other changes (h first (by rw [hchanges]; rfl)) hdue
    · exact .inl hdue
  | changing first changes => exact change_other changes h hdue
  | publishing publication publications changes =>
    refine .inl (hdue.of_current ?_)
    exact congrArg (fun state ↦ state.current topic) Manager.state_publish
  | subscribe => exact .inl (hdue.of_current rfl)
  | unsubscribe => exact .inl (hdue.of_current rfl)

end WatchPoint

/-- Nothing has happened yet, and there may be subscribers. -/
def Manager.Fresh (m : Manager) : Prop := ∃ subscribers, m = { Manager.initial with subscribers }

/-- When all operations have returned, the last notifications for a thread have its status and its
control, and subscribers see the number of running turns. -/
theorem clients_know_current {w₀ w : World Manager WatchPoint} {moves : List (Move WatchPoint Unit)}
    (hfresh : w₀.shared.Fresh)
    (hrun : Steps (Moves WatchPoint.Starts WatchPoint.act WatchPoint.Settled) w₀ moves w)
    (hreturned : ∀ call ∈ w.calls, call = none) :
    (∀ threadId publication, w.shared.last (.status threadId) = some publication →
      publication = .threadStatusChanged
        ⟨threadId, w.shared.state.loadedStatusForThread threadId⟩) ∧
    (∀ threadId publication, w.shared.last (.control threadId) = some publication →
      publication = .threadControlChanged
        ⟨threadId, w.shared.state.loadedControlStateForThread threadId⟩) ∧
    w.shared.runningTurnCount = w.shared.state.runningTurnCount := by
  have hkept : w.Kept Manager.Current WatchPoint.Due := by
    refine hrun.invariant (fun w move t hw hmove ↦ ?_) fun topic ↦ .inl ?_
    · exact hw.step (fun _ _ _ _ hsettled hown ↦ WatchPoint.act_own hsettled hown)
        (fun _ _ _ _ _ hsettled hdue ↦ WatchPoint.act_other hsettled hdue) hmove
    · obtain ⟨subscribers, hshared⟩ := hfresh
      rw [hshared]
      intro publication hlast
      cases topic with
      | runningTurnCount => exact (Option.some.inj hlast).symm
      | status threadId => cases hlast
      | control threadId => cases hlast
  have hcurrent := hkept.done hreturned
  refine ⟨fun threadId ↦ hcurrent (.status threadId), fun threadId ↦ hcurrent (.control threadId),
    ?_⟩
  exact Publication.runningTurnCount.inj (hcurrent .runningTurnCount _ rfl)

namespace Reference

/-- One client listens. -/
def listening : World Manager WatchPoint := ⟨{ Manager.initial with subscribers := 1 }, []⟩

/-- A turn starts, and its completion comes afterwards. -/
def inOrder : List (Move WatchPoint Unit) :=
  [.enter (.operation (.noteTurnStarted "t")), .advance 0 (), .advance 0 (), .advance 0 (),
    .enter (.operation (.noteTurnCompleted "t" false)), .advance 1 (), .advance 1 (),
    .advance 1 ()]

/-- The turn is completed before its start has been published. -/
def overtaken : List (Move WatchPoint Unit) :=
  [.enter (.operation (.noteTurnStarted "t")), .advance 0 (),
    .enter (.operation (.noteTurnCompleted "t" false)), .advance 1 (), .advance 1 (),
    .advance 1 (), .advance 0 (), .advance 0 ()]

end Reference

open Reference in
/-- The start and the end of a turn, one after the other. -/
theorem clients_know_current_turn :
    (inOrder.foldl (World.next WatchPoint.act) listening).shared.runningTurnCount =
      (inOrder.foldl (World.next WatchPoint.act) listening).shared.state.runningTurnCount := by
  have hrun : Steps (Moves WatchPoint.Starts WatchPoint.act WatchPoint.Settled) listening inOrder
      (inOrder.foldl (World.next WatchPoint.act) listening) :=
    steps_foldl (fun _ _ h ↦ moves_next h) (by decide +kernel)
  exact (clients_know_current ⟨1, rfl⟩ hrun (by decide +kernel)).2.2

open Reference in
/-- The start of a turn is published after its end: the clients are left with a thread that is
running, and it is idle. -/
theorem status_overtakes_status :
    ∃ w : World Manager WatchPoint,
      Steps (Moves WatchPoint.Starts WatchPoint.act fun _ _ _ ↦ True) listening overtaken w ∧
      (∀ call ∈ w.calls, call = none) ∧
      w.shared.last (.status "t") = some (.threadStatusChanged ⟨"t", .active [.running]⟩) ∧
      w.shared.state.loadedStatusForThread "t" = .idle ∧
      w.shared.runningTurnCount = 1 ∧ w.shared.state.runningTurnCount = 0 := by
  refine ⟨overtaken.foldl (World.next WatchPoint.act) listening,
    steps_foldl (fun _ _ h ↦ moves_next h) ?_, ?_⟩
  · decide +kernel
  · decide +kernel

end Praxis.Gateway
