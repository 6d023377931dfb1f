import Mathlib.Data.Prod.Lex
import Mathlib.Data.String.Basic
import Praxis.Foundation.OrderedMap
import Praxis.Foundation.Sections

/-!
# The queue of control inputs

A client queues an input for a thread under a queue id, and may repeat the request.
`thread_control_queue` inserts the row unless the id has one, reads it back, and, if it is still
queued and the thread is loaded, submits a turn and then marks the row as dispatched.  Cancels and
flushes turn queued rows into cancelled ones and return them.

Each statement on the database and each submission is a section of its own, a transaction is one,
and the calls interleave.  A statement may fail, which ends the call.  The mark is not conditional.
So an input is submitted twice if two requests read it as queued, and a cancelled one is submitted
and marked as dispatched if the cancel comes between the read and the mark; `submitted_twice` has
these runs.  `queue_sound` says that nothing of this happens while nobody else gets at an id
between these two sections of a request, and no mark fails.
-/

namespace Praxis.State

open Foundation

/-- `ThreadControlQueueStatus`. -/
inductive ThreadControlQueueStatus where
  | queued | dispatched | completed | cancelled | failed
deriving DecidableEq

variable {κ : Type}

/-- `ThreadControlQueueItem`, without the queue id that is its key. -/
structure ThreadControlQueueItem (κ : Type) where
  targetThreadId : String
  controllerJson : κ
  text : String
  status : ThreadControlQueueStatus
  createdAtMs : Int
  updatedAtMs : Int
  dispatchedTurnId : Option String
  error : Option String

structure ThreadControlQueueCreateParams (κ : Type) where
  queueId : Option String
  targetThreadId : String
  controllerJson : κ
  text : String

/-- The table, the turns that were submitted, by queue id, and the ids of the items that cancels
and flushes have read as cancelled to return them. -/
structure ControlQueue (κ : Type) where
  rows : OrderedMap String (ThreadControlQueueItem κ)
  submissions : List (String × String)
  cancelled : List String

namespace ControlQueue

def initial : ControlQueue κ := ⟨.empty, [], []⟩

/-! ## Statements -/

/-- `INSERT .. ON CONFLICT(queue_id) DO NOTHING`. -/
def insertItem (s : ControlQueue κ) (queueId : String)
    (params : ThreadControlQueueCreateParams κ) (nowMs : Int) : ControlQueue κ :=
  if s.rows.contains queueId then s
  else
    { s with
      rows := s.rows.insert queueId
        ⟨params.targetThreadId, params.controllerJson, params.text, .queued, nowMs, nowMs, none,
          none⟩ }

/-- The item that was read belongs to the request. -/
def sameInput [DecidableEq κ] (params : ThreadControlQueueCreateParams κ)
    (item : ThreadControlQueueItem κ) : Bool :=
  item.targetThreadId = params.targetThreadId && item.controllerJson = params.controllerJson &&
    item.text = params.text

/-- `update_thread_control_queue_status`. -/
def updateStatus (s : ControlQueue κ) (queueId : String) (status : ThreadControlQueueStatus)
    (dispatchedTurnId error : Option String) (nowMs : Int) : ControlQueue κ :=
  { s with
    rows := s.rows.modify queueId fun item ↦
      { item with
        status
        updatedAtMs := nowMs
        dispatchedTurnId := dispatchedTurnId.or item.dispatchedTurnId
        error } }

def markDispatched (s : ControlQueue κ) (queueId turnId : String) (nowMs : Int) :
    ControlQueue κ :=
  s.updateStatus queueId .dispatched (some turnId) none nowMs

/-- `WHERE target_thread_id = ? AND status = 'queued'`. -/
def waits (threadId : String) (item : ThreadControlQueueItem κ) : Bool :=
  item.targetThreadId = threadId && item.status = .queued

/-- What a cancel sets. -/
def cancel (nowMs : Int) (item : ThreadControlQueueItem κ) : ThreadControlQueueItem κ :=
  { item with status := .cancelled, updatedAtMs := nowMs, error := none }

def cancelItem (s : ControlQueue κ) (queueId : String) (nowMs : Int) : ControlQueue κ :=
  { s with rows := s.rows.modify queueId (cancel nowMs) }

/-- The ids that a flush finds, by ascending time of creation. -/
def flushIds (s : ControlQueue κ) (threadId : String) : List String :=
  ((s.rows.entries.filter fun entry ↦ waits threadId entry.2).mergeSort
    fun a b ↦ decide (a.2.createdAtMs ≤ b.2.createdAtMs)).map Prod.fst

/-- The item is read, to return it. -/
def returnItem (s : ControlQueue κ) (queueId : String) : ControlQueue κ :=
  if (s.rows.get? queueId).any fun item ↦ item.status = .cancelled then
    { s with cancelled := s.cancelled ++ [queueId] }
  else s

/-! ## Calls -/

/-- Where a call is.  `load` to `mark` are sections of a queue request, `readCancelled` and
`readFlushed` follow a cancel and a flush. -/
inductive Point (κ : Type) where
  | enqueue (params : ThreadControlQueueCreateParams κ)
  | load (queueId : String) (params : ThreadControlQueueCreateParams κ)
  | submit (queueId : String)
  | mark (queueId turnId : String)
  | cancel (threadId queueId : String)
  | cancelLatest (threadId : String)
  | flush (threadId : String)
  | readCancelled (queueId : String)
  | readFlushed (queueIds : List String)

/-- The points at which calls begin. -/
def Point.starts : Point κ → Bool
  | .enqueue _ | .cancel _ _ | .cancelLatest _ | .flush _ => true
  | _ => false

/-- What a section finds: whether its statement fails, the time, a new id, whether the thread is
loaded, the turn of a submission that succeeds, and the row that a search for the latest meets. -/
structure Answer where
  fails : Bool
  nowMs : Int
  uuid : String
  loaded : Bool
  turnId : Option String
  latest : Option String

/-- The section behind a statement that succeeds. -/
def act [DecidableEq κ] (point : Point κ) (answer : Answer) (s : ControlQueue κ) :
    ControlQueue κ × Option (Point κ) :=
  if answer.fails then (s, none)
  else
    match point with
    | .enqueue params =>
      let queueId := params.queueId.getD answer.uuid
      (s.insertItem queueId params answer.nowMs, some (.load queueId params))
    | .load queueId params =>
      match s.rows.get? queueId with
      | none => (s, none)
      | some item =>
        if sameInput params item && item.status = .queued && answer.loaded then
          (s, some (.submit queueId))
        else (s, none)
    | .submit queueId =>
      match answer.turnId with
      | some turnId =>
        ({ s with submissions := s.submissions ++ [(queueId, turnId)] },
          some (.mark queueId turnId))
      | none => (s, none)
    | .mark queueId turnId => (s.markDispatched queueId turnId answer.nowMs, none)
    | .cancel threadId queueId =>
      if (s.rows.get? queueId).any (waits threadId) then
        (s.cancelItem queueId answer.nowMs, some (.readCancelled queueId))
      else (s, none)
    | .cancelLatest _ =>
      match answer.latest with
      | some queueId => ((s.cancelItem queueId answer.nowMs).returnItem queueId, none)
      | none => (s, none)
    | .flush threadId =>
      let queueIds := s.flushIds threadId
      ({ s with
          rows := queueIds.foldl (fun rows queueId ↦ rows.modify queueId (cancel answer.nowMs))
            s.rows },
        some (.readFlushed queueIds))
    | .readCancelled queueId => (s.returnItem queueId, none)
    | .readFlushed [] => (s, none)
    | .readFlushed (queueId :: queueIds) =>
      (s.returnItem queueId, some (.readFlushed queueIds))

/-- `ORDER BY created_at_ms DESC, updated_at_ms DESC`. -/
def recency (item : ThreadControlQueueItem κ) : Int ×ₗ Int :=
  toLex (item.createdAtMs, item.updatedAtMs)

/-- A search for the latest meets a row that waits and is behind none, if one waits. -/
def enabled (point : Point κ) (answer : Answer) (s : ControlQueue κ) : Prop :=
  match point with
  | .cancelLatest threadId =>
    match answer.latest with
    | some queueId => ∃ item, s.rows.get? queueId = some item ∧ waits threadId item = true ∧
        ∀ entry ∈ s.rows.entries, waits threadId entry.2 = true → recency entry.2 ≤ recency item
    | none => ∀ entry ∈ s.rows.entries, waits threadId entry.2 = false
  | _ => True

/-! ## The claim of a request on its id -/

/-- A request has read the item as queued and not marked it. -/
def Point.dispatches : Point κ → Option String
  | .submit queueId | .mark queueId _ => some queueId
  | _ => none

/-- The section reads the item as queued, is one between this and the mark, or cancels the
item. -/
def touches (point : Point κ) (answer : Answer) (s : ControlQueue κ) (queueId : String) : Prop :=
  match point with
  | .load loaded _ => loaded = queueId ∧ (s.rows.get? queueId).any fun item ↦ item.status = .queued
  | .submit claimed | .mark claimed _ => claimed = queueId
  | .cancel threadId named => named = queueId ∧ (s.rows.get? queueId).any (waits threadId)
  | .cancelLatest _ => answer.latest = some queueId
  | .flush threadId => (s.rows.get? queueId).any (waits threadId)
  | _ => False

/-- A mark does not fail. -/
def marks (point : Point κ) (answer : Answer) (s : ControlQueue κ) : Prop :=
  enabled point answer s ∧ ∀ queueId turnId, point = .mark queueId turnId → answer.fails = false

/-- The turns that were submitted for an id. -/
def turns (s : ControlQueue κ) (queueId : String) : List String :=
  s.submissions.filterMap fun entry ↦ if entry.1 = queueId then some entry.2 else none

/-- The item has a status. -/
def HasStatus (s : ControlQueue κ) (queueId : String) (status : ThreadControlQueueStatus) : Prop :=
  ∃ item, s.rows.get? queueId = some item ∧ item.status = status

/-- The item is dispatched, with the turn. -/
def Dispatched (s : ControlQueue κ) (queueId turnId : String) : Prop :=
  ∃ item, s.rows.get? queueId = some item ∧ item.status = .dispatched ∧
    item.dispatchedTurnId = some turnId

/-- An id that no request dispatches: its item is dispatched with the one turn that was submitted,
or there is none, and an item that was returned as cancelled is so. -/
def Settled (s : ControlQueue κ) (queueId : String) : Prop :=
  (∃ turnId, s.turns queueId = [turnId] ∧ s.Dispatched queueId turnId ∧ queueId ∉ s.cancelled) ∨
    s.turns queueId = [] ∧ (queueId ∈ s.cancelled → s.HasStatus queueId .cancelled)

/-- What a request knows of its id. -/
def Dispatches (s : ControlQueue κ) (point : Point κ) : Prop :=
  match point with
  | .submit queueId => s.turns queueId = [] ∧ s.HasStatus queueId .queued ∧ queueId ∉ s.cancelled
  | .mark queueId turnId =>
    s.turns queueId = [turnId] ∧ s.HasStatus queueId .queued ∧ queueId ∉ s.cancelled
  | _ => True

variable {s t : ControlQueue κ} {queueId turnId : String} {point : Point κ} {answer : Answer}

/-! ## What a section leaves of an id -/

/-- The item of the id, its turns and its status as returned stay, up to an item that is there as
cancelled and is returned. -/
structure Leaves (s t : ControlQueue κ) (queueId : String) : Prop where
  rows : (s.rows.get? queueId).isSome → t.rows.get? queueId = s.rows.get? queueId
  turns : t.turns queueId = s.turns queueId
  cancelled : queueId ∈ t.cancelled → queueId ∈ s.cancelled ∨ s.HasStatus queueId .cancelled

theorem Leaves.refl (s : ControlQueue κ) (queueId : String) : Leaves s s queueId :=
  ⟨fun _ ↦ rfl, rfl, .inl⟩

theorem Leaves.hasStatus (h : Leaves s t queueId) {status : ThreadControlQueueStatus}
    (hs : s.HasStatus queueId status) : t.HasStatus queueId status := by
  obtain ⟨item, hitem, hstatus⟩ := hs
  exact ⟨item, (h.rows (hitem ▸ rfl)).trans hitem, hstatus⟩

theorem HasStatus.unique {status status' : ThreadControlQueueStatus}
    (h : s.HasStatus queueId status) (h' : s.HasStatus queueId status') : status = status' := by
  obtain ⟨item, hitem, rfl⟩ := h
  obtain ⟨item', hitem', rfl⟩ := h'
  rw [Option.some.inj (hitem.symm.trans hitem')]

theorem Leaves.settled (h : Leaves s t queueId) (hs : s.Settled queueId) : t.Settled queueId := by
  rcases hs with ⟨turnId, hturns, ⟨item, hitem, hstatus, hturn⟩, hcancelled⟩ | ⟨hturns, hcancelled⟩
  · refine .inl ⟨turnId, h.turns.trans hturns, ?_, fun hmem ↦ ?_⟩
    · exact ⟨item, (h.rows (hitem ▸ rfl)).trans hitem, hstatus, hturn⟩
    · refine (h.cancelled hmem).elim hcancelled fun hstatus' ↦ ?_
      cases HasStatus.unique ⟨item, hitem, hstatus⟩ hstatus'
  · refine .inr ⟨h.turns.trans hturns, fun hmem ↦ ?_⟩
    exact h.hasStatus ((h.cancelled hmem).elim hcancelled id)

theorem Leaves.dispatches (h : Leaves s t queueId) (hown : point.dispatches = some queueId)
    (hs : s.Dispatches point) : t.Dispatches point := by
  have hstays (hstatus : s.HasStatus queueId .queued) (hcancelled : queueId ∉ s.cancelled) :
      t.HasStatus queueId .queued ∧ queueId ∉ t.cancelled := by
    refine ⟨h.hasStatus hstatus, fun hmem ↦ ?_⟩
    refine (h.cancelled hmem).elim hcancelled fun hstatus' ↦ ?_
    cases hstatus.unique hstatus'
  cases point with
  | submit claimed =>
    obtain rfl := Option.some.inj hown
    exact ⟨h.turns.trans hs.1, hstays hs.2.1 hs.2.2⟩
  | mark claimed turnId =>
    obtain rfl := Option.some.inj hown
    exact ⟨h.turns.trans hs.1, hstays hs.2.1 hs.2.2⟩
  | _ => trivial

theorem any_status_iff {status : ThreadControlQueueStatus} :
    ((s.rows.get? queueId).any fun item ↦ item.status = status) = true ↔
      s.HasStatus queueId status := by
  rw [Option.any_eq_true]
  exact exists_congr fun item ↦ and_congr_right fun _ ↦ decide_eq_true_iff

theorem hasStatus_of_waits {threadId : String}
    (h : (s.rows.get? queueId).any (waits threadId) = true) : s.HasStatus queueId .queued := by
  obtain ⟨item, hitem, hwaits⟩ := (Option.any_eq_true _ _).mp h
  rw [waits, Bool.and_eq_true] at hwaits
  exact ⟨item, hitem, of_decide_eq_true hwaits.2⟩

theorem leaves_returnItem (s : ControlQueue κ) (returned queueId : String) :
    Leaves s (s.returnItem returned) queueId := by
  rw [returnItem]
  split
  next hstatus =>
    refine ⟨fun _ ↦ rfl, rfl, fun hmem ↦ ?_⟩
    rcases List.mem_append.mp hmem with hmem | hmem
    · exact .inl hmem
    · rw [List.mem_singleton.mp hmem]
      exact .inr (any_status_iff.mp hstatus)
  next => exact .refl s queueId

theorem leaves_insertItem (s : ControlQueue κ) (inserted queueId : String)
    (params : ThreadControlQueueCreateParams κ) (nowMs : Int) :
    Leaves s (s.insertItem inserted params nowMs) queueId := by
  rw [insertItem]
  split
  next => exact .refl s queueId
  next hnone =>
    refine ⟨fun hsome ↦ ?_, rfl, .inl⟩
    have hne : queueId ≠ inserted := by
      rintro rfl
      exact hnone hsome
    exact OrderedMap.get?_insert.trans (if_neg hne)

theorem leaves_cancelItem {cancelled : String} (hne : queueId ≠ cancelled) (nowMs : Int) :
    Leaves s (s.cancelItem cancelled nowMs) queueId :=
  ⟨fun _ ↦ OrderedMap.get?_modify.trans (if_neg hne), rfl, .inl⟩

theorem turns_concat (s : ControlQueue κ) (submitted : String) :
    ControlQueue.turns { s with submissions := s.submissions ++ [(submitted, turnId)] } queueId =
      s.turns queueId ++ if submitted = queueId then [turnId] else [] := by
  rw [turns, List.filterMap_append]
  refine congrArg (s.turns queueId ++ ·) ?_
  by_cases hsame : submitted = queueId
  · simp [hsame]
  · simp [hsame]

theorem mem_flushIds {threadId : String} :
    queueId ∈ s.flushIds threadId ↔ (s.rows.get? queueId).any (waits threadId) = true := by
  rw [flushIds, List.mem_map, Option.any_eq_true]
  constructor
  · rintro ⟨⟨key, item⟩, hentry, rfl⟩
    obtain ⟨hmem, hwaits⟩ := List.mem_filter.mp (List.mem_mergeSort.mp hentry)
    exact ⟨item, OrderedMap.get?_eq_some_iff.mpr hmem, hwaits⟩
  · rintro ⟨item, hitem, hwaits⟩
    refine ⟨(queueId, item), List.mem_mergeSort.mpr (List.mem_filter.mpr ⟨?_, hwaits⟩), rfl⟩
    exact OrderedMap.get?_eq_some_iff.mp hitem

theorem get?_flush (threadId : String) (nowMs : Int) :
    ((s.flushIds threadId).foldl (fun rows queueId ↦ rows.modify queueId (cancel nowMs))
      s.rows).get? queueId =
        if queueId ∈ s.flushIds threadId then (s.rows.get? queueId).map (cancel nowMs)
        else s.rows.get? queueId :=
  OrderedMap.get?_foldl_modify (f := cancel nowMs) (fun _ ↦ rfl) _

/-- An item that is queued was neither submitted nor returned as cancelled. -/
theorem Settled.of_queued (h : s.Settled queueId) (hstatus : s.HasStatus queueId .queued) :
    s.turns queueId = [] ∧ queueId ∉ s.cancelled := by
  rcases h with ⟨turnId, -, ⟨item, hitem, hdispatched, -⟩, -⟩ | ⟨hturns, hcancelled⟩
  · cases HasStatus.unique ⟨item, hitem, hdispatched⟩ hstatus
  · refine ⟨hturns, fun hmem ↦ ?_⟩
    cases (hcancelled hmem).unique hstatus

/-- An item that is cancelled while it is queued. -/
theorem settled_of_cancelled {nowMs : Int}
    (hrows : t.rows.get? queueId = (s.rows.get? queueId).map (cancel nowMs))
    (hturns : t.turns queueId = s.turns queueId) (hs : s.Settled queueId)
    (hstatus : s.HasStatus queueId .queued) : t.Settled queueId := by
  refine .inr ⟨hturns.trans (hs.of_queued hstatus).1, fun _ ↦ ?_⟩
  obtain ⟨item, hitem, -⟩ := hstatus
  exact ⟨cancel nowMs item, by rw [hrows, hitem]; rfl, rfl⟩

theorem touches_of_dispatches (h : point.dispatches = some queueId) :
    touches point answer s queueId := by
  cases point with
  | submit claimed => exact Option.some.inj h
  | mark claimed turnId => exact Option.some.inj h
  | _ => cases h

theorem dispatches_of_starts (h : point.starts = true) : point.dispatches = none := by
  cases point with
  | submit claimed => cases h
  | mark claimed turnId => cases h
  | _ => rfl

section Act

variable [DecidableEq κ]

/-- A section leaves the ids that it does not touch. -/
theorem act_leaves (h : ¬touches point answer s queueId) :
    Leaves s (act point answer s).1 queueId := by
  unfold act
  split
  next => exact .refl s queueId
  next =>
    cases point with
    | enqueue params => exact leaves_insertItem ..
    | load loaded params =>
      dsimp only
      split
      next => exact .refl s queueId
      next => split <;> exact .refl s queueId
    | submit claimed =>
      dsimp only
      split
      next turnId _ =>
        refine ⟨fun _ ↦ rfl, ?_, .inl⟩
        have hne : ¬ claimed = queueId := h
        rw [turns_concat, if_neg hne, List.append_nil]
      next => exact .refl s queueId
    | mark claimed turnId =>
      refine ⟨fun _ ↦ OrderedMap.get?_modify.trans (if_neg ?_), rfl, .inl⟩
      exact fun heq ↦ h heq.symm
    | cancel threadId named =>
      dsimp only
      split
      next hwaits =>
        refine leaves_cancelItem (fun heq ↦ h ?_) _
        subst heq
        exact ⟨rfl, hwaits⟩
      next => exact .refl s queueId
    | cancelLatest threadId =>
      dsimp only
      split
      next latest hlatest =>
        have hne : queueId ≠ latest := fun heq ↦ h (heq ▸ hlatest)
        have hcancel : Leaves s (s.cancelItem latest answer.nowMs) queueId :=
          leaves_cancelItem hne _
        have hreturn := leaves_returnItem (s.cancelItem latest answer.nowMs) latest queueId
        refine ⟨fun hsome ↦ ?_, hreturn.turns.trans hcancel.turns, fun hmem ↦ ?_⟩
        · rw [hreturn.rows ((hcancel.rows hsome).symm ▸ hsome), hcancel.rows hsome]
        · refine (hreturn.cancelled hmem).imp id fun ⟨item, hitem, hstatus⟩ ↦ ⟨item, ?_, hstatus⟩
          exact (OrderedMap.get?_modify.trans (if_neg hne)).symm.trans hitem
      next => exact .refl s queueId
    | flush threadId =>
      refine ⟨fun _ ↦ ?_, rfl, .inl⟩
      exact (get?_flush threadId answer.nowMs).trans (if_neg fun hmem ↦ h (mem_flushIds.mp hmem))
    | readCancelled returned => exact leaves_returnItem ..
    | readFlushed queueIds =>
      cases queueIds with
      | nil => exact .refl s queueId
      | cons returned queueIds => exact leaves_returnItem ..

/-! ## What a section does to an id that it touches -/

/-- The id behind a section that touches it. -/
theorem act_touched (hguard : marks point answer s) (htouch : touches point answer s queueId)
    (howned : point.dispatches = some queueId → s.Dispatches point)
    (hfree : point.dispatches ≠ some queueId → s.Settled queueId) :
    KeyLeft Point.dispatches Settled Dispatches queueId (act point answer s) := by
  have hnone {t : ControlQueue κ} (ht : t.Settled queueId) :
      KeyLeft Point.dispatches Settled Dispatches queueId (t, none) :=
    .free (fun _ h ↦ (nomatch h)) ht
  unfold act
  cases point with
  | load loaded params =>
    obtain ⟨rfl, hqueued⟩ := htouch
    have hsettled := hfree nofun
    split
    next => exact hnone hsettled
    next =>
      dsimp only
      split
      next => exact hnone hsettled
      next item hitem =>
        split
        next =>
          obtain ⟨hturns, hcancelled⟩ := hsettled.of_queued (any_status_iff.mp hqueued)
          exact .owned rfl ⟨hturns, any_status_iff.mp hqueued, hcancelled⟩
        next => exact hnone hsettled
  | submit claimed =>
    obtain rfl : claimed = queueId := htouch
    obtain ⟨hturns, hstatus, hcancelled⟩ := howned rfl
    have hsettled : s.Settled claimed := .inr ⟨hturns, fun hmem ↦ absurd hmem hcancelled⟩
    split
    next => exact hnone hsettled
    next =>
      dsimp only
      split
      next turnId _ =>
        refine .owned rfl ⟨?_, hstatus, hcancelled⟩
        rw [turns_concat, hturns, if_pos rfl]
        rfl
      next => exact hnone hsettled
  | mark claimed turnId =>
    obtain rfl : claimed = queueId := htouch
    obtain ⟨hturns, ⟨item, hitem, -⟩, hcancelled⟩ := howned rfl
    rw [if_neg (ne_true_of_eq_false (hguard.2 _ _ rfl))]
    refine hnone (.inl ⟨turnId, hturns, ?_, hcancelled⟩)
    have hrow : (s.markDispatched claimed turnId answer.nowMs).rows.get? claimed =
        some { item with
          status := .dispatched
          updatedAtMs := answer.nowMs
          dispatchedTurnId := some turnId
          error := none } := by
      rw [markDispatched, updateStatus, OrderedMap.get?_modify, if_pos rfl, hitem]
      rfl
    exact ⟨_, hrow, rfl, rfl⟩
  | cancel threadId named =>
    obtain ⟨rfl, hwaits⟩ := htouch
    have hsettled := hfree nofun
    split
    next => exact hnone hsettled
    next =>
      dsimp only
      rw [if_pos hwaits]
      refine .free (fun next h ↦ ?_) ?_
      · cases h
        exact nofun
      · exact settled_of_cancelled (OrderedMap.get?_modify.trans (if_pos rfl)) rfl hsettled
          (hasStatus_of_waits hwaits)
  | cancelLatest threadId =>
    have hsettled := hfree nofun
    have hlatest : answer.latest = some queueId := htouch
    split
    next => exact hnone hsettled
    next =>
      dsimp only
      rw [hlatest]
      have henabled := hguard.1
      rw [enabled, hlatest] at henabled
      obtain ⟨item, hitem, hwaits, -⟩ := henabled
      have hqueued : s.HasStatus queueId .queued :=
        hasStatus_of_waits ((Option.any_eq_true _ _).mpr ⟨item, hitem, hwaits⟩)
      refine hnone ((leaves_returnItem _ queueId queueId).settled ?_)
      exact settled_of_cancelled (OrderedMap.get?_modify.trans (if_pos rfl)) rfl hsettled hqueued
  | flush threadId =>
    have hsettled := hfree nofun
    have hwaits : (s.rows.get? queueId).any (waits threadId) = true := htouch
    split
    next => exact hnone hsettled
    next =>
      refine .free (fun next h ↦ ?_) ?_
      · cases h
        exact nofun
      · have hrow := (get?_flush threadId answer.nowMs).trans (if_pos (mem_flushIds.mpr hwaits))
        have hturns : ControlQueue.turns { s with
            rows := (s.flushIds threadId).foldl
              (fun rows queueId ↦ rows.modify queueId (cancel answer.nowMs)) s.rows } queueId =
            s.turns queueId := rfl
        exact settled_of_cancelled hrow hturns hsettled (hasStatus_of_waits hwaits)
  | enqueue _ => exact htouch.elim
  | readCancelled _ => exact htouch.elim
  | readFlushed _ => exact htouch.elim

theorem touches_of_next {next : Point κ} (hnext : (act point answer s).2 = some next)
    (hown : next.dispatches = some queueId) : touches point answer s queueId := by
  unfold act at hnext
  split at hnext
  next => cases hnext
  next =>
    cases point with
    | enqueue params => cases hnext; cases hown
    | load loaded params =>
      dsimp only at hnext
      split at hnext
      next => cases hnext
      next item hitem =>
        split at hnext
        next hsame =>
          cases hnext
          obtain rfl := Option.some.inj hown
          rw [Bool.and_eq_true, Bool.and_eq_true] at hsame
          exact ⟨rfl, (Option.any_eq_true _ _).mpr ⟨item, hitem, hsame.1.2⟩⟩
        next => cases hnext
    | submit claimed =>
      dsimp only at hnext
      split at hnext
      next =>
        cases hnext
        exact Option.some.inj hown
      next => cases hnext
    | mark claimed turnId => cases hnext
    | cancel threadId named =>
      dsimp only at hnext
      split at hnext
      next => cases hnext; cases hown
      next => cases hnext
    | cancelLatest threadId =>
      dsimp only at hnext
      split at hnext <;> cases hnext
    | flush threadId => cases hnext; cases hown
    | readCancelled returned => cases hnext
    | readFlushed queueIds =>
      cases queueIds with
      | nil => cases hnext
      | cons returned queueIds => cases hnext; cases hown

end Act

/-! ## Runs -/

/-- All interleavings. -/
def Interleaved [DecidableEq κ] : World (ControlQueue κ) (Point κ) → Move (Point κ) Answer →
    World (ControlQueue κ) (Point κ) → Prop :=
  Moves (fun point ↦ point.starts = true) act enabled

/-- The interleavings in which no mark fails, and an item is read as queued or cancelled only while
no other request dispatches it. -/
def Calm [DecidableEq κ] (w : World (ControlQueue κ) (Point κ)) (move : Move (Point κ) Answer)
    (t : World (ControlQueue κ) (Point κ)) : Prop :=
  Moves (fun point ↦ point.starts = true) act marks w move t ∧
    w.Undisturbed Point.dispatches touches move

/-- No call has begun. -/
def start : World (ControlQueue κ) (Point κ) := ⟨.initial, []⟩

/-- Every id is submitted once at most.  An item that was returned as cancelled is cancelled and
was not submitted.  The item of a turn that was submitted is dispatched with the turn, or its
request is about to mark it. -/
structure Sound (w : World (ControlQueue κ) (Point κ)) : Prop where
  once : ∀ queueId, (w.shared.turns queueId).length ≤ 1
  cancelled : ∀ queueId ∈ w.shared.cancelled,
    w.shared.turns queueId = [] ∧ w.shared.HasStatus queueId .cancelled
  dispatched : ∀ queueId, ∀ turnId ∈ w.shared.turns queueId,
    w.shared.Dispatched queueId turnId ∨ some (.mark queueId turnId) ∈ w.calls

variable {w w' : World (ControlQueue κ) (Point κ)} {moves later : List (Move (Point κ) Answer)}

theorem owns_start : (start : World (ControlQueue κ) (Point κ)).Owns Point.dispatches Settled
    Dispatches where
  one i j a b k hi := by cases hi
  free k _ := .inr ⟨rfl, fun hmem ↦ (nomatch hmem)⟩
  owned point hmem := by cases hmem

theorem sound_of_owns (h : w.Owns Point.dispatches Settled Dispatches) : Sound w := by
  -- an id is dispatched by a request, or settled
  have hcases (queueId : String) : w.shared.Settled queueId ∨
      (∃ point, some point ∈ w.calls ∧ point.dispatches = some queueId ∧
        w.shared.Dispatches point) := by
    by_cases hown : ∃ point, some point ∈ w.calls ∧ point.dispatches = some queueId
    · obtain ⟨point, hmem, hown⟩ := hown
      exact .inr ⟨point, hmem, hown, h.owned point hmem (hown ▸ rfl)⟩
    · exact .inl (h.free queueId fun point hmem hsome ↦ hown ⟨point, hmem, hsome⟩)
  refine ⟨fun queueId ↦ ?_, fun queueId hmem ↦ ?_, fun queueId turnId hturn ↦ ?_⟩
  · rcases hcases queueId with (⟨turnId, hturns, -⟩ | ⟨hturns, -⟩) | ⟨point, -, hown, hpoint⟩
    · rw [hturns]; exact Nat.le_refl 1
    · rw [hturns]; exact Nat.zero_le 1
    · cases point with
      | submit claimed =>
        obtain rfl := Option.some.inj hown
        rw [hpoint.1]; exact Nat.zero_le 1
      | mark claimed turnId =>
        obtain rfl := Option.some.inj hown
        rw [hpoint.1]; exact Nat.le_refl 1
      | _ => cases hown
  · rcases hcases queueId with (⟨turnId, -, -, hnot⟩ | ⟨hturns, hstatus⟩) | ⟨point, -, hown, hpoint⟩
    · exact absurd hmem hnot
    · exact ⟨hturns, hstatus hmem⟩
    · cases point with
      | submit claimed =>
        obtain rfl := Option.some.inj hown
        exact absurd hmem hpoint.2.2
      | mark claimed turnId =>
        obtain rfl := Option.some.inj hown
        exact absurd hmem hpoint.2.2
      | _ => cases hown
  · rcases hcases queueId with
      (⟨turn, hturns, hdispatched, -⟩ | ⟨hturns, -⟩) | ⟨point, hmem, hown, hpoint⟩
    · rw [hturns, List.mem_singleton] at hturn
      exact .inl (hturn ▸ hdispatched)
    · rw [hturns] at hturn
      cases hturn
    · cases point with
      | submit claimed =>
        obtain rfl := Option.some.inj hown
        rw [hpoint.1] at hturn
        cases hturn
      | mark claimed turn =>
        obtain rfl := Option.some.inj hown
        rw [hpoint.1, List.mem_singleton] at hturn
        exact .inr (hturn ▸ hmem)
      | _ => cases hown

variable [DecidableEq κ]

theorem owns_step {move : Move (Point κ) Answer} (h : w.Owns Point.dispatches Settled Dispatches)
    (hmove : Calm w move w') : w'.Owns Point.dispatches Settled Dispatches := by
  refine World.Owns.step (fun point ↦ dispatches_of_starts) ?_ ?_ ?_ ?_ ?_ h hmove.1 hmove.2
  · exact fun s point answer k hown ↦ touches_of_dispatches hown
  · exact fun s point answer next k ↦ touches_of_next
  · exact fun s point answer k ↦ act_touched
  · exact fun s point answer k _ htouch ↦ (act_leaves htouch).settled
  · exact fun s point answer other k _ htouch hown ↦ (act_leaves htouch).dispatches hown

/-- What was returned stays in the record. -/
theorem cancelled_subset (hrun : Steps Calm w moves w') (hmem : queueId ∈ w.shared.cancelled) :
    queueId ∈ w'.shared.cancelled := by
  have hreturn (s : ControlQueue κ) (returned : String) (h : queueId ∈ s.cancelled) :
      queueId ∈ (s.returnItem returned).cancelled := by
    rw [returnItem]
    split
    next => exact List.mem_append_left _ h
    next => exact h
  refine hrun.invariant (P := fun w ↦ queueId ∈ w.shared.cancelled)
    (fun w move t hw hmove ↦ ?_) hmem
  obtain ⟨hmove, -⟩ := hmove
  cases move with
  | enter point =>
    obtain ⟨-, rfl⟩ := hmove
    exact hw
  | advance call answer =>
    obtain ⟨point, -, -, rfl⟩ := hmove
    unfold act
    split
    next => exact hw
    next =>
      cases point with
      | enqueue params =>
        dsimp only
        rw [insertItem]
        split <;> exact hw
      | load loaded params =>
        dsimp only
        split
        next => exact hw
        next => split <;> exact hw
      | submit claimed =>
        dsimp only
        split <;> exact hw
      | mark claimed turnId => exact hw
      | cancel threadId named =>
        dsimp only
        split <;> exact hw
      | cancelLatest threadId =>
        dsimp only
        split
        next => exact hreturn _ _ hw
        next => exact hw
      | flush threadId => exact hw
      | readCancelled returned => exact hreturn _ _ hw
      | readFlushed queueIds =>
        cases queueIds with
        | nil => exact hw
        | cons returned queueIds => exact hreturn _ _ hw

/-- After every calm run the queue is sound, and what was returned as cancelled is not submitted
and stays cancelled whatever comes.  When all calls have returned, every item that was submitted is
dispatched with its turn. -/
theorem queue_sound (hrun : Steps Calm start moves w) (hlater : Steps Calm w later w') :
    Sound w ∧
      (∀ queueId ∈ w.shared.cancelled, w'.shared.turns queueId = [] ∧
        w'.shared.HasStatus queueId .cancelled) ∧
      (w'.Idle → ∀ queueId, ∀ turnId ∈ w'.shared.turns queueId,
        w'.shared.Dispatched queueId turnId) := by
  have howns : w.Owns Point.dispatches Settled Dispatches :=
    hrun.invariant (P := World.Owns Point.dispatches Settled Dispatches)
      (fun _ _ _ ↦ owns_step) owns_start
  have hsound : Sound w' := sound_of_owns
    (hlater.invariant (P := World.Owns Point.dispatches Settled Dispatches)
      (fun _ _ _ ↦ owns_step) howns)
  refine ⟨sound_of_owns howns, fun queueId hmem ↦ ?_, fun hidle queueId turnId hturn ↦ ?_⟩
  · exact hsound.cancelled queueId (cancelled_subset hlater hmem)
  · refine (hsound.dispatched queueId turnId hturn).resolve_right fun hmem ↦ ?_
    cases hidle _ hmem

/-! ## Three runs -/

/-- A request for the thread `t`. -/
def request (queueId : String) : Point Unit := .enqueue ⟨some queueId, "t", (), "go"⟩

/-- Nothing fails. -/
def found (loaded : Bool) (turnId : String) : Answer := ⟨false, 0, "", loaded, some turnId, none⟩

/-- An input is dispatched, another one is queued and cancelled. -/
def calmMoves : List (Move (Point Unit) Answer) :=
  [.enter (request "q"), .advance 0 (found true "1"), .advance 0 (found true "1"),
    .advance 0 (found true "1"), .advance 0 (found true "1"), .enter (request "r"),
    .advance 1 (found false "2"), .advance 1 (found false "2"), .enter (.cancel "t" "r"),
    .advance 2 (found true "3"), .advance 2 (found true "3")]

theorem calmMoves_run : ∃ w, Steps Calm start calmMoves w ∧ w.shared.turns "q" = ["1"] ∧
    w.shared.cancelled = ["r"] := by
  have hmarks {point : Point Unit} {s : ControlQueue Unit} {loaded : Bool} {turnId : String}
      (henabled : enabled point (found loaded turnId) s) :
      marks point (found loaded turnId) s := ⟨henabled, fun _ _ _ ↦ rfl⟩
  exact ⟨_, .cons ⟨⟨rfl, rfl⟩, trivial⟩
    (.cons ⟨⟨_, rfl, hmarks trivial, rfl⟩, undisturbed_last 0 rfl⟩
    (.cons ⟨⟨_, rfl, hmarks trivial, rfl⟩, undisturbed_last 0 rfl⟩
    (.cons ⟨⟨_, rfl, hmarks trivial, rfl⟩, undisturbed_last 0 rfl⟩
    (.cons ⟨⟨_, rfl, hmarks trivial, rfl⟩, undisturbed_last 0 rfl⟩
    (.cons ⟨⟨rfl, rfl⟩, trivial⟩
    (.cons ⟨⟨_, rfl, hmarks trivial, rfl⟩, undisturbed_last 1 rfl⟩
    (.cons ⟨⟨_, rfl, hmarks trivial, rfl⟩, undisturbed_last 1 rfl⟩
    (.cons ⟨⟨rfl, rfl⟩, trivial⟩
    (.cons ⟨⟨_, rfl, hmarks trivial, rfl⟩, undisturbed_last 2 rfl⟩
    (.cons ⟨⟨_, rfl, hmarks trivial, rfl⟩, undisturbed_last 2 rfl⟩ (.nil _))))))))))),
    rfl, rfl⟩

theorem queue_sound_calmMoves : ∃ w, Steps Calm start calmMoves w ∧ Sound w ∧
    w.shared.HasStatus "r" .cancelled := by
  obtain ⟨w, hrun, -, hcancelled⟩ := calmMoves_run
  have hsound := queue_sound hrun (.nil w)
  have hmem : "r" ∈ w.shared.cancelled := by
    rw [hcancelled]
    exact List.mem_singleton_self "r"
  exact ⟨w, hrun, hsound.1, (hsound.2.1 "r" hmem).2⟩

/-- A request is repeated while the first one is under way. -/
def retryMoves : List (Move (Point Unit) Answer) :=
  [.enter (request "q"), .enter (request "q"), .advance 0 (found true "1"),
    .advance 1 (found true "2"), .advance 0 (found true "1"), .advance 1 (found true "2"),
    .advance 0 (found true "1"), .advance 1 (found true "2")]

/-- A cancel comes between the read and the submission. -/
def cancelMoves : List (Move (Point Unit) Answer) :=
  [.enter (request "q"), .advance 0 (found true "1"), .advance 0 (found true "1"),
    .enter (.cancel "t" "q"), .advance 1 (found true "2"), .advance 1 (found true "2")]

/-- The request goes on. -/
def dispatchMoves : List (Move (Point Unit) Answer) :=
  [.advance 0 (found true "1"), .advance 0 (found true "1")]

/-- An input is submitted twice, and one is submitted and marked as dispatched after it was returned
as cancelled. -/
theorem submitted_twice :
    (∃ w, Steps Interleaved start retryMoves w ∧ w.shared.turns "q" = ["1", "2"]) ∧
    ∃ w w', Steps Interleaved start cancelMoves w ∧ "q" ∈ w.shared.cancelled ∧
      w.shared.turns "q" = [] ∧ Steps Interleaved w dispatchMoves w' ∧
      w'.shared.turns "q" = ["1"] ∧ w'.shared.HasStatus "q" .dispatched := by
  constructor
  · exact ⟨_, .cons ⟨rfl, rfl⟩ (.cons ⟨rfl, rfl⟩ (.cons ⟨_, rfl, trivial, rfl⟩
      (.cons ⟨_, rfl, trivial, rfl⟩ (.cons ⟨_, rfl, trivial, rfl⟩ (.cons ⟨_, rfl, trivial, rfl⟩
      (.cons ⟨_, rfl, trivial, rfl⟩ (.cons ⟨_, rfl, trivial, rfl⟩ (.nil _)))))))), rfl⟩
  · exact ⟨_, _, .cons ⟨rfl, rfl⟩ (.cons ⟨_, rfl, trivial, rfl⟩ (.cons ⟨_, rfl, trivial, rfl⟩
      (.cons ⟨rfl, rfl⟩ (.cons ⟨_, rfl, trivial, rfl⟩ (.cons ⟨_, rfl, trivial, rfl⟩ (.nil _)))))),
      List.mem_singleton_self "q", rfl, .cons ⟨_, rfl, trivial, rfl⟩
        (.cons ⟨_, rfl, trivial, rfl⟩ (.nil _)), rfl, _, rfl, rfl⟩

end ControlQueue

end Praxis.State
