import Mathlib.Data.List.Nodup
import Praxis.Context.Turns

/-!
# Resuming a conversation

The settings of a resumed conversation are those of the newest turn that is not
rolled back, where the scan counts a turn once.  The history counts every user
message.  The two agree as long as both ways to count leave the same turn
(`resume_in_sync_iff`), and they part when a turn with two user messages is rolled
back (`resume_out_of_sync`).
-/

namespace Praxis.Context

open Foundation Protocol

variable (X : Externals)

/-! ## The scan of a turn -/

/-- The segment of a turn. -/
def Turn.segment (turn : Turn) : ActiveReplaySegment where
  turnId := some turn.id
  countsAsUserTurn := turn.counts X
  previousTurnSettings := some (.ofContext turn.context)
  referenceContextItem := .latest turn.context

section Scan

variable {X} {scanner : RolloutReplayScanner}

/-- The messages of a turn, from the newest on. -/
theorem scanLoop_messages (hbase : scanner.baseReplacementHistory = none)
    (active : Option ActiveReplaySegment) (behind : List RolloutItem) (messages : List Message)
    (older : List RolloutItem) :
    ∃ active', ({ scanner with activeSegment := active }.scanLoop X behind
        (messages.map Message.item ++ older) =
      { scanner with activeSegment := active' }.scanLoop X
        ((messages.map Message.item).reverse ++ behind) older) ∧
      active'.getD {} = { active.getD {} with
        countsAsUserTurn := (active.getD {}).countsAsUserTurn ||
          messages.any fun message ↦ countsItem X message.item } := by
  induction messages generalizing active behind with
  | nil => exact ⟨active, rfl, by rw [List.any_nil, Bool.or_false]⟩
  | cons message messages ih =>
    obtain ⟨active', hscan, hactive'⟩ := ih
      (some { active.getD {} with
        countsAsUserTurn := (active.getD {}).countsAsUserTurn || countsItem X message.item })
      (message.item :: behind)
    have hitem : { scanner with activeSegment := active }.scanItem X behind message.item =
        { scanner with activeSegment := some { active.getD {} with
          countsAsUserTurn :=
            (active.getD {}).countsAsUserTurn || countsItem X message.item } } := by
      cases message with
      | event message =>
        rw [Message.item, countsItem, Bool.or_true]
        rfl
      | response item => rfl
    refine ⟨active', ?_, ?_⟩
    · have hnone : ({ scanner with activeSegment := active }.scanItem X behind
          message.item).baseReplacementHistory = none := by
        rw [hitem]
        exact hbase
      rw [List.map_cons, List.cons_append, scanLoop_cons_of_none hnone, hitem, hscan,
        List.reverse_cons, List.append_assoc, List.singleton_append]
    · rw [hactive', List.any_cons, ← Bool.or_assoc]
      rfl

/-- The end of a turn. -/
theorem scanLoop_ending (hbase : scanner.baseReplacementHistory = none) (turnId : Str)
    (behind : List RolloutItem) (ending : TurnEnd) (older : List RolloutItem) :
    ∃ active : Option ActiveReplaySegment, ({ scanner with activeSegment := none }.scanLoop X behind
        (ending.items turnId ++ older) =
      { scanner with activeSegment := active }.scanLoop X (ending.items turnId ++ behind) older) ∧
      (active.getD {} = { turnId := some turnId } ∨ active.getD {} = {}) := by
  have hone (item : RolloutItem) (active : Option ActiveReplaySegment)
      (hitem : { scanner with activeSegment := none }.scanItem X behind item =
        { scanner with activeSegment := active }) :
      { scanner with activeSegment := none }.scanLoop X behind (item :: older) =
        { scanner with activeSegment := active }.scanLoop X (item :: behind) older := by
    have hnone : ({ scanner with activeSegment := none }.scanItem X behind
        item).baseReplacementHistory = none := by
      rw [hitem]
      exact hbase
    rw [scanLoop_cons_of_none hnone, hitem]
  cases ending with
  | complete => exact ⟨some { turnId := some turnId }, hone _ _ rfl, .inl rfl⟩
  | aborted => exact ⟨some { turnId := some turnId }, hone _ _ rfl, .inl rfl⟩
  | abortedUnnamed => exact ⟨none, hone _ _ rfl, .inr rfl⟩
  | missing => exact ⟨none, rfl, .inr rfl⟩

/-- The context of a turn. -/
theorem scanLoop_context (hbase : scanner.baseReplacementHistory = none) (turn : Turn)
    {active : Option ActiveReplaySegment} (counts : Bool) (behind : List RolloutItem)
    (hactive : active.getD {} = { turnId := some turn.id, countsAsUserTurn := counts } ∨
      active.getD {} = { countsAsUserTurn := counts }) (older : List RolloutItem) :
    { scanner with activeSegment := active }.scanLoop X behind
        (.turnContext turn.context :: older) =
      { scanner with activeSegment := some { turn.segment X with countsAsUserTurn := counts }
        }.scanLoop X (.turnContext turn.context :: behind) older := by
  have hcompatible : turnIdsAreCompatible (some turn.id) (some turn.id) := by
    simp only [turnIdsAreCompatible, Option.all_some, beq_self_eq_true]
  have hitem : { scanner with activeSegment := active }.scanItem X behind
      (.turnContext turn.context) =
        { scanner with activeSegment := some { turn.segment X with countsAsUserTurn := counts } } := by
    have hsegment : RolloutReplayScanner.scanTurnContext (active.getD {}) turn.context =
        { turn.segment X with countsAsUserTurn := counts } := by
      rcases hactive with hactive | hactive
      · rw [hactive]
        simp only [RolloutReplayScanner.scanTurnContext, turn.context_id, Option.some_or,
          hcompatible, if_true]
        rfl
      · rw [hactive]
        simp only [RolloutReplayScanner.scanTurnContext, turn.context_id, Option.none_or,
          hcompatible, if_true]
        rfl
    simp only [RolloutReplayScanner.scanItem, RolloutReplayScanner.updateSegment, hsegment]
  have hnone : ({ scanner with activeSegment := active }.scanItem X behind
      (.turnContext turn.context)).baseReplacementHistory = none := by
    rw [hitem]
    exact hbase
  rw [scanLoop_cons_of_none hnone, hitem]

/-- The start of a turn finalizes its segment. -/
theorem scanLoop_started (hbase : scanner.baseReplacementHistory = none) (turn : Turn)
    {active : Option ActiveReplaySegment} (hactive : active.getD {} = turn.segment X)
    (behind older : List RolloutItem) :
    { scanner with activeSegment := active }.scanLoop X behind
        (.eventMsg (.turnStarted turn.id turn.collaborationModeKind) :: older) =
      ({ scanner with activeSegment := none }.finalizeSegment (turn.segment X)).scanLoop X
        (.eventMsg (.turnStarted turn.id turn.collaborationModeKind) :: behind) older := by
  have hcompatible : turnIdsAreCompatible (some turn.id) (some turn.id) := by
    simp only [turnIdsAreCompatible, Option.all_some, beq_self_eq_true]
  obtain ⟨rfl⟩ : active = some (turn.segment X) := by
    cases active with
    | none => cases congrArg ActiveReplaySegment.turnId hactive
    | some segment => exact congrArg some hactive
  have hitem : { scanner with activeSegment := some (turn.segment X) }.scanItem X behind
      (.eventMsg (.turnStarted turn.id turn.collaborationModeKind)) =
        { scanner with activeSegment := none }.finalizeSegment (turn.segment X) :=
    if_pos hcompatible
  have hnone : ({ scanner with activeSegment := some (turn.segment X) }.scanItem X behind
      (.eventMsg (.turnStarted turn.id turn.collaborationModeKind))).baseReplacementHistory =
        none := by
    rw [hitem]
    unfold RolloutReplayScanner.finalizeSegment
    simp only [hbase, if_true]
    split
    · split <;> rfl
    · rfl
  rw [scanLoop_cons_of_none hnone, hitem]

/-- **The scan of a turn** finalizes the segment of the turn. -/
theorem scanLoop_turn (hbase : scanner.baseReplacementHistory = none)
    (hactive : scanner.activeSegment = none) (turn : Turn) (behind older : List RolloutItem) :
    scanner.scanLoop X behind (turn.items.reverse ++ older) =
      (scanner.finalizeSegment (turn.segment X)).scanLoop X (turn.items ++ behind) older := by
  have hending : (turn.ending.items turn.id).reverse = turn.ending.items turn.id := by
    cases turn.ending <;> rfl
  -- the items from the newest on: the end, messages, the context, messages, the start
  let started := RolloutItem.eventMsg (.turnStarted turn.id turn.collaborationModeKind) :: older
  let front := turn.before.reverse.map Message.item ++ started
  have hreverse : turn.items.reverse ++ older = turn.ending.items turn.id ++
      (turn.after.reverse.map Message.item ++ .turnContext turn.context :: front) := by
    simp only [front, started, Turn.items, List.reverse_cons, List.reverse_append, hending,
      List.append_assoc, List.map_reverse, List.cons_append, List.nil_append]
  obtain ⟨active₁, hscan₁, hactive₁⟩ := scanLoop_ending (X := X) hbase turn.id behind turn.ending
    (turn.after.reverse.map Message.item ++ .turnContext turn.context :: front)
  obtain ⟨active₂, hscan₂, hactive₂⟩ := scanLoop_messages (X := X) hbase active₁
    (turn.ending.items turn.id ++ behind) turn.after.reverse (.turnContext turn.context :: front)
  let counts := turn.after.reverse.any fun message ↦ countsItem X message.item
  have hcontext : active₂.getD {} = { turnId := some turn.id, countsAsUserTurn := counts } ∨
      active₂.getD {} = { countsAsUserTurn := counts } := by
    rcases hactive₁ with hactive₁ | hactive₁
    · left
      rw [hactive₂, hactive₁]
      rfl
    · right
      rw [hactive₂, hactive₁]
      rfl
  have hscan₃ := scanLoop_context (X := X) hbase turn counts
    ((turn.after.reverse.map Message.item).reverse ++ (turn.ending.items turn.id ++ behind))
    hcontext front
  obtain ⟨active₄, hscan₄, hactive₄⟩ := scanLoop_messages (X := X) hbase
    (some { turn.segment X with countsAsUserTurn := counts })
    (.turnContext turn.context ::
      ((turn.after.reverse.map Message.item).reverse ++ (turn.ending.items turn.id ++ behind)))
    turn.before.reverse started
  have hsegment : active₄.getD {} = turn.segment X := by
    have hcounts : (counts || turn.before.reverse.any fun message ↦ countsItem X message.item) =
        turn.counts X := by
      rw [Turn.counts, Turn.messages, List.any_append, List.any_reverse, Bool.or_comm]
      exact congrArg _ List.any_reverse
    rw [hactive₄]
    exact congrArg (fun b ↦ { turn.segment X with countsAsUserTurn := b }) hcounts
  have hscan₅ := scanLoop_started hbase turn hsegment
    ((turn.before.reverse.map Message.item).reverse ++ (.turnContext turn.context ::
      ((turn.after.reverse.map Message.item).reverse ++ (turn.ending.items turn.id ++ behind))))
    older
  have hscanner : { scanner with activeSegment := none } = scanner := by
    rw [← hactive]
  rw [hscanner] at hscan₁ hscan₅
  rw [hreverse, hscan₁, hscan₂, hscan₃, hscan₄, hscan₅]
  congr 1
  simp only [Turn.items, List.map_reverse, List.reverse_reverse, List.cons_append,
    List.append_assoc]

/-- A scanner between two turns, with the turn whose settings it has found. -/
def between (suffix : List RolloutItem) (found : Option Turn) (pending : Nat) :
    RolloutReplayScanner where
  baseReplacementHistory := none
  previousTurnSettings := found.map fun turn ↦ .ofContext turn.context
  referenceContextItem := found.elim .neverSet fun turn ↦ .latest turn.context
  pendingRollbackTurns := pending
  rolloutSuffix := suffix
  activeSegment := none

/-- The turn whose settings the scan finds. -/
def settingsTurn (X : Externals) (found : Option Turn) (pending : Nat) :
    List Entry → Option Turn
  | [] => found
  | .rolledBack numTurns :: older => settingsTurn X found (addRollback pending numTurns) older
  | .turn t :: older =>
    if 0 < pending then
      settingsTurn X found (if t.counts X then pending - 1 else pending) older
    else settingsTurn X (found.or (if t.counts X then some t else none)) pending older

/-- The segment of a turn, discarded or not. -/
theorem finalizeSegment_between (X : Externals) (suffix : List RolloutItem) (found : Option Turn)
    (pending : Nat) (turn : Turn) :
    (between suffix found pending).finalizeSegment (turn.segment X) =
      if 0 < pending then
        between suffix found (if turn.counts X then pending - 1 else pending)
      else between suffix (found.or (if turn.counts X then some turn else none)) pending := by
  have hcounts : (turn.segment X).countsAsUserTurn = turn.counts X := rfl
  unfold RolloutReplayScanner.finalizeSegment
  rw [hcounts]
  cases turn.counts X with
  | true =>
    cases found with
    | none => rfl
    | some _ => rfl
  | false =>
    cases found with
    | none => rfl
    | some _ => rfl

/-- **The scan of turns and rollbacks.** -/
theorem scanLoop_entries (X : Externals) (suffix : List RolloutItem) (found : Option Turn)
    (pending : Nat) (behind : List RolloutItem) (entries : List Entry) :
    ∃ pending', (between suffix found pending).scanLoop X behind
        (entries.flatMap fun entry ↦ entry.items.reverse) =
      between suffix (settingsTurn X found pending entries) pending' := by
  induction entries generalizing found pending behind with
  | nil => exact ⟨pending, rfl⟩
  | cons entry entries ih =>
    rw [List.flatMap_cons]
    cases entry with
    | rolledBack numTurns => exact ih found (addRollback pending numTurns) _
    | turn turn =>
      have hbase : (between suffix found pending).baseReplacementHistory = none := rfl
      have hscan := scanLoop_turn (X := X) hbase rfl turn behind
        (entries.flatMap fun entry ↦ entry.items.reverse)
      rw [finalizeSegment_between] at hscan
      rw [Entry.items, hscan, settingsTurn]
      split
      · exact ih _ _ _
      · exact ih _ _ _

/-- What is found is kept. -/
theorem settingsTurn_some (X : Externals) (turn : Turn) (pending : Nat) (entries : List Entry) :
    settingsTurn X (some turn) pending entries = some turn := by
  induction entries generalizing pending with
  | nil => rfl
  | cons entry entries ih =>
    cases entry with
    | rolledBack numTurns => exact ih _
    | turn t =>
      rw [settingsTurn, Option.some_or, ih, ih, ite_self]

/-- The weight of a turn in the scan. -/
def Turn.weight (X : Externals) (turn : Turn) : Nat := if turn.counts X then 1 else 0

/-- The number of turns. -/
def turnCount (entries : List Entry) : Nat := (entries.filterMap Entry.turn?).length

/-- **The scan finds the survivor** of turns that count once.  The rollbacks are added up to
`usize::MAX`, which is more than there are turns. -/
theorem settingsTurn_eq (X : Externals) {units rolledBack pending bound : Nat}
    (h : units ≤ rolledBack) (entries : List Entry)
    (hpending : min pending bound = min (rolledBack - units) bound)
    (hbound : turnCount entries < bound) (hmax : bound ≤ usizeMax) :
    settingsTurn X none pending entries =
      survivorFrom (Turn.weight X) units rolledBack entries := by
  induction entries generalizing units rolledBack pending bound with
  | nil => rfl
  | cons entry entries ih =>
    cases entry with
    | rolledBack numTurns =>
      refine ih (h.trans (Nat.le_add_right _ _)) ?_ hbound hmax
      unfold addRollback
      omega
    | turn t =>
      have hcount : turnCount (.turn t :: entries) = turnCount entries + 1 := rfl
      rw [hcount] at hbound
      have hzero : 0 < pending ↔ units < rolledBack := by omega
      rw [settingsTurn, survivorFrom]
      cases hcounts : t.counts X with
      | true =>
        have hweight : t.weight X = 1 := if_pos hcounts
        rw [hweight]
        by_cases hpositive : 0 < pending
        · have hlt := hzero.mp hpositive
          have hlater : ¬ rolledBack < units + 1 := by omega
          have hbound' : turnCount entries < bound - 1 := by omega
          have hpending' : min (pending - 1) (bound - 1) =
              min (rolledBack - (units + 1)) (bound - 1) := by omega
          simp only [hpositive, hlater, if_true, if_false]
          exact ih hlt hpending' hbound' (by omega)
        · have hnow : rolledBack < units + 1 := by omega
          simp only [hpositive, hnow, if_true, if_false, Option.none_or, settingsTurn_some]
      | false =>
        have hweight : t.weight X = 0 := if_neg (hcounts ▸ Bool.false_ne_true)
        have hlater : ¬ rolledBack < units + 0 := by omega
        have hrest : settingsTurn X none pending entries =
            survivorFrom (Turn.weight X) (units + 0) rolledBack entries :=
          ih h hpending (by omega) hmax
        rw [hweight, if_neg hlater, ← hrest]
        split <;> rfl

end Scan

/-! ## The theorem -/

/-- The settings are those of the last turn that has a user message in the history. -/
def InSync (rollout : TurnRollout) : Prop :=
  let reconstruction := reconstructHistoryFromRollout X rollout.items
  (rollout.tagged X).map Prod.snd = reconstruction.history ∧
    reconstruction.previousTurnSettings =
      (lastTurn X (rollout.tagged X)).map (fun turn ↦ .ofContext turn.context) ∧
    reconstruction.referenceContextItem =
      (lastTurn X (rollout.tagged X)).map fun turn ↦ turn.context

section Sync

variable {X} {rollout : TurnRollout}

/-- The survivor is one of the turns. -/
theorem mem_of_survivorFrom {weight : Turn → Nat} {units rolledBack : Nat} {entries : List Entry}
    {turn : Turn} (h : survivorFrom weight units rolledBack entries = some turn) :
    turn ∈ entries.filterMap Entry.turn? := by
  induction entries generalizing units rolledBack with
  | nil => cases h
  | cons entry entries ih =>
    cases entry with
    | rolledBack numTurns => exact ih h
    | turn t =>
      rw [survivorFrom] at h
      have hcons : (Entry.turn t :: entries).filterMap Entry.turn? =
        t :: entries.filterMap Entry.turn? := rfl
      rw [hcons, List.mem_cons]
      split at h
      · exact .inl (Option.some.inj h).symm
      · exact .inr (ih h)

/-- Different turns have different contexts. -/
theorem TurnRollout.survivor_injective {weight weight' : Turn → Nat}
    (h : (rollout.survivor weight).map (fun turn ↦ turn.context) =
      (rollout.survivor weight').map fun turn ↦ turn.context) :
    rollout.survivor weight = rollout.survivor weight' := by
  have hmem {weight : Turn → Nat} {turn : Turn} (h : rollout.survivor weight = some turn) :
      turn ∈ rollout.entries.filterMap Entry.turn? := by
    have := mem_of_survivorFrom h
    rwa [List.filterMap_reverse, List.mem_reverse] at this
  cases hfirst : rollout.survivor weight with
  | none =>
    rw [hfirst, Option.map_none, eq_comm, Option.map_eq_none_iff] at h
    exact h.symm
  | some turn =>
    rw [hfirst, Option.map_some, eq_comm, Option.map_eq_some_iff] at h
    obtain ⟨turn', hsecond, hcontext⟩ := h
    have hid : turn'.id = turn.id := by
      have := congrArg TurnContextItem.turnId hcontext
      rw [turn'.context_id, turn.context_id] at this
      exact Option.some.inj this
    rw [hsecond, List.inj_on_of_nodup_map rollout.fresh (hmem hsecond) (hmem hfirst) hid]

/-- Nothing in the rollout replaces the history. -/
theorem TurnRollout.not_replaces (rollout : TurnRollout) : ¬ Replaces rollout.items := by
  rintro ⟨item, hitem, hsome⟩
  obtain ⟨entry, -, hitem⟩ := List.mem_flatMap.mp hitem
  cases entry with
  | rolledBack numTurns =>
    rw [List.mem_singleton.mp hitem] at hsome
    cases hsome
  | turn turn =>
    have hmessage (messages : List Message) : item ∉ messages.map Message.item := by
      intro hmem
      obtain ⟨message, -, rfl⟩ := List.mem_map.mp hmem
      cases message <;> cases hsome
    simp only [Entry.items, Turn.items, List.mem_cons, List.mem_append, hmessage, false_or,
      or_false] at hitem
    rcases hitem with rfl | rfl | hending
    · cases hsome
    · cases hsome
    · cases hend : turn.ending with
      | missing =>
        rw [hend] at hending
        exact absurd hending List.not_mem_nil
      | _ =>
        rw [hend] at hending
        rw [List.mem_singleton.mp hending] at hsome
        cases hsome

theorem TurnRollout.turnCount_lt (rollout : TurnRollout) :
    turnCount rollout.entries.reverse < usizeMax := by
  have hle (entries : List Entry) :
      turnCount entries ≤ (entries.flatMap Entry.items).length := by
    induction entries with
    | nil => exact le_refl _
    | cons entry entries ih =>
      rw [List.flatMap_cons, List.length_append]
      cases entry with
      | rolledBack numTurns => exact ih.trans (Nat.le_add_left _ _)
      | turn turn =>
        have hcount : turnCount (.turn turn :: entries) = turnCount entries + 1 := rfl
        have hlength : 0 < (Entry.items (.turn turn)).length := Nat.succ_pos _
        omega
  have hlength := (hle rollout.entries).trans rollout.length_le
  rw [turnCount, List.filterMap_reverse, List.length_reverse]
  exact lt_of_le_of_lt hlength (by decide)

/-- **The settings of a resumed conversation** are those of the survivor of turns that count
once. -/
theorem reconstruct_settings (X : Externals) (rollout : TurnRollout) :
    (reconstructHistoryFromRollout X rollout.items).previousTurnSettings =
        (rollout.survivor (Turn.weight X)).map (fun turn ↦ .ofContext turn.context) ∧
      (reconstructHistoryFromRollout X rollout.items).referenceContextItem =
        (rollout.survivor (Turn.weight X)).map fun turn ↦ turn.context := by
  obtain ⟨pending, hscan⟩ :=
    scanLoop_entries X rollout.items none 0 [] rollout.entries.reverse
  rw [settingsTurn_eq X (le_refl 0) rollout.entries.reverse rfl rollout.turnCount_lt (le_refl _)]
    at hscan
  have hitems : rollout.items.reverse =
      rollout.entries.reverse.flatMap fun entry ↦ entry.items.reverse := List.reverse_flatMap
  have hplan : RolloutReplayScanner.scan X rollout.items =
      between rollout.items (rollout.survivor (Turn.weight X)) pending := by
    rw [RolloutReplayScanner.scan, hitems]
    exact congrArg RolloutReplayScanner.finalizeActiveSegment hscan
  simp only [reconstructHistoryFromRollout, hplan]
  refine ⟨rfl, ?_⟩
  cases hsurvivor : rollout.survivor (Turn.weight X) with
  | none => rfl
  | some turn => rfl

/-- The history of a resumed conversation, with its turns. -/
theorem map_snd_tagged (X : Externals) (rollout : TurnRollout) :
    (rollout.tagged X).map Prod.snd = (reconstructHistoryFromRollout X rollout.items).history := by
  rw [(history_cases X rollout.items).2 (not_losesReplacement X rollout.not_replaces)]
  exact map_snd_foldl_tagEntry [] rollout.entries

end Sync

/-- **The settings follow the history** exactly when the turn that is left is the same whether
every user message counts, or every turn counts once. -/
theorem resume_in_sync_iff (rollout : TurnRollout) :
    InSync X rollout ↔
      rollout.survivor (Turn.boundaries X) = rollout.survivor (Turn.weight X) := by
  obtain ⟨hsettings, hreference⟩ := reconstruct_settings X rollout
  rw [InSync, lastTurn_tagged, hsettings, hreference]
  constructor
  · rintro ⟨-, -, hcontext⟩
    exact (TurnRollout.survivor_injective hcontext).symm
  · intro hsame
    rw [hsame]
    exact ⟨map_snd_tagged X rollout, rfl, rfl⟩

namespace Sample

theorem fits_c : "c".utf8ByteSize ≤ isizeMax := by decide

/-- A turn that receives messages of the user. -/
def turn (id : Str) (texts : List Str) : Turn where
  id
  collaborationModeKind := .lit "default" Str.fits_default
  before := [.event ⟨.lit "" Str.fits_empty, none, [], []⟩]
  context := ⟨some id, .lit "/", .lit "model" fits_model, none, none, .lit "" Str.fits_empty⟩
  after := texts.map fun text ↦ .response (userMessage text)
  ending := .complete
  context_id := rfl

/-- Two turns, of which the second has two messages, and a rollback of one turn. -/
def steered : TurnRollout where
  entries := [.turn (turn (.lit "1" fits_1) [.lit "a" fits_a]),
    .turn (turn (.lit "2") [.lit "b" fits_b, .lit "c" fits_c]), .rolledBack 1]
  fresh := by decide
  length_le := by decide

end Sample

/-- The turn with two messages keeps the first of them in the history, but the settings are
those of the turn in front of it. -/
theorem resume_out_of_sync :
    (reconstructHistoryFromRollout Sample.externals Sample.steered.items).history =
        [Sample.userMessage (.lit "a"), Sample.userMessage (.lit "b")] ∧
      (lastTurn Sample.externals (Sample.steered.tagged Sample.externals)).map Turn.id =
        some (.lit "2") ∧
      (reconstructHistoryFromRollout Sample.externals
        Sample.steered.items).referenceContextItem.bind TurnContextItem.turnId =
          some (.lit "1") := by
  decide

end Praxis.Context
