import Praxis.Context.History

/-!
# Rebuilding a conversation from its rollout

`rollout_reconstruction`: when a conversation is resumed, its rollout is scanned
from the newest item to the oldest (`RolloutReplayScanner`).  The scan cuts the
rollout into segments, one a turn, discards those that were rolled back, and finds
the newest compaction to start from, and the settings of the last turn.  The items
behind the compaction are then replayed (`materialize_history_from_replay`).
-/

namespace Praxis.Context

open Foundation Protocol

/-! ## Segments -/

/-- `PreviousTurnSettings`. -/
structure PreviousTurnSettings where
  model : Str
  realtimeActive : Option Bool
deriving DecidableEq

/-- The settings of a turn. -/
def PreviousTurnSettings.ofContext (context : TurnContextItem) : PreviousTurnSettings :=
  ⟨context.model, context.realtimeActive⟩

/-- `TurnReferenceContextItem`. -/
inductive TurnReferenceContextItem where
  | neverSet
  | cleared
  | latest (item : TurnContextItem)
deriving DecidableEq

/-- `into_resolved`. -/
def TurnReferenceContextItem.intoResolved : TurnReferenceContextItem → Option TurnContextItem
  | .neverSet | .cleared => none
  | .latest item => some item

/-- `ActiveReplaySegment`. -/
structure ActiveReplaySegment where
  turnId : Option Str := none
  countsAsUserTurn : Bool := false
  previousTurnSettings : Option PreviousTurnSettings := none
  referenceContextItem : TurnReferenceContextItem := .neverSet
  baseReplacementHistory : Option (List ResponseItem) := none

/-- `turn_ids_are_compatible`. -/
def turnIdsAreCompatible (activeTurnId itemTurnId : Option Str) : Bool :=
  activeTurnId.all fun turnId ↦ itemTurnId.all fun itemTurnId ↦ itemTurnId == turnId

/-! ## The scanner -/

/-- `RolloutReplayScanner`. -/
structure RolloutReplayScanner where
  baseReplacementHistory : Option (List ResponseItem)
  previousTurnSettings : Option PreviousTurnSettings
  referenceContextItem : TurnReferenceContextItem
  pendingRollbackTurns : Nat
  rolloutSuffix : List RolloutItem
  activeSegment : Option ActiveReplaySegment

/-- `usize::MAX`. -/
def usizeMax : Nat := 2 ^ 64 - 1

/-- The turns that are still to be discarded, with those of a marker. -/
def addRollback (pendingRollbackTurns : Nat) (numTurns : UInt32) : Nat :=
  min (pendingRollbackTurns + numTurns.toNat) usizeMax

namespace RolloutReplayScanner

variable (X : Externals)

/-- `RolloutReplayScanner::new`. -/
def new (rolloutItems : List RolloutItem) : RolloutReplayScanner where
  baseReplacementHistory := none
  previousTurnSettings := none
  referenceContextItem := .neverSet
  pendingRollbackTurns := 0
  rolloutSuffix := rolloutItems
  activeSegment := none

/-- `finalize_active_segment`, of the segment. -/
def finalizeSegment (scanner : RolloutReplayScanner) (segment : ActiveReplaySegment) :
    RolloutReplayScanner :=
  if 0 < scanner.pendingRollbackTurns then
    if segment.countsAsUserTurn then
      { scanner with pendingRollbackTurns := scanner.pendingRollbackTurns - 1 }
    else scanner
  else
    { scanner with
      baseReplacementHistory :=
        if scanner.baseReplacementHistory = none then segment.baseReplacementHistory
        else scanner.baseReplacementHistory
      previousTurnSettings :=
        if scanner.previousTurnSettings = none ∧ segment.countsAsUserTurn then
          segment.previousTurnSettings
        else scanner.previousTurnSettings
      referenceContextItem :=
        if scanner.referenceContextItem = .neverSet ∧
            (segment.countsAsUserTurn ∨ segment.referenceContextItem = .cleared) then
          segment.referenceContextItem
        else scanner.referenceContextItem }

/-- `finalize_active_segment`, of the scanner. -/
def finalizeActiveSegment (scanner : RolloutReplayScanner) : RolloutReplayScanner :=
  match scanner.activeSegment with
  | none => scanner
  | some segment => { scanner with activeSegment := none }.finalizeSegment segment

/-- `active_segment`, changed by a function. -/
def updateSegment (scanner : RolloutReplayScanner)
    (f : ActiveReplaySegment → ActiveReplaySegment) : RolloutReplayScanner :=
  { scanner with activeSegment := some (f (scanner.activeSegment.getD {})) }

/-- The branch of `scan_item` for a compaction, with the items behind it. -/
def scanCompacted (scanner : RolloutReplayScanner) (compacted : CompactedItem)
    (behind : List RolloutItem) : RolloutReplayScanner :=
  let segment := scanner.activeSegment.getD {}
  let segment :=
    if segment.referenceContextItem = .neverSet then
      { segment with referenceContextItem := .cleared }
    else segment
  match segment.baseReplacementHistory, compacted.replacementHistory with
  | none, some replacementHistory =>
    { scanner with
      activeSegment := some { segment with baseReplacementHistory := some replacementHistory }
      rolloutSuffix := behind }
  | _, _ => { scanner with activeSegment := some segment }

/-- `scan_turn_aborted`. -/
def scanTurnAborted (scanner : RolloutReplayScanner) (turnId : Option Str) :
    RolloutReplayScanner :=
  match scanner.activeSegment with
  | some segment =>
    { scanner with activeSegment := some { segment with turnId := segment.turnId.or turnId } }
  | none =>
    match turnId with
    | some turnId => { scanner with activeSegment := some { turnId := some turnId } }
    | none => scanner

/-- The branch of `scan_item` for the context of a turn. -/
def scanTurnContext (segment : ActiveReplaySegment) (context : TurnContextItem) :
    ActiveReplaySegment :=
  let segment := { segment with turnId := segment.turnId.or context.turnId }
  if turnIdsAreCompatible segment.turnId context.turnId then
    { segment with
      previousTurnSettings := some (.ofContext context)
      referenceContextItem :=
        if segment.referenceContextItem = .neverSet then .latest context
        else segment.referenceContextItem }
  else segment

/-- `scan_item`, with the items behind the item. -/
def scanItem (scanner : RolloutReplayScanner) (behind : List RolloutItem) :
    RolloutItem → RolloutReplayScanner
  | .compacted compacted => scanner.scanCompacted compacted behind
  | .eventMsg (.threadRolledBack numTurns) =>
    { scanner with pendingRollbackTurns := addRollback scanner.pendingRollbackTurns numTurns }
  | .eventMsg (.turnComplete turnId) =>
    scanner.updateSegment fun segment ↦ { segment with turnId := segment.turnId.or (some turnId) }
  | .eventMsg (.turnAborted turnId) => scanner.scanTurnAborted turnId
  | .eventMsg (.userMessage _) =>
    scanner.updateSegment fun segment ↦ { segment with countsAsUserTurn := true }
  | .turnContext context => scanner.updateSegment fun segment ↦ scanTurnContext segment context
  | .eventMsg (.turnStarted turnId _) =>
    if scanner.activeSegment.any fun segment ↦ turnIdsAreCompatible segment.turnId (some turnId) then
      scanner.finalizeActiveSegment
    else scanner
  | .responseItem item =>
    scanner.updateSegment fun segment ↦
      { segment with countsAsUserTurn := segment.countsAsUserTurn || isUserTurnBoundary X item }
  | .eventMsg _ | .sessionMeta _ => scanner

/-- `has_enough_metadata`. -/
def hasEnoughMetadata (scanner : RolloutReplayScanner) : Bool :=
  scanner.baseReplacementHistory.isSome && scanner.previousTurnSettings.isSome &&
    scanner.referenceContextItem ≠ .neverSet

/-- The loop of `scan`, from the newest item to the oldest, with the items that were scanned. -/
def scanLoop (scanner : RolloutReplayScanner) (behind : List RolloutItem) :
    List RolloutItem → RolloutReplayScanner
  | [] => scanner
  | item :: items =>
    let scanner := scanner.scanItem X behind item
    if scanner.hasEnoughMetadata then scanner else scanLoop scanner (item :: behind) items

/-- `scan`. -/
def scan (rolloutItems : List RolloutItem) : RolloutReplayScanner :=
  ((new rolloutItems).scanLoop X [] rolloutItems.reverse).finalizeActiveSegment

end RolloutReplayScanner

/-! ## Replay -/

variable (X : Externals)

/-- The rule for an item in `materialize_history_from_replay`. -/
def replayItem (history : List ResponseItem) : RolloutItem → List ResponseItem
  | .responseItem item => recordItem X history item
  | .compacted compacted => compacted.replacementHistory.getD history
  | .eventMsg (.threadRolledBack numTurns) => dropLastNUserTurns X history numTurns
  | .eventMsg _ | .turnContext _ | .sessionMeta _ => history

/-- The items are replayed from a history. -/
def replay (history : List ResponseItem) (items : List RolloutItem) : List ResponseItem :=
  items.foldl (replayItem X) history

/-- `materialize_history_from_replay`. -/
def materializeHistoryFromReplay (baseReplacementHistory : Option (List ResponseItem))
    (rolloutSuffix : List RolloutItem) : List ResponseItem :=
  replay X (baseReplacementHistory.getD []) rolloutSuffix

/-- `RolloutReconstruction`. -/
structure RolloutReconstruction where
  history : List ResponseItem
  previousTurnSettings : Option PreviousTurnSettings
  referenceContextItem : Option TurnContextItem

/-- `reconstruct_history_from_rollout`. -/
def reconstructHistoryFromRollout (rolloutItems : List RolloutItem) : RolloutReconstruction :=
  let plan := RolloutReplayScanner.scan X rolloutItems
  { history := materializeHistoryFromReplay X plan.baseReplacementHistory plan.rolloutSuffix
    previousTurnSettings := plan.previousTurnSettings
    referenceContextItem := plan.referenceContextItem.intoResolved }

end Praxis.Context
