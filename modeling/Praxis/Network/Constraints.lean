import Praxis.Network.Policy

/-!
# Managed constraints and the decision on a host

The settings of the network proxy (`network-proxy/src/config.rs`), the check of the settings
against what a managed configuration prescribes (`state.rs`), and the decision on a host by
the state that is built from them (`runtime.rs`).
-/

namespace Praxis.Network

open Foundation

/-! ## Settings -/

/-- `NetworkDomainPermission`.  Of two entries for a pattern the greater one counts. -/
inductive NetworkDomainPermission where
  | none
  | allow
  | deny
  deriving DecidableEq

/-- The place of a permission in the order of the variants. -/
def NetworkDomainPermission.rank : NetworkDomainPermission → Nat
  | none => 0
  | allow => 1
  | deny => 2

structure NetworkDomainPermissionEntry where
  pattern : Text
  permission : NetworkDomainPermission
  deriving DecidableEq

/-- One entry of `effective_entries`: a pattern keeps its place and takes the greater
permission. -/
def addEntry (entries : List NetworkDomainPermissionEntry) (entry : NetworkDomainPermissionEntry) :
    List NetworkDomainPermissionEntry :=
  if entries.any (·.pattern = entry.pattern) then
    entries.map fun e ↦
      if e.pattern = entry.pattern ∧ e.permission.rank < entry.permission.rank then
        { e with permission := entry.permission }
      else e
  else entries ++ [entry]

/-- `NetworkDomainPermissions::effective_entries`. -/
def effectiveEntries (entries : List NetworkDomainPermissionEntry) :
    List NetworkDomainPermissionEntry :=
  entries.foldl addEntry []

inductive NetworkUnixSocketPermission where
  | allow
  | none
  deriving DecidableEq

inductive NetworkMode where
  | limited
  | full
  deriving DecidableEq

/-- The debug form of a mode. -/
def NetworkMode.debug : NetworkMode → String
  | limited => "Limited"
  | full => "Full"

/-- `network_mode_rank`. -/
def networkModeRank : NetworkMode → Nat
  | .limited => 0
  | .full => 1

/-- `NetworkProxySettings`. -/
structure NetworkProxySettings where
  enabled : Bool
  allowUpstreamProxy : Bool
  dangerouslyAllowNonLoopbackProxy : Bool
  dangerouslyAllowAllUnixSockets : Bool
  mode : NetworkMode
  domains : Option (List NetworkDomainPermissionEntry)
  unixSockets : Option (List (Text × NetworkUnixSocketPermission))
  allowLocalBinding : Bool
  mitm : Bool

namespace NetworkProxySettings

/-- `Default for NetworkProxySettings`. -/
def default : NetworkProxySettings where
  enabled := false
  allowUpstreamProxy := true
  dangerouslyAllowNonLoopbackProxy := false
  dangerouslyAllowAllUnixSockets := false
  mode := .full
  domains := none
  unixSockets := none
  allowLocalBinding := false
  mitm := false

/-- `domain_entries`: no list where it would be empty. -/
def domainEntries (settings : NetworkProxySettings) (permission : NetworkDomainPermission) :
    Option (List Text) :=
  (settings.domains.map fun entries ↦
    ((effectiveEntries entries).filter (·.permission = permission)).map (·.pattern)).filter
      fun entries ↦ !entries.isEmpty

/-- `allowed_domains`. -/
def allowedDomains (settings : NetworkProxySettings) : Option (List Text) :=
  settings.domainEntries .allow

/-- `denied_domains`. -/
def deniedDomains (settings : NetworkProxySettings) : Option (List Text) :=
  settings.domainEntries .deny

/-- `allow_unix_sockets`. -/
def allowUnixSockets (settings : NetworkProxySettings) : List Text :=
  ((settings.unixSockets.getD []).filter (·.2 = .allow)).map (·.1)

end NetworkProxySettings

/-- `NetworkProxyConstraints`. -/
structure NetworkProxyConstraints where
  enabled : Option Bool
  mode : Option NetworkMode
  allowUpstreamProxy : Option Bool
  dangerouslyAllowNonLoopbackProxy : Option Bool
  dangerouslyAllowAllUnixSockets : Option Bool
  allowedDomains : Option (List Text)
  allowlistExpansionEnabled : Option Bool
  deniedDomains : Option (List Text)
  denylistExpansionEnabled : Option Bool
  allowUnixSockets : Option (List Text)
  allowLocalBinding : Option Bool

/-- `Default for NetworkProxyConstraints`. -/
def NetworkProxyConstraints.default : NetworkProxyConstraints :=
  ⟨none, none, none, none, none, none, none, none, none, none, none⟩

/-! ## Validation -/

/-- `NetworkProxyConstraintError`. -/
inductive NetworkProxyConstraintError where
  | invalidValue (fieldName candidate allowed : String)
  deriving DecidableEq

open NetworkProxyConstraintError

variable (X : Externals)

/-- `validate_non_global_wildcard_domain_patterns`. -/
def validateNonGlobalWildcardDomainPatterns (fieldName : String) (patterns : List Text) :
    Except NetworkProxyConstraintError Unit :=
  match patterns.find? isGlobalWildcardDomainPattern with
  | some pattern => .error (invalidValue fieldName (String.ofList (trim pattern))
      "exact hosts or scoped wildcards like *.example.com or **.example.com")
  | none => .ok ()

/-- A switch that the managed configuration turns off. -/
def validateSwitch (fieldName : String) (candidate allowed : Bool) :
    Except NetworkProxyConstraintError Unit :=
  if candidate && !allowed then
    .error (invalidValue fieldName "true" "false (disabled by managed config)")
  else .ok ()

/-- The mode is no wider than the managed one. -/
def validateMode (candidate maxMode : NetworkMode) : Except NetworkProxyConstraintError Unit :=
  if networkModeRank candidate > networkModeRank maxMode then
    .error (invalidValue "network.mode" candidate.debug (maxMode.debug ++ " or more restrictive"))
  else .ok ()

local instance lawfulEntry : LawfulBEq Text := inferInstance

/-- The entries as they are compared: without regard to case. -/
def lowered (entries : List Text) : List Text := entries.map toAsciiLowercase

/-- The entries of the first list, compared without regard to case, that no other list has.
The order of a hash set is left open by the source; here it is that of the list. -/
def missing (required : List Text) (others : List (List Text)) : List Text :=
  (lowered required).dedup.filter fun entry ↦ others.all fun other ↦ entry ∉ lowered other

/-- Two lists of entries have the same members. -/
def sameSet (left right : List Text) : Bool :=
  left.all (· ∈ right) && right.all (· ∈ left)

/-- The managed patterns allow the candidate. -/
def accepts (managed : List Text) (candidate : Text) : Bool :=
  managed.any fun entry ↦
    (DomainPattern.parseForConstraints X entry).allows (DomainPattern.parseForConstraints X candidate)

/-- The allowed domains against those of the managed configuration. -/
def validateAllowedDomains (managed : List Text) (expansion : Option Bool)
    (candidate denied : List Text) : Except NetworkProxyConstraintError Unit := do
  validateNonGlobalWildcardDomainPatterns "network.allowed_domains" managed
  match expansion with
  | some true =>
    let missing := missing managed [candidate, denied]
    if missing = [] then .ok ()
    else .error (invalidValue "network.allowed_domains" "missing managed allowed_domains entries"
      (X.debugList missing))
  | some false =>
    let expected := (lowered managed).filter (· ∉ lowered denied)
    if sameSet (lowered candidate) expected then .ok ()
    else .error (invalidValue "network.allowed_domains" (X.debugList candidate)
      "must match managed allowed_domains")
  | none =>
    let invalid := candidate.filter fun entry ↦ !accepts X managed entry
    if invalid = [] then .ok ()
    else .error (invalidValue "network.allowed_domains" (X.debugList invalid)
      "subset of managed allowed_domains")

/-- The denied domains against those of the managed configuration. -/
def validateDeniedDomains (managed : List Text) (expansion : Option Bool)
    (candidate : List Text) : Except NetworkProxyConstraintError Unit := do
  validateNonGlobalWildcardDomainPatterns "network.denied_domains" managed
  match expansion with
  | some false =>
    if sameSet (lowered candidate) (lowered managed) then .ok ()
    else .error (invalidValue "network.denied_domains" (X.debugList candidate)
      "must match managed denied_domains")
  | _ =>
    let missing := missing managed [candidate]
    if missing = [] then .ok ()
    else .error (invalidValue "network.denied_domains" "missing managed denied_domains entries"
      (X.debugList missing))

/-- The allowed sockets against those of the managed configuration. -/
def validateUnixSockets (managed candidate : List Text) :
    Except NetworkProxyConstraintError Unit :=
  let invalid := candidate.filter fun entry ↦ toAsciiLowercase entry ∉ lowered managed
  if invalid = [] then .ok ()
  else .error (invalidValue "network.allow_unix_sockets" (X.debugList invalid)
    "subset of managed allow_unix_sockets")

/-- A check that is made only where the managed configuration prescribes something. -/
def validateSome {α : Type} (constraint : Option α)
    (check : α → Except NetworkProxyConstraintError Unit) :
    Except NetworkProxyConstraintError Unit :=
  match constraint with
  | some value => check value
  | none => .ok ()

/-- `validate_policy_against_constraints`. -/
def validatePolicyAgainstConstraints (config : NetworkProxySettings)
    (constraints : NetworkProxyConstraints) : Except NetworkProxyConstraintError Unit := do
  let configAllowedDomains := config.allowedDomains.getD []
  let configDeniedDomains := config.deniedDomains.getD []
  validateNonGlobalWildcardDomainPatterns "network.denied_domains" configDeniedDomains
  validateSome constraints.enabled (validateSwitch "network.enabled" config.enabled)
  validateSome constraints.mode (validateMode config.mode)
  validateSome constraints.allowUpstreamProxy
    (validateSwitch "network.allow_upstream_proxy" config.allowUpstreamProxy)
  validateSome constraints.dangerouslyAllowNonLoopbackProxy
    (validateSwitch "network.dangerously_allow_non_loopback_proxy"
      config.dangerouslyAllowNonLoopbackProxy)
  validateSwitch "network.dangerously_allow_all_unix_sockets" config.dangerouslyAllowAllUnixSockets
    (constraints.dangerouslyAllowAllUnixSockets.getD constraints.allowUnixSockets.isNone)
  validateSome constraints.allowLocalBinding
    (validateSwitch "network.allow_local_binding" config.allowLocalBinding)
  validateSome constraints.allowedDomains fun managed ↦
    validateAllowedDomains X managed constraints.allowlistExpansionEnabled configAllowedDomains
      configDeniedDomains
  validateSome constraints.deniedDomains fun managed ↦
    validateDeniedDomains X managed constraints.denylistExpansionEnabled configDeniedDomains
  validateSome constraints.allowUnixSockets fun managed ↦
    validateUnixSockets X managed config.allowUnixSockets

/-! ## The decision -/

/-- `ConfigState`, with what the decision on a host reads. -/
structure ConfigState where
  config : NetworkProxySettings
  allowSet : List X.Glob
  denySet : List X.Glob

/-- `validate_unix_socket_allowlist_paths`. -/
def validateUnixSocketAllowlistPaths (config : NetworkProxySettings) : Except String Unit :=
  match config.allowUnixSockets.findIdx? fun path ↦ !X.validUnixSocketPath path with
  | some index => .error s!"invalid network.allow_unix_sockets[{index}]"
  | none => .ok ()

/-- The error as `into_anyhow` shows it. -/
def NetworkProxyConstraintError.display : NetworkProxyConstraintError → String
  | invalidValue fieldName candidate allowed =>
    s!"invalid value for {fieldName}: {candidate} (allowed {allowed})"

/-- `build_config_state`. -/
def buildConfigState (config : NetworkProxySettings) : Except String (ConfigState X) := do
  validateUnixSocketAllowlistPaths X config
  let allowedDomains := config.allowedDomains.getD []
  let deniedDomains := config.deniedDomains.getD []
  (validateNonGlobalWildcardDomainPatterns "network.denied_domains" deniedDomains).mapError
    (·.display)
  let denySet ← compileDenylistGlobset X deniedDomains
  let allowSet ← compileAllowlistGlobset X allowedDomains
  if config.mitm then X.newMitmState config.allowUpstreamProxy
  return ⟨config, allowSet, denySet⟩

inductive HostBlockReason where
  | denied
  | notAllowed
  | notAllowedLocal
  deriving DecidableEq

inductive HostBlockDecision where
  | allowed
  | blocked (reason : HostBlockReason)
  deriving DecidableEq

/-- `is_explicit_local_allowlisted`. -/
def isExplicitLocalAllowlisted (allowedDomains : List Text) (host : Host) : Bool :=
  allowedDomains.any fun pattern ↦
    let pattern := trim pattern
    if pattern = ['*'] ∨ ['*', '.'] <+: pattern ∨ ['*', '*', '.'] <+: pattern then false
    else if '*' ∈ pattern ∨ '?' ∈ pattern then false
    else normalizeHost pattern = host.text

/-- The host is a local or private address, written out. -/
def isLocalLiteral (host : Host) : Bool :=
  isLoopbackHost X host ||
    match X.parseIpAddr (withoutScope host.text) with
    | some ip => isNonPublicIp ip
    | none => false

/-- What keeps a host of a local network away. -/
def blockedAsLocal (allowedDomains : List Text) (host : Host) (port : UInt16) : Bool :=
  if isLocalLiteral X host then !isExplicitLocalAllowlisted allowedDomains host
  else hostResolvesToNonPublicIp X host.text port

variable {X} in
/-- `host_blocked`, for the state after a reload. -/
def hostBlocked (state : ConfigState X) (host : Text) (port : UInt16) : HostBlockDecision :=
  match Host.parse host with
  | none => .blocked .notAllowed
  | some host =>
    let allowedDomains := state.config.allowedDomains
    if isMatch state.denySet host.text then .blocked .denied
    else if !state.config.allowLocalBinding && blockedAsLocal X (allowedDomains.getD []) host port
    then .blocked .notAllowedLocal
    else if allowedDomains.isNone || !isMatch state.allowSet host.text then .blocked .notAllowed
    else .allowed

end Praxis.Network
