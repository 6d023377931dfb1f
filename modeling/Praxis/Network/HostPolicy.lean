import Praxis.Network.Soundness

/-!
# The policy for a host

`evaluate_host_policy` asks `host_blocked` first and a decider afterwards.  The decider may allow
what no list allows; it is not asked about hosts that are denied or local (`hostBlocked_cases`).

A host of which nothing is left when it is normalised is not looked up in any list, and counts as
one that no list allows.  So the decider is asked about it whatever the deny list says, and
`evaluateHostPolicy_sound_iff` has this case for its condition.
-/

namespace Praxis.Network

open Foundation

/-! ## Requests and decisions -/

inductive NetworkProtocol where
  | http
  | httpsConnect
  | socks5Tcp
  | socks5Udp
  deriving DecidableEq

inductive NetworkPolicyDecision where
  | deny
  | ask
  deriving DecidableEq

def NetworkPolicyDecision.asStr : NetworkPolicyDecision → String
  | deny => "deny"
  | ask => "ask"

inductive NetworkDecisionSource where
  | baselinePolicy
  | modeGuard
  | proxyState
  | decider
  deriving DecidableEq

def NetworkDecisionSource.asStr : NetworkDecisionSource → String
  | baselinePolicy => "baseline_policy"
  | modeGuard => "mode_guard"
  | proxyState => "proxy_state"
  | decider => "decider"

structure NetworkPolicyRequest where
  protocol : NetworkProtocol
  host : Text
  port : UInt16
  clientAddr : Option Text
  method : Option Text
  command : Option Text
  execPolicyHint : Option Text

inductive NetworkDecision where
  | allow
  | deny (reason : String) (source : NetworkDecisionSource) (decision : NetworkPolicyDecision)
  deriving DecidableEq

/-- `NetworkDecision::deny_with_source`. -/
def NetworkDecision.denyWithSource (reason : String) (source : NetworkDecisionSource) :
    NetworkDecision :=
  .deny (if reason.isEmpty then "policy_denied" else reason) source .deny

def HostBlockReason.asStr : HostBlockReason → String
  | denied => "denied"
  | notAllowed => "not_allowed"
  | notAllowedLocal => "not_allowed_local"

/-- A decider answers a request. -/
abbrev NetworkPolicyDecider := NetworkPolicyRequest → NetworkDecision

/-- `map_decider_decision`. -/
def mapDeciderDecision : NetworkDecision → NetworkDecision
  | .allow => .allow
  | .deny reason _ decision => .deny reason .decider decision

/-- `PolicyAuditEventArgs`. -/
structure PolicyAuditEvent where
  scope : String
  decision : String
  source : String
  reason : String
  protocol : NetworkProtocol
  serverAddress : Text
  serverPort : UInt16
  method : Option Text
  clientAddr : Option Text
  policyOverride : Bool

/-! ## The evaluation -/

variable {X : Externals}

/-- The decision on what `host_blocked` has found, and whether it overrides the policy. -/
def decideHost (decider : Option NetworkPolicyDecider) (request : NetworkPolicyRequest) :
    HostBlockDecision → NetworkDecision × Bool
  | .allowed => (.allow, false)
  | .blocked .notAllowed =>
    match decider with
    | some decider =>
      let deciderDecision := mapDeciderDecision (decider request)
      (deciderDecision, deciderDecision = .allow)
    | none => (.denyWithSource HostBlockReason.notAllowed.asStr .baselinePolicy, false)
  | .blocked reason => (.denyWithSource reason.asStr .baselinePolicy, false)

/-- The event that is emitted for a decision. -/
def auditEvent (request : NetworkPolicyRequest) (decision : NetworkDecision)
    (policyOverride : Bool) : PolicyAuditEvent :=
  let (policyDecision, source, reason) :=
    match decision with
    | .allow =>
      ("allow",
        if policyOverride then NetworkDecisionSource.decider else .baselinePolicy,
        if policyOverride then HostBlockReason.notAllowed.asStr else "allow")
    | .deny reason source decision => (decision.asStr, source, reason)
  { scope := "domain"
    decision := policyDecision
    source := source.asStr
    reason
    protocol := request.protocol
    serverAddress := request.host
    serverPort := request.port
    method := request.method
    clientAddr := request.clientAddr
    policyOverride }

/-- `evaluate_host_policy`, with the state that the reload leaves, or its error. -/
def evaluateHostPolicy (reloaded : Except String (ConfigState X))
    (decider : Option NetworkPolicyDecider) (request : NetworkPolicyRequest) :
    Except String (NetworkDecision × PolicyAuditEvent) := do
  let state ← reloaded
  let (decision, policyOverride) :=
    decideHost decider request (hostBlocked state request.host request.port)
  return (decision, auditEvent request decision policyOverride)

/-! ## Safe hosts -/

variable (X) in
/-- The host is the name of the machine, or an address that is not public, with or without a
scope. -/
def IsLocalName (host : Text) : Prop :=
  withoutScope host = "localhost".toList ∨
    ∃ ip, X.parseIpAddr (withoutScope host) = some ip ∧ isNonPublicIp ip = true

/-- The allowlist has the host itself. -/
def ListedExactly (allowedDomains : List Text) (host : Text) : Prop :=
  ∃ pattern ∈ allowedDomains, ('*' ∉ trim pattern ∧ '?' ∉ trim pattern) ∧
    normalizeHost (trim pattern) = host

variable (X) in
/-- The addresses of a host: its own, or what the resolver answers. -/
def resolve (host : Text) (port : UInt16) : Option (List IpAddr) :=
  match X.parseIpAddr host with
  | some ip => some [ip]
  | none => X.lookupHost host port

/-- No deny pattern has the host, and without local binding it is not local, unless it is listed,
and does not resolve to an address that is not public. -/
structure HostSafe (state : ConfigState X) (host : Text) (port : UInt16) : Prop where
  denied : isMatch state.denySet host = false
  literal : state.config.allowLocalBinding = false → IsLocalName X host →
    ListedExactly (state.config.allowedDomains.getD []) host
  resolved : state.config.allowLocalBinding = false → ¬IsLocalName X host →
    ∀ addrs, resolve X host port = some addrs → ∀ ip ∈ addrs, isNonPublicIp ip = false

/-- The allowlist is there and has the host. -/
def Allowlisted (state : ConfigState X) (host : Text) : Prop :=
  state.config.allowedDomains ≠ none ∧ isMatch state.allowSet host = true

/-- There is a decider, and it allows the request. -/
def DeciderAllows (decider : Option NetworkPolicyDecider) (request : NetworkPolicyRequest) : Prop :=
  ∃ decide, decider = some decide ∧ decide request = .allow

/-! ## The checks say what they should -/

theorem isNonPublicIp_of_isLoopback {ip : IpAddr} (h : ip.isLoopback = true) :
    isNonPublicIp ip = true := by
  cases ip with
  | v4 ip =>
    have hloopback : ipv4InCidr ip (ipv4 127 0 0 0) 8 = true := h
    rw [isNonPublicIp, isNonPublicIpv4, hloopback]
    simp
  | v6 ip =>
    obtain rfl : ip = 1 := of_decide_eq_true h
    decide

theorem isLocalLiteral_iff (host : Host) :
    isLocalLiteral X host = true ↔ IsLocalName X host.text := by
  unfold isLocalLiteral isLoopbackHost IsLocalName
  rw [Bool.or_eq_true, Bool.or_eq_true, decide_eq_true_iff]
  cases X.parseIpAddr (withoutScope host.text) with
  | none => simp
  | some ip =>
    simp only [Option.some.injEq, exists_eq_left']
    rw [or_assoc]
    refine or_congr_right ⟨?_, .inr⟩
    rintro (h | h)
    · exact isNonPublicIp_of_isLoopback h
    · exact h

theorem isExplicitLocalAllowlisted_iff {allowedDomains : List Text} {host : Host} :
    isExplicitLocalAllowlisted allowedDomains host = true ↔
      ListedExactly allowedDomains host.text := by
  unfold isExplicitLocalAllowlisted ListedExactly
  rw [List.any_eq_true]
  refine exists_congr fun pattern ↦ and_congr_right fun _ ↦ ?_
  dsimp only
  by_cases hwild : '*' ∈ trim pattern ∨ '?' ∈ trim pattern
  · rw [if_pos hwild, ite_self]
    refine iff_of_false Bool.false_ne_true ?_
    rintro ⟨⟨hstar, hmark⟩, -⟩
    exact hwild.elim hstar hmark
  · -- The forms that the first check is for have a star.
    have hform : ¬(trim pattern = ['*'] ∨ ['*', '.'] <+: trim pattern ∨
        ['*', '*', '.'] <+: trim pattern) := by
      refine fun h ↦ hwild (.inl ?_)
      rcases h with h | h | h
      · rw [h]
        exact List.mem_singleton_self _
      · exact h.subset List.mem_cons_self
      · exact h.subset List.mem_cons_self
    rw [if_neg hform, if_neg hwild, decide_eq_true_iff, ← not_or]
    exact (and_iff_right hwild).symm

theorem resolve_public {host : Text} {port : UInt16} {addrs : List IpAddr}
    (h : hostResolvesToNonPublicIp X host port = false)
    (haddrs : resolve X host port = some addrs) : ∀ ip ∈ addrs, isNonPublicIp ip = false := by
  unfold hostResolvesToNonPublicIp at h
  unfold resolve at haddrs
  cases hparse : X.parseIpAddr host with
  | some ip =>
    rw [hparse] at h haddrs
    cases haddrs
    intro ip' hip
    rw [List.mem_singleton.mp hip]
    exact h
  | none =>
    rw [hparse] at h haddrs
    dsimp only at h haddrs
    rw [haddrs] at h
    intro ip hip
    rw [← Bool.not_eq_true]
    intro hnonpublic
    exact Bool.false_ne_true (h.symm.trans (List.any_eq_true.mpr ⟨ip, hip, hnonpublic⟩))

/-! ## Soundness -/

variable {state : ConfigState X} {host : Text} {port : UInt16}

/-- What passes the deny list and the check for local hosts is safe. -/
theorem hostSafe_of_checks {host : Host} (hdenied : isMatch state.denySet host.text = false)
    (hlocal : (!state.config.allowLocalBinding &&
      blockedAsLocal X (state.config.allowedDomains.getD []) host port) = false) :
    HostSafe state host.text port := by
  have hblocked (hoff : state.config.allowLocalBinding = false) :
      blockedAsLocal X (state.config.allowedDomains.getD []) host port = false := by
    rwa [hoff, Bool.not_false, Bool.true_and] at hlocal
  refine ⟨hdenied, fun hoff hname ↦ ?_, fun hoff hname addrs haddrs ↦ ?_⟩
  · have h := hblocked hoff
    rw [blockedAsLocal, if_pos ((isLocalLiteral_iff host).mpr hname), Bool.not_eq_false'] at h
    exact isExplicitLocalAllowlisted_iff.mp h
  · have h := hblocked hoff
    rw [blockedAsLocal, if_neg (mt (isLocalLiteral_iff host).mp hname)] at h
    exact resolve_public h haddrs

theorem text_of_parse {input : Text} {host : Host} (h : Host.parse input = some host) :
    host.text = normalizeHost input := by
  unfold Host.parse at h
  split_ifs at h
  cases h
  rfl

theorem parse_eq_none_iff {input : Text} : Host.parse input = none ↔ normalizeHost input = [] := by
  unfold Host.parse
  split_ifs with h
  · exact iff_of_false (fun hnone ↦ by cases hnone) h
  · exact iff_of_true rfl (not_not.mp h)

/-- A host that is allowed is safe and listed; a host that no list allows is safe, or there is
nothing left of it. -/
theorem hostBlocked_cases (state : ConfigState X) (host : Text) (port : UInt16) :
    (hostBlocked state host port = .allowed ∧ HostSafe state (normalizeHost host) port ∧
        Allowlisted state (normalizeHost host)) ∨
      (hostBlocked state host port = .blocked .notAllowed ∧
        (normalizeHost host = [] ∨ HostSafe state (normalizeHost host) port)) ∨
      (∃ reason ≠ .notAllowed, hostBlocked state host port = .blocked reason ∧
        normalizeHost host ≠ []) := by
  unfold hostBlocked
  cases hparse : Host.parse host with
  | none => exact .inr (.inl ⟨rfl, .inl (parse_eq_none_iff.mp hparse)⟩)
  | some name =>
    have htext := text_of_parse hparse
    have hne : normalizeHost host ≠ [] := htext ▸ name.ne_nil
    dsimp only
    rw [← htext] at hne ⊢
    split_ifs with hdenied hlocal hlisted
    · exact .inr (.inr ⟨.denied, nofun, rfl, hne⟩)
    · exact .inr (.inr ⟨.notAllowedLocal, nofun, rfl, hne⟩)
    · rw [Bool.not_eq_true] at hdenied hlocal
      exact .inr (.inl ⟨rfl, .inr (hostSafe_of_checks hdenied hlocal)⟩)
    · rw [Bool.not_eq_true] at hdenied hlocal
      rw [Bool.or_eq_true, not_or, Bool.not_eq_true', Bool.not_eq_false,
        Option.isNone_iff_eq_none] at hlisted
      exact .inl ⟨rfl, hostSafe_of_checks hdenied hlocal, hlisted⟩

variable {decider : Option NetworkPolicyDecider} {request : NetworkPolicyRequest}

theorem evaluate_eq : evaluateHostPolicy (.ok state) decider request =
    .ok ((decideHost decider request (hostBlocked state request.host request.port)).1,
      auditEvent request (decideHost decider request (hostBlocked state request.host
        request.port)).1 (decideHost decider request (hostBlocked state request.host
        request.port)).2) := rfl

theorem decideHost_notAllowed :
    (decideHost decider request (.blocked .notAllowed)).1 = .allow ↔
      DeciderAllows decider request := by
  unfold DeciderAllows
  cases decider with
  | none => exact iff_of_false nofun nofun
  | some decide =>
    simp only [decideHost, Option.some.injEq, exists_eq_left']
    cases hdecision : decide request with
    | allow => exact iff_of_true rfl rfl
    | deny reason source decision => exact iff_of_false nofun nofun

theorem decideHost_other {reason : HostBlockReason} (h : reason ≠ .notAllowed) :
    (decideHost decider request (.blocked reason)).1 ≠ .allow := by
  cases reason with
  | notAllowed => exact absurd rfl h
  | denied => exact nofun
  | notAllowedLocal => exact nofun

/-- A request that is allowed has a safe host that the allowlist or the decider allows. -/
def PolicySound (reloaded : Except String (ConfigState X)) (decider : Option NetworkPolicyDecider)
    (request : NetworkPolicyRequest) : Prop :=
  ∀ event, evaluateHostPolicy reloaded decider request = .ok (.allow, event) →
    ∃ state, reloaded = .ok state ∧
      HostSafe state (normalizeHost request.host) request.port ∧
      (Allowlisted state (normalizeHost request.host) ∨ DeciderAllows decider request)

namespace Reference

/-- All hosts are denied. -/
def denyAll : NetworkProxySettings :=
  { NetworkProxySettings.default with
    enabled := true
    domains := some [⟨"**".toList, .deny⟩] }

/-- A request for a host that is a dot. -/
def dotRequest : NetworkPolicyRequest :=
  ⟨.httpsConnect, ".".toList, 443, none, none, none, none⟩

end Reference

/-- The evaluation is sound, but for hosts of which nothing is left when they are normalised: the
decider may allow these whatever the policy says of the empty name. -/
theorem evaluateHostPolicy_sound_iff {reloaded : Except String (ConfigState X)} :
    PolicySound reloaded decider request ↔
      (normalizeHost request.host = [] → DeciderAllows decider request →
        ∀ state, reloaded = .ok state →
          isMatch state.denySet [] = false ∧
          (state.config.allowLocalBinding = false →
            (IsLocalName X [] → ListedExactly (state.config.allowedDomains.getD []) []) ∧
            (¬IsLocalName X [] → ∀ addrs, resolve X [] request.port = some addrs →
              ∀ ip ∈ addrs, isNonPublicIp ip = false))) := by
  constructor
  · rintro hsound hblank hdecider state rfl
    have hblocked : hostBlocked state request.host request.port = .blocked .notAllowed := by
      rw [hostBlocked, parse_eq_none_iff.mpr hblank]
    have hallow := decideHost_notAllowed.mpr hdecider
    rw [← hblocked] at hallow
    obtain ⟨_, hstate, hsafe, -⟩ := hsound _ (evaluate_eq.trans (by rw [hallow]))
    cases hstate
    rw [hblank] at hsafe
    exact ⟨hsafe.denied, fun hoff ↦ ⟨hsafe.literal hoff, hsafe.resolved hoff⟩⟩
  · intro hblank event hevaluate
    obtain ⟨state, rfl, hstate⟩ := bind_eq_ok_iff.mp hevaluate
    have hallow : (decideHost decider request
        (hostBlocked state request.host request.port)).1 = .allow :=
      congrArg Prod.fst (Except.ok.inj hstate)
    refine ⟨state, rfl, ?_⟩
    rcases hostBlocked_cases state request.host request.port with
      ⟨-, hsafe, hlisted⟩ | ⟨hblocked, hsafe⟩ | ⟨reason, hreason, hblocked, -⟩
    · exact ⟨hsafe, .inl hlisted⟩
    · rw [hblocked] at hallow
      have hdecider := decideHost_notAllowed.mp hallow
      refine ⟨?_, .inr hdecider⟩
      rcases hsafe with hempty | hsafe
      · obtain ⟨hdenied, hlocal⟩ := hblank hempty hdecider state rfl
        rw [hempty]
        exact ⟨hdenied, fun hoff ↦ (hlocal hoff).1, fun hoff ↦ (hlocal hoff).2⟩
      · exact hsafe
    · rw [hblocked] at hallow
      exact absurd hallow (decideHost_other hreason)

/-- A name that is not empty. -/
theorem evaluateHostPolicy_sound_name :
    PolicySound (buildConfigState Reference.externals Reference.denyAll) (some fun _ ↦ .allow)
      { Reference.dotRequest with host := "example.com".toList } :=
  evaluateHostPolicy_sound_iff.mpr fun hblank ↦ absurd hblank (by decide)

/-- The deny list has every host, and a decider gets a request through it. -/
theorem decider_overrides_denylist :
    ∃ state, buildConfigState Reference.externals Reference.denyAll = .ok state ∧
      isMatch state.denySet (normalizeHost Reference.dotRequest.host) = true ∧
      ∃ event, evaluateHostPolicy (.ok state) (some fun _ ↦ .allow) Reference.dotRequest =
        .ok (.allow, event) :=
  ⟨_, rfl, by decide, _, rfl⟩

end Praxis.Network
