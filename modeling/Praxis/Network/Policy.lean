import Mathlib.Data.List.DropRight
import Praxis.Context.History
import Praxis.Foundation.Glob

/-!
# Hosts and domain patterns

The network proxy decides on a host by its name (`network-proxy/src/policy.rs`).  A pattern
for names is an exact name, `*.` in front of a name for its subdomains, or `**.` in front of
a name for the name and its subdomains; names may have wildcards of their own.

A pattern is read twice.  For matching it is normalised (`normalizePattern`) and compiled to
globs (`expandDomainPattern`).  For the comparison with the patterns of a managed
configuration it is parsed by `parseForConstraints`, which hands names without wildcards to
the `url` crate.  `DomainPattern.allows` compares what comes out.

The crates `globset` and `url`, the parsing of IP addresses and the lookup of names are
parameters (`Externals`).
-/

namespace Praxis.Network

open Foundation

abbrev Text := List Char

/-- `str::trim`. -/
def trim (text : Text) : Text := Context.trimEnd (Context.trimStart text)

/-- `to_ascii_lowercase`. -/
def toAsciiLowercase (text : Text) : Text := text.map Char.toLower

/-- `trim_end_matches('.')`. -/
def trimEndDots (text : Text) : Text := text.rdropWhile (· = '.')

/-! ## Addresses -/

inductive IpAddr where
  | v4 (ip : BitVec 32)
  | v6 (ip : BitVec 128)
  deriving DecidableEq

/-- `Ipv4Addr::from([a, b, c, d])`. -/
def ipv4 (a b c d : Nat) : BitVec 32 := BitVec.ofNat 32 (((a * 256 + b) * 256 + c) * 256 + d)

/-- `ipv4_in_cidr`. -/
def ipv4InCidr (ip base : BitVec 32) (bits : Nat) : Bool :=
  let mask : BitVec 32 := if bits = 0 then 0 else BitVec.allOnes 32 <<< (32 - bits)
  ip &&& mask = base &&& mask

/-- `is_non_public_ipv4`, with the classes of the standard library written out. -/
def isNonPublicIpv4 (ip : BitVec 32) : Bool :=
  -- `is_loopback`
  ipv4InCidr ip (ipv4 127 0 0 0) 8
  -- `is_private`
  || ipv4InCidr ip (ipv4 10 0 0 0) 8 || ipv4InCidr ip (ipv4 172 16 0 0) 12
  || ipv4InCidr ip (ipv4 192 168 0 0) 16
  -- `is_link_local`, `is_unspecified`, `is_multicast`, `is_broadcast`
  || ipv4InCidr ip (ipv4 169 254 0 0) 16 || ip = 0 || ipv4InCidr ip (ipv4 224 0 0 0) 4
  || ip = BitVec.allOnes 32
  || ipv4InCidr ip (ipv4 0 0 0 0) 8 || ipv4InCidr ip (ipv4 100 64 0 0) 10
  || ipv4InCidr ip (ipv4 192 0 0 0) 24 || ipv4InCidr ip (ipv4 192 0 2 0) 24
  || ipv4InCidr ip (ipv4 198 18 0 0) 15 || ipv4InCidr ip (ipv4 198 51 100 0) 24
  || ipv4InCidr ip (ipv4 203 0 113 0) 24 || ipv4InCidr ip (ipv4 240 0 0 0) 4

/-- `Ipv6Addr::to_ipv4`: the addresses `::a.b.c.d` and `::ffff:a.b.c.d`. -/
def toIpv4 (ip : BitVec 128) : Option (BitVec 32) :=
  let high := ip >>> 32
  if high = 0 ∨ high = 0xffff then some (ip.truncate 32) else none

/-- The address has the given leading bits. -/
def ipv6HasLead (ip : BitVec 128) (lead : BitVec 128) (bits : Nat) : Bool :=
  ip >>> (128 - bits) = lead

/-- `is_non_public_ipv6`. -/
def isNonPublicIpv6 (ip : BitVec 128) : Bool :=
  match toIpv4 ip with
  | some v4 => isNonPublicIpv4 v4 || ip = 1
  | none =>
    -- loopback, unspecified, multicast, unique local, unicast link local
    ip = 1 || ip = 0 || ipv6HasLead ip 0xff 8 || ipv6HasLead ip 0x7e 7 || ipv6HasLead ip 0x3fa 10

/-- `is_non_public_ip`. -/
def isNonPublicIp : IpAddr → Bool
  | .v4 ip => isNonPublicIpv4 ip
  | .v6 ip => isNonPublicIpv6 ip

/-- `IpAddr::is_loopback`. -/
def IpAddr.isLoopback : IpAddr → Bool
  | .v4 ip => ipv4InCidr ip (ipv4 127 0 0 0) 8
  | .v6 ip => ip = 1

/-! ## What the proxy takes from elsewhere -/

structure Externals where
  /-- `url::Host::parse`, as it is displayed. -/
  parseUrlHost : Text → Option Text
  /-- `globset::Glob`. -/
  Glob : Type
  /-- `GlobBuilder::build` for a glob that does not heed case. -/
  buildGlob : Text → Option Glob
  /-- A glob of a set matches. -/
  matchGlob : Glob → Text → Bool
  /-- `str::parse::<IpAddr>`. -/
  parseIpAddr : Text → Option IpAddr
  /-- `lookup_host`, which may fail or time out. -/
  lookupHost : Text → UInt16 → Option (List IpAddr)
  /-- The debug form of a list of texts. -/
  debugList : List Text → String
  /-- `ValidatedUnixSocketPath::parse` accepts the path. -/
  validUnixSocketPath : Text → Bool
  /-- `MitmState::new` for an upstream proxy that is allowed or not. -/
  newMitmState : Bool → Except String Unit

variable (X : Externals)

/-! ## Hosts -/

/-- `normalize_dns_host`. -/
def normalizeDnsHost (host : Text) : Text := trimEndDots (toAsciiLowercase host)

/-- `normalize_host`. -/
def normalizeHost (host : Text) : Text :=
  let host := trim host
  if host.head? = some '[' ∧ ']' ∈ host then
    normalizeDnsHost ((host.takeWhile (· ≠ ']')).drop 1)
  else if host.count ':' = 1 then normalizeDnsHost (host.takeWhile (· ≠ ':'))
  else normalizeDnsHost host

/-- `Host`: a name that is not empty. -/
structure Host where
  text : Text
  ne_nil : text ≠ []

/-- `Host::parse`. -/
def Host.parse (input : Text) : Option Host :=
  if h : normalizeHost input ≠ [] then some ⟨normalizeHost input, h⟩ else none

/-- The host without the scope of an IPv6 address. -/
def withoutScope (host : Text) : Text := host.takeWhile (· ≠ '%')

/-- `is_loopback_host`. -/
def isLoopbackHost (host : Host) : Bool :=
  let host := withoutScope host.text
  host = "localhost".toList ||
    match X.parseIpAddr host with
    | some ip => ip.isLoopback
    | none => false

/-- `host_resolves_to_non_public_ip`: a lookup that fails counts as one. -/
def hostResolvesToNonPublicIp (host : Text) (port : UInt16) : Bool :=
  match X.parseIpAddr host with
  | some ip => isNonPublicIp ip
  | none =>
    match X.lookupHost host port with
    | some addrs => addrs.any isNonPublicIp
    | none => true

/-! ## Patterns -/

/-- `DomainPattern`. -/
inductive DomainPattern where
  | apexAndSubdomains (domain : Text)
  | subdomainsOnly (domain : Text)
  | exact (domain : Text)
  deriving DecidableEq

/-- `normalize_pattern`. -/
def normalizePattern (pattern : Text) : Text :=
  let pattern := trim pattern
  if pattern = ['*'] then ['*']
  else
    match pattern.dropPrefix? ['*', '*', '.'] with
    | some domain => ['*', '*', '.'] ++ normalizeHost domain
    | none =>
      match pattern.dropPrefix? ['*', '.'] with
      | some domain => ['*', '.'] ++ normalizeHost domain
      | none => normalizeHost pattern

namespace DomainPattern

/-- `DomainPattern::parse_domain`. -/
def parseDomain (domain : Text) (build : Text → DomainPattern) : DomainPattern :=
  let domain := trim domain
  if domain = [] then exact [] else build domain

/-- `DomainPattern::parse`. -/
def parse (input : Text) : DomainPattern :=
  let input := trim input
  if input = [] then exact []
  else
    match input.dropPrefix? ['*', '*', '.'] with
    | some domain => parseDomain domain apexAndSubdomains
    | none =>
      match input.dropPrefix? ['*', '.'] with
      | some domain => parseDomain domain subdomainsOnly
      | none => exact input

end DomainPattern

/-- `parse_domain_for_constraints`: a name the `url` crate does not accept becomes empty. -/
def parseDomainForConstraints (domain : Text) : Text :=
  let domain := trimEndDots (trim domain)
  if domain = [] then []
  else
    let host := if domain.head? = some '[' ∧ domain.getLast? = some ']' then
      (domain.drop 1).dropLast else domain
    if '*' ∈ host ∨ '?' ∈ host ∨ '%' ∈ host then domain
    else (X.parseUrlHost host).getD []

/-- `DomainPattern::parse_for_constraints`. -/
def DomainPattern.parseForConstraints (input : Text) : DomainPattern :=
  let input := trim input
  if input = [] then exact []
  else
    match input.dropPrefix? ['*', '*', '.'] with
    | some domain => apexAndSubdomains (parseDomainForConstraints X domain)
    | none =>
      match input.dropPrefix? ['*', '.'] with
      | some domain => subdomainsOnly (parseDomainForConstraints X domain)
      | none => exact (parseDomainForConstraints X input)

/-- `normalize_domain`. -/
def normalizeDomain (domain : Text) : Text := toAsciiLowercase (trimEndDots domain)

/-- `domain_eq`. -/
def domainEq (left right : Text) : Bool := normalizeDomain left = normalizeDomain right

/-- `is_subdomain_or_equal`. -/
def isSubdomainOrEqual (child parent : Text) : Bool :=
  normalizeDomain child = normalizeDomain parent ||
    ('.' :: normalizeDomain parent).isSuffixOf (normalizeDomain child)

/-- `is_strict_subdomain`. -/
def isStrictSubdomain (child parent : Text) : Bool :=
  normalizeDomain child ≠ normalizeDomain parent &&
    ('.' :: normalizeDomain parent).isSuffixOf (normalizeDomain child)

/-- `DomainPattern::allows`. -/
def DomainPattern.allows : DomainPattern → DomainPattern → Bool
  | exact domain, exact candidate => domainEq candidate domain
  | exact _, _ => false
  | subdomainsOnly domain, exact candidate => isStrictSubdomain candidate domain
  | subdomainsOnly domain, subdomainsOnly candidate => isSubdomainOrEqual candidate domain
  | subdomainsOnly domain, apexAndSubdomains candidate => isStrictSubdomain candidate domain
  | apexAndSubdomains domain, exact candidate => isSubdomainOrEqual candidate domain
  | apexAndSubdomains domain, subdomainsOnly candidate => isSubdomainOrEqual candidate domain
  | apexAndSubdomains domain, apexAndSubdomains candidate => isSubdomainOrEqual candidate domain

/-! ## Globs -/

/-- The globs of a pattern. -/
def DomainPattern.globs : DomainPattern → List Text
  | exact domain => [domain]
  | subdomainsOnly domain => [['?', '*', '.'] ++ domain]
  | apexAndSubdomains domain => [domain, ['?', '*', '.'] ++ domain]

/-- `expand_domain_pattern`. -/
def expandDomainPattern (pattern : Text) : List Text := (DomainPattern.parse pattern).globs

/-- `is_global_wildcard_domain_pattern`. -/
def isGlobalWildcardDomainPattern (pattern : Text) : Bool :=
  ['*'] ∈ expandDomainPattern (normalizePattern pattern)

inductive GlobalWildcard where
  | allow
  | reject
  deriving DecidableEq

variable {X} in
/-- The globs of one pattern, without those that were seen. -/
def addGlobs (found : List Text × List X.Glob) (candidate : Text) :
    Except String (List Text × List X.Glob) :=
  let (seen, set) := found
  if candidate ∈ seen then .ok found
  else
    match X.buildGlob candidate with
    | some glob => .ok (candidate :: seen, set ++ [glob])
    | none => .error ("invalid glob pattern: " ++ String.ofList candidate)

/-- `compile_globset_with_policy`. -/
def compileGlobsetWithPolicy (patterns : List Text) (globalWildcard : GlobalWildcard) :
    Except String (List X.Glob) := do
  let found ← patterns.foldlM
    (fun found pattern ↦
      if globalWildcard = .reject ∧ isGlobalWildcardDomainPattern pattern then
        .error ("unsupported global wildcard domain pattern \"*\"; use exact hosts or scoped " ++
          "wildcards like *.example.com or **.example.com")
      else (expandDomainPattern (normalizePattern pattern)).foldlM addGlobs found)
    (([], []) : List Text × List X.Glob)
  return found.2

/-- `compile_allowlist_globset`. -/
def compileAllowlistGlobset (patterns : List Text) : Except String (List X.Glob) :=
  compileGlobsetWithPolicy X patterns .allow

/-- `compile_denylist_globset`. -/
def compileDenylistGlobset (patterns : List Text) : Except String (List X.Glob) :=
  compileGlobsetWithPolicy X patterns .reject

variable {X} in
/-- `GlobSet::is_match`. -/
def isMatch (set : List X.Glob) (host : Text) : Bool := set.any fun glob ↦ X.matchGlob glob host

end Praxis.Network
