import Mathlib.Data.List.Sort
import StayConnect.Netd.Shape

/-!
# Guest networks and their validation

`data-plane/internal/netcfg/validate.go` and `fields.go` over the intent of `model.go`: every check with the field it names, its
code and its message, in the source's order. Parsing of addresses, character classes and quoting are behind `Net`. Texts are valid
UTF-8 by their type, so the branch of `CheckNetworkName` for other texts has no counterpart.
-/

namespace StayConnect.Netcfg
open Netd

/-- The host bits of the base are zero. -/
structure Masked (n : Subnet) : Prop where
  ones : n.ones ≤ 32
  base : n.base.toNat % 2 ^ (32 - n.ones) = 0

/-- The `IPNet` of a prefix whose address `To4` accepts. `mapped` is the spelling `::ffff:a.b.c.d/n`: its mask has 128 bits, and
`ones` counts those past the ninety-sixth. -/
structure Cidr extends Subnet where
  mapped : Bool
deriving DecidableEq, Repr

/-- Go's `net`, `strings` and `unicode` as far as the validator uses them. -/
structure Net where
  /-- `net.ParseIP`; an address that `To4` accepts is `v4`. -/
  parseIP : String → Option Ip
  /-- `net.ParseCIDR`; a prefix that `To4` does not accept fails like one that does not parse. -/
  parseCIDR : String → Option Cidr
  parseCIDR_masked : ∀ {s : String} {c : Cidr}, parseCIDR s = some c → Masked c.toSubnet
  /-- `net.ParseMAC`: the bytes of the address. -/
  parseMAC : String → Option (List (BitVec 8))
  trimSpace : String → String
  toLower : String → String
  /-- A letter, a digit or a mark. -/
  letter : Char → Bool
  validHostname : String → Bool
  /-- `%q` of a text. -/
  quote : String → String
  /-- `%q` of a character. -/
  quoteRune : Char → String

inductive DHCPMode where
  | local
  | external
  | relay
  | disabled
  | other (text : String)
deriving DecidableEq, Repr

inductive DNSMode where
  | appliance
  | custom
  | other (text : String)
deriving DecidableEq, Repr

inductive NetworkType where
  | untagged
  | vlan
  | other (text : String)
deriving DecidableEq, Repr

structure Pool where
  startIP : String
  endIP : String
deriving DecidableEq, Repr

structure Reservation where
  mac : String
  reservedIP : String
  hostname : String
  enabled : Bool
deriving DecidableEq, Repr

structure GuestNetwork where
  name : String
  enabled : Bool
  networkType : NetworkType
  parentInterface : String
  vlanID : Int
  bridgeName : String
  gatewayIP : String
  subnetCIDR : String
  prefixLen : Int
  dhcpMode : DHCPMode
  dnsMode : DNSMode
  dnsServers : List String
  domainName : String
  leaseDefault : Int
  leaseMin : Int
  leaseMax : Int
  relayTargets : List String
  captiveEnabled : Bool
  internetEnabled : Bool
  clientIsolation : Bool
  pools : List Pool
  reservations : List Reservation
deriving DecidableEq, Repr

structure PrivateReach where
  deny : Bool
  allow : List String

structure PortalTLS where
  httpsActive : Bool
  canonicalHostname : String

structure Topology where
  wanInterface : String
  mgmtInterface : String
  mgmtCIDRs : List String
  privateReach : PrivateReach
  macBinding : Bool
  portalTLSPort : Int
  portalVIP : String
  portalTLS : PortalTLS

/-- `sortEnabled`: by VLAN, then by name. The sort of the source need not keep the order of equal ones. -/
def sortEnabled (nets : List GuestNetwork) : List GuestNetwork :=
  (nets.filter (·.enabled)).insertionSort fun a b => a.vlanID < b.vlanID ∨ a.vlanID = b.vlanID ∧ a.name ≤ b.name

structure Issue where
  field : String
  code : String
  message : String

def issueIf (b : Bool) (i : Issue) : List Issue := if b then [i] else []

def maxNetworkNameRunes : Nat := 64
def maxIfaceNameLen : Nat := 15
def maxDomainLen : Nat := 253
def maxLabelLen : Nat := 63
def minSubnetPrefix : Nat := 19
def maxSubnetPrefix : Nat := 30
def minLeaseSeconds : Int := 60
def maxLeaseSeconds : Int := 7 * 24 * 3600

def ascii (c : Char) : Bool := 'a' ≤ c && c ≤ 'z' || 'A' ≤ c && c ≤ 'Z' || '0' ≤ c && c ≤ '9'

def networkNamePunct : List Char := "-_.,()+&/:'".toList

def Net.checkNetworkName (N : Net) (name : String) : Option String :=
  if N.trimSpace name = "" then some "network name is required"
  else if maxNetworkNameRunes < name.length then
    some ("network name is " ++ toString name.length ++ " characters; at most " ++ toString maxNetworkNameRunes ++ " are allowed")
  else (name.toList.find? fun c => !(N.letter c || c = ' ' || networkNamePunct.contains c)).map fun c =>
    "network name contains " ++ N.quoteRune c ++ ", which is not allowed; use letters, digits, spaces and "
      ++ String.ofList networkNamePunct

/-- `ifaceNameRE` and `SafeIface` let the same characters stand. -/
def ifaceChar (c : Char) : Bool := ascii c || c = '.' || c = '_' || c = '-'

def ifaceName (name : String) : Bool := name.toList.all ifaceChar && name.toList.head?.any ascii

def Net.checkIfaceName (N : Net) (name : String) : Option String :=
  if name = "" then some "name is required"
  else if maxIfaceNameLen < name.utf8ByteSize then
    some (N.quote name ++ " is longer than the " ++ toString maxIfaceNameLen ++ " characters a Linux interface name may have")
  else if !ifaceName name then
    some (N.quote name ++ " is not a valid interface name: use letters, digits, '.', '_' and '-' only")
  else none

/-- `domainRE`. -/
def domainLabel (label : List Char) : Bool :=
  label.all (fun c => ascii c || c = '-') && label.head?.any ascii && label.getLast?.any ascii

/-- `strings.Split(strings.TrimSuffix(s, "."), ".")`. -/
def domainLabels (s : String) : List (List Char) :=
  let cs := s.toList
  (if cs.getLast? = some '.' then cs.dropLast else cs).splitOn '.'

def Net.checkDomainName (N : Net) (s : String) : Option String :=
  if s = "" then none
  else if maxDomainLen < s.utf8ByteSize then some ("name is longer than " ++ toString maxDomainLen ++ " characters")
  else if (domainLabels s).any fun label => label.isEmpty || maxLabelLen < label.length || !domainLabel label then
    some (N.quote s ++ " is not a valid DNS name: each part must be 1-" ++ toString maxLabelLen
      ++ " letters, digits or '-', and must not start or end with '-'")
  else none

/-- `SafeIface`: each byte that may not stand becomes one underscore. -/
def safeIface (s : String) : String :=
  String.ofList (s.toList.flatMap fun c => if ifaceChar c then [c] else List.replicate c.utf8Size '_')

/-- An issue where a check has a reason. -/
def issueFor (field code : String) (why : Option String) : List Issue := (why.map (Issue.mk field code)).toList

def Ip.to4 : Ip → Option (BitVec 32)
  | .v4 a => some a
  | .v6 _ => none

/-- `net.ParseIP(s).To4()`. -/
def Net.ip4 (N : Net) (s : String) : Option (BitVec 32) := (N.parseIP s).bind Ip.to4

def lastAddr (n : Subnet) : BitVec 32 := n.base ||| BitVec.ofNat 32 (2 ^ (32 - n.ones) - 1)

/-- The broadcast address of `networkAndBroadcast`. It reads the first four bytes of the mask, which are all ones in a mask of
128 bits: there it is the network address. -/
def broadcast (c : Cidr) : BitVec 32 := if c.mapped then c.base else lastAddr c.toSubnet

def containsIP (n : Subnet) : Ip → Bool
  | .v4 a => n.contains a
  | .v6 _ => false

def subnetHosts (ones : Nat) : Nat := if 30 < ones then 0 else 2 ^ (32 - ones) - 2

/-- Only a mask of 32 bits is measured. -/
def checkClientSubnetMask (n : Cidr) (field : String) : List Issue :=
  issueIf (!n.mapped && maxSubnetPrefix < n.ones)
    ⟨field, "subnet_too_small", "subnet is too small to host a gateway and a DHCP pool (use /30 or larger)"⟩ ++
  issueIf (!n.mapped && n.ones < minSubnetPrefix)
    ⟨field, "subnet_too_large", "subnet is larger than /" ++ toString minSubnetPrefix ++ " (" ++ toString (subnetHosts minSubnetPrefix)
      ++ " addresses): one client network is limited to /" ++ toString minSubnetPrefix
      ++ ", because per-client speed limits and usage cannot tell clients apart in a wider subnet and a single "
      ++ "broadcast domain that large is not supported. Split it into several client networks."⟩

section
variable (N : Net) (n : GuestNetwork) (topo : Topology) (path : String)

def nameIssues : List Issue :=
  issueIf (N.trimSpace n.name = "") ⟨path ++ "name", "required", "network name is required"⟩ ++
  (if n.enabled then
    (if n.name ≠ "" ∧ N.trimSpace n.name ≠ "" then issueFor (path ++ "name") "invalid_name" (N.checkNetworkName n.name) else []) ++
    (if n.bridgeName ≠ "" then issueFor (path ++ "bridge_name") "invalid_bridge_name" (N.checkIfaceName n.bridgeName) else []) ++
    (if n.parentInterface ≠ "" then
      issueFor (path ++ "parent_interface") "invalid_interface_name" (N.checkIfaceName n.parentInterface) else []) ++
    issueFor (path ++ "domain_name") "invalid_domain" (N.checkDomainName n.domainName) ++
    n.reservations.zipIdx.flatMap fun (r, i) =>
      issueFor (path ++ "reservations[" ++ toString i ++ "].hostname") "invalid_hostname" (N.checkDomainName r.hostname)
  else [])

/-- A set of interface names is absent or a predicate. -/
def interfaceIssues (avail known : Option (String → Bool)) : List Issue :=
  (if n.parentInterface = "" then [⟨path ++ "parent_interface", "required", "a parent interface is required"⟩]
  else if n.enabled && avail.any fun present => !present n.parentInterface then
    if known.any fun recorded => recorded n.parentInterface then
      [⟨path ++ "parent_interface", "interface_not_present", "interface " ++ N.quote n.parentInterface
        ++ " is recorded on this appliance but is NOT PRESENT now — it was not "
        ++ "seen by the latest interface scan. Reconnect or restore it, or choose an interface that is present."⟩]
    else [⟨path ++ "parent_interface", "interface_not_found", "interface " ++ N.quote n.parentInterface
      ++ " was not found on the appliance"⟩]
  else []) ++
  issueIf (n.parentInterface ≠ "" && (n.parentInterface = topo.mgmtInterface || n.parentInterface = topo.wanInterface))
    ⟨path ++ "parent_interface", "protected_interface", "interface " ++ N.quote n.parentInterface
      ++ " is the management/WAN interface and is protected; choose a guest interface"⟩

def typeIssues : List Issue :=
  match n.networkType with
  | .vlan => issueIf (n.vlanID < 1 || 4094 < n.vlanID) ⟨path ++ "vlan_id", "vlan_out_of_range", "VLAN id must be between 1 and 4094"⟩
  | .untagged => issueIf (n.vlanID ≠ 0) ⟨path ++ "vlan_id", "vlan_on_untagged", "an untagged network must not set a VLAN id"⟩
  | .other _ => [⟨path ++ "network_type", "bad_network_type", "network_type must be 'untagged' or 'vlan'"⟩]

def addressIssues : List Issue :=
  let gw := N.parseIP n.gatewayIP
  issueIf (gw.bind Ip.to4).isNone ⟨path ++ "gateway_ip", "bad_gateway", "gateway_ip must be a valid IPv4 address"⟩ ++
  match N.parseCIDR n.subnetCIDR with
  | none => [⟨path ++ "subnet_cidr", "bad_subnet", "subnet_cidr must be a valid IPv4 CIDR"⟩]
  | some subnet =>
    (match gw with
    | none => []
    | some gw =>
      issueIf (!containsIP subnet.toSubnet gw) ⟨path ++ "gateway_ip", "gateway_outside_subnet",
        "gateway " ++ n.gatewayIP ++ " is not inside " ++ n.subnetCIDR⟩ ++
      issueIf (gw = .v4 subnet.base) ⟨path ++ "gateway_ip", "gateway_is_network", "gateway_ip must not be the network address"⟩ ++
      issueIf (gw = .v4 (broadcast subnet))
        ⟨path ++ "gateway_ip", "gateway_is_broadcast", "gateway_ip must not be the broadcast address"⟩) ++
    checkClientSubnetMask subnet (path ++ "subnet_cidr")

def leaseIssue (field : String) (v : Int) : List Issue :=
  issueIf (v ≠ 0 && (v < minLeaseSeconds || maxLeaseSeconds < v)) ⟨path ++ field, "lease_out_of_range",
    "lease times must be between " ++ toString minLeaseSeconds ++ " seconds and " ++ toString maxLeaseSeconds ++ " seconds (7 days)"⟩

def leaseIssues : List Issue :=
  leaseIssue path "lease_default_seconds" n.leaseDefault ++
  leaseIssue path "lease_min_seconds" n.leaseMin ++
  leaseIssue path "lease_max_seconds" n.leaseMax ++
  issueIf (0 < n.leaseMin && 0 < n.leaseDefault && n.leaseDefault < n.leaseMin)
    ⟨path ++ "lease_min_seconds", "bad_lease_timers", "min lease must be <= default lease"⟩ ++
  issueIf (0 < n.leaseMax && 0 < n.leaseDefault && n.leaseMax < n.leaseDefault)
    ⟨path ++ "lease_max_seconds", "bad_lease_timers", "max lease must be >= default lease"⟩

/-- A list of texts that must be IPv4 addresses. -/
def ip4Issues (texts : List String) (field code message : String) : List Issue :=
  texts.zipIdx.flatMap fun (s, i) => issueIf (N.ip4 s).isNone ⟨path ++ field ++ "[" ++ toString i ++ "]", code, message⟩

def dnsIssues : List Issue :=
  if n.dnsMode = .custom then
    issueIf n.dnsServers.isEmpty ⟨path ++ "dns_servers", "dns_required", "custom DNS mode requires at least one DNS server"⟩ ++
    ip4Issues N path n.dnsServers "dns_servers" "bad_dns" "DNS server must be a valid IPv4 address"
  else []

def Net.parsePortalIP (text : String) : Option (BitVec 32) :=
  let s := N.trimSpace text
  if s.toList.contains '/' then (N.parseCIDR s).bind fun p => if !p.mapped && p.ones = 32 then some p.base else none
  else N.ip4 s

def captiveAPIURL : Option String :=
  if topo.portalTLS.httpsActive && N.validHostname topo.portalTLS.canonicalHostname && (N.parsePortalIP topo.portalVIP).isSome then
    some ("https://" ++ topo.portalTLS.canonicalHostname ++ "/captive-portal/api")
  else none

/-- `CaptivePortalURL`: the gateway plays no part. -/
def captivePortalURL : String := (captiveAPIURL N topo).getD ""

def portalIssues : List Issue :=
  if n.dhcpMode = .local && n.captiveEnabled && (N.parseIP n.gatewayIP).isSome then
    let url := captivePortalURL N topo
    issueIf (url ≠ "" && "https://".toList.isPrefixOf url.toList && captiveAPIURL N topo ≠ some url) ⟨path ++ "portal_url", "portal_https",
      "captive-portal option 114 may use HTTPS only as https://<canonical portal hostname>/captive-portal/api "
        ++ "while the portal's HTTPS is active; otherwise it must be the plain-HTTP gateway URL"⟩
  else []

def relayIssues : List Issue :=
  if n.dhcpMode = .relay then
    issueIf n.relayTargets.isEmpty ⟨path ++ "relay_targets", "relay_required", "relay mode requires at least one relay target"⟩ ++
    ip4Issues N path n.relayTargets "relay_targets" "bad_relay_target" "relay target must be a valid IPv4 address"
  else []

/-- One pool after another, with the ranges of those that were in order. -/
def poolIssues (subnet : Option Cidr) (gw : Option Ip) : List (Pool × Nat) → List (Nat × Nat) → List Issue
  | [], _ => []
  | (p, i) :: rest, ranges =>
    let fp := path ++ "pools[" ++ toString i ++ "]"
    match N.ip4 p.startIP, N.ip4 p.endIP with
    | none, _ => ⟨fp ++ ".start_ip", "bad_ip", "pool start is not a valid IPv4 address"⟩ :: poolIssues subnet gw rest ranges
    | some _, none => ⟨fp ++ ".end_ip", "bad_ip", "pool end is not a valid IPv4 address"⟩ :: poolIssues subnet gw rest ranges
    | some s, some e =>
      let su := s.toNat
      let eu := e.toNat
      if eu < su then ⟨fp, "pool_reversed", "pool start is greater than pool end"⟩ :: poolIssues subnet gw rest ranges
      else if subnet.any fun subnet => !(subnet.contains s && subnet.contains e) then
        ⟨fp, "pool_outside_subnet", "the DHCP pool is outside " ++ n.subnetCIDR⟩ :: poolIssues subnet gw rest ranges
      else
        let within (a : BitVec 32) : Bool := su ≤ a.toNat && a.toNat ≤ eu
        issueIf (subnet.any fun subnet => within subnet.base)
          ⟨fp, "pool_contains_network", "the pool must not include the network address"⟩ ++
        issueIf (subnet.any fun subnet => within (broadcast subnet))
          ⟨fp, "pool_contains_broadcast", "the pool must not include the broadcast address"⟩ ++
        -- the gateway of another family counts as address zero
        issueIf (gw.any fun gw => within ((Ip.to4 gw).getD 0)) ⟨fp, "pool_contains_gateway", "the pool must not include the gateway address"⟩ ++
        issueIf (ranges.any fun r => su ≤ r.2 && r.1 ≤ eu) ⟨fp, "pool_overlap", "this pool overlaps another pool in the same subnet"⟩ ++
        poolIssues subnet gw rest (ranges ++ [(su, eu)])

def validatePools : List Issue :=
  if n.pools.isEmpty then [⟨path ++ "pools", "no_pool", "local DHCP requires at least one address pool"⟩]
  else poolIssues N n path (N.parseCIDR n.subnetCIDR) (N.parseIP n.gatewayIP) n.pools.zipIdx []

/-- The ranges reservations are held against: every pool whose ends parse. -/
def poolRanges : List (Nat × Nat) :=
  n.pools.filterMap fun p =>
    (N.parseIP p.startIP).bind fun s => (N.parseIP p.endIP).map fun e => (((Ip.to4 s).getD 0).toNat, ((Ip.to4 e).getD 0).toNat)

def reservationIssues : List (Reservation × Nat) → List String → List String → List Issue
  | [], _, _ => []
  | (r, i) :: rest, seenMAC, seenIP =>
    if !r.enabled then reservationIssues rest seenMAC seenIP
    else
      let fp := path ++ "reservations[" ++ toString i ++ "]"
      let mac := N.toLower r.mac
      let macs := if (N.parseMAC r.mac).isSome && !seenMAC.contains mac then seenMAC ++ [mac] else seenMAC
      (if (N.parseMAC r.mac).isNone then [⟨fp ++ ".mac", "bad_mac", "reservation MAC is not valid"⟩]
      else issueIf (seenMAC.contains mac) ⟨fp ++ ".mac", "dup_reservation_mac", "duplicate reservation MAC in this network"⟩) ++
      match N.ip4 r.reservedIP with
      | none => ⟨fp ++ ".reserved_ip", "bad_ip", "reserved IP is not a valid IPv4 address"⟩ :: reservationIssues rest macs seenIP
      | some ip =>
        issueIf (seenIP.contains r.reservedIP)
          ⟨fp ++ ".reserved_ip", "dup_reservation_ip", "duplicate reserved IP in this network"⟩ ++
        issueIf ((N.parseCIDR n.subnetCIDR).any fun subnet => !subnet.contains ip)
          ⟨fp ++ ".reserved_ip", "reservation_outside_subnet", "reserved IP is outside " ++ n.subnetCIDR⟩ ++
        issueIf ((poolRanges N n).any fun p => p.1 ≤ ip.toNat && ip.toNat ≤ p.2) ⟨fp ++ ".reserved_ip", "reservation_in_pool",
          "reserved IP falls inside a dynamic pool; move it outside the pool or shrink the pool"⟩ ++
        reservationIssues rest macs (seenIP ++ [r.reservedIP])

def validateOne (avail known : Option (String → Bool)) : List Issue :=
  nameIssues N n path ++ interfaceIssues N n topo path avail known ++ typeIssues n path ++ addressIssues N n path ++
  leaseIssues n path ++ dnsIssues N n path ++ portalIssues N n topo path ++ relayIssues N n path ++
  if n.dhcpMode = .local then validatePools N n path ++ reservationIssues N n path n.reservations.zipIdx [] [] else []

end

/-- A VLAN used twice on an interface, a bridge name used twice. -/
def duplicateIssues : List GuestNetwork → List String → List String → List Issue
  | [], _, _ => []
  | n :: rest, vlans, bridges =>
    let key := n.parentInterface ++ "/" ++ toString n.vlanID
    issueIf (0 < n.vlanID && vlans.contains key) ⟨"networks[" ++ n.name ++ "]", "duplicate_vlan",
      "VLAN " ++ toString n.vlanID ++ " is already used on interface " ++ n.parentInterface⟩ ++
    issueIf (n.bridgeName ≠ "" && bridges.contains n.bridgeName) ⟨"networks[" ++ n.name ++ "]", "duplicate_bridge",
      "bridge name " ++ n.bridgeName ++ " is used by more than one network"⟩ ++
    duplicateIssues rest (if 0 < n.vlanID then vlans ++ [key] else vlans)
      (if n.bridgeName ≠ "" then bridges ++ [n.bridgeName] else bridges)

/-- Subnets that overlap one that came before. -/
def overlapIssues (N : Net) : List GuestNetwork → List (String × Cidr) → List Issue
  | [], _ => []
  | n :: rest, ents =>
    match N.parseCIDR n.subnetCIDR with
    | none => overlapIssues N rest ents
    | some subnet =>
      (ents.filter fun e => subnet.base.toNat ≤ (broadcast e.2).toNat && e.2.base.toNat ≤ (broadcast subnet).toNat).map (fun e =>
        ⟨"networks[" ++ n.name ++ "].subnet_cidr", "subnet_overlap", "subnet " ++ n.subnetCIDR ++ " overlaps subnet of network "
          ++ N.quote e.1 ++ "; overlapping guest subnets on one appliance are not allowed"⟩) ++
      overlapIssues N rest (ents ++ [(n.name, subnet)])

/-- `ValidateSet`; the set is accepted when there is no issue. -/
def validateSet (N : Net) (nets : List GuestNetwork) (topo : Topology) (avail known : Option (String → Bool)) : List Issue :=
  (nets.zipIdx.flatMap fun (n, i) => validateOne N n topo ("networks[" ++ toString i ++ "].") avail known) ++
  duplicateIssues (sortEnabled nets) [] [] ++ overlapIssues N (sortEnabled nets) []

end StayConnect.Netcfg
