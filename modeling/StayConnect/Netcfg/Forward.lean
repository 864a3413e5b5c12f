import Mathlib.Data.List.Dedup
import StayConnect.Filter
import StayConnect.Netcfg.Accepted

/-!
# The forward chain

The `forward` chain of `renderNftBody` in `data-plane/internal/netcfg/render_nft.go`, rule by rule in the order of the source, with
the sets the render declares. The rules are kept as conditions and a verdict; counters, comments and the text are left out. What nft
makes of an address text of the intent is behind `Nft`.
-/

namespace StayConnect.Netcfg
open Netd Filter

inductive Addresses where
  | v4 (saddr daddr : BitVec 32)
  | v6 (saddr daddr : BitVec 128)

inductive Transport where
  | tcp (dport : BitVec 16)
  | udp (dport : BitVec 16)
  | other

inductive CtState where
  | new
  | established
  | related
  | invalid
  | untracked
deriving DecidableEq, Repr

/-- A packet at the forward hook: it came in by an interface, and interfaces have names. -/
structure Packet where
  iif : String
  named : iif ≠ ""
  oif : String
  mac : BitVec 48
  addresses : Addresses
  transport : Transport
  ct : CtState

/-- The sets that change while the ruleset stands, and what the rate limiter answers. -/
structure Runtime where
  authIPv4 : String → BitVec 32 → Bool
  phase3AuthIPv4 : String → BitVec 32 → Bool
  phase3AuthMacIPv4 : String → BitVec 32 → BitVec 48 → Bool
  walledGardenIP : BitVec 32 → Bool
  walledGardenTCP : BitVec 32 → BitVec 16 → Bool
  walledGardenUDP : BitVec 32 → BitVec 16 → Bool
  dnsPreauthOver : Packet → Bool

/-- The sets the render fills. -/
structure Declared where
  guestInterfaces : List String
  guestSubnets : List String
  guestPrivateRanges : List Subnet
  guestPrivateAllow : List Subnet

/-- How nft reads an address text: a prefix as `net.ParseCIDR` does. -/
structure Nft (N : Net) where
  reads : String → BitVec 32 → Bool
  reads_cidr : ∀ {s : String} {c : Cidr}, N.parseCIDR s = some c → reads s = c.toSubnet.contains

inductive Cond where
  | iifGuest
  | oifGuest
  | iif (name : String)
  | oif (name : String)
  | ipv6
  | saddr (a : BitVec 32)
  | daddr (a : BitVec 32)
  | daddrText (text : String)
  | daddrAmong (servers : List (BitVec 32))
  | daddrGuestSubnet
  | daddrPrivate
  | daddrNotAllowed
  | daddrGarden
  | daddrGardenTCP
  | daddrGardenUDP
  | dns
  | tcpDport (port : BitVec 16)
  | notAuth
  | notPhase3
  | notPhase3MAC
  | phase3
  | phase3MAC
  | dnsOver
  | ctEstablished
  | ctInvalid

def Packet.toIPv4 (p : Packet) (f : BitVec 32 → Bool) : Bool :=
  match p.addresses with
  | .v4 _ d => f d
  | .v6 _ _ => false

def Packet.fromIPv4 (p : Packet) (f : BitVec 32 → Bool) : Bool :=
  match p.addresses with
  | .v4 s _ => f s
  | .v6 _ _ => false

def Packet.isIPv6 (p : Packet) : Bool :=
  match p.addresses with
  | .v4 _ _ => false
  | .v6 _ _ => true

def Packet.tcpTo (p : Packet) (f : BitVec 16 → Bool) : Bool :=
  match p.transport with
  | .tcp d => f d
  | _ => false

def Packet.udpTo (p : Packet) (f : BitVec 16 → Bool) : Bool :=
  match p.transport with
  | .udp d => f d
  | _ => false

/-- `meta l4proto { tcp, udp } th dport 53`. -/
def Packet.isDNS (p : Packet) : Bool := p.tcpTo (· == 53) || p.udpTo (· == 53)

section
variable {N : Net} (nft : Nft N) (D : Declared) (S : Runtime)

/-- A comparison with a set fails for a packet that has no such address, also a negated one. -/
def holds (c : Cond) (p : Packet) : Bool :=
  match c with
  | .iifGuest => D.guestInterfaces.contains p.iif
  | .oifGuest => D.guestInterfaces.contains p.oif
  | .iif name => p.iif == name
  | .oif name => p.oif == name
  | .ipv6 => p.isIPv6
  | .saddr a => p.fromIPv4 (· == a)
  | .daddr a => p.toIPv4 (· == a)
  | .daddrText text => p.toIPv4 (nft.reads text)
  | .daddrAmong servers => p.toIPv4 servers.contains
  | .daddrGuestSubnet => p.toIPv4 fun d => D.guestSubnets.any fun s => nft.reads s d
  | .daddrPrivate => p.toIPv4 fun d => D.guestPrivateRanges.any (·.contains d)
  | .daddrNotAllowed => p.toIPv4 fun d => !D.guestPrivateAllow.any (·.contains d)
  | .daddrGarden => p.toIPv4 S.walledGardenIP
  | .daddrGardenTCP => p.toIPv4 fun d => p.tcpTo (S.walledGardenTCP d)
  | .daddrGardenUDP => p.toIPv4 fun d => p.udpTo (S.walledGardenUDP d)
  | .dns => p.isDNS
  | .tcpDport port => p.tcpTo (· == port)
  | .notAuth => p.fromIPv4 fun s => !S.authIPv4 p.iif s
  | .notPhase3 => p.fromIPv4 fun s => !S.phase3AuthIPv4 p.iif s
  | .notPhase3MAC => p.fromIPv4 fun s => !S.phase3AuthMacIPv4 p.iif s p.mac
  | .phase3 => p.fromIPv4 (S.phase3AuthIPv4 p.iif)
  | .phase3MAC => p.fromIPv4 fun s => S.phase3AuthMacIPv4 p.iif s p.mac
  | .dnsOver => S.dnsPreauthOver p
  | .ctEstablished => p.ct == .established || p.ct == .related
  | .ctInvalid => p.ct == .invalid

end

def privateRanges : List Subnet :=
  [⟨0x0a000000, 8⟩, ⟨0xac100000, 12⟩, ⟨0xc0a80000, 16⟩, ⟨0x64400000, 10⟩, ⟨0xa9fe0000, 16⟩]

section
variable (N : Net) (topo : Topology) (enabled : List GuestNetwork)

/-- An entry of `NormalizeAllow`; a mask of no bits is left out, and a mask of 128 bits has at least ninety-six. -/
def Net.allowEntry (raw : String) : Option Subnet :=
  let s := N.trimSpace raw
  if s = "" then none
  else if s.toList.contains '/' then
    (N.parseCIDR s).bind fun c => if !c.mapped && c.ones = 0 then none else some c.toSubnet
  else (N.ip4 s).map fun a => ⟨a, 32⟩

/-- `NormalizeAllow`; the order of the texts, in which the source returns them, does not show in a set. -/
def Net.normalizeAllow (allow : List String) : List Subnet := (allow.filterMap N.allowEntry).dedup

def Net.customDNSServers (n : GuestNetwork) : List (BitVec 32) :=
  if n.dnsMode = .custom then
    ((n.dnsServers.filterMap fun d => N.ip4 (N.trimSpace d)).filter (· ≠ 0)).dedup
  else []

def declared : Declared where
  guestInterfaces := enabled.map fun n => safeIface n.bridgeName
  guestSubnets := enabled.map (·.subnetCIDR)
  guestPrivateRanges := if topo.privateReach.deny then privateRanges else []
  guestPrivateAllow := if topo.privateReach.deny then N.normalizeAllow topo.privateReach.allow else []

/-- The rules in front of connection tracking, which only drop. -/
def guards : List (Rule Cond) :=
  [⟨[.iifGuest, .ipv6], .drop⟩, ⟨[.oifGuest, .ipv6], .drop⟩] ++
  (match N.parsePortalIP topo.portalVIP with
  | some vip => [⟨[.daddr vip], .drop⟩, ⟨[.saddr vip], .drop⟩]
  | none => []) ++
  [⟨[.iifGuest, .oif topo.wanInterface, .dns, .notAuth, .notPhase3, .dnsOver], .drop⟩] ++
  (enabled.filter (·.clientIsolation)).map fun n =>
    ⟨[.iif (safeIface n.bridgeName), .oif (safeIface n.bridgeName)], .drop⟩

def tracking : List (Rule Cond) := [⟨[.ctEstablished], .accept⟩, ⟨[.ctInvalid], .drop⟩]

def resolvers : List (Rule Cond) :=
  (enabled.filter fun n => N.customDNSServers n ≠ []).map fun n =>
    ⟨[.iif (safeIface n.bridgeName), .daddrAmong (N.customDNSServers n), .dns], .accept⟩

def internetDisabled : List (Rule Cond) :=
  (enabled.filter (!·.internetEnabled)).map fun n => ⟨[.iif (safeIface n.bridgeName), .oif topo.wanInterface], .drop⟩

def gardenAccepts : List (Rule Cond) :=
  [⟨[.iifGuest, .oif topo.wanInterface, .daddrGarden], .accept⟩,
   ⟨[.iifGuest, .oif topo.wanInterface, .daddrGardenTCP], .accept⟩,
   ⟨[.iifGuest, .oif topo.wanInterface, .daddrGardenUDP], .accept⟩]

def mgmtDrops : List (Rule Cond) :=
  topo.mgmtCIDRs.map fun cidr =>
    ⟨if topo.privateReach.deny then [.iifGuest, .daddrText cidr, .daddrNotAllowed] else [.iifGuest, .daddrText cidr], .drop⟩

def guestDrop : List (Rule Cond) := [⟨[.iifGuest, .daddrGuestSubnet], .drop⟩]

def privateDrop : List (Rule Cond) := [⟨[.iifGuest, .daddrPrivate, .daddrNotAllowed], .drop⟩]

def authAccept : List (Rule Cond) :=
  [⟨[.oif topo.wanInterface, if topo.macBinding then .phase3MAC else .phase3], .accept⟩]

def tlsDrop : List (Rule Cond) :=
  if topo.portalTLSPort = 0 then [⟨[.iifGuest, .oif topo.wanInterface, .tcpDport 443], .drop⟩] else []

/-- The rules after the resolvers; where private reach is denied the garden comes before the drops. -/
def destinations : List (Rule Cond) :=
  if topo.privateReach.deny then
    internetDisabled topo enabled ++ (gardenAccepts topo ++ (mgmtDrops topo ++ (guestDrop ++ (privateDrop ++ (authAccept topo ++ tlsDrop topo)))))
  else mgmtDrops topo ++ (guestDrop ++ (internetDisabled topo enabled ++ (authAccept topo ++ (gardenAccepts topo ++ tlsDrop topo))))

/-- The replacement over the whole text when MAC binding is on. -/
def bindMAC : Cond → Cond
  | .notPhase3 => if topo.macBinding then .notPhase3MAC else .notPhase3
  | c => c

def forwardChain : List (Rule Cond) :=
  (guards N topo enabled ++ (tracking ++ (resolvers N enabled ++ destinations topo enabled))).map (Rule.map (bindMAC topo))

end

section
variable (N : Net) (nft : Nft N) (topo : Topology) (nets : List GuestNetwork) (S : Runtime)

def InGarden (p : Packet) (d : BitVec 32) : Prop :=
  S.walledGardenIP d ∨ p.tcpTo (S.walledGardenTCP d) ∨ p.udpTo (S.walledGardenUDP d)

/-- A source of the authorized set, with its MAC when that is bound. -/
def Authorized (p : Packet) (s : BitVec 32) : Prop :=
  if topo.macBinding then S.phase3AuthMacIPv4 p.iif s p.mac else S.phase3AuthIPv4 p.iif s

/-- Listed among the private destinations that stay reachable. -/
def Allowed (d : BitVec 32) : Prop := ∃ a ∈ N.normalizeAllow topo.privateReach.allow, a.contains d

/-- A destination an authorized guest may have. -/
structure Reachable (d : BitVec 32) : Prop where
  guest : ∀ m ∈ nets, m.enabled → ∀ c, N.parseCIDR m.subnetCIDR = some c → ¬ c.contains d
  mgmt : ∀ cidr ∈ topo.mgmtCIDRs, nft.reads cidr d → topo.privateReach.deny ∧ Allowed N topo d
  priv : topo.privateReach.deny → ∀ r ∈ privateRanges, r.contains d → Allowed N topo d

/-- What a new packet from a network may be forwarded for. -/
inductive Permitted (n : GuestNetwork) (p : Packet) (s d : BitVec 32) : Prop where
  | resolver (custom : n.dnsMode = .custom) (own : ∃ t ∈ n.dnsServers, N.ip4 (N.trimSpace t) = some d) (dns : p.isDNS)
  | garden (wan : p.oif = topo.wanInterface) (internet : n.internetEnabled) (dest : InGarden S p d)
  | authorized (wan : p.oif = topo.wanInterface) (internet : n.internetEnabled) (source : Authorized topo S p s)
    (dest : Reachable N nft topo nets d)

end

section
variable {N : Net} {nft : Nft N} {topo : Topology} {nets enabled : List GuestNetwork} {S : Runtime} {n : GuestNetwork}
  {p : Packet} {s d : BitVec 32} {rest : List (Rule Cond)}

/-- How the rendered text reads a condition of the body. -/
def reading (nft : Nft N) (topo : Topology) (enabled : List GuestNetwork) (S : Runtime) (c : Cond) : Packet → Bool :=
  holds nft (declared N topo enabled) S (bindMAC topo c)

/-- An IPv4 packet that came in by the bridge of an enabled network. -/
structure Entering (enabled : List GuestNetwork) (n : GuestNetwork) (p : Packet) (s d : BitVec 32) : Prop where
  mem : n ∈ enabled
  safe : safeIface n.bridgeName = p.iif
  v4 : p.addresses = .v4 s d

theorem Entering.iifGuest (e : Entering enabled n p s d) : reading nft topo enabled S .iifGuest p := by
  have : safeIface n.bridgeName ∈ enabled.map fun n => safeIface n.bridgeName := List.mem_map_of_mem e.mem
  simpa [reading, bindMAC, holds, declared, ← e.safe] using this

theorem guards_drop : ∀ r ∈ guards N topo enabled, r.verdict = .drop := by
  intro r hr
  simp only [guards, List.mem_append, List.mem_map, List.mem_cons, List.not_mem_nil, or_false] at hr
  obtain (((rfl | rfl) | hv) | rfl) | ⟨m, _, rfl⟩ := hr
  · rfl
  · rfl
  · split at hv
    · simp only [List.mem_cons, List.not_mem_nil, or_false] at hv
      obtain rfl | rfl := hv <;> rfl
    · cases hv
  · rfl
  · rfl

theorem tracking_new (hc : p.ct = .new) (h : accepts (reading nft topo enabled S) (tracking ++ rest) p) :
    accepts (reading nft topo enabled S) rest p := by
  simpa [tracking, accepts_cons, fires_iff, reading, bindMAC, holds, hc] using h

theorem resolvers_own (e : Entering enabled n p s d) (own : ∀ m ∈ enabled, safeIface m.bridgeName = p.iif → m = n)
    {r} (hr : r ∈ resolvers N enabled) (hf : r.fires (reading nft topo enabled S) p) :
    n.dnsMode = .custom ∧ (∃ t ∈ n.dnsServers, N.ip4 (N.trimSpace t) = some d) ∧ p.isDNS := by
  simp only [resolvers, List.mem_map, List.mem_filter] at hr
  obtain ⟨m, ⟨hm, _⟩, rfl⟩ := hr
  simp only [fires_iff, List.forall_mem_cons, reading, bindMAC, holds, beq_iff_eq, Packet.toIPv4, e.v4, List.contains_iff_mem] at hf
  obtain ⟨hi, hd, hdns, _⟩ := hf
  cases own m hm hi.symm
  unfold Net.customDNSServers at hd
  split at hd
  · next hcustom =>
    simp only [List.mem_dedup, List.mem_filter, List.mem_filterMap] at hd
    exact ⟨hcustom, hd.1, hdns⟩
  · cases hd

theorem internetDisabled_past (e : Entering enabled n p s d)
    (h : accepts (reading nft topo enabled S) (internetDisabled topo enabled ++ rest) p) :
    (p.oif = topo.wanInterface → n.internetEnabled) ∧ accepts (reading nft topo enabled S) rest p := by
  have drops : ∀ r ∈ internetDisabled topo enabled, r.verdict = .drop := by
    intro r hr
    obtain ⟨m, _, rfl⟩ := List.mem_map.mp hr
    rfl
  obtain ⟨past, h⟩ := accepts_drops drops h
  refine ⟨?_, h⟩
  intro hw
  by_contra hi
  apply past ⟨[.iif (safeIface n.bridgeName), .oif topo.wanInterface], .drop⟩
  · simp only [internetDisabled, List.mem_map, List.mem_filter]
    exact ⟨n, ⟨e.mem, by simpa using hi⟩, rfl⟩
  · simp [fires_iff, reading, bindMAC, holds, e.safe, hw]

theorem gardenAccepts_cases (e : Entering enabled n p s d) (h : accepts (reading nft topo enabled S) (gardenAccepts topo ++ rest) p) :
    (p.oif = topo.wanInterface ∧ InGarden S p d) ∨ accepts (reading nft topo enabled S) rest p := by
  obtain ⟨r, hr, _, hf⟩ | h := accepts_append h
  · refine .inl ?_
    simp only [gardenAccepts, List.mem_cons, List.not_mem_nil, or_false] at hr
    obtain rfl | rfl | rfl := hr <;>
      simp only [fires_iff, List.forall_mem_cons, reading, bindMAC, holds, beq_iff_eq, Packet.toIPv4, e.v4] at hf
    · exact ⟨hf.2.1, .inl hf.2.2.1⟩
    · exact ⟨hf.2.1, .inr (.inl hf.2.2.1)⟩
    · exact ⟨hf.2.1, .inr (.inr hf.2.2.1)⟩
  · exact .inr h

theorem authAccept_cases (e : Entering enabled n p s d) (h : accepts (reading nft topo enabled S) (authAccept topo ++ rest) p) :
    (p.oif = topo.wanInterface ∧ Authorized topo S p s) ∨ accepts (reading nft topo enabled S) rest p := by
  obtain ⟨r, hr, _, hf⟩ | h := accepts_append h
  · refine .inl ?_
    simp only [authAccept, List.mem_singleton] at hr
    subst hr
    cases hb : topo.macBinding <;>
      simpa [fires_iff, reading, bindMAC, holds, Packet.fromIPv4, e.v4, Authorized, hb] using hf
  · exact .inr h

theorem not_accepts_tlsDrop : ¬ accepts (reading nft topo enabled S) (tlsDrop topo) p := by
  intro h
  unfold tlsDrop at h
  split at h
  · simp [accepts_cons, accepts_nil] at h
  · exact accepts_nil h

section
variable (e : Entering enabled n p s d)
include e

theorem guestDrop_past
    (h : accepts (reading nft topo enabled S) (guestDrop ++ rest) p) :
    (∀ m ∈ enabled, ¬ nft.reads m.subnetCIDR d) ∧ accepts (reading nft topo enabled S) rest p := by
  obtain ⟨past, h⟩ := accepts_drops (by simp [guestDrop]) h
  refine ⟨?_, h⟩
  intro m hm hr
  apply past _ (List.mem_singleton_self _)
  have : ∃ m ∈ enabled, nft.reads m.subnetCIDR d := ⟨m, hm, hr⟩
  simpa [fires_iff, e.iifGuest] using by simpa [reading, bindMAC, holds, declared, Packet.toIPv4, e.v4] using this

theorem notAllowed_iff (hd : topo.privateReach.deny) : reading nft topo enabled S .daddrNotAllowed p ↔ ¬ Allowed N topo d := by
  simp [reading, bindMAC, holds, declared, Packet.toIPv4, e.v4, hd, Allowed]

theorem mgmtDrops_past
    (h : accepts (reading nft topo enabled S) (mgmtDrops topo ++ rest) p) :
    (∀ cidr ∈ topo.mgmtCIDRs, nft.reads cidr d → topo.privateReach.deny ∧ Allowed N topo d) ∧
      accepts (reading nft topo enabled S) rest p := by
  obtain ⟨past, h⟩ := accepts_drops (by simp [mgmtDrops]) h
  refine ⟨?_, h⟩
  intro cidr hcidr hr
  have inside : reading nft topo enabled S (.daddrText cidr) p := by
    simpa [reading, bindMAC, holds, Packet.toIPv4, e.v4] using hr
  have free := past _ (List.mem_map_of_mem hcidr)
  cases hd : topo.privateReach.deny with
  | false => exact absurd (by simp [fires_iff, hd, e.iifGuest, inside]) free
  | true =>
    refine ⟨rfl, ?_⟩
    by_contra hna
    exact free (by simp [fires_iff, hd, e.iifGuest, inside, (notAllowed_iff e hd).mpr hna])

theorem privateDrop_past (hd : topo.privateReach.deny) (h : accepts (reading nft topo enabled S) (privateDrop ++ rest) p) :
    (∀ r ∈ privateRanges, r.contains d → Allowed N topo d) ∧ accepts (reading nft topo enabled S) rest p := by
  obtain ⟨past, h⟩ := accepts_drops (by simp [privateDrop]) h
  refine ⟨?_, h⟩
  intro r hr hin
  by_contra hna
  have inside : reading nft topo enabled S .daddrPrivate p := by
    have : ∃ r ∈ privateRanges, r.contains d := ⟨r, hr, hin⟩
    simpa [reading, bindMAC, holds, declared, Packet.toIPv4, e.v4, hd] using this
  exact past _ (List.mem_singleton_self _) (by simp [fires_iff, e.iifGuest, inside, (notAllowed_iff e hd).mpr hna])

theorem destinations_permitted (hnets : ∀ m ∈ nets, m.enabled → m ∈ enabled)
    (h : accepts (reading nft topo enabled S) (destinations topo enabled) p) : Permitted N nft topo nets S n p s d := by
  have guest (hg : ∀ m ∈ enabled, ¬ nft.reads m.subnetCIDR d) :
      ∀ m ∈ nets, m.enabled → ∀ c, N.parseCIDR m.subnetCIDR = some c → ¬ c.contains d := by
    intro m hm em c hc
    rw [← nft.reads_cidr hc]
    exact hg m (hnets m hm em)
  unfold destinations at h
  split at h
  · next hd =>
    obtain ⟨internet, h⟩ := internetDisabled_past e h
    obtain ⟨wan, garden⟩ | h := gardenAccepts_cases e h
    · exact .garden wan (internet wan) garden
    obtain ⟨mgmt, h⟩ := mgmtDrops_past e h
    obtain ⟨subnets, h⟩ := guestDrop_past e h
    obtain ⟨priv, h⟩ := privateDrop_past e hd h
    obtain ⟨wan, source⟩ | h := authAccept_cases e h
    · exact .authorized wan (internet wan) source ⟨guest subnets, mgmt, fun _ => priv⟩
    · exact absurd h not_accepts_tlsDrop
  · next hd =>
    obtain ⟨mgmt, h⟩ := mgmtDrops_past e h
    obtain ⟨subnets, h⟩ := guestDrop_past e h
    obtain ⟨internet, h⟩ := internetDisabled_past e h
    obtain ⟨wan, source⟩ | h := authAccept_cases e h
    · exact .authorized wan (internet wan) source ⟨guest subnets, mgmt, fun hd' => absurd hd' hd⟩
    · obtain ⟨wan, garden⟩ | h := gardenAccepts_cases e h
      · exact .garden wan (internet wan) garden
      · exact absurd h not_accepts_tlsDrop

end

/-- The rendered chain forwards a new IPv4 packet from a guest bridge only to the network's own resolvers, to the walled garden or,
from an authorized source, to a destination that is neither a guest subnet nor a range held back. The networks are rendered in any
order. -/
theorem forward_only_permitted {avail known : Option (String → Bool)} (valid : validateSet N nets topo avail known = [])
    (order : enabled.Perm (nets.filter (·.enabled))) (hn : n ∈ nets) (en : n.enabled) (hi : p.iif = n.bridgeName)
    (hv : p.addresses = .v4 s d) (hc : p.ct = .new)
    (h : accepts (holds nft (declared N topo enabled) S) (forwardChain N topo enabled) p) :
    Permitted N nft topo nets S n p s d := by
  have mem (m : GuestNetwork) : m ∈ enabled ↔ m ∈ nets ∧ m.enabled := by rw [order.mem_iff, List.mem_filter]
  have named : n.bridgeName ≠ "" := hi ▸ p.named
  have safe {m : GuestNetwork} (hm : m ∈ nets) (em : m.enabled) (hb : m.bridgeName ≠ "") :
      safeIface m.bridgeName = m.bridgeName := by
    obtain ⟨path, one⟩ := validateOne_of_validateSet valid hm
    exact safeIface_of_validateOne one em hb
  have e : Entering enabled n p s d := ⟨(mem n).mpr ⟨hn, en⟩, (safe hn en named).trans hi.symm, hv⟩
  have own : ∀ m ∈ enabled, safeIface m.bridgeName = p.iif → m = n := by
    intro m hm hs
    obtain ⟨hm, em⟩ := (mem m).mp hm
    -- an unnamed bridge renders as the empty name, which no packet carries
    have hb : m.bridgeName ≠ "" := by
      intro hb
      rw [hb] at hs
      exact p.named hs.symm
    rw [safe hm em hb, hi] at hs
    exact eq_of_sameBridge valid hm hn em en ⟨hs, hb⟩
  rw [forwardChain, accepts_map] at h
  obtain ⟨_, h⟩ := accepts_drops guards_drop h
  obtain ⟨r, hr, _, hf⟩ | h := accepts_append (tracking_new hc h)
  · obtain ⟨custom, server, dns⟩ := resolvers_own e own hr hf
    exact .resolver custom server dns
  · exact destinations_permitted e (fun m hm em => (mem m).mpr ⟨hm, em⟩) h

/-- An nft that knows prefixes only. -/
def Net.prefixReader (N : Net) : Nft N where
  reads s a := (N.parseCIDR s).any (·.contains a)
  reads_cidr := by
    intro s c h
    funext a
    simp [h]

/-- One device is signed in; the garden is empty. -/
def labRuntime : Runtime where
  authIPv4 _ _ := false
  phase3AuthIPv4 _ _ := false
  phase3AuthMacIPv4 iif a mac := iif == "br-g20" && a == 0x0a14000a && mac == 0x020000000001
  walledGardenIP _ := false
  walledGardenTCP _ _ := false
  walledGardenUDP _ _ := false
  dnsPreauthOver _ := false

/-- Its first packet to a web server. -/
def labPacket : Packet where
  iif := "br-g20"
  named := by decide
  oif := "ens160"
  mac := 0x020000000001
  addresses := .v4 0x0a14000a 0x5db8d822
  transport := .tcp 443
  ct := .new

theorem signed_in_device_permitted :
    Permitted labNet labNet.prefixReader labTopology [labNetwork] labRuntime labNetwork labPacket 0x0a14000a 0x5db8d822 :=
  forward_only_permitted labNetwork_valid (List.Perm.refl [labNetwork]) List.mem_cons_self rfl rfl rfl rfl
    (by decide +kernel)

end

end StayConnect.Netcfg
