import StayConnect.Netcfg.Accepted

/-!
# One class per client

`MinorFor` of `data-plane/internal/shape/minor.go` on a bridge that carries the address of its network, against
`iam_v2.p3_expected_class_minor` of migration 0200, over the networks `LoadIntent` reads from the table the SQL function reads.
-/

namespace StayConnect.Netcfg
open Netd

section
variable {n : Subnet} {a : BitVec 32}

theorem contains_iff_div : n.contains a ↔ a.toNat / 2 ^ (32 - n.ones) = n.base.toNat / 2 ^ (32 - n.ones) := by
  simp only [Subnet.contains, beq_iff_eq, ← BitVec.toNat_inj, BitVec.toNat_ushiftRight, Nat.shiftRight_eq_div_pow]

theorem Masked.contains_iff (h : Masked n) : n.contains a ↔ n.base.toNat ≤ a.toNat ∧ a.toNat < n.base.toNat + 2 ^ (32 - n.ones) := by
  have pos : 0 < 2 ^ (32 - n.ones) := Nat.two_pow_pos _
  obtain ⟨q, hq⟩ := Nat.dvd_of_mod_eq_zero h.base
  rw [contains_iff_div, hq, Nat.mul_div_cancel_left q pos, Nat.div_eq_iff pos, Nat.mul_comm]
  omega

theorem Masked.lastAddr (h : Masked n) : (lastAddr n).toNat = n.base.toNat + (2 ^ (32 - n.ones) - 1) := by
  obtain ⟨q, hq⟩ := Nat.dvd_of_mod_eq_zero h.base
  have pos : 0 < 2 ^ (32 - n.ones) := Nat.two_pow_pos _
  have small : 2 ^ (32 - n.ones) - 1 < 2 ^ 32 := by
    have : 2 ^ (32 - n.ones) ≤ 2 ^ 32 := Nat.pow_le_pow_right (by decide) (by omega)
    omega
  rw [Netcfg.lastAddr, BitVec.toNat_or, BitVec.toNat_ofNat, Nat.mod_eq_of_lt small, hq]
  exact (Nat.two_pow_add_eq_or_of_lt (by omega) q).symm

theorem Masked.overlap {c d} (hc : Masked c.toSubnet) (hd : Masked d.toSubnet) (ha : c.contains a)
    (hb : d.contains a) (mc : c.mapped = false) (md : d.mapped = false) : Overlap c d := by
  have inc := hc.contains_iff.mp ha
  have ind := hd.contains_iff.mp hb
  simp only [Overlap, broadcast, mc, md, Bool.false_eq_true, if_false, hc.lastAddr, hd.lastAddr]
  omega

end

/-- `masklen(subnet_cidr)`. -/
def masklen (c : Cidr) : Nat := if c.mapped then 96 + c.ones else c.ones

/-- The address with its host bits cleared. -/
def maskTo (a : BitVec 32) (ones : Nat) : BitVec 32 := (a >>> (32 - ones)) <<< (32 - ones)

section
variable (N : Net) (nets : List GuestNetwork) (n : GuestNetwork)

/-- The length `gatewayCIDR` writes behind the gateway. -/
def bridgePrefix : Nat :=
  if 0 < n.prefixLen then n.prefixLen.toNat else ((N.parseCIDR n.subnetCIDR).map masklen).getD 24

/-- The subnets `kernelBridgeNets` finds on a bridge that was given `gatewayCIDR`. An IPv4 address takes no more than 32 bits. -/
def bridgeNets : List Subnet :=
  match N.ip4 n.gatewayIP with
  | some gw => if bridgePrefix N n ≤ 32 then [⟨maskTo gw (bridgePrefix N n), bridgePrefix N n⟩] else []
  | none => []

/-- `MinorFor` on the bridge of the network. -/
def clientMinor (a : BitVec 32) : Option Nat := minorFor (fun _ => bridgeNets N n) ⟨n.bridgeName.toList, .v4 a⟩

/-- `ORDER BY masklen DESC LIMIT 1`; which of equally long ones is returned is left to the database. -/
def narrowest : List Subnet → Option Subnet
  | [] => none
  | n :: rest =>
    match narrowest rest with
    | some b => if n.ones < b.ones then some b else some n
    | none => some n

/-- The rows the query of `p3_expected_class_minor` selects. A prefix of the other family holds no IPv4 address. -/
def classNets (a : BitVec 32) : List Subnet :=
  nets.filterMap fun n =>
    if n.enabled then
      (N.parseCIDR n.subnetCIDR).bind fun c =>
        if !c.mapped && 17 ≤ c.ones && c.ones ≤ 19 && c.contains a then some c.toSubnet else none
    else none

/-- The third and the fourth part of the address as the function splits them. -/
def lowMinor (a : BitVec 32) : Nat := 4096 + ((((a.toNat / 256 % 256) &&& 15) <<< 8) ||| (a.toNat % 256))

def expectedClassMinor : Ip → Option Nat
  | .v6 _ => none
  | .v4 a =>
    match narrowest (classNets N nets a) with
    | none => some (lowMinor a)
    | some net =>
      let idx := a.toNat - net.base.toNat
      if idx < 4096 then some (4096 + idx) else some (12288 + (idx - 4096))

/-- The class `htb default` names. -/
def defaultMinor : Nat := 1

/-- An address a guest of the network may have. -/
structure GuestHost (a : BitVec 32) : Prop where
  inside : ∃ c, N.parseCIDR n.subnetCIDR = some c ∧ c.contains a ∧ a ≠ c.base ∧ a ≠ lastAddr c.toSubnet
  guest : N.ip4 n.gatewayIP ≠ some a

/-- Both sides name the class of a client alike, clients of one bridge have their own, and none is another kind of class. -/
structure ClassPerClient : Prop where
  agree : ∀ n ∈ nets, n.enabled → ∀ a, GuestHost N n a → clientMinor N n a = expectedClassMinor N nets (.v4 a)
  distinct : ∀ n ∈ nets, n.enabled → ∀ a b, GuestHost N n a → GuestHost N n b → clientMinor N n a = clientMinor N n b → a = b
  apart : ∀ n ∈ nets, n.enabled → ∀ a, GuestHost N n a →
    ∃ minor, clientMinor N n a = some minor ∧ isGuestMinor minor ∧ minor ≠ defaultMinor ∧ ∀ id, groupMinorFor id ≠ some minor

/-- `LoadIntent` reads the prefix length from the subnet column. -/
def Loaded : Prop := ∀ c, N.parseCIDR n.subnetCIDR = some c → n.prefixLen = masklen c

end

section
variable {N : Net} {nets : List GuestNetwork} {n m : GuestNetwork} {topo : Topology} {avail known : Option (String → Bool)}
  {a b gw : BitVec 32} {c : Cidr}

theorem narrowest_mem {l s} (h : narrowest l = some s) : s ∈ l := by
  induction l with
  | nil => cases h
  | cons x rest ih =>
    simp only [narrowest] at h
    cases hr : narrowest rest with
    | none =>
      rw [hr] at h
      cases h
      exact List.mem_cons_self
    | some y =>
      simp only [hr] at h
      split at h
      · cases h
        exact List.mem_cons_of_mem _ (ih hr)
      · cases h
        exact List.mem_cons_self

theorem narrowest_none {l} (h : narrowest l = none) : l = [] := by
  cases l with
  | nil => rfl
  | cons x rest =>
    simp only [narrowest] at h
    split at h
    · split at h <;> cases h
    · cases h

theorem mem_classNets {s} (h : s ∈ classNets N nets a) :
    ∃ m ∈ nets, m.enabled ∧ ∃ d, N.parseCIDR m.subnetCIDR = some d ∧ d.toSubnet = s ∧ d.mapped = false ∧ 17 ≤ d.ones ∧
      d.ones ≤ 19 ∧ d.contains a := by
  obtain ⟨m, hm, h⟩ := List.mem_filterMap.mp h
  split at h
  · next em =>
    obtain ⟨d, hd, h⟩ := Option.bind_eq_some_iff.mp h
    split at h
    · next ok =>
      simp only [Bool.and_eq_true, decide_eq_true_eq, Bool.not_eq_true'] at ok
      cases h
      exact ⟨m, hm, em, d, hd, rfl, ok.1.1.1, ok.1.1.2, ok.1.2, ok.2⟩
    · cases h
  · cases h

theorem minorForIP_eq (a : BitVec 32) : minorForIP a = 4096 + a.toNat % 4096 := by
  rw [minorForIP, BitVec.toNat_and, show (0xfff#32).toNat = 2 ^ 12 - 1 from rfl, Nat.and_two_pow_sub_one_eq_mod]
  rfl

theorem lowMinor_eq (a : BitVec 32) : lowMinor a = minorForIP a := by
  have four : (a.toNat / 256 % 256) &&& 15 = a.toNat / 256 % 16 := by
    rw [show (15 : Nat) = 2 ^ 4 - 1 from rfl, Nat.and_two_pow_sub_one_eq_mod]
    omega
  have low : a.toNat % 256 < 2 ^ 8 := Nat.mod_lt _ (by decide)
  rw [lowMinor, minorForIP_eq, four, Nat.shiftLeft_eq, Nat.mul_comm,
    ← Nat.two_pow_add_eq_or_of_lt low]
  omega

theorem bridgeNets_plain (h : Addressed N n c gw) (hl : Loaded N n) (hm : c.mapped = false) : bridgeNets N n = [c.toSubnet] := by
  have masked := N.parseCIDR_masked h.subnet
  have wide := h.wide hm
  have len : n.prefixLen = c.ones := by simpa [masklen, hm] using hl c h.subnet
  have ones : bridgePrefix N n = c.ones := by
    rw [bridgePrefix, if_pos (by rw [len]; simp only [minSubnetPrefix] at wide; omega), len, Int.toNat_natCast]
  have base : maskTo gw c.ones = c.base := by
    apply BitVec.eq_of_toNat_eq
    have pos : 0 < 2 ^ (32 - c.ones) := Nat.two_pow_pos _
    obtain ⟨q, hq⟩ := Nat.dvd_of_mod_eq_zero masked.base
    have same : gw.toNat / 2 ^ (32 - c.ones) = q := by
      rw [contains_iff_div.mp h.inside, hq, Nat.mul_div_cancel_left q pos]
    have lt := c.base.isLt
    rw [maskTo, BitVec.toNat_shiftLeft, BitVec.toNat_ushiftRight, Nat.shiftRight_eq_div_pow, same, Nat.shiftLeft_eq,
      Nat.mul_comm, ← hq, Nat.mod_eq_of_lt lt]
  have ip : N.ip4 n.gatewayIP = some gw := by simp [Net.ip4, h.gateway, Ip.to4]
  rw [bridgeNets, ip]
  simp only [ones, base, if_pos masked.ones]

theorem bridgeNets_mapped (h : Addressed N n c gw) (hl : Loaded N n) (hm : c.mapped) : bridgeNets N n = [] := by
  have len : n.prefixLen = ((96 + c.ones : Nat) : Int) := by
    rw [hl c h.subnet, masklen, if_pos hm]
  have ones : bridgePrefix N n = 96 + c.ones := by
    rw [bridgePrefix, if_pos (by rw [len]; omega), len, Int.toNat_natCast]
  have ip : N.ip4 n.gatewayIP = some gw := by simp [Net.ip4, h.gateway, Ip.to4]
  rw [bridgeNets, ip]
  simp only [ones]
  rw [if_neg (by omega)]

theorem clientMinor_eq : clientMinor N n a = minorInNet a (bestNet a (bridgeNets N n) none) := rfl

theorem clientMinor_wide (hb : bridgeNets N n = [c.toSubnet]) (h19 : c.ones = 19) (masked : Masked c.toSubnet) (ha : c.contains a) :
    clientMinor N n a = if a.toNat - c.base.toNat < 4096 then some (4096 + (a.toNat - c.base.toNat))
      else some (12288 + (a.toNat - c.base.toNat - 4096)) := by
  have range := masked.contains_iff.mp ha
  rw [h19] at range
  have best : bestNet a [c.toSubnet] none = some c.toSubnet := by simp [bestNet, ha]
  have index : clientMinor N n a = minorForHostIndex (a.toNat - c.base.toNat) := by
    rw [clientMinor_eq, hb, best, minorInNet, if_pos]
    simp [widestPrefix, h19, ha]
  have legacy : legacyHosts = 4096 := rfl
  have ext : extMinorBase = 12288 := rfl
  have top : extMinorMax = 65535 := rfl
  rw [index, minorForHostIndex, legacy, ext, top]
  by_cases low : a.toNat - c.base.toNat < 4096
  · rw [if_pos low, if_pos low]
    rfl
  · rw [if_neg low, if_neg low, if_pos (by omega)]

theorem clientMinor_narrow (hb : bridgeNets N n = [] ∨ bridgeNets N n = [c.toSubnet] ∧ 20 ≤ c.ones) :
    clientMinor N n a = some (minorForIP a) := by
  obtain hb | ⟨hb, narrow⟩ := hb
  · rw [clientMinor_eq, hb]
    rfl
  rw [clientMinor_eq, hb, bestNet, bestNet, bestNet]
  split
  · simp only [minorInNet]
    rw [if_neg]
    simp
    omega
  · rfl

theorem minorForIP_inj (masked : Masked c.toSubnet) (narrow : 20 ≤ c.ones) (ha : c.contains a) (hb : c.contains b)
    (h : minorForIP a = minorForIP b) : a = b := by
  have ra := masked.contains_iff.mp ha
  have rb := masked.contains_iff.mp hb
  have size : 2 ^ (32 - c.ones) ≤ 2 ^ 12 := Nat.pow_le_pow_right (by decide) (by omega)
  rw [minorForIP_eq, minorForIP_eq] at h
  apply BitVec.eq_of_toNat_eq
  omega

/-- An enabled network as the set was accepted, its prefix length as it was read from the table. -/
structure Member (N : Net) (nets : List GuestNetwork) (n : GuestNetwork) (c : Cidr) (gw : BitVec 32) : Prop
    extends Addressed N n c gw where
  mem : n ∈ nets
  enabled : n.enabled
  loaded : Loaded N n

theorem exists_member (valid : validateSet N nets topo avail known = []) (loaded : ∀ n ∈ nets, Loaded N n) (hn : n ∈ nets)
    (en : n.enabled) : ∃ c gw, Member N nets n c gw := by
  obtain ⟨path, one⟩ := validateOne_of_validateSet valid hn
  obtain ⟨c, gw, h⟩ := addressed_of_validateOne one
  exact ⟨c, gw, h, hn, en, loaded n hn⟩

theorem Member.masked (h : Member N nets n c gw) : Masked c.toSubnet := N.parseCIDR_masked h.subnet

theorem GuestHost.contains (ha : GuestHost N n a) (h : Member N nets n c gw) : c.contains a := by
  obtain ⟨d, hd, hin, _⟩ := ha.inside
  rw [h.subnet] at hd
  cases hd
  exact hin

/-- The networks whose clients the two sides name alike. -/
def Named (c : Cidr) : Prop := c.mapped = false ∨ 20 ≤ c.ones

theorem Member.classNets (valid : validateSet N nets topo avail known = []) (h : Member N nets n c gw) (hc : Named c)
    (ha : c.contains a) {s} (hs : s ∈ classNets N nets a) : c.mapped = false ∧ c.toSubnet = s := by
  obtain ⟨m, hm, em, d, hd, rfl, plain, d17, d19, hda⟩ := mem_classNets hs
  by_cases same : n = m
  · subst same
    rw [h.subnet] at hd
    cases hd
    exact ⟨plain, rfl⟩
  -- the two would overlap: of two subnets that share an address, the base of the narrower one lies in the wider
  have apart := not_overlap valid h.mem hm h.enabled em same h.subnet hd
  have md := N.parseCIDR_masked hd
  exfalso
  apply apart
  cases hmap : c.mapped with
  | false => exact h.masked.overlap md ha hda hmap plain
  | true =>
    have narrow : 20 ≤ c.ones := hc.resolve_left (by simp [hmap])
    have base : d.contains c.base := by
      have pow : 2 ^ (32 - d.ones) = 2 ^ (32 - c.ones) * 2 ^ (c.ones - d.ones) := by
        rw [← Nat.pow_add]
        congr 1
        have := h.masked.ones
        omega
      rw [contains_iff_div] at hda ⊢
      rw [← hda, pow, ← Nat.div_div_eq_div_mul, ← Nat.div_div_eq_div_mul, contains_iff_div.mp ha]
    have range := md.contains_iff.mp base
    simp only [Overlap, broadcast, hmap, plain, Bool.false_eq_true, if_true, if_false, md.lastAddr]
    omega

/-- What the class of a client is on both sides. -/
inductive ClassCase (N : Net) (nets : List GuestNetwork) (n : GuestNetwork) (c : Cidr) : Prop where
  | index (ones : c.ones = 19) (own : ∀ a, c.contains a →
      (clientMinor N n a = if a.toNat - c.base.toNat < 4096 then some (4096 + (a.toNat - c.base.toNat))
        else some (12288 + (a.toNat - c.base.toNat - 4096))) ∧ expectedClassMinor N nets (.v4 a) = clientMinor N n a)
  | low (ones : 20 ≤ c.ones) (own : ∀ a, c.contains a →
      clientMinor N n a = some (minorForIP a) ∧ expectedClassMinor N nets (.v4 a) = clientMinor N n a)

theorem Member.classCase (valid : validateSet N nets topo avail known = []) (h : Member N nets n c gw) (hc : Named c) :
    ClassCase N nets n c := by
  have fallback (a : BitVec 32) (hn : narrowest (Netcfg.classNets N nets a) = none) :
      expectedClassMinor N nets (.v4 a) = some (minorForIP a) := by
    simp only [expectedClassMinor, hn, lowMinor_eq]
  by_cases narrow : 20 ≤ c.ones
  · refine .low narrow ?_
    intro a ha
    have client : clientMinor N n a = some (minorForIP a) := by
      apply clientMinor_narrow (c := c)
      cases hmap : c.mapped with
      | false => exact .inr ⟨bridgeNets_plain h.toAddressed h.loaded hmap, narrow⟩
      | true => exact .inl (bridgeNets_mapped h.toAddressed h.loaded hmap)
    refine ⟨client, ?_⟩
    rw [client]
    apply fallback
    cases hnet : narrowest (Netcfg.classNets N nets a) with
    | none => rfl
    | some s =>
      obtain ⟨_, rfl⟩ := h.classNets valid hc ha (narrowest_mem hnet)
      obtain ⟨_, _, _, d, _, hd, _, _, d19, _⟩ := mem_classNets (narrowest_mem hnet)
      rw [← hd] at narrow
      omega
  · have plain : c.mapped = false := hc.resolve_right narrow
    have h19 : c.ones = 19 := by
      have := h.wide plain
      simp only [minSubnetPrefix] at this
      omega
    refine .index h19 ?_
    intro a ha
    have client := clientMinor_wide (bridgeNets_plain h.toAddressed h.loaded plain) h19 h.masked ha
    refine ⟨client, ?_⟩
    have listed : c.toSubnet ∈ Netcfg.classNets N nets a := by
      refine List.mem_filterMap.mpr ⟨n, h.mem, ?_⟩
      simp [h.enabled, h.subnet, plain, h19, ha]
    cases hnet : narrowest (Netcfg.classNets N nets a) with
    | none =>
      rw [narrowest_none hnet] at listed
      cases listed
    | some s =>
      obtain ⟨_, rfl⟩ := h.classNets valid hc ha (narrowest_mem hnet)
      rw [client]
      simp only [expectedClassMinor, hnet]

theorem minorForIP_lt (a : BitVec 32) : 4096 ≤ minorForIP a ∧ minorForIP a < 8192 := by
  rw [minorForIP_eq]
  omega

theorem guest_apart {minor} (h : 4096 ≤ minor ∧ minor < 8192 ∨ 12288 ≤ minor ∧ minor < 16384) :
    isGuestMinor minor ∧ minor ≠ defaultMinor ∧ ∀ id, groupMinorFor id ≠ some minor := by
  refine ⟨?_, ?_, ?_⟩
  · simp only [isGuestMinor, Bool.or_eq_true, Bool.and_eq_true, decide_eq_true_eq]
    simp only [guestMinorBase, guestMinorMax, extMinorBase, extMinorMax]
    omega
  · simp only [defaultMinor]
    omega
  · intro id hid
    unfold groupMinorFor at hid
    split at hid
    · cases hid
    · simp only [Option.some.injEq, groupMinorBase, groupMinorMax] at hid
      omega

theorem ClassCase.minor (h : ClassCase N nets n c) (masked : Masked c.toSubnet) (ha : c.contains a) :
    ∃ minor, clientMinor N n a = some minor ∧ (4096 ≤ minor ∧ minor < 8192 ∨ 12288 ≤ minor ∧ minor < 16384) := by
  cases h with
  | low ones own => exact ⟨_, (own a ha).1, .inl (minorForIP_lt a)⟩
  | index ones own =>
    have range := masked.contains_iff.mp ha
    rw [ones] at range
    have client := (own a ha).1
    split at client
    · exact ⟨_, client, by omega⟩
    · exact ⟨_, client, by omega⟩

theorem ClassCase.inj (h : ClassCase N nets n c) (masked : Masked c.toSubnet) (ha : c.contains a) (hb : c.contains b)
    (same : clientMinor N n a = clientMinor N n b) : a = b := by
  cases h with
  | low ones own =>
    rw [(own a ha).1, (own b hb).1, Option.some.injEq] at same
    exact minorForIP_inj masked ones ha hb same
  | index ones own =>
    have ra := masked.contains_iff.mp ha
    have rb := masked.contains_iff.mp hb
    rw [ones] at ra rb
    rw [(own a ha).1, (own b hb).1] at same
    apply BitVec.eq_of_toNat_eq
    split at same <;> split at same <;> simp only [Option.some.injEq] at same <;> omega

theorem exists_shared_minor (h : Member N nets n c gw) (hm : c.mapped) (wide : c.ones < 20) :
    ∃ a b, GuestHost N n a ∧ GuestHost N n b ∧ a ≠ b ∧ clientMinor N n a = clientMinor N n b := by
  have masked := h.masked
  have size : 2 ^ 13 ≤ 2 ^ (32 - c.ones) := Nat.pow_le_pow_right (by decide) (by omega)
  have fits : c.base.toNat + 2 ^ (32 - c.ones) ≤ 2 ^ 32 := by
    have lt := (lastAddr c.toSubnet).isLt
    rw [masked.lastAddr] at lt
    omega
  have offset (k : Nat) (hk : k < 8191) : (BitVec.ofNat 32 (c.base.toNat + k)).toNat = c.base.toNat + k := by
    rw [BitVec.toNat_ofNat, Nat.mod_eq_of_lt (by omega)]
  have host (k : Nat) (h0 : 0 < k) (hk : k < 8191) (hg : BitVec.ofNat 32 (c.base.toNat + k) ≠ gw) :
      GuestHost N n (BitVec.ofNat 32 (c.base.toNat + k)) := by
    refine ⟨⟨c, h.subnet, masked.contains_iff.mpr ?_, ?_, ?_⟩, ?_⟩
    · rw [offset k hk]
      omega
    · intro he
      have := congrArg BitVec.toNat he
      rw [offset k hk] at this
      omega
    · intro he
      have := congrArg BitVec.toNat he
      rw [offset k hk, masked.lastAddr] at this
      omega
    · simpa [Net.ip4, h.gateway, Ip.to4] using fun he => hg he.symm
  have same (k : Nat) (hk : k + 4096 < 8191) : clientMinor N n (BitVec.ofNat 32 (c.base.toNat + k)) =
      clientMinor N n (BitVec.ofNat 32 (c.base.toNat + (k + 4096))) := by
    rw [clientMinor_narrow (c := c) (.inl (bridgeNets_mapped h.toAddressed h.loaded hm)),
      clientMinor_narrow (c := c) (.inl (bridgeNets_mapped h.toAddressed h.loaded hm)), minorForIP_eq, minorForIP_eq,
      offset k (by omega), offset (k + 4096) hk, ← Nat.add_assoc, Nat.add_mod_right]
  have differ (i j : Nat) (hi : i < 8191) (hj : j < 8191) (hij : i ≠ j) :
      BitVec.ofNat 32 (c.base.toNat + i) ≠ BitVec.ofNat 32 (c.base.toNat + j) := by
    intro he
    have := congrArg BitVec.toNat he
    rw [offset i hi, offset j hj] at this
    omega
  -- the gateway is at most one of the four, so one of the two pairs is of guests
  by_cases hg : BitVec.ofNat 32 (c.base.toNat + 1) = gw ∨ BitVec.ofNat 32 (c.base.toNat + (1 + 4096)) = gw
  · have far (k : Nat) (hk : k < 8191) (h1 : k ≠ 1) (h2 : k ≠ 1 + 4096) : BitVec.ofNat 32 (c.base.toNat + k) ≠ gw := by
      obtain hg | hg := hg
      · rw [← hg]
        exact differ k 1 hk (by decide) h1
      · rw [← hg]
        exact differ k (1 + 4096) hk (by decide) h2
    exact ⟨_, _, host 2 (by decide) (by decide) (far 2 (by decide) (by decide) (by decide)),
      host (2 + 4096) (by decide) (by decide) (far (2 + 4096) (by decide) (by decide) (by decide)),
      differ 2 (2 + 4096) (by decide) (by decide) (by decide), same 2 (by decide)⟩
  · rw [not_or] at hg
    exact ⟨_, _, host 1 (by decide) (by decide) hg.1, host (1 + 4096) (by decide) (by decide) hg.2,
      differ 1 (1 + 4096) (by decide) (by decide) (by decide), same 1 (by decide)⟩

/-- The two sides keep one class per client exactly where no enabled subnet wider than a /20 is spelled as an IPv4-mapped prefix:
its width is not checked. -/
theorem class_per_client_iff (valid : validateSet N nets topo avail known = []) (loaded : ∀ n ∈ nets, Loaded N n) :
    ClassPerClient N nets ↔ ∀ n ∈ nets, n.enabled → ∀ c, N.parseCIDR n.subnetCIDR = some c → c.mapped → 20 ≤ c.ones := by
  constructor
  · intro h n hn en c hc hm
    by_contra wide
    obtain ⟨c', gw, member⟩ := exists_member valid loaded hn en
    rw [member.subnet] at hc
    cases hc
    obtain ⟨a, b, ha, hb, hne, same⟩ := exists_shared_minor member hm (by omega)
    exact hne (h.distinct n hn en a b ha hb same)
  · intro named
    have classOf (n : GuestNetwork) (hn : n ∈ nets) (en : n.enabled) :
        ∃ c gw, Member N nets n c gw ∧ ClassCase N nets n c := by
      obtain ⟨c, gw, member⟩ := exists_member valid loaded hn en
      refine ⟨c, gw, member, member.classCase valid ?_⟩
      cases hm : c.mapped with
      | false => exact .inl hm
      | true => exact .inr (named n hn en c member.subnet hm)
    refine ⟨?_, ?_, ?_⟩
    · intro n hn en a ha
      obtain ⟨c, gw, member, hcase⟩ := classOf n hn en
      have inside := ha.contains member
      cases hcase with
      | index _ own | low _ own => exact (own a inside).2.symm
    · intro n hn en a b ha hb same
      obtain ⟨c, gw, member, hcase⟩ := classOf n hn en
      exact hcase.inj member.masked (ha.contains member) (hb.contains member) same
    · intro n hn en a ha
      obtain ⟨c, gw, member, hcase⟩ := classOf n hn en
      obtain ⟨minor, client, band⟩ := hcase.minor member.masked (ha.contains member)
      exact ⟨minor, client, guest_apart band⟩

end

theorem labNetwork_loaded : ∀ n ∈ [labNetwork], Loaded labNet n := by
  intro n hn c hc
  rw [List.mem_singleton.mp hn] at hc ⊢
  cases hc
  rfl

theorem lab_class_per_client : ClassPerClient labNet [labNetwork] := by
  apply (class_per_client_iff labNetwork_valid labNetwork_loaded).mpr
  intro n hn _ c hc hm
  rw [List.mem_singleton.mp hn] at hc
  cases hc
  cases hm

/-- Reads the texts of a network whose subnet is spelled as an IPv4-mapped prefix. -/
def mappedNet : Net where
  __ := labNet
  parseIP s :=
    if s = "10.0.0.1" then some (.v4 0x0a000001)
    else if s = "10.0.0.10" then some (.v4 0x0a00000a)
    else if s = "10.0.0.200" then some (.v4 0x0a0000c8)
    else none
  parseCIDR s := if s = "::ffff:10.0.0.0/104" then some ⟨⟨0x0a000000, 8⟩, true⟩ else none
  parseCIDR_masked := by
    intro s c h
    split at h
    · cases h
      exact ⟨by decide, by decide⟩
    · cases h

def mappedNetwork : GuestNetwork :=
  { labNetwork with
    gatewayIP := "10.0.0.1"
    subnetCIDR := "::ffff:10.0.0.0/104"
    prefixLen := 104
    pools := [⟨"10.0.0.10", "10.0.0.200"⟩] }

/-- A /8 passes the width rule in the mapped spelling, and 10.0.0.5 and 10.0.16.5 share a class. -/
theorem mapped_subnet_shares_class :
    validateSet mappedNet [mappedNetwork] labTopology none none = [] ∧ (∀ n ∈ [mappedNetwork], Loaded mappedNet n) ∧
      ¬ ClassPerClient mappedNet [mappedNetwork] := by
  have host (a : BitVec 32) (hin : (⟨0x0a000000, 8⟩ : Subnet).contains a) (h0 : a ≠ 0x0a000000)
      (h1 : a ≠ lastAddr ⟨0x0a000000, 8⟩) (hg : a ≠ 0x0a000001) : GuestHost mappedNet mappedNetwork a :=
    ⟨⟨⟨⟨0x0a000000, 8⟩, true⟩, rfl, hin, h0, h1⟩, fun he => hg (Option.some.inj he).symm⟩
  refine ⟨by decide +kernel, ?_, ?_⟩
  · intro n hn c hc
    rw [List.mem_singleton.mp hn] at hc ⊢
    cases hc
    rfl
  · intro h
    have same := h.distinct mappedNetwork List.mem_cons_self rfl 0x0a000005 0x0a001005
      (host _ (by decide) (by decide) (by decide) (by decide)) (host _ (by decide) (by decide) (by decide) (by decide))
      (by decide +kernel)
    exact absurd same (by decide)

end StayConnect.Netcfg
