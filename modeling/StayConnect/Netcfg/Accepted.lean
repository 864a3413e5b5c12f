import Mathlib.Data.List.Pairwise
import StayConnect.Netcfg.Validate

/-!
# What an accepted set of networks satisfies

The checks of `ValidateSet` as facts about a set it has no issue with: bridge names that nft reads as they stand and that no two
networks share, gateways inside their subnets, the widths of subnets and that no two overlap.
-/

namespace StayConnect.Netcfg
open Netd

@[simp]
theorem issueIf_eq_nil {b i} : issueIf b i = [] ↔ b = false := by
  cases b <;> simp [issueIf]

@[simp]
theorem issueFor_eq_nil {field code why} : issueFor field code why = [] ↔ why = none := by
  cases why <;> simp [issueFor]

variable {N : Net} {nets : List GuestNetwork} {n m : GuestNetwork} {topo : Topology} {avail known : Option (String → Bool)}

theorem safeIface_of_ifaceName {name} (h : ifaceName name) : safeIface name = name := by
  simp only [ifaceName, Bool.and_eq_true, List.all_eq_true] at h
  have same : ∀ cs : List Char, (∀ c ∈ cs, ifaceChar c) →
      (cs.flatMap fun c => if ifaceChar c then [c] else List.replicate c.utf8Size '_') = cs := by
    intro cs hc
    induction cs with
    | nil => rfl
    | cons c cs ih =>
      rw [List.flatMap_cons, if_pos (hc c List.mem_cons_self), ih fun d hd => hc d (List.mem_cons_of_mem _ hd)]
      rfl
  rw [safeIface, same _ h.1, String.ofList_toList]

theorem ifaceName_of_checkIfaceName {name} (h : N.checkIfaceName name = none) : ifaceName name := by
  unfold Net.checkIfaceName at h
  split at h
  · cases h
  split at h
  · cases h
  · split at h
    · cases h
    · next hn => simpa using hn

/-- What the address checks establish. -/
structure Addressed (N : Net) (n : GuestNetwork) (c : Cidr) (gw : BitVec 32) : Prop where
  subnet : N.parseCIDR n.subnetCIDR = some c
  gateway : N.parseIP n.gatewayIP = some (.v4 gw)
  inside : c.toSubnet.contains gw
  wide : c.mapped = false → minSubnetPrefix ≤ c.ones
  narrow : c.mapped = false → c.ones ≤ maxSubnetPrefix

theorem addressed_of_addressIssues {path} (h : addressIssues N n path = []) : ∃ c gw, Addressed N n c gw := by
  simp only [addressIssues, List.append_eq_nil_iff, issueIf_eq_nil] at h
  obtain ⟨hg, h⟩ := h
  cases hgw : N.parseIP n.gatewayIP with
  | none => simp [hgw] at hg
  | some ip =>
    cases ip with
    | v6 a => simp [hgw, Ip.to4] at hg
    | v4 gw =>
      cases hc : N.parseCIDR n.subnetCIDR with
      | none => simp [hc] at h
      | some c =>
        simp only [hc, hgw, List.append_eq_nil_iff, issueIf_eq_nil, checkClientSubnetMask, containsIP] at h
        obtain ⟨⟨⟨hin, _⟩, _⟩, hnarrow, hwide⟩ := h
        refine ⟨c, gw, hc, hgw, by simpa using hin, ?_, ?_⟩
        · intro hm
          simpa [hm] using hwide
        · intro hm
          simpa [hm] using hnarrow

theorem addressed_of_validateOne {path} (h : validateOne N n topo path avail known = []) : ∃ c gw, Addressed N n c gw := by
  simp only [validateOne, List.append_eq_nil_iff] at h
  exact addressed_of_addressIssues h.1.1.1.1.1.2

theorem safeIface_of_validateOne {path} (h : validateOne N n topo path avail known = []) (he : n.enabled)
    (hb : n.bridgeName ≠ "") : safeIface n.bridgeName = n.bridgeName := by
  simp only [validateOne, List.append_eq_nil_iff, nameIssues, he, if_true, hb, ne_eq, not_false_eq_true, issueFor_eq_nil] at h
  exact safeIface_of_ifaceName (ifaceName_of_checkIfaceName h.1.1.1.1.1.1.1.1.2.1.1.1.2)

theorem validateOne_of_validateSet (h : validateSet N nets topo avail known = []) (hn : n ∈ nets) :
    ∃ path, validateOne N n topo path avail known = [] := by
  simp only [validateSet, List.append_eq_nil_iff, List.flatMap_eq_nil_iff] at h
  obtain ⟨i, hi⟩ := List.mem_iff_getElem?.mp hn
  exact ⟨_, h.1.1 (n, i) (List.mem_zipIdx_iff_getElem?.mpr hi)⟩

theorem mem_sortEnabled : n ∈ sortEnabled nets ↔ n ∈ nets ∧ n.enabled := by
  simp [sortEnabled, List.mem_insertionSort]

def SameBridge (a b : GuestNetwork) : Prop := a.bridgeName = b.bridgeName ∧ a.bridgeName ≠ ""

theorem duplicateIssues_nil {vlans bridges} (h : duplicateIssues nets vlans bridges = []) :
    (∀ a ∈ nets, a.bridgeName ≠ "" → a.bridgeName ∉ bridges) ∧ nets.Pairwise fun a b => ¬ SameBridge a b := by
  induction nets generalizing vlans bridges with
  | nil => exact ⟨fun a ha => absurd ha List.not_mem_nil, .nil⟩
  | cons a rest ih =>
    simp only [duplicateIssues, List.append_eq_nil_iff, issueIf_eq_nil] at h
    obtain ⟨⟨_, hb⟩, hrest⟩ := h
    obtain ⟨fresh, pairs⟩ := ih hrest
    constructor
    · intro b hb' hne
      cases hb' with
      | head => simpa [hne] using hb
      | tail _ hb' =>
        intro hmem
        apply fresh b hb' hne
        split
        · exact List.mem_append_left _ hmem
        · exact hmem
    · refine .cons ?_ pairs
      rintro b hb' ⟨heq, hne⟩
      apply fresh b hb' (heq ▸ hne)
      rw [if_pos hne, ← heq]
      exact List.mem_append_right _ List.mem_cons_self

theorem eq_of_sameBridge (h : validateSet N nets topo avail known = []) (hn : n ∈ nets) (hm : m ∈ nets) (en : n.enabled)
    (em : m.enabled) (hs : SameBridge n m) : n = m := by
  simp only [validateSet, List.append_eq_nil_iff] at h
  have pairs := (duplicateIssues_nil h.1.2).2
  have symm : Std.Symm fun a b : GuestNetwork => ¬ SameBridge a b := ⟨fun a b hab hba => hab ⟨hba.1.symm, hba.1 ▸ hba.2⟩⟩
  by_contra hne
  exact pairs.forall (mem_sortEnabled.mpr ⟨hn, en⟩) (mem_sortEnabled.mpr ⟨hm, em⟩) hne hs

/-- The test of the source on the ranges of two subnets. -/
def Overlap (a b : Cidr) : Prop := a.base.toNat ≤ (broadcast b).toNat ∧ b.base.toNat ≤ (broadcast a).toNat

theorem overlapIssues_nil {ents} (h : overlapIssues N nets ents = []) :
    (∀ a ∈ nets, ∀ c, N.parseCIDR a.subnetCIDR = some c → ∀ e ∈ ents, ¬ Overlap c e.2) ∧
      nets.Pairwise fun a b => ∀ c d, N.parseCIDR a.subnetCIDR = some c → N.parseCIDR b.subnetCIDR = some d → ¬ Overlap c d := by
  induction nets generalizing ents with
  | nil => exact ⟨fun a ha => absurd ha List.not_mem_nil, .nil⟩
  | cons a rest ih =>
    cases hc : N.parseCIDR a.subnetCIDR with
    | none =>
      simp only [overlapIssues, hc] at h
      obtain ⟨apart, pairs⟩ := ih h
      constructor
      · intro b hb c hp e he
        cases hb with
        | head => rw [hc] at hp; cases hp
        | tail _ hb => exact apart b hb c hp e he
      · refine .cons ?_ pairs
        intro b _ c d hp
        rw [hc] at hp
        cases hp
    | some ca =>
      simp only [overlapIssues, hc, List.append_eq_nil_iff, List.map_eq_nil_iff, List.filter_eq_nil_iff] at h
      obtain ⟨clear, hrest⟩ := h
      obtain ⟨apart, pairs⟩ := ih hrest
      constructor
      · intro b hb c hp e he
        cases hb with
        | head =>
          rw [hc] at hp
          cases hp
          intro ho
          exact clear e he (by simpa [Overlap] using ho)
        | tail _ hb => exact apart b hb c hp e (List.mem_append_left _ he)
      · refine .cons ?_ pairs
        intro b hb c d hp hq ho
        rw [hc] at hp
        cases hp
        exact apart b hb d hq (a.name, ca) (List.mem_append_right _ List.mem_cons_self) ⟨ho.2, ho.1⟩

theorem not_overlap (h : validateSet N nets topo avail known = []) (hn : n ∈ nets) (hm : m ∈ nets) (en : n.enabled)
    (em : m.enabled) (hne : n ≠ m) {c d} (hc : N.parseCIDR n.subnetCIDR = some c)
    (hd : N.parseCIDR m.subnetCIDR = some d) : ¬ Overlap c d := by
  simp only [validateSet, List.append_eq_nil_iff] at h
  have pairs := (overlapIssues_nil h.2).2
  have symm : Std.Symm fun a b : GuestNetwork =>
      ∀ c d, N.parseCIDR a.subnetCIDR = some c → N.parseCIDR b.subnetCIDR = some d → ¬ Overlap c d :=
    ⟨fun a b hab c d hp hq ho => hab d c hq hp ⟨ho.2, ho.1⟩⟩
  exact pairs.forall (mem_sortEnabled.mpr ⟨hn, en⟩) (mem_sortEnabled.mpr ⟨hm, em⟩) hne c d hc hd

def labNet : Net where
  parseIP s :=
    if s = "10.20.0.1" then some (.v4 0x0a140001)
    else if s = "10.20.0.10" then some (.v4 0x0a14000a)
    else if s = "10.20.0.200" then some (.v4 0x0a1400c8)
    else none
  parseCIDR s := if s = "10.20.0.0/19" then some ⟨⟨0x0a140000, 19⟩, false⟩ else none
  parseCIDR_masked := by
    intro s c h
    split at h
    · cases h
      exact ⟨by decide, by decide⟩
    · cases h
  parseMAC _ := none
  trimSpace s := s
  toLower s := s
  letter c := c.isAlphanum
  validHostname _ := false
  quote s := s
  quoteRune c := String.singleton c

def labNetwork : GuestNetwork where
  name := "Lobby"
  enabled := true
  networkType := .vlan
  parentInterface := "ens192"
  vlanID := 20
  bridgeName := "br-g20"
  gatewayIP := "10.20.0.1"
  subnetCIDR := "10.20.0.0/19"
  prefixLen := 19
  dhcpMode := .local
  dnsMode := .appliance
  dnsServers := []
  domainName := "guest.local"
  leaseDefault := 3600
  leaseMin := 900
  leaseMax := 7200
  relayTargets := []
  captiveEnabled := true
  internetEnabled := true
  clientIsolation := true
  pools := [⟨"10.20.0.10", "10.20.0.200"⟩]
  reservations := []

/-- `DefaultTopology`, with private reach denied and MAC binding on. -/
def labTopology : Topology where
  wanInterface := "ens160"
  mgmtInterface := "ens160"
  mgmtCIDRs := ["172.16.0.0/12", "192.168.0.0/16"]
  privateReach := ⟨true, []⟩
  macBinding := true
  portalTLSPort := 0
  portalVIP := ""
  portalTLS := ⟨false, ""⟩

theorem labNetwork_valid : validateSet labNet [labNetwork] labTopology none none = [] := by
  decide +kernel

end StayConnect.Netcfg
