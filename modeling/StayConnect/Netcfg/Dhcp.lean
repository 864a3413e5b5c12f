import StayConnect.Netcfg.Minor

/-!
# DHCP addressing of an accepted set

What `validatePools` and `validateReservations` establish for a network that serves DHCP itself, and what they leave open:
reservations are compared as texts, and not with the gateway, the network and the broadcast address.
-/

namespace StayConnect.Netcfg
open Netd

/-- The addresses of a pool, from its first to its last. -/
structure PoolRange (N : Net) (p : Pool) (lo hi : BitVec 32) : Prop where
  first : N.ip4 p.startIP = some lo
  last : N.ip4 p.endIP = some hi

def Within (lo hi a : BitVec 32) : Prop := lo.toNat ≤ a.toNat ∧ a.toNat ≤ hi.toNat

section
variable (N : Net) (n : GuestNetwork)

def Apart (p q : Pool) : Prop :=
  ∀ lo hi lo' hi' a, PoolRange N p lo hi → PoolRange N q lo' hi' → Within lo hi a → ¬ Within lo' hi' a

/-- An address that is kept for the network itself. -/
def OwnAddress (c : Cidr) (gw a : BitVec 32) : Prop := a = gw ∨ a = c.base ∨ a = lastAddr c.toSubnet

def enabledReservations : List Reservation := n.reservations.filter (·.enabled)

/-- Pools and reservations that a DHCP server can hand out side by side. -/
structure Coherent (c : Cidr) (gw : BitVec 32) : Prop where
  pools : ∀ p ∈ n.pools, ∃ lo hi, PoolRange N p lo hi ∧ lo.toNat ≤ hi.toNat ∧
    (∀ a, Within lo hi a → c.contains a) ∧ ∀ a, OwnAddress c gw a → ¬ Within lo hi a
  apart : n.pools.Pairwise (Apart N)
  reserved : ∀ r ∈ enabledReservations n, ∃ a, N.ip4 r.reservedIP = some a ∧ ¬ OwnAddress c gw a ∧
    ∀ p ∈ n.pools, ∀ lo hi, PoolRange N p lo hi → ¬ Within lo hi a
  hardware : (enabledReservations n).Pairwise fun r q => N.parseMAC r.mac ≠ N.parseMAC q.mac
  addresses : (enabledReservations n).Pairwise fun r q => N.ip4 r.reservedIP ≠ N.ip4 q.reservedIP

/-- What the validator does not look at. -/
structure Unchecked (c : Cidr) (gw : BitVec 32) : Prop where
  /-- The last address of a subnet spelled as an IPv4-mapped prefix. -/
  broadcast : c.mapped → ∀ p ∈ n.pools, ∀ lo hi, PoolRange N p lo hi → ¬ Within lo hi (lastAddr c.toSubnet)
  reserved : ∀ r ∈ enabledReservations n, ∀ a, N.ip4 r.reservedIP = some a → ¬ OwnAddress c gw a
  hardware : (enabledReservations n).Pairwise fun r q => N.parseMAC r.mac ≠ N.parseMAC q.mac
  addresses : (enabledReservations n).Pairwise fun r q => N.ip4 r.reservedIP ≠ N.ip4 q.reservedIP

end

section
variable {N : Net} {n : GuestNetwork} {path : String} {c : Cidr} {gw : BitVec 32}

theorem PoolRange.unique {p lo hi lo' hi'} (h : PoolRange N p lo hi) (h' : PoolRange N p lo' hi') : lo = lo' ∧ hi = hi' :=
  ⟨Option.some.inj (h.first.symm.trans h'.first), Option.some.inj (h.last.symm.trans h'.last)⟩

structure PoolChecked (N : Net) (c : Cidr) (gw : BitVec 32) (p : Pool) (lo hi : BitVec 32) : Prop
    extends PoolRange N p lo hi where
  ordered : lo.toNat ≤ hi.toNat
  inside : c.contains lo ∧ c.contains hi
  network : ¬ Within lo hi c.base
  broadcast : ¬ Within lo hi (Netcfg.broadcast c)
  gateway : ¬ Within lo hi gw

/-- What acceptance says of the DHCP side of a network. -/
structure Served (N : Net) (n : GuestNetwork) (c : Cidr) (gw : BitVec 32) : Prop extends Addressed N n c gw where
  pools : ∀ p ∈ n.pools, ∃ lo hi, PoolChecked N c gw p lo hi
  apart : n.pools.Pairwise (Apart N)
  reserved : ∀ r ∈ enabledReservations n, ∃ a, N.ip4 r.reservedIP = some a ∧
    ∀ p ∈ n.pools, ∀ lo hi, PoolRange N p lo hi → ¬ Within lo hi a

theorem contains_of_within {lo hi a} (masked : Masked c.toSubnet) (inside : c.contains lo ∧ c.contains hi)
    (h : Within lo hi a) : c.contains a := by
  have first := masked.contains_iff.mp inside.1
  have last := masked.contains_iff.mp inside.2
  obtain ⟨above, below⟩ := h
  exact masked.contains_iff.mpr (by omega)

theorem Served.coherent (h : Served N n c gw) (u : Unchecked N n c gw) : Coherent N n c gw where
  apart := h.apart
  hardware := u.hardware
  addresses := u.addresses
  pools := by
    intro p hp
    obtain ⟨lo, hi, hc⟩ := h.pools p hp
    refine ⟨lo, hi, hc.toPoolRange, hc.ordered, fun a => contains_of_within (N.parseCIDR_masked h.subnet) hc.inside, ?_⟩
    rintro a (rfl | rfl | rfl)
    · exact hc.gateway
    · exact hc.network
    · cases hm : c.mapped with
      | true => exact u.broadcast hm p hp lo hi hc.toPoolRange
      | false => simpa [Netcfg.broadcast, hm] using hc.broadcast
  reserved := by
    intro r hr
    obtain ⟨a, ha, free⟩ := h.reserved r hr
    exact ⟨a, ha, u.reserved r hr a ha, free⟩

end

end StayConnect.Netcfg
