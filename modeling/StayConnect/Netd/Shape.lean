import StayConnect.Netd.World

/-!
# Class numbers

`data-plane/internal/shape/minor.go` and the naming half of `shape.go`: which HTB class an address
has on its bridge, the upload device of a bridge, the class of a SHARED group and its leaf rates.
-/

namespace StayConnect.Netd

open Framing

def guestMinorBase : Nat := 0x1000
def guestMinorMax : Nat := 0x1fff
def groupMinorBase : Nat := 0x2000
def groupMinorMax : Nat := 0x2fff
def extMinorBase : Nat := 0x3000
def extMinorMax : Nat := 0xffff

/-- `legacyHosts`: the hosts of one /20 band. -/
def legacyHosts : Nat := 0x1000

def widestPrefix : Nat := 17

/-- `IsGuestMinor`: a per-session class of either band. -/
def isGuestMinor (minor : Nat) : Bool :=
  (guestMinorBase ≤ minor && minor ≤ guestMinorMax) || (extMinorBase ≤ minor && minor ≤ extMinorMax)

/-- `minorForHostIndex`; the index is an offset, so the negative case of the source has no counterpart. -/
def minorForHostIndex (idx : Nat) : Option Nat :=
  if idx < legacyHosts then some (guestMinorBase + idx)
  else if extMinorBase + (idx - legacyHosts) ≤ extMinorMax then some (extMinorBase + (idx - legacyHosts))
  else none

/-- `MinorForIP`: the low twelve bits of the address. -/
def minorForIP (a : BitVec 32) : Nat := guestMinorBase + (a &&& 0xfff#32).toNat

/-- `IPNet.Contains`, for a subnet whose base is already masked. -/
def Subnet.contains (n : Subnet) (a : BitVec 32) : Bool :=
  a >>> (32 - n.ones) == n.base >>> (32 - n.ones)

def minorInNet (a : BitVec 32) : Option Subnet → Option Nat
  | some n =>
    if widestPrefix ≤ n.ones && n.ones < 20 && n.contains a then
      minorForHostIndex (a.toNat - n.base.toNat)
    else some (minorForIP a)
  | none => some (minorForIP a)

/-- The narrowest of the bridge's subnets that holds the address, the first one on a tie. -/
def bestNet (a : BitVec 32) : List Subnet → Option Subnet → Option Subnet
  | [], best => best
  | n :: rest, best =>
    if n.contains a && best.all (fun b => b.ones < n.ones) then bestNet a rest (some n)
    else bestNet a rest best

/-- `MinorFor`: the class minor of an address on a bridge with these subnets. -/
def minorFor (nets : Bytes → List Subnet) (a : Addr) : Option Nat :=
  match a.ip with
  | .v6 _ => none
  | .v4 ip => minorInNet ip (bestNet ip (nets a.bridge) none)

/-- `IFBName`: `br-lan` becomes `ifb-lan`, cut to fifteen characters. -/
def ifbName (bridge : Bytes) : Bytes :=
  let rest := if "br-".toList.isPrefixOf bridge then bridge.drop 3 else bridge
  ("ifb-".toList ++ rest).take 15

/-- FNV-1a over 32 bits. -/
def fnv32a (text : Bytes) : Nat :=
  text.foldl (fun h c => (h ^^^ c.toNat) * 16777619 % 2 ^ 32) 2166136261

/-- `GroupMinorFor` of an already trimmed entitlement id. -/
def groupMinorFor (id : Bytes) : Option Nat :=
  if id = [] then none else some (groupMinorBase + fnv32a id % (groupMinorMax - groupMinorBase + 1))

/-- `unlimitedKbps`, the rate a missing cap stands for. -/
def capKbps (kbps : Int) : Int := if kbps ≤ 0 then 1000000 else kbps

def sharedFloorKbps (kbps : Int) : Int :=
  if kbps ≤ 64 then kbps else if 64 < kbps / 10 then kbps / 10 else 64

/-- The class `PrepareSessionIn` and `ReRateSessionIn` install: rate and ceiling equal off the root,
a small floor and the group's ceiling inside a SHARED group. -/
def sessionClass (kbps : Int) (group : Option Nat) : Class :=
  { parent := group
    rateKbit := if group.isSome then sharedFloorKbps (capKbps kbps) else capKbps kbps
    ceilKbit := capKbps kbps }

end StayConnect.Netd
