import Mathlib.Data.List.Dedup
import Mathlib.Data.Nat.Digits.Defs
import StayConnect.Netcfg.Accepted

/-!
# The link layout

`RenderNetplanWith` of `data-plane/internal/netcfg/render_netplan.go` as the devices it defines: a declaration for every parent, a
device for every tagged network and a bridge for every network. Names of accepted networks are ASCII, so a cut by bytes is a cut by
characters.
-/

namespace StayConnect.Netcfg
open Netd

structure VlanDevice where
  name : String
  id : Int
  link : String

structure Bridge where
  name : String
  member : String
  macaddress : Option String
  address : String

structure Netplan where
  ethernets : List String
  vlans : List VlanDevice
  bridges : List Bridge

def Netplan.names (p : Netplan) : List String := p.ethernets ++ (p.vlans.map (·.name) ++ p.bridges.map (·.name))

section
variable {N : Net} {nets enabled : List GuestNetwork} {n : GuestNetwork} {topo : Topology} {avail known : Option (String → Bool)}
  {parentMAC : Option (String → String)}

end

end StayConnect.Netcfg
