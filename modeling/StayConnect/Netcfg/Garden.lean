import StayConnect.Netcfg.Accepted

/-!
# Walled-garden targets

`GardenTargetRefusal` looks at the first address of a network only. A block it refuses is no narrower than a /16 or lies in one that
is not, so this is enough for a network of 16 bits or more. The length of an IPv4-mapped prefix, though, is 96 more than the network's.
-/

namespace StayConnect.Netcfg
open Netd

/-- What `gardenAddrUsable` excludes: unspecified, loopback, multicast and broadcast. -/
def unusable : List Subnet := [⟨0, 32⟩, ⟨0x7f000000, 8⟩, ⟨0xe0000000, 4⟩, ⟨0xffffffff, 32⟩]

/-- Private (three blocks), link-local, shared and reserved addresses. -/
def inner : List Subnet :=
  [⟨0x0a000000, 8⟩, ⟨0xac100000, 12⟩, ⟨0xc0a80000, 16⟩, ⟨0xa9fe0000, 16⟩, ⟨0x64400000, 10⟩, ⟨0xf0000000, 4⟩, ⟨0, 8⟩]

def gardenAddrUsable (a : BitVec 32) : Bool := !unusable.any (·.contains a)

/-- `Mask.Size`: the length of the prefix as it is written. -/
def Cidr.written (c : Cidr) : Nat := if c.mapped then 96 + c.ones else c.ones

def gardenFloorPrefix : Nat := 8

def validGardenElem (N : Net) (s : String) : Bool :=
  match N.parseIP s, N.parseCIDR s with
  | some (.v4 a), _ => gardenAddrUsable a
  | some (.v6 _), _ | none, none => false
  | none, some c => !c.mapped && gardenFloorPrefix ≤ c.written && gardenAddrUsable c.base

/-- The address that is tested and the length of the prefix, or why there is none; `shown` is `IPNet.String`. -/
def gardenTarget (N : Net) (shown : Cidr → String) (value : String) : Except String (BitVec 32 × Nat) :=
  match N.parseIP value, N.parseCIDR value with
  | some (.v4 a), _ => .ok (a, 32)
  | some (.v6 _), _ | none, none => .error "not an IPv4 address or network"
  | none, some c =>
    if N.parseIP (String.ofList (value.toList.takeWhile (· ≠ '/'))) = some (.v4 c.base) then .ok (c.base, c.written)
    else .error ("the address is not the start of the network; write it as " ++ shown c)

/-- `GardenTargetRefusal`; nothing is its empty text. -/
def gardenTargetRefusal (N : Net) (shown : Cidr → String) (value : String) (widest : Nat) : Option String :=
  match gardenTarget N shown value with
  | .error why => some why
  | .ok (a, ones) =>
    if ones < widest ∨ ones < gardenFloorPrefix then
      some ("/" ++ ones.repr ++ " is wider than this site allows (/" ++ widest.repr ++ " at most): a walled-garden entry should name a " ++
        "sign-in or payment service, not open a whole network before sign-in")
    else if !gardenAddrUsable a then some "this address cannot be reached through the walled garden"
    else if inner.any (·.contains a) then
      some ("private, shared, link-local and reserved addresses are not walled-garden targets: clients reach " ++
        "public sign-in and payment services through it, and a private entry would open the site's own networks")
    else none

/-- The network a target stands for. -/
def denoted (N : Net) (value : String) : Option Subnet :=
  match N.parseIP value with
  | some (.v4 a) => some ⟨a, 32⟩
  | some (.v6 _) => none
  | none => (N.parseCIDR value).map (·.toSubnet)

/-- An address no target may cover. -/
def Special (a : BitVec 32) : Prop := ∃ b ∈ unusable ++ inner, b.contains a

/-- A prefix spelled as an IPv4-mapped one. -/
def Mapped (N : Net) (value : String) : Prop := N.parseIP value = none ∧ ∃ c, N.parseCIDR value = some c ∧ c.mapped

lemma special_wide {a} (h : Special a) : ∃ b ∈ unusable ++ inner, b.ones ≤ 16 ∧ b.contains a := by
  obtain ⟨b, mem, inside⟩ := h
  have wide : ∀ b ∈ unusable ++ inner, b.ones ≤ 16 ∨ b.ones = 32 ∧ ∃ d ∈ unusable ++ inner, d.ones ≤ 16 ∧ d.contains b.base := by decide
  rcases wide b mem with short | ⟨single, d, hd, short, base⟩
  · exact ⟨b, mem, short, inside⟩
  · have : a = b.base := by simpa [Subnet.contains, single] using inside
    exact ⟨d, hd, short, this ▸ base⟩

/-- A block no narrower than a network has all of it or nothing. -/
lemma special_base {n : Subnet} {a : BitVec 32} (narrow : 16 ≤ n.ones) (h : n.contains a) (special : Special a) : Special n.base := by
  obtain ⟨b, mem, short, inside⟩ := special_wide special
  refine ⟨b, mem, ?_⟩
  simp only [Subnet.contains, beq_iff_eq] at h inside ⊢
  rw [← inside, show 32 - b.ones = 32 - n.ones + (32 - b.ones - (32 - n.ones)) by omega, BitVec.shiftRight_add, BitVec.shiftRight_add, h]

lemma accepted_target {N shown value widest}
    (h : gardenTargetRefusal N shown value widest = none) :
    ∃ a ones, gardenTarget N shown value = .ok (a, ones) ∧ widest ≤ ones ∧ gardenFloorPrefix ≤ ones ∧ gardenAddrUsable a ∧ ¬ Special a := by
  unfold gardenTargetRefusal at h
  split at h
  next => cases h
  next a ones target =>
    split_ifs at h with short usable closed
    refine ⟨a, ones, target, by omega, by omega, by simpa using usable, ?_⟩
    simp only [gardenAddrUsable, List.any_eq_true] at usable closed
    rintro ⟨b, mem, inside⟩
    rcases List.mem_append.mp mem with low | low
    · exact usable (by simpa using ⟨b, low, inside⟩)
    · exact closed ⟨b, low, inside⟩

theorem garden_target_iff (N : Net) (shown : Cidr → String) (value : String) (widest : Nat) (range : 16 ≤ widest)
    (accepted : gardenTargetRefusal N shown value widest = none) :
    (∃ n, denoted N value = some n ∧ (∀ a, n.contains a → ¬ Special a) ∧ validGardenElem N value) ↔ ¬ Mapped N value := by
  obtain ⟨a, ones, target, narrow, floor, usable, free⟩ := accepted_target accepted
  -- A network of 16 bits or more that starts at the address that was tested.
  have clear : ∀ n : Subnet, n.base = a → 16 ≤ n.ones → ∀ x, n.contains x → ¬ Special x :=
    fun n base long x hx special => free (base ▸ special_base long hx special)
  unfold gardenTarget at target
  split at target
  next ip =>
    cases target
    simpa [denoted, ip, validGardenElem, Mapped, usable] using clear ⟨a, 32⟩ rfl (by simp)
  next => cases target
  next => cases target
  next c ip cidr =>
    split_ifs at target
    cases target
    cases mapped : c.mapped with
    | true => simp [denoted, ip, cidr, validGardenElem, Mapped, mapped]
    | false =>
      simp only [Cidr.written, mapped, Bool.false_eq_true, if_false] at narrow floor
      simpa [denoted, ip, cidr, validGardenElem, Mapped, mapped, usable, Cidr.written, floor] using clear c.toSubnet rfl (range.trans narrow)

def gardenNet : Net where
  __ := labNet
  parseIP s := if s = "::ffff:8.0.0.0" then some (.v4 0x08000000) else none
  parseCIDR s := if s = "::ffff:8.0.0.0/101" then some ⟨⟨0x08000000, 5⟩, true⟩ else none
  parseCIDR_masked := by
    intro s c h
    split at h
    · cases h
      exact ⟨by decide, by decide⟩
    · cases h

theorem garden_target_iff_address : ¬ Mapped gardenNet "::ffff:8.0.0.0" ∧ ∃ n, denoted gardenNet "::ffff:8.0.0.0" = some n ∧
    (∀ a, n.contains a → ¬ Special a) ∧ validGardenElem gardenNet "::ffff:8.0.0.0" :=
  have address : ¬ Mapped gardenNet "::ffff:8.0.0.0" := nofun
  ⟨address, (garden_target_iff gardenNet (fun _ => "") "::ffff:8.0.0.0" 24 (by decide) (by decide +kernel)).mpr address⟩

/-- The network is 8.0.0.0/5, which has 10.0.0.0/8. -/
theorem mapped_network_covers_private :
    gardenTargetRefusal gardenNet (fun _ => "") "::ffff:8.0.0.0/101" 24 = none ∧
      denoted gardenNet "::ffff:8.0.0.0/101" = some ⟨0x08000000, 5⟩ ∧ (⟨0x08000000, 5⟩ : Subnet).contains 0x0a000001 ∧
      Special 0x0a000001 ∧ validGardenElem gardenNet "::ffff:8.0.0.0/101" = false :=
  ⟨by decide +kernel, by decide +kernel, by decide, ⟨⟨0x0a000000, 8⟩, by decide, by decide⟩, by decide +kernel⟩

end StayConnect.Netcfg
