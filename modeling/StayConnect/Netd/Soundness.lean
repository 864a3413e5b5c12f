import StayConnect.Netd.Operations

/-!
# What a pass leaves

Whatever the kernel held before, after a pass whose calls were all carried out the set holds only addresses
of sessions the plan lists as entitled on a declared bridge and does not withhold, and the guest classes on
the declared bridges are classes of those sessions.
-/

namespace StayConnect.Netd

open Framing Prog Relation Transition Contest

section
variable {W : Walk} {o : Scope} {w w' w₀ t : World} {env : Envelope} {now : Nat} {slot : Slot} {a : Addr} {x : Wanted} {s : Session}

lemma minorForHostIndex_isSome {idx} (h : idx < 2 ^ 15) : (minorForHostIndex idx).isSome := by
  unfold minorForHostIndex
  split
  · rfl
  · rw [if_pos (by simp only [extMinorBase, extMinorMax, legacyHosts]; omega)]
    rfl

lemma minorFor_v4 (nets : Bytes → List Subnet) {ip} (h : a.ip = .v4 ip) : (minorFor nets a).isSome := by
  unfold minorFor
  rw [h]
  dsimp only
  cases bestNet ip (nets a.bridge) none with
  | none => rfl
  | some n =>
    unfold minorInNet
    dsimp only
    split
    next hnet =>
      refine minorForHostIndex_isSome ?_
      simp only [Bool.and_eq_true, decide_eq_true_eq, Subnet.contains, beq_iff_eq, widestPrefix] at hnet
      have same := congrArg BitVec.toNat hnet.2
      simp only [BitVec.toNat_ushiftRight, Nat.shiftRight_eq_div_pow] at same
      -- Both lie in one block of `2 ^ (32 - ones)` addresses.
      have wide : 17 ≤ n.ones := of_decide_eq_true hnet.1.1
      have ones : n.ones = 17 ∨ n.ones = 18 ∨ n.ones = 19 := by omega
      rcases ones with h17 | h18 | h19
      · rw [h17] at same; omega
      · rw [h18] at same; omega
      · rw [h19] at same; omega
    · rfl

/-- The claims of a plan by itself: no network counts as removed. -/
def Envelope.ctx (outside : Env) (env : Envelope) : ClaimCtx where
  parseIP := outside.parseIP
  nets := outside.nets
  retired _ := false
  bridges := declaredBridges env
  shared := (sharedUploads (declaredBridges env)).shared

/-- The session is listed as entitled on a declared bridge and the class is not withheld from it. -/
structure Envelope.Claims (outside : Env) (env : Envelope) (slot : Slot) (x : Wanted) : Prop where
  listed : x.s ∈ env.sessions
  entitled : x.s.entitled = true
  declared : x.s.bridge ∈ declaredBridges env
  bridge : x.addr.bridge = x.s.bridge
  parsed : outside.parseIP x.s.ip = some x.addr.ip
  device : slot.device = x.s.bridge
  minor : minorFor outside.nets x.addr = some slot.minor
  alone : ¬ Clash (env.ctx outside) env.sessions slot

lemma claimed_ctx (h : w.pass.retired slot.device = false) :
    (env.ctx w.env).claimed s = some (slot, x) ↔ (claimCtx w env).claimed s = some (slot, x) := by
  have kept : ∀ ctx : ClaimCtx, ctx.claimed s = some (slot, x) → s.bridge = slot.device :=
    fun ctx hs => by obtain ⟨rfl, hc⟩ := ctx.claimed_spec hs; exact hc.device
  have same : s.bridge = slot.device → (env.ctx w.env).claimed s = (claimCtx w env).claimed s := by
    intro hb
    simp [ClaimCtx.claimed, Envelope.ctx, claimCtx, hb, h]
  exact ⟨fun hs => same (kept _ hs) ▸ hs, fun hs => (same (kept _ hs)).symm ▸ hs⟩

lemma claimed_kept {ctx : ClaimCtx} (h : ctx.claimed s = some (slot, x)) : ctx.retired slot.device = false := by
  obtain ⟨hs, hc⟩ := ctx.claimed_spec h
  rw [← hc.device, hs]
  unfold ClaimCtx.claimed at h
  split at h
  · cases h
  next hguard =>
    simp only [Bool.or_eq_true, not_or, Bool.not_eq_true] at hguard
    exact hguard.1.1.1.2

lemma desired_claims (h : (claimsOf (claimCtx w env) env.sessions).desired.lookup slot = some x) : env.Claims w.env slot x := by
  have hmem := desired_claimed h
  obtain ⟨hlisted, hc⟩ := claims_spec hmem
  obtain ⟨s, -, hs⟩ := List.mem_filterMap.mp hmem
  have hkept : w.pass.retired slot.device = false := claimed_kept hs
  refine ⟨hlisted, hc.entitled, hc.device ▸ hc.declared, hc.bridge.trans hc.device.symm, hc.parsed, hc.device.symm, hc.minor, ?_⟩
  rintro ⟨u, v, hu, hv, hne⟩
  have back : ∀ y, (slot, y) ∈ (env.ctx w.env).claims env.sessions → (slot, y) ∈ (claimCtx w env).claims env.sessions := by
    intro y hy
    obtain ⟨s, hs, hy⟩ := List.mem_filterMap.mp hy
    exact List.mem_filterMap.mpr ⟨s, hs, (claimed_ctx hkept).mp hy⟩
  have nobody := (board_settled Wanted.sessionID ((claimCtx w env).claims env.sessions) slot).nobody ⟨u, v, back u hu, back v hv, hne⟩
  rw [(claimsOf_shows (claimCtx w env) env.sessions).desired, nobody] at h
  cases h

lemma PassAct.tc_none (h : PassAct W o w w') (hslot : ¬ o.slots slot) (hg : isGuestMinor slot.minor = true)
    (hs : w.kern.tc.lookup slot = none) : w'.kern.tc.lookup slot = none := by
  cases h with
  | act h => exact h.tc_none hslot hg hs
  | _ => exact hs

lemma Passed.elements (h : Passed env now w w' W w₀ t) (hr : w₀.Reliable) (v4 : ∀ a, (w.left a).isSome → ∃ ip, a.ip = .v4 ip)
    (ha : (w'.left a).isSome) : ∃ slot x, W.desired.lookup slot = some x ∧ x.addr = a := by
  by_contra hnone
  have unwritten : ¬ W.all.addrs a := fun ⟨slot, x, _, hx, hxa⟩ => hnone ⟨slot, x, hx, hxa⟩
  have walked : (t.left a).isSome := by
    by_contra habsent
    have gone := keep (S := fun z => z.left a = none)
      (fun act hz => act.left_none (fun r _ hin hra => unwritten (hra ▸ hin)) hz) h.walked (by simpa using habsent)
    simp [gone] at ha
  have before : (w.left a).isSome := by
    by_contra habsent
    have begun : w₀.left a = none := left_none_later h.begun.kern h.begun.clock (by simpa using habsent)
    simp [moves_left_none h.cleared (fun _ hk => hk.elim) begun] at walked
  obtain ⟨ip, hip⟩ := v4 a before
  obtain ⟨minor, hminor⟩ := Option.isSome_iff_exists.mp (minorFor_v4 t.env.nets hip)
  have unstray := (h.swept hr).elements a walked
  simp only [isStray, hminor, Bool.not_eq_eq_eq_not, Bool.not_false, Option.any_eq_true, decide_eq_true_eq] at unstray
  obtain ⟨x, hx, hxa⟩ := unstray
  exact hnone ⟨_, x, hx, hxa⟩

lemma Passed.classes (h : Passed env now w w' W w₀ t) (hr : w₀.Reliable) (hb : slot.device ∈ declaredBridges env)
    (hg : isGuestMinor slot.minor = true) (hs : (w'.kern.tc.lookup slot).isSome) :
    ∃ slot' x, W.desired.lookup slot' = some x ∧ (slot = slot' ∨ slot = ⟨ifbName slot'.device, slot'.minor⟩) := by
  by_contra hnone
  have unbuilt : ¬ W.all.slots slot := fun ⟨slot', x, _, hx, hin⟩ => hnone ⟨slot', x, hx, hin⟩
  have walked : (t.kern.tc.lookup slot).isSome := by
    by_contra habsent
    have gone := keep (S := fun z => z.kern.tc.lookup slot = none)
      (fun act hz => act.tc_none unbuilt hg hz) h.walked (by simpa using habsent)
    simp [gone] at hs
  obtain ⟨x, hx⟩ := Option.isSome_iff_exists.mp ((h.swept hr).classes slot.device hb slot.minor hg walked)
  exact hnone ⟨slot, x, hx, .inl rfl⟩

end

/-- After a pass of which every call was carried out, every authorized address is that of an entitled session
the plan does not withhold, and every guest class on a declared bridge is a class of such a session. -/
theorem pass_leaves_only_claimed {w₀ w w' : World} {ops : List Op} {env : Envelope} {now : Nat} {pass : List Event}
    (started : Started w₀) (run : Run (ofOption step) w₀ ops w) (submitted : step w (.submit env now) = some w')
    (walked : w'.log = pass ++ .began :: .enforced env.planGeneration env.desiredStateHash :: w.log)
    (reliable : w.Reliable) (v4 : ∀ a, (w.left a).isSome → ∃ ip, a.ip = .v4 ip) :
    (∀ a, (w'.left a).isSome → ∃ slot x, env.Claims w.env slot x ∧ x.addr = a) ∧
    ∀ slot, slot.device ∈ declaredBridges env → isGuestMinor slot.minor = true → (w'.kern.tc.lookup slot).isSome →
      ∃ slot' x, env.Claims w.env slot' x ∧ (slot = slot' ∨ slot = ⟨ifbName slot'.device, slot'.minor⟩) := by
  have base := run_base run started.base
  cases step_stepped base submitted with
  | submitted _ hs =>
    obtain ⟨u, v, x, w₁, t, W, start, deadline, ⟨hq, hcalls⟩, hp, hsave, moves, -⟩ := hs.pass walked
    obtain ⟨calls, clock, hclock⟩ := hq
    obtain ⟨calls', clock', plan, conv, hclock', -, -⟩ := hsave
    have henv : w₁.env = w.env := hp.begun.env
    have hr : w₁.Reliable := fun n i hn => henv ▸ reliable n i (hcalls.trans (hp.begun.asked.trans hn))
    have claims : ∀ slot y, W.desired.lookup slot = some y → env.Claims w.env slot y := by
      intro slot y hy
      rw [hp.walk] at hy
      exact henv ▸ desired_claims hy
    constructor
    · intro a ha
      have saved := left_before moves (fun _ h => h) ha
      have passed : ((v.walked env now).left a).isSome := left_earlier (by rfl) hclock' saved
      have held : ∀ a, ((World.enforcing { w with calls, clock } env start deadline).left a).isSome → ∃ ip, a.ip = .v4 ip :=
        fun a ha => v4 a (left_earlier (by rfl) hclock ha)
      obtain ⟨slot, y, hy, hya⟩ := hp.elements hr held passed
      exact ⟨slot, y, claims slot y hy, hya⟩
    · intro slot hb hg hs
      rw [(sides_noted moves).2] at hs
      obtain ⟨slot', y, hy, hslot⟩ := hp.classes hr hb hg hs
      exact ⟨slot', y, claims slot' y hy, hslot⟩

/-- A machine with an element and a class nobody asked for. -/
def strayStart : World :=
  { Env.calm.start false with
    kern.auth := (∅ : Table Addr (Option Nat)).insert ⟨['b', 'r'], .v4 0x0a000009#32⟩ none
    kern.tc := (∅ : Table Slot Class).insert ⟨['b', 'r'], 0x1009⟩ { rateKbit := 1, ceilKbit := 1 } }

theorem pass_leaves_only_claimed_of_strays : ∃ w w', Run (ofOption step) strayStart [.arrive 1] w ∧
    (w.left ⟨['b', 'r'], .v4 0x0a000009#32⟩).isSome ∧ (w.kern.tc.lookup ⟨['b', 'r'], 0x1009⟩).isSome ∧
    step w (.submit (planFor 1 1000 [guest 'a' '1']) 1000) = some w' ∧ (w'.left addrOne).isSome ∧
    (∀ a, (w'.left a).isSome → ∃ slot x, (planFor 1 1000 [guest 'a' '1']).Claims w.env slot x ∧ x.addr = a) ∧
    ∀ slot, slot.device ∈ declaredBridges (planFor 1 1000 [guest 'a' '1']) → isGuestMinor slot.minor = true →
      (w'.kern.tc.lookup slot).isSome → ∃ slot' x, (planFor 1 1000 [guest 'a' '1']).Claims w.env slot' x ∧
        (slot = slot' ∨ slot = ⟨ifbName slot'.device, slot'.minor⟩) := by
  obtain ⟨w, w', run, submitted, hw⟩ := exists_last (f := step) (s := strayStart) (l := [.arrive 1])
    (a := .submit (planFor 1 1000 [guest 'a' '1']) 1000)
    (P := fun w w' => (w.left ⟨['b', 'r'], .v4 0x0a000009#32⟩).isSome ∧ (w.kern.tc.lookup ⟨['b', 'r'], 0x1009⟩).isSome ∧
      w'.log = w'.events ++ .began :: .enforced 1 ['a', '0'] :: w.log ∧ (w'.left addrOne).isSome) (by decide +kernel)
  obtain ⟨helement, hclass, hlog, hleft⟩ := of_decide_eq_true hw
  have started : Started strayStart := ⟨rfl, (Env.calm.started false).mem, rfl, rfl⟩
  have start : w = { strayStart with mem.arrivedGen := 1 } := by
    cases run with
    | cons st rest => cases rest; exact (Option.some.inj st).symm
  have v4 : ∀ a, (w.left a).isSome → ∃ ip, a.ip = .v4 ip := by
    intro a ha
    have := mem_keys_of_left ha
    rw [start] at this
    have : a = ⟨['b', 'r'], .v4 0x0a000009#32⟩ := by simpa [strayStart] using this
    exact ⟨_, by rw [this]⟩
  have reliable : w.Reliable := fun _ _ _ => by rw [start]; rfl
  exact ⟨w, w', run, helement, hclass, submitted, hleft, pass_leaves_only_claimed started run submitted hlog reliable v4⟩

end StayConnect.Netd
