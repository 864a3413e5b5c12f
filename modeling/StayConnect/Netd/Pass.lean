import StayConnect.Netd.Sweep

/-!
# The pass as a whole

`reconcileLocked` is a clearing phase, in which elements are only removed, followed by the walk over the
plan's sessions (`Passed`). The snapshot the walk judges leases by is taken between the two, so a desired
address the snapshot shows is still in the set when the walk begins.
-/

namespace StayConnect.Netd

open Framing Prog Relation

variable {o : Scope} {w : World} {once : Prop} {desired : Table Slot Wanted}

lemma isStray_desired {nets slot x} (hx : desired.lookup slot = some x)
    (hb : x.addr.bridge = slot.device) (hm : minorFor nets x.addr = some slot.minor) : isStray nets desired x.addr = false := by
  have same : (⟨x.addr.bridge, slot.minor⟩ : Slot) = slot := by rw [hb]
  unfold isStray
  rw [hm]
  dsimp only
  rw [same, hx]
  simp

/-- What clearing leaves: what the snapshot shows of the desired addresses is in the set, and nothing
unclaimed is left when every call is carried out. -/
structure Cleared (env : Envelope) (w : World) (r : Table Slot Wanted × GateView) (w' : World) : Prop where
  desired : r.1 = (claimsOf (claimCtx w env) env.sessions).desired
  seen : ∀ slot x, r.1.lookup slot = some x → Seen r.2 x.addr w'
  swept : w.Reliable → Swept env r.1 w'

lemma clearAway_wp (once : Prop) (env : Envelope) : Wp (Act (.clearing once)) (clearAway env) (Cleared env w) w := by
  refine .read ?_
  dsimp only
  set claims := claimsOf (claimCtx w env) env.sessions with hclaims
  refine .bind (.change (Q := fun _ _ => True) (.idle (.reported fun h => ?_)) trivial) fun _ t m₁ _ => ?_
  · simp only [List.append_eq_nil_iff, Nat.add_eq_zero_iff] at h
    exact ⟨h.1.1.1, h.2.1.1⟩
  refine .bind (Steps.forM (fun s => .bind (Idle.act queueEnd_idle) fun _ => endSeries_steps) t) fun _ u m₂ _ => ?_
  refine .bind (tearAll_steps u) fun r v m₃ _ => .bind (tearBatch_steps v) fun _ x m₄ _ => ?_
  refine .bind (.change (Q := fun _ _ => True) (.idle .aside) trivial) fun _ y m₅ _ => ?_
  have before := (((m₁.trans m₂).trans m₃).trans m₄).trans m₅
  have nets : y.env.nets = w.env.nets := by rw [(moves_outer before).env]
  have swept : Wp (Act (.straying w.env.nets claims.desired once)) (sweepAuthorizations claims.desired) (fun view z =>
      Watched w.env.nets claims.desired view z ∧
        (y.Reliable → ∀ a, (z.left a).isSome → isStray w.env.nets claims.desired a = false)) y :=
    have watched : Wp (Act (.straying w.env.nets claims.desired once)) (sweepAuthorizations claims.desired)
      (Watched w.env.nets claims.desired) y := sweepAuthorizations_wp nets
    have done : y.Reliable → Wp (Act (.straying y.env.nets claims.desired once)) (sweepAuthorizations claims.desired)
      (fun _ z => ∀ a, (z.left a).isSome → isStray y.env.nets claims.desired a = false) y := sweepAuthorizations_done
    ⟨watched.1, watched.2, fun hr => nets ▸ (done hr).2⟩
  refine .bind (Wp.widen { Scope.Le.refl (.straying _ _ _) with addrs := fun _ _ => trivial } swept) fun view z m₆ hz => ?_
  have rest : Wp (Act (.bare once)) (do
      (declaredBridges env).forM (sweepClasses claims.desired)
      drainLegacy
      return (claims.desired, view))
      (fun r a => r = (claims.desired, view) ∧ (z.Reliable → ∀ b ∈ declaredBridges env, ClassesClaimed claims.desired b a)) z := by
    refine .bind sweepAll_wp fun _ a _ ha => .bind (Idle.act drainLegacy_idle a) fun _ b moves _ => .pure ⟨rfl, fun hr c hc => ?_⟩
    exact (ha hr c hc).moves moves
  refine (Wp.widen Scope.bare_le_clearing rest).conseq fun r a _ ha => ?_
  obtain ⟨⟨rfl, classes⟩, moves⟩ := ha
  refine ⟨rfl, fun slot x hx hv => moves_kept moves (fun h => h.1) ?_, fun hr => ⟨fun b hb => ?_, ?_⟩⟩
  · have hc := (claims_spec (desired_claimed hx)).2
    exact hz.1.1 _ (isStray_desired hx hc.bridge hc.minor) hv
  · have present : (z.left b).isSome := by
      by_contra hnone
      simp [moves_left_none moves (fun _ hk => hk.elim) (by simpa using hnone)] at hb
    rw [(moves_outer moves).env, (moves_outer m₆).env, nets]
    exact hz.1.2 (hr.moves before) b present
  · exact classes ((hr.moves before).moves m₆)

/-- What the start of a pass leaves as it was, and what it clears. -/
structure Begun (w w' : World) : Prop extends Outer w w' where
  kern : w'.kern = w.kern
  log : w'.log = .began :: w.log
  epochs : w'.mem.epochs = w.mem.epochs
  provenAt : w'.mem.provenAt = w.mem.provenAt
  groupSlots : w'.mem.groupSlots = w.mem.groupSlots
  batched : w'.pass.batched = !w.mem.noBatch
  denies : w'.pass.denies = []
  renew : w'.pass.renew = ∅
  walkRenewable : w'.pass.walkRenewable = ∅
  activations : ∀ k, w'.pass.activations k = none
  res : w'.pass.res = {}
  calls : w'.calls = w.calls + 1

lemma beginPass_begun (now : Nat) (w : World) : Begun w ((beginPass now).run w).2 :=
  { env := rfl, bootID := rfl, asked := Nat.le_add_right _ _, clock := Nat.le_add_right _ _, mode := rfl, fastPath := rfl, noBatch := rfl
    lastAccepted := rfl, lastConverged := rfl, arrivedGen := rfl, memo := rfl, cont := rfl, plan := rfl
    contState := rfl, contJournal := rfl, tick := rfl, kern := rfl, log := rfl, epochs := rfl, provenAt := rfl
    groupSlots := rfl, batched := rfl, denies := rfl, renew := rfl, walkRenewable := rfl, activations := fun _ => rfl
    res := rfl, calls := rfl }

/-- What holds between passes. -/
structure Base (w : World) : Prop where
  marked : ∀ k m, w.mem.provenAt k = some m → Backed w.log k m.epoch
  current : ∀ k e, w.mem.epochs k = some e → generation w.log k = some e
  groups : ∀ id g, w.mem.groupSlots.lookup id = some g → isGuestMinor g = false

lemma Inv.base (h : Inv once w) : Base w := ⟨h.marked, h.current, h.groups⟩

section
variable {w' : World}

lemma Begun.events (h : Begun w w') : w'.events = [] := by simp [World.events, h.log]

lemma Begun.inv (h : Begun w w') (hb : Base w) : Inv once w' where
  marked k m hm := by
    rw [h.log]
    exact (hb.marked k m (h.provenAt ▸ hm)).imp (List.mem_cons_of_mem _) (List.mem_cons_of_mem _)
  ahead k e ha := by simp [h.activations] at ha
  current k e he := by
    rw [h.log]
    exact hb.current k e (h.epochs ▸ he)
  groups := h.groupSlots ▸ hb.groups
  queued a r hr := by simp [h.renew] at hr
  denied := by simp [h.denies]

end

/-- No session is desired on two classes. -/
def Single (desired : Table Slot Wanted) : Prop :=
  ∀ slot slot' x x', desired.lookup slot = some x → desired.lookup slot' = some x' → x.key = x'.key → slot = slot'

/-- The walk over the sessions a plan desires. -/
def ClaimCtx.walk (ctx : ClaimCtx) (sessions : List Session) (view : GateView) (now : Nat) : Walk where
  desired := (claimsOf ctx sessions).desired
  view := view
  now := now
  nets := ctx.nets
  once := Single (claimsOf ctx sessions).desired
  bridge _ _ hx := (claims_spec (desired_claimed hx)).2.device
  place _ _ hx := (claims_spec (desired_claimed hx)).2.bridge
  minor _ _ hx := (claims_spec (desired_claimed hx)).2.minor
  distinct h := h

/-- A pass: its start `w₀`, the world `t` the walk `W` begins in, and the end. -/
structure Passed (env : Envelope) (now : Nat) (w w' : World) (W : Walk) (w₀ t : World) : Prop where
  begun : Begun w w₀
  walk : W = (claimCtx w₀ env).walk env.sessions W.view now
  swept : w₀.Reliable → Swept env W.desired t
  cleared : ReflTransGen (Act (.clearing W.once)) w₀ t
  start : Rest W t
  walked : ReflTransGen (PassAct W (W.shaping fun _ => True)) t w'
  rest : Rest W w'

lemma saveClasses_idle : Steps Idle saveClasses := by
  have save : ∀ w : World, Idle w { w with disk.classState := some w.mem.snapshot } := fun _ => .aside
  refine .bind (perform_idle save) fun err => ?_
  split
  · exact .bind fail_idle fun _ => .change fun _ => .aside
  refine .read fun w => ?_
  split
  · exact .change fun _ => .aside
  · exact .pure

lemma clearing_rest (now : Nat) {env w₀ t view} (hb : Base w) (h : Begun w w₀)
    (moves : ReflTransGen (Act (.clearing ((claimCtx w₀ env).walk env.sessions view now).once)) w₀ t)
    (hc : Cleared env w₀ ((claimsOf (claimCtx w₀ env) env.sessions).desired, view) t) :
    Rest ((claimCtx w₀ env).walk env.sessions view now) t ∧ ∀ a, Ungranted t a := by
  have renew : t.pass.renew = ∅ := (moves_renew moves fun h => h.1).trans h.renew
  have denies : t.pass.denies = [] := (moves_denies moves fun h => h.1).trans h.denies
  have none : ∀ e, e ∈ t.events → (Scope.clearing True).emits e := by
    intro e he
    rcases moves_events moves he with he | he
    · simp [h.events] at he
    · cases e <;> exact he
  refine ⟨⟨{ inv := moves_inv moves (h.inv hb), mode := ?_, renews := ?_, denies := ?_, settled := ?_, seen := hc.seen }, renew, denies⟩, ?_⟩
  · rw [moves_batched moves, h.batched, (moves_outer moves).noBatch, h.noBatch]
  · simp [renew]
  · simp [denies]
  · exact fun k a hk => (none _ hk).1.elim
  · exact fun a k lease left dhcp hg => none _ hg

lemma shapeAndSave_wp (env : Envelope) {W} (start : Rest W w) (ungranted : ∀ a, Ungranted w a) :
    Wp (PassAct W (W.shaping fun _ => True)) (shapeAndSave env W.desired W.view W.now)
      (fun res w' => Rest W w' ∧ res = w'.pass.res) w := by
  refine .bind (shapeAll_wp start fun _ _ _ => ungranted _) fun _ u _ hu => ?_
  refine .bind ((Idle.wp saveClasses_idle).mono .act) fun _ v _ hv => ?_
  refine .bind (.change (Q := fun _ x => Idle v x) (.act (.idle .aside)) .aside) fun _ x _ hx => .read (.pure ⟨?_, rfl⟩)
  exact (hu.idle hv).idle hx

lemma reconcileLocked_run (env : Envelope) (now : Nat) (w : World) {r t} (h : (clearAway env).run ((beginPass now).run w).2 = (r, t)) :
    (reconcileLocked env now).run w = (shapeAndSave env r.1 r.2 now).run t := by
  unfold reconcileLocked
  rw [StateT.run_bind]
  change (StateT.run (clearAway env >>= fun r => shapeAndSave env r.1 r.2 now) ((beginPass now).run w).2) = _
  rw [StateT.run_bind, h]
  rfl

lemma reconcileLocked_wp {env now} (hb : Base w) : Wp Any (reconcileLocked env now)
    (fun res v => ∃ W w₀ t, Passed env now w v W w₀ t ∧ res = v.pass.res) w := by
  refine ⟨.single trivial, ?_⟩
  have begun := beginPass_begun now w
  have cleared := clearAway_wp (Single (claimsOf (claimCtx ((beginPass now).run w).2 env) env.sessions).desired) env
    (w := ((beginPass now).run w).2)
  obtain ⟨⟨⟨desired, view⟩, t⟩, hrun⟩ : ∃ r, (clearAway env).run ((beginPass now).run w).2 = r := ⟨_, rfl⟩
  rw [reconcileLocked_run env now w hrun]
  generalize ((beginPass now).run w).2 = w₀ at begun cleared hrun
  obtain ⟨m₁, h₁⟩ := cleared
  rw [hrun] at m₁ h₁
  obtain rfl : desired = _ := h₁.desired
  obtain ⟨start, ungranted⟩ := clearing_rest now hb begun m₁ h₁
  obtain ⟨m₂, h₂⟩ := shapeAndSave_wp env start ungranted
  exact ⟨_, w₀, t, ⟨begun, rfl, h₁.swept, m₁, start, m₂, h₂.1⟩, h₂.2⟩

end StayConnect.Netd
