import StayConnect.Netd.Side

/-!
# The continuity tick, and the note of a plan

What the tick of an outage may renew (`World.keeps`): an element that is in the set when the tick begins,
for a session of the record that is not out, for no longer than its deadline is away from the tick's clock
reading. And what noting a plan does to the record.
-/

namespace StayConnect.Netd

open Framing Prog Relation

section
variable {p : Powers} {w w' : World} {α : Type}

def World.kept (w : World) (k : Key) (s : ContSess) : Prop := ∃ st, w.mem.cont.st = some st ∧ st.sessions.lookup k = some s

lemma contSessions_wp {R} : Wp R contSessions (fun xs t => t = w ∧ ∀ k s, (k, s) ∈ xs ↔ w.kept k s) w := by
  refine .read (.pure ⟨rfl, fun k s => ?_⟩)
  unfold World.kept
  cases w.mem.cont.st with
  | none => simp
  | some st =>
    simp only [Option.map_some, Option.getD_some, Option.some.injEq, exists_eq_left', List.mem_map]
    constructor
    · rintro ⟨e, he, heq⟩
      obtain ⟨rfl, rfl⟩ := Prod.mk.inj heq
      exact AList.mem_lookup_iff.mpr he
    · exact fun h => ⟨⟨k, s⟩, AList.mem_lookup_iff.mp h, rfl⟩

lemma Shrunk.kept (h : Shrunk w w') {k s'} (hs : w'.kept k s') : ∃ s, w.kept k s ∧ s.Later s' := by
  obtain ⟨st', hst, hs⟩ := hs
  obtain ⟨st, s, hst, hs, later⟩ := h.sessions st' k s' hst hs
  exact ⟨s, ⟨st, hst, hs⟩, later⟩

lemma dropAll_wp {xs} : Wp (Side p) (dropAll xs) (fun _ t => ∀ k s, t.kept k s → k ∉ xs.map (·.1)) w := by
  refine .bind (Wp.forM (fun rest t => ∀ k s, t.kept k s → k ∈ xs.map (·.1) → k ∈ rest.map (·.1))
    (fun x rest t ht => .change (.cont _ (.dropped x.1)) ?_) fun _ _ _ => id) fun _ t _ ht => .pure ?_
  · rintro k s ⟨st', hst, hs⟩ hk
    obtain ⟨st, hold, rfl⟩ := Option.map_eq_some_iff.mp hst
    rw [ContState.lookup_drop] at hs
    split at hs
    · cases hs
    next hne =>
      have := ht k s ⟨st, hold, hs⟩ hk
      simpa [hne] using this
  · intro k s hs hk
    simpa using ht k s hs hk

lemma chargeBudget_side {id} : Steps (Side p) (chargeBudget id) := by
  refine .bind (Quiet.steps contSessions_quiet) fun xs => .bind (modifyCont_side fun _ => .charged id _) fun _ =>
    .read fun w => ?_
  dsimp only
  split
  · exact dropAll_side
  · exact .pure

lemma dropUnmetered_side {counters} : Steps (Side p) (dropUnmetered counters) := by
  cases counters with
  | none => exact .pure
  | some counters => exact .bind (Quiet.steps contSessions_quiet) fun _ => dropAll_side

variable {meterOK : Bool} {nowBoot now : Nat} {out : List Bytes} {view : GateView} {a : Addr}

lemma chargeAll_side : Steps (Side p) (chargeAll meterOK) := by
  unfold chargeAll
  split
  · exact .read fun _ => .bind (.mapM fun _ => chargeBudget_side) fun _ => .pure
  · exact .pure

lemma isOut_later {journal k s s'} (h : s.Later s') : isOut journal nowBoot out (k, s') = isOut journal nowBoot out (k, s) := by
  rw [h.1]
  rfl

/-- After 3a to 3c no session of the record is out. -/
lemma contDrop_wp {st} (hp : p.Holding) (hr : ∀ a, p.removes a) :
    Wp (Side p) (contDrop st nowBoot out) (fun _ t => ∀ k s, t.kept k s → isOut w.mem.cont.journal nowBoot out (k, s) = false) w := by
  refine .bind (contRefreshUsage_side w) fun counters t m₁ _ => .bind (dropUnmetered_side t) fun lost u m₂ _ => .read ?_
  have same : u.mem.cont.journal = w.mem.cont.journal := (sides_shrunk hp (m₁.trans m₂)).journal
  refine .bind contSessions_wp fun xs v _ hv => ?_
  obtain ⟨rfl, hxs⟩ := hv
  refine .bind dropAll_wp fun gone x m₃ hx => ?_
  have kept : ∀ k s, x.kept k s → isOut w.mem.cont.journal nowBoot out (k, s) = false := by
    intro k s hs
    obtain ⟨s₀, hs₀, later⟩ := (sides_shrunk hp m₃).kept hs
    rw [isOut_later later, ← Bool.not_eq_true, ← same]
    intro hout
    exact hx k s hs (List.mem_map.mpr ⟨(k, s₀), List.mem_filter.mpr ⟨(hxs k s₀).mpr hs₀, hout⟩, rfl⟩)
  have rest : ∀ spent : List ContSess, Steps (Side p) (do
      (lost ++ gone ++ spent).forM denySession
      return (!st.hasBudgets || counters.isSome)) := fun _ => .bind (.forM fun _ => denySession_side hr) fun _ => .pure
  refine .bind (chargeAll_side x) fun spent y m₄ _ => (rest spent y).conseq fun _ z m₅ _ k s hs => ?_
  obtain ⟨s₀, hs₀, later⟩ := (sides_shrunk hp (m₄.trans m₅)).kept hs
  rw [isOut_later later]
  exact kept k s₀ hs₀

/-- The lease wanted for a session ends by its deadline; only a foreign address is removed, and then none is
wanted. -/
lemma contWant_wp {x ip} (hr : p.removes ⟨x.2.bridge, ip⟩) :
    Wp (Side p) (contWant nowBoot now x ip)
      (fun r t => ∀ want, r = some want → want ≤ min (x.2.deadlineBoot - nowBoot) phase3LeaseTTL ∧ t.kern = w.kern) w := by
  unfold contWant
  dsimp only
  split
  · refine .pure fun want hw => ⟨?_, rfl⟩
    rw [← Option.some.inj hw]
    simp only [wholeSeconds]
    omega
  refine .read ?_
  split <;> refine .bind (M := fun _ (t : World) => t.kern = w.kern) ?_ fun ev t _ same => ?_
  case isTrue.refine_1 => exact .pure rfl
  case isFalse.refine_1 =>
    refine ((Quiet.wp (.bind call_quiet fun _ => .read fun _ => .pure)).mono Quiet.side).conseq fun _ _ _ quiet => ?_
    obtain ⟨calls, clock, -⟩ := quiet
    rfl
  -- what is known of the address is judged alike, whether or not it was asked for
  all_goals
    cases ev.state with
    | owned =>
      refine .pure fun want hw => ⟨?_, same⟩
      rw [← Option.some.inj hw]
      cases ev.lapses <;> simp only [Option.elim, wholeSeconds] <;> omega
    | foreign => exact .bind (dropSession_side t) fun _ u _ _ => .bind (denyAccess_side hr u) fun _ _ _ _ => .pure (by simp)
    | unknown => exact .pure (by simp)

/-- A lease of 3d is the session's, shown by the snapshot, and ends by its deadline. -/
structure Renewal (parse : Bytes → Option Ip) (view : GateView) (nowBoot : Nat) (x : Key × ContSess) (q : GateLease) : Prop where
  key : q.key = x.1
  bridge : q.addr.bridge = x.2.bridge
  ip : parse x.2.ip = some q.addr.ip
  ttl : q.ttl ≤ min (x.2.deadlineBoot - nowBoot) phase3LeaseTTL
  long : 1000 ≤ q.ttl
  shown : ∃ left, view.lookup q.addr = some (some left)

lemma contRenewal_wp {x} (hr : ∀ ip, w.env.parseIP x.2.ip = some ip → p.removes ⟨x.2.bridge, ip⟩) :
    Wp (Side p) (contRenewal view meterOK nowBoot now x)
      (fun r t => ∀ q, r = some q → Renewal w.env.parseIP view nowBoot x q ∧ t.kern = w.kern) w := by
  refine .read ?_
  cases hip : w.env.parseIP x.2.ip with
  | none => exact .bind (dropSession_side w) fun _ _ _ _ => .pure (by simp)
  | some ip =>
    dsimp only
    split
    · exact .pure (by simp)
    refine .bind (contWant_wp (hr ip hip)) fun want t _ ht => ?_
    cases want with
    | none => exact .pure (by simp)
    | some want =>
      obtain ⟨httl, hkern⟩ := ht want rfl
      dsimp only
      split
      · exact .pure (by simp)
      next hlong =>
        split
        · rename_i left hleft
          split
          · refine .pure fun q hq => ⟨?_, hkern⟩
            rw [← Option.some.inj hq]
            exact ⟨rfl, rfl, hip, httl, Nat.not_lt.mp hlong, left, hleft⟩
          · exact .pure (by simp)
        · exact .pure (by simp)

lemma Side.left_none (h : Side p w w') (ha : ∀ r, p.leases r → r.addr ≠ a) (hl : w.left a = none) : w'.left a = none := by
  rw [left_eq_none] at hl ⊢
  cases h with
  | quiet calls clock hc =>
    intro e he
    obtain ⟨t, rfl, ht⟩ := hl e he
    exact ⟨t, rfl, ht.trans hc⟩
  | wrote r hr => simpa [GateLease.write, AList.lookup_insert_ne (ha r hr).symm] using hl
  | erased b =>
    rcases eq_or_ne a b with rfl | hne
    · simp [eraseAuth]
    · simpa [eraseAuth, AList.lookup_erase_ne hne] using hl
  | _ => exact hl

lemma sides_left_none (moves : ReflTransGen (Side p) w w') (ha : ∀ r, p.leases r → r.addr ≠ a)
    (hl : w.left a = none) : w'.left a = none :=
  keep (S := fun t => t.left a = none) (fun act h => act.left_none ha h) moves hl

lemma left_before (moves : ReflTransGen (Side p) w w') (hp : ∀ r, ¬ p.leases r) (h : (w'.left a).isSome) : (w.left a).isSome := by
  by_contra hnone
  have gone : w.left a = none := by simpa using hnone
  simp [sides_left_none moves (fun r hr => (hp r hr).elim) gone] at h

lemma lookup_present {left} (h : Snapshot view w) (hl : view.lookup a = some (some left)) : (w.left a).isSome := by
  obtain ⟨t, ht, hl⟩ := Option.map_eq_some_iff.mp hl
  obtain ⟨x, hx, -⟩ := Option.map_eq_some_iff.mp hl
  obtain ⟨r, hr, -⟩ := h.present t a x ht hx
  simp [hr]

/-- What a tick with this clock reading may renew. -/
structure World.keeps (w : World) (nowBoot : Nat) (r : GateLease) : Prop where
  shown : (w.left r.addr).isSome
  session : ∃ s, w.kept r.key s ∧ r.addr.bridge = s.bridge ∧ w.env.parseIP s.ip = some r.addr.ip ∧
    nowBoot < s.deadlineBoot ∧ r.ttl ≤ min (s.deadlineBoot - nowBoot) phase3LeaseTTL ∧ revokedBy w.mem.cont.journal s = false

lemma World.keeps_of {r} (hp : p.Holding) (hl : ∀ r, ¬ p.leases r)
    (moves : ReflTransGen (Side p) w w') (h : w'.keeps nowBoot r) : w.keeps nowBoot r := by
  obtain ⟨shown, s', hs', hbridge, hip, hdeadline, httl, hrevoked⟩ := h
  have shrunk := sides_shrunk hp moves
  obtain ⟨s, hs, later⟩ := shrunk.kept hs'
  rw [later.1] at hbridge hip hdeadline httl hrevoked
  rw [shrunk.journal] at hrevoked
  rw [(sides_settled moves).env] at hip
  exact ⟨left_before moves hl shown, s, hs, hbridge, hip, hdeadline, httl, hrevoked⟩

lemma contRenewals_wp {xs : List (Key × ContSess)}
    (hr : ∀ a, p.removes a) : Wp (Side p) (xs.mapM (contRenewal view meterOK nowBoot now))
      (fun reqs _ => ∀ q ∈ reqs.reduceOption, ∃ x ∈ xs, Renewal w.env.parseIP view nowBoot x q) w := by
  refine (Wp.mapM (fun _ t => t.env = w.env) (fun x r => ∀ q, r = some q → Renewal w.env.parseIP view nowBoot x q)
    (fun x rest t ht => ?_) rfl).conseq fun reqs _ _ h q hq => ?_
  · refine (contRenewal_wp fun _ _ => hr _).conseq fun r u moves h => ⟨fun q hq => ht ▸ (h q hq).1, ?_⟩
    exact (sides_settled moves).env.trans ht
  · obtain ⟨x, hx, hreq⟩ := Wp.exists_of_forall₂ h.1 _ (List.reduceOption_mem_iff.mp hq)
    exact ⟨x, hx, hreq q rfl⟩

lemma contRenew_side (hout : ∀ k s, w.kept k s → isOut w.mem.cont.journal nowBoot out (k, s) = false) :
    Wp (Side (.ticking (w.keeps nowBoot))) (contRenew meterOK nowBoot now) (fun _ _ => True) w := by
  refine .bind (snapshotGate_quiet.mono Quiet.side) fun view t _ ht => .bind contSessions_wp fun xs u _ hu => ?_
  obtain ⟨rfl, hxs⟩ := hu
  refine .bind (contRenewals_wp fun _ => trivial) fun reqs v _ hv => ?_
  refine .bind (authorizeBatch_side (fun r hr => ?_) v) fun _ x _ _ => .read ?_
  · obtain ⟨⟨k, s⟩, hx, req⟩ := hv r hr
    obtain ⟨⟨calls, clock, hc⟩, shown⟩ := ht
    have kept : w.kept k s := (hxs k s).mp hx
    have inside : isOut w.mem.cont.journal nowBoot out (k, s) = false := hout k s kept
    simp only [isOut, Bool.or_eq_false_iff, decide_eq_false_iff_not, not_le] at inside
    obtain ⟨left, hleft⟩ := req.shown
    refine ⟨?_, s, ?_, req.bridge, req.ip, inside.1.1, req.ttl, inside.2⟩
    · exact left_before (p := {}) (.single (.quiet calls clock hc)) (fun _ => id) (lookup_present shown hleft)
    · rw [req.key]
      exact kept
  · split
    · exact saveState_side x
    · exact .pure trivial

/-- A tick ends before it writes anything, or renews where no session of the record is out. -/
lemma contTickApply_wp {tenantID siteID} :
    Wp Any (contTickApply now nowBoot tenantID siteID out) (fun _ y =>
      ReflTransGen (Side { removes := fun _ => True }) w y ∨ ∃ v meterOK, ReflTransGen (Side { removes := fun _ => True }) w v ∧
        (∀ k s, v.kept k s → isOut v.mem.cont.journal nowBoot out (k, s) = false) ∧
        y = ((contRenew meterOK nowBoot now).run v).2) w := by
  have holding : ({ removes := fun _ => True } : Powers).Holding := .removals
  have within : ∀ {α : Type} {m : NetdM α} {t : World}, Steps (Side { removes := fun _ => True }) m →
      Wp Any m (fun _ u => ReflTransGen (Side { removes := fun _ => True }) t u) t :=
    fun steps => ((steps _).conseq fun _ _ moves _ => moves).any
  refine .bind (within (.change fun _ => .tick _)) fun _ s _ m₀ => .bind (within contScopeOK_side) fun st t _ m₁ => ?_
  cases st with
  | none => exact .pure (.inl (m₀.trans m₁))
  | some st =>
    refine .read ?_
    dsimp only
    split
    · exact .pure (.inl (m₀.trans m₁))
    refine .bind (within (Quiet.steps query_quiet)) fun nb u _ m₂ => ?_
    have before := (m₀.trans m₁).trans m₂
    split
    · exact .pure (.inl before)
    refine .bind ((contDrop_wp holding fun _ => trivial).conseq fun _ _ m h => And.intro m h).any fun meterOK v _ hv => ?_
    refine ⟨.single trivial, .inr ⟨v, meterOK, before.trans hv.1, ?_, rfl⟩⟩
    rw [(sides_shrunk holding hv.1).journal]
    exact hv.2

lemma contTickApply_side {tenantID siteID} :
    Wp (Side (.ticking (w.keeps nowBoot))) (contTickApply now nowBoot tenantID siteID out) (fun _ _ => True) w := by
  have holding : ({ removes := fun _ => True } : Powers).Holding := .removals
  refine ⟨?_, trivial⟩
  rcases contTickApply_wp.2 with moves | ⟨v, meterOK, moves, none, hend⟩
  · exact sides_mono (Powers.removes_le fun _ => id) moves
  · rw [hend]
    refine (sides_mono (Powers.removes_le fun _ => id) moves).trans (sides_mono ?_ (contRenew_side none).1)
    exact ⟨fun r => World.keeps_of holding (fun _ => id) moves, fun _ => id, fun _ => id, fun _ _ _ => id, id⟩

lemma contNotePlan_side {env} : Steps (Side (.noting env now)) (contNotePlan env now) := by
  intro w
  refine .bind (query_answer.mono Quiet.side) fun nowBoot t _ ht => ?_
  cases nowBoot with
  | none => exact removeState_side t
  | some nowBoot =>
    have hclock : nowBoot = t.clock := ht.2 nowBoot rfl
    refine .bind (modifyCont_side (fun c => .planned nowBoot _) t) fun _ u m₁ _ => ?_
    cases hblock : env.continuity with
    | none => exact .pure trivial
    | some b =>
      refine .read ?_
      dsimp only
      split
      · exact removeState_side u
      next hvalid =>
        simp only [Bool.or_eq_true, Bool.not_eq_true', not_or, Bool.not_eq_false] at hvalid
        refine .bind (Quiet.steps query_quiet u) fun bootID v m₂ _ => ?_
        cases bootID with
        | none => exact removeState_side v
        | some bootID =>
          have notes : (Powers.noting env now).notes env b now := ⟨rfl, hblock, rfl⟩
          have save : ∀ x, ReflTransGen (Side (.noting env now)) v x → Wp (Side (.noting env now)) (do
              let st := contStateOf env b (← get).mem bootID nowBoot now
              modifyCont fun c => { c with st := some st, dirty := true }
              if ← saveDue then saveState) (fun _ _ => True) x := by
            intro x m₃
            have settled := sides_settled ((m₁.trans m₂).trans m₃)
            have hv : b.valid x.env.hashContinuity now = true := by
              rw [(sides_settled (m₂.trans m₃)).env]
              exact hvalid.2
            refine .read (.bind (.change (Q := fun _ _ => True)
              (.accepted env b bootID nowBoot now notes hv (hclock ▸ settled.clock)) trivial) fun _ y _ _ => ?_)
            refine .bind (.read (.pure trivial) : Wp _ saveDue (fun _ _ => True) y) fun due z _ _ => ?_
            split
            · exact saveState_side z
            · exact .pure trivial
          refine .read ?_
          have hv : b.valid v.env.hashContinuity now = true := by
            rw [(sides_settled m₂).env]
            exact hvalid.2
          refine .bind (.change (Q := fun _ _ => True) (.pruned env b now notes hv) trivial) fun _ x m₃ _ => ?_
          split
          · exact .bind (saveJournal_side x) fun _ y m₄ _ => save y (m₃.trans m₄)
          · exact save x m₃

end

end StayConnect.Netd
