import StayConnect.Netd.Operations

/-!
# Leases and the access boundary

What an element has left after a pass, against the lease the pass computed for its session. A lease is
written only where the element is due for renewal, so an element that had longer to run than the new lease
keeps its time; where it had not, it has at most the lease left (`Within`).
-/

namespace StayConnect.Netd

open Framing Prog Relation Transition

section
variable {W : Walk} {o : Scope} {w w' : World}

/-- What is left of the element is at most `n`. -/
def Under (w : World) (a : Addr) (n : Nat) : Prop := ∀ r, w.left a = some r → ∃ t, r = some t ∧ t ≤ n

lemma under_iff {a n} : Under w a n ↔ ∀ e, w.kern.auth.lookup a = some e → ∃ t, e = some t ∧ t ≤ w.clock + n := by
  unfold Under World.left Kernel.left
  cases w.kern.auth.lookup a with
  | none => simp
  | some e =>
    cases e with
    | none => simp
    | some t =>
      by_cases h : w.clock < t
      · simp only [h, if_true, Option.some.injEq, forall_eq']
        constructor
        · rintro ⟨_, rfl, hle⟩
          exact ⟨t, rfl, by omega⟩
        · rintro ⟨_, rfl, hle⟩
          exact ⟨_, rfl, by omega⟩
      · simp only [h, if_false, Option.some.injEq, forall_eq']
        exact ⟨fun _ => ⟨t, rfl, by omega⟩, fun _ _ h => nomatch h⟩

lemma Idle.under {a n} (hi : Idle w w') (h : Under w a n) : Under w' a n := by
  rw [under_iff] at h ⊢
  intro e he
  obtain ⟨t, rfl, ht⟩ := h e (hi.auth ▸ he)
  exact ⟨t, rfl, by have := hi.clock; omega⟩

lemma Act.under {a n} (h : Act o w w')
    (hw : ∀ r : GateLease, r.addr = a → Leased o.once w r.key r.addr r.ttl → r.ttl ≤ n) (hu : Under w a n) : Under w' a n := by
  cases h with
  | idle hi => exact hi.under hu
  | authorized r hk ha hl =>
    rw [under_iff] at hu ⊢
    rcases eq_or_ne a r.addr with rfl | hne
    · have hle := hw r rfl hl
      simp only [GateLease.write, AList.lookup_insert, Option.some.injEq, forall_eq']
      exact ⟨_, rfl, by simp only [wholeSeconds]; omega⟩
    · simpa [GateLease.write, AList.lookup_insert_ne hne] using hu
  | revoked b =>
    rw [under_iff] at hu ⊢
    rcases eq_or_ne a b with rfl | hne
    · simp [eraseAuth]
    · simpa [eraseAuth, AList.lookup_erase_ne hne] using hu
  | _ => exact hu

/-- The element had no more left than the lease. -/
def Fits (left : Option (Option Nat)) (lease : Nat) : Prop := left = none ∨ ∃ t, left = some (some t) ∧ t ≤ lease

/-- The leases a walk has granted: one for each address, within the boundary of its session, and binding
where they fit. -/
structure Within (W : Walk) (w : World) : Prop where
  sole : ∀ a k lease left dhcp k' lease' left' dhcp', .granted k a lease left dhcp ∈ w.events →
    .granted k' a lease' left' dhcp' ∈ w.events → lease = lease'
  bounded : ∀ k a lease left dhcp, .granted k a lease left dhcp ∈ w.events → ∃ slot x long,
    W.desired.lookup slot = some x ∧ x.key = k ∧ x.addr = a ∧ leaseFor x.s.accessEndsAt W.now = .ok long ∧ lease ≤ long
  under : ∀ k a lease left dhcp, .granted k a lease left dhcp ∈ w.events → Fits left lease → Under w a lease

lemma Act.granted {k a lease left dhcp} (h : Act o w w') :
    .granted k a lease left dhcp ∈ w'.events ↔ .granted k a lease left dhcp ∈ w.events := by
  obtain ⟨new, hlog, hnew⟩ := h.log
  rw [events_of_log hlog hnew, List.mem_append]
  exact or_iff_right fun hmem => hnew _ hmem

lemma PassAct.keep_within (h : PassAct W o w w') (hw : Within W w) : Within W w' := by
  cases h with
  | act h =>
    refine ⟨?_, ?_, fun k a lease left dhcp hg hfit => ?_⟩
    · simpa only [h.granted] using hw.sole
    · simpa only [h.granted] using hw.bounded
    · rw [h.granted] at hg
      refine h.under (fun r hr hl => ?_) (hw.under k a lease left dhcp hg hfit)
      -- The written lease was granted in this walk, so it is this one.
      obtain ⟨lease', left', dhcp', hg', hle⟩ := hl.granted
      exact hw.sole a _ _ _ _ _ _ _ _ (hr ▸ hg') hg ▸ hle
  | grant c hc ha hb hu =>
    refine ⟨?_, ?_, ?_⟩
    · intro a k lease left dhcp k' lease' left' dhcp' hg hg'
      rw [events_record (by simp), List.mem_cons] at hg hg'
      rcases hg with hg | hg <;> rcases hg' with hg' | hg'
      · obtain ⟨-, -, rfl, -⟩ := Event.granted.inj hg
        obtain ⟨-, -, rfl, -⟩ := Event.granted.inj hg'
        rfl
      · obtain ⟨-, rfl, -⟩ := Event.granted.inj hg
        exact absurd hg' (hu _ _ _ _)
      · obtain ⟨-, rfl, -⟩ := Event.granted.inj hg'
        exact absurd hg (hu _ _ _ _)
      · exact hw.sole a k lease left dhcp k' lease' left' dhcp' hg hg'
    · intro k a lease left dhcp hg
      rw [events_record (by simp), List.mem_cons] at hg
      rcases hg with hg | hg
      · obtain ⟨rfl, rfl, rfl, -⟩ := Event.granted.inj hg
        obtain ⟨long, hlong, hle⟩ := hb.lease
        exact ⟨c.slot, _, long, hc, rfl, rfl, hlong, hle⟩
      · exact hw.bounded k a lease left dhcp hg
    · intro k a lease left dhcp hg hfit
      rw [events_record (by simp), List.mem_cons] at hg
      rcases hg with hg | hg
      · obtain ⟨rfl, rfl, rfl, rfl, -⟩ := Event.granted.inj hg
        intro r hr
        have hr' : w.left c.addr = some r := hr
        rcases hfit with hnone | ⟨t, ht, hle⟩
        · rw [hnone] at hr'
          cases hr'
        · exact ⟨t, Option.some.inj (hr'.symm.trans ht), hle⟩
      · exact hw.under k a lease left dhcp hg hfit
  | write | revoke | groups => exact ⟨hw.sole, hw.bounded, hw.under⟩

lemma Passed.within {env now w₀ t} (h : Passed env now w w' W w₀ t) : Within W w' := by
  refine keep (S := Within W) PassAct.keep_within h.walked ?_
  have none : ∀ k a lease left dhcp, .granted k a lease left dhcp ∉ t.events := by
    intro k a lease left dhcp hg
    rcases moves_events h.cleared hg with hg | hg
    · simp [h.begun.events] at hg
    · exact hg
  exact ⟨fun _ _ _ _ _ _ _ _ _ hg => absurd hg (none _ _ _ _ _), fun _ _ _ _ _ hg => absurd hg (none _ _ _ _ _),
    fun _ _ _ _ _ hg => absurd hg (none _ _ _ _ _)⟩

end

/-- Every lease the pass computed is one its element can be held to: the element had no more left, and the
lease ends with the verified DHCP lease at the latest. -/
def Timely (pass : List Event) : Prop := ∀ k a lease left dhcp, .granted k a lease left dhcp ∈ pass →
  Fits left lease ∧ ∀ d, dhcp = some d → lease ≤ d

/-- After a pass in which every lease fits its element, no element outlasts the lease computed for its
session from the plan the pass applied. -/
theorem lease_within_boundary {w₀ w w' : World} {ops : List Op} {env : Envelope} {now : Nat} {pass : List Event}
    (started : Started w₀) (run : Run (ofOption step) w₀ ops w) (submitted : step w (.submit env now) = some w')
    (walked : w'.log = pass ++ .began :: .enforced env.planGeneration env.desiredStateHash :: w.log)
    (timely : Timely pass) :
    ∀ k a lease left dhcp, .granted k a lease left dhcp ∈ pass →
      ∃ s ∈ env.sessions, s.entitled = true ∧ s.key = k ∧ w.env.parseIP s.ip = some a.ip ∧ s.bridge = a.bridge ∧
        ∃ long, leaseFor s.accessEndsAt now = .ok long ∧
          ∀ r, w'.left a = some r → ∃ t, r = some t ∧ t ≤ long ∧ ∀ d, dhcp = some d → t ≤ d := by
  intro k a lease left dhcp hg
  have base := run_base run started.base
  cases step_stepped base submitted with
  | submitted _ hs =>
    obtain ⟨u, v, x, w₁, t, W, start, deadline, ⟨hq, -⟩, hp, hsave, moves, hevents⟩ := hs.pass walked
    have hgv : .granted k a lease left dhcp ∈ v.events := hevents ▸ hg
    obtain ⟨slot, y, long, hy, rfl, rfl, hlong, hle⟩ := hp.within.bounded k a lease left dhcp hgv
    obtain ⟨fits, hdhcp⟩ := timely _ _ _ _ _ hg
    have under : Under w' y.addr lease := by
      have hafter : Under v y.addr lease := hp.within.under _ _ _ _ _ hgv fits
      obtain ⟨calls, clock, plan, converged, hclock, -, -⟩ := hsave
      have later := (sides_settled moves).clock
      rw [under_iff] at hafter ⊢
      rw [(sides_noted moves).2]
      intro e he
      obtain ⟨t, rfl, ht⟩ := hafter e he
      exact ⟨t, rfl, Nat.le_trans ht (Nat.add_le_add_right (Nat.le_trans hclock later) _)⟩
    have hdesired : (claimsOf (claimCtx w₁ env) env.sessions).desired.lookup slot = some y := by
      rw [hp.walk] at hy
      exact hy
    obtain ⟨hmem, hc⟩ := claims_spec (desired_claimed hdesired)
    have henv : w₁.env = w.env := by
      obtain ⟨calls, clock, -⟩ := hq
      exact hp.begun.env
    refine ⟨y.s, hmem, hc.entitled, rfl, henv ▸ hc.parsed, hc.device.trans hc.bridge.symm, long, ?_, fun r hr => ?_⟩
    · rw [hp.walk] at hlong
      exact hlong
    · obtain ⟨n, rfl, hn⟩ := under r hr
      exact ⟨n, rfl, hn.trans hle, fun d hd => hn.trans (hdhcp d hd)⟩

theorem lease_within_boundary_admitted : ∃ w w', Run (ofOption step) (Env.calm.start false) [.arrive 1] w ∧
    step w (.submit (planFor 1 1000 [guest 'a' '1']) 1000) = some w' ∧ w'.left addrOne = some (some 90000) ∧
    ∃ s ∈ [guest 'a' '1'], s.key = (guest 'a' '1').key ∧ ∃ long, leaseFor s.accessEndsAt 1000 = .ok long ∧
      ∀ r, w'.left addrOne = some r → ∃ t, r = some t ∧ t ≤ long := by
  obtain ⟨w, w', run, submitted, hw⟩ := exists_last (f := step) (s := Env.calm.start false) (l := [.arrive 1])
    (a := .submit (planFor 1 1000 [guest 'a' '1']) 1000) (P := fun w w' => w'.left addrOne = some (some 90000) ∧ w.log = [] ∧
      w'.log = [.authorized (guest 'a' '1').key addrOne 90000 1000 (some (some 15000)), .noted (guest 'a' '1').key addrOne,
        .admitted (guest 'a' '1').key 12, .answered (guest 'a' '1').key 12,
        .authorized (guest 'a' '1').key addrOne 15000 1000 none, .granted (guest 'a' '1').key addrOne 90000 none none] ++
        [.began, .enforced 1 ['a', '0']]) (by decide +kernel)
  obtain ⟨hleft, hlog, hlog'⟩ := of_decide_eq_true hw
  obtain ⟨s, hs, -, hk, -, -, long, hlong, hr⟩ := lease_within_boundary (Env.calm.started false) run submitted
    (by rw [hlog]; exact hlog') (by simp +contextual [Timely, Fits]) (guest 'a' '1').key addrOne 90000 none none (by simp)
  refine ⟨w, w', run, submitted, hleft, s, hs, hk, long, hlong, fun r h => ?_⟩
  obtain ⟨t, ht, hle, -⟩ := hr r h
  exact ⟨t, ht, hle⟩

/-- Five seconds after a plan without an end, one that ends in twenty seconds. -/
def shortened : List Op :=
  planned 1 1000 [guest 'a' '1'] ++ [.wait 5000] ++ planned 2 6000 [{ guest 'a' '1' with accessEndsAt := some 26000 }]

/-- The second plan leaves the element the 85 seconds it had, and its pass reports nothing. -/
def Outlasts (w : World) : Prop :=
  w.left addrOne = some (some 85000) ∧ w.pass.res.clean = true ∧
    .granted (guest 'a' '1').key addrOne 20000 (some (some 85000)) none ∈ w.events

instance (w : World) : Decidable (Outlasts w) := inferInstanceAs (Decidable (_ ∧ _ ∧ _))

lemma shortened_outlasts (noBatch : Bool) : ∃ w, Run (ofOption step) (Env.calm.start noBatch) shortened w ∧ Outlasts w := by
  obtain ⟨w, run, h⟩ := exists_run (f := step) (s := Env.calm.start noBatch) (l := shortened) (P := Outlasts)
    (by cases noBatch <;> decide +kernel)
  exact ⟨w, run, of_decide_eq_true h⟩

/-- Batched or not, the element outlasts the lease of twenty seconds the plan asks for. -/
theorem shortened_boundary_keeps_element : leaseFor (some 26000) 6000 = .ok 20000 ∧
    (∃ w, Run (ofOption step) (Env.calm.start false) shortened w ∧ Outlasts w) ∧
    ∃ w, Run (ofOption step) (Env.calm.start true) shortened w ∧ Outlasts w :=
  ⟨by decide, shortened_outlasts false, shortened_outlasts true⟩

end StayConnect.Netd
