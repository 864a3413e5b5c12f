import StayConnect.Netd.FullLease

/-!
# What the lease timer can reach

Between walks the timer writes leases for the sessions the last clean walk remembered, absent elements
included. `Confined A` says that all of these are at addresses of `A`; it holds until the next walk, and
after a walk for the addresses the walk noted. What a revocation or an ended session removes therefore
stays away exactly as far as the memory of the walk does not hold it.
-/

namespace StayConnect.Netd

open Framing Prog Relation Transition

/-- Every session the timer may renew is at an address of `A`. -/
def Confined (A : Addr → Prop) (w : World) : Prop :=
  w.mem.memo.clean = true → ∀ k r, w.mem.memo.renewable.lookup k = some r → A r.addr

/-- Every lease among the events is for an address of `A`. -/
def Reaches (A : Addr → Prop) (new : List Event) : Prop :=
  ∀ k a ttl time left, .authorized k a ttl time left ∈ new → A a

/-- The plan lists an entitled session at the address. -/
def Envelope.Lists (parse : Bytes → Option Ip) (env : Envelope) (a : Addr) : Prop :=
  ∃ s ∈ env.sessions, s.entitled = true ∧ s.bridge = a.bridge ∧ parse s.ip = some a.ip

section
variable {A : Addr → Prop} {p : Powers} {W : Walk} {o : Scope} {w w' w₀ t : World} {env : Envelope} {now : Nat}

lemma Reaches.append {new new'} (h : Reaches A new) (h' : Reaches A new') : Reaches A (new ++ new') :=
  fun k a ttl time left hmem => (List.mem_append.mp hmem).elim (h k a ttl time left) (h' k a ttl time left)

lemma sides_reach (moves : ReflTransGen (Side p) w w') (hp : ∀ r, p.leases r → A r.addr) :
    ∃ new, w'.log = new ++ w.log ∧ .began ∉ new ∧ Reaches A new := by
  obtain ⟨new, hlog, hnew⟩ := sides_log moves
  refine ⟨new, hlog, fun hmem => ?_, fun k a ttl time left hmem => ?_⟩
  · rcases hnew _ hmem with ⟨r, t, left, -, h⟩ | ⟨a, -, h⟩ <;> cases h
  · rcases hnew _ hmem with ⟨r, t, left, hr, h⟩ | ⟨a, -, h⟩
    · obtain ⟨-, rfl, -⟩ := Event.authorized.inj h
      exact hp r hr
    · cases h

lemma Confined.side (h : Confined A w) (moves : ReflTransGen (Side p) w w') : Confined A w' := by
  obtain ⟨c, hc⟩ := (sides_settled moves).mem
  unfold Confined
  rw [hc]
  exact h

lemma Confined.renews (h : Confined A w) {r} (hr : w.mem.renews r) : A r.addr := by
  obtain ⟨hplan, s, hs, ha⟩ := hr
  refine ha ▸ h ?_ _ s hs
  by_contra hclean
  simp [Mem.renewsUnder, hclean] at hplan

lemma Restarted.confined {cfg} (h : Restarted cfg w w') :
    Confined A w' ∧ ∃ new, w'.log = new ++ w.log ∧ .began ∉ new ∧ Reaches A new := by
  cases h with
  | mk hx moves =>
    refine ⟨fun hclean => ?_, ?_⟩
    · obtain ⟨c, hc⟩ := (sides_settled moves).mem
      rw [hc, hx.memo] at hclean
      cases hclean
    · obtain ⟨new, hlog, hnew⟩ := hx.log
      obtain ⟨new', hlog', hbegan, hreach⟩ := sides_reach (A := A) moves fun _ => False.elim
      have other : ∀ e ∈ new, e ≠ .began ∧ ∀ k a ttl time left, e ≠ .authorized k a ttl time left := by
        intro e he
        obtain ⟨k, n, rfl⟩ := hnew e he
        simp
      refine ⟨new' ++ new, by rw [hlog', hlog, List.append_assoc]; rfl, ?_, hreach.append fun k a ttl time left hmem => ?_⟩
      · simp only [List.mem_append, not_or]
        exact ⟨hbegan, fun hmem => (other _ hmem).1 rfl⟩
      · exact absurd rfl ((other _ hmem).2 k a ttl time left)

lemma Act.keep_noted (h : Act o w w') (hi : ∀ k r, w.pass.walkRenewable.lookup k = some r → .noted k r.addr ∈ w.events)
    (k : Key) (r : RenewSession) (hr : w'.pass.walkRenewable.lookup k = some r) : .noted k r.addr ∈ w'.events := by
  have old : w.pass.walkRenewable.lookup k = some r → .noted k r.addr ∈ w'.events := fun hr => h.mem_events (hi k r hr)
  cases h with
  | idle h => exact old (h.walkRenewable ▸ hr)
  | noted c now =>
    rcases eq_or_ne k c.key with rfl | hne
    · simp only [AList.lookup_insert, Option.some.injEq] at hr
      simp [World.events, ← hr, Cand.renewSession]
    · exact old (by simpa [AList.lookup_insert_ne hne] using hr)
  | _ => exact old hr

lemma PassAct.keep_noted (h : PassAct W o w w') (hi : ∀ k r, w.pass.walkRenewable.lookup k = some r → .noted k r.addr ∈ w.events)
    (k : Key) (r : RenewSession) (hr : w'.pass.walkRenewable.lookup k = some r) : .noted k r.addr ∈ w'.events := by
  cases h with
  | act h => exact h.keep_noted hi k r hr
  | grant c => exact mem_events_record (by simp) (hi k r hr)
  | _ => exact hi k r hr

lemma Passed.noted (h : Passed env now w w' W w₀ t) {k r}
    (hr : w'.pass.walkRenewable.lookup k = some r) : .noted k r.addr ∈ w'.events := by
  have begun : ∀ k r, w₀.pass.walkRenewable.lookup k = some r → .noted k r.addr ∈ w₀.events := by
    simp [h.begun.walkRenewable]
  have cleared := keep (S := fun z => ∀ k r, z.pass.walkRenewable.lookup k = some r → .noted k r.addr ∈ z.events)
    (fun act h => act.keep_noted h) h.cleared begun
  exact keep (S := fun z => ∀ k r, z.pass.walkRenewable.lookup k = some r → .noted k r.addr ∈ z.events)
    (fun act h => act.keep_noted h) h.walked cleared k r hr

lemma Passed.lists (h : Passed env now w w' W w₀ t) {a} (ha : W.all.addrs a) : env.Lists w.env.parseIP a := by
  obtain ⟨slot, x, -, hx, rfl⟩ := ha
  rw [h.walk] at hx
  obtain ⟨hmem, hc⟩ := claims_spec (desired_claimed hx)
  exact ⟨x.s, hmem, hc.entitled, hc.device.trans hc.bridge.symm, h.begun.env ▸ hc.parsed⟩

lemma Passed.reaches (h : Passed env now w w' W w₀ t) :
    Reaches (env.Lists w.env.parseIP) w'.events ∧ ∀ k a, .noted k a ∈ w'.events → env.Lists w.env.parseIP a := by
  refine ⟨fun k a ttl time left hmem => ?_, fun k a hmem => ?_⟩
  · rcases h.record.2 _ hmem with he | he | ⟨_, _, _, _, _, he⟩
    · exact he.1.elim
    · exact h.lists he.2
    · cases he
  · rcases h.record.2 _ hmem with he | he | ⟨_, _, _, _, _, he⟩
    · exact he.1.elim
    · exact h.lists he.2.2
    · cases he

lemma Stepped.confined {op} (h : Stepped w op w') : ∃ new, w'.log = new ++ w.log ∧
    (Confined A w → op ≠ .tickApply → .began ∉ new → Confined A w' ∧ Reaches A new) := by
  have nothing : Reaches A [] := by simp [Reaches]
  have side : ∀ {p : Powers}, ReflTransGen (Side p) w w' → (Confined A w → op ≠ .tickApply → ∀ r, p.leases r → A r.addr) →
      ∃ new, w'.log = new ++ w.log ∧ (Confined A w → op ≠ .tickApply → .began ∉ new → Confined A w' ∧ Reaches A new) := by
    intro p moves hp
    obtain ⟨new, hlog, -⟩ := sides_reach (A := fun _ => True) moves fun _ _ => trivial
    refine ⟨new, hlog, fun hc hop _ => ⟨hc.side moves, ?_⟩⟩
    obtain ⟨new', hlog', -, hreach⟩ := sides_reach moves (hp hc hop)
    exact List.append_cancel_right (hlog'.symm.trans hlog) ▸ hreach
  have fresh : ∀ {cfg : Config} {u : World} (old : List Event), Restarted cfg u w' → u.log = old ++ w.log →
      (.began ∉ old → Reaches A old) →
      ∃ new, w'.log = new ++ w.log ∧ (Confined A w → op ≠ .tickApply → .began ∉ new → Confined A w' ∧ Reaches A new) := by
    intro cfg u old hx hu hold
    obtain ⟨hconf, new, hlog, -, hreach⟩ := hx.confined (A := A)
    refine ⟨new ++ old, by rw [hlog, hu, List.append_assoc], fun _ _ hbegan => ⟨hconf, hreach.append (hold ?_)⟩⟩
    exact fun hmem => hbegan (List.mem_append_right _ hmem)
  have enforced : ∀ {env : Envelope} {now : Nat} {u v : World}, Quiet w u → Enforced env now u v →
      ∃ new, v.log = new ++ w.log ∧ (.began ∉ new → Reaches A new ∧ v.mem.memo = w.mem.memo) := by
    intro env now u v hq he
    obtain ⟨calls, clock, -⟩ := hq
    cases he with
    | unchanged => exact ⟨[_], rfl, fun _ => ⟨by simp [Reaches], rfl⟩⟩
    | walked start deadline hp => exact ⟨_, hp.enforced, by simp⟩
  cases h with
  | arrived | rescoped | waited | carried => exact ⟨[], rfl, fun hc _ _ => ⟨hc, nothing⟩⟩
  | submitted _ hs =>
    cases hs with
    | refused hq =>
      obtain ⟨calls, clock, -⟩ := hq
      exact ⟨[], rfl, fun hc _ _ => ⟨hc, nothing⟩⟩
    | admitted unreadable ha he hsave moves =>
      obtain ⟨new, hlog, hnew⟩ := enforced ha.quiet he
      obtain ⟨calls, clock, plan, converged, -, -, -⟩ := hsave
      refine ⟨new, (sides_noted moves).1.trans hlog, fun hc _ hbegan => ?_⟩
      obtain ⟨hreach, hmemo⟩ := hnew hbegan
      refine ⟨Confined.side ?_ moves, hreach⟩
      unfold Confined
      rw [hmemo]
      exact hc
  | refused hq hx =>
    obtain ⟨calls, clock, -⟩ := hq
    exact fresh [] hx rfl fun _ => nothing
  | crashed unreadable _ ha he hx =>
    obtain ⟨new, hlog, hnew⟩ := enforced ha.quiet he
    exact fresh new hx hlog fun hbegan => (hnew hbegan).1
  | restarted hx | rebooted hx => exact fresh [] hx rfl fun _ => nothing
  | renewed moves => exact side moves fun hc _ r hr => hc.renews hr
  | endedFlows moves | revoked moves | tickRead moves | tickBegun moves | tickProbed moves =>
    exact side moves fun _ _ _ => False.elim
  | tickApplied _ moves => exact side moves fun _ hop => absurd rfl hop

lemma run_confined {ops} (run : Run (ofOption step) w ops w') (hb : Base w) : ∃ new, w'.log = new ++ w.log ∧
    (Confined A w → .tickApply ∉ ops → .began ∉ new → Reaches A new) := by
  induction run with
  | nil => exact ⟨[], rfl, by simp [Reaches]⟩
  | cons st _ ih =>
    obtain ⟨new, hlog, hnew⟩ := (step_stepped hb st).confined (A := A)
    obtain ⟨new', hlog', hnew'⟩ := ih ((step_stepped hb st).base hb)
    refine ⟨new' ++ new, by rw [hlog', hlog, List.append_assoc], fun hc hops hbegan => ?_⟩
    simp only [List.mem_cons, List.mem_append, not_or] at hops hbegan
    obtain ⟨hconf, hreach⟩ := hnew hc (Ne.symm hops.1) hbegan.2
    exact (hnew' hconf hops.2 hbegan.1).append hreach

/-- After a clean walk that ended no session it had noted, the sessions it remembers have their elements, and
until the next walk the timer writes no lease for an address of a session the walk ended. -/
theorem ended_stays_away {ops : List Op} {pass : List Event} (started : Started w₀)
    (run : Run (ofOption step) w₀ ops w) (submitted : step w (.submit env now) = some w')
    (walked : w'.log = pass ++ .began :: .enforced env.planGeneration env.desiredStateHash :: w.log)
    (clean : w'.mem.memo.clean = true) (apart : ∀ k k' a, .noted k a ∈ pass → .ended k' a ∉ pass) :
    (∀ k r, w'.mem.memo.renewable.lookup k = some r → Listed w' r.addr) ∧
    ∀ ops' w'' later, Run (ofOption step) w' ops' w'' → .tickApply ∉ ops' → w''.log = later ++ w'.log → .began ∉ later →
      ∀ k a ttl time left, .authorized k a ttl time left ∈ later → ∀ k', .ended k' a ∉ pass := by
  have base := run_base run started.base
  have base' := (step_stepped base submitted).base base
  cases step_stepped base submitted with
  | submitted harr hs =>
    obtain ⟨u, v, x, w₁, t, W, start, deadline, ⟨hq, -⟩, hp, hsave, moves, hevents⟩ := hs.pass walked
    have hmemo : w'.mem.memo = (v.walked env now).mem.memo := by
      obtain ⟨c, hc⟩ := (sides_settled moves).mem
      obtain ⟨calls, clock, plan, converged, -, -, -⟩ := hsave
      rw [hc]
    have hkern : w'.kern = v.kern := by
      rw [(sides_noted moves).2]
      obtain ⟨calls, clock, plan, converged, -, -, -⟩ := hsave
      rfl
    have noted : ∀ k r, w'.mem.memo.renewable.lookup k = some r → .noted k r.addr ∈ pass := by
      intro k r hr
      rw [hmemo] at hr
      exact hevents ▸ hp.noted hr
    have hclean : v.clean := by
      rw [hmemo] at clean
      simp only [World.walked, Response.clean, Bool.and_eq_true, beq_iff_eq] at clean
      exact ⟨clean.2, clean.1.2⟩
    refine ⟨fun k r hr => ?_, fun ops' w'' later run' htick hlater hbegan k a ttl time left hauth k' hended => ?_⟩
    · have hnoted := noted k r hr
      unfold Listed
      rw [hkern]
      rcases hp.rest.1.settled k r.addr (hevents ▸ hnoted) with hclosed | hlisted | hqueued
      · rcases hclosed with hdirty | ⟨k', hk'⟩ | ⟨d, hd, -⟩
        · exact absurd hclean hdirty
        · exact absurd (hevents ▸ hk') (apart k k' r.addr hnoted)
        · simp [hp.rest.2.2] at hd
      · exact hlisted
      · simp [hp.rest.2.1] at hqueued
    · obtain ⟨new, hlog, hnew⟩ := run_confined (A := fun a => ∃ k, .noted k a ∈ pass) run' base'
      obtain rfl : new = later := List.append_cancel_right (hlog.symm.trans hlater)
      obtain ⟨k₀, hk₀⟩ := hnew (fun _ k r hr => ⟨k, noted k r hr⟩) htick hbegan k a ttl time left hauth
      exact apart k₀ k' a hk₀ hended

end

/-- On the calm machine the session a clean walk remembers has its element. -/
theorem ended_stays_away_admitted : ∃ w w', Run (ofOption step) (Env.calm.start false) [.arrive 1] w ∧
    step w (.submit (planFor 1 1000 [guest 'a' '1']) 1000) = some w' ∧ w'.mem.memo.clean = true ∧
    ∃ r, w'.mem.memo.renewable.lookup (guest 'a' '1').key = some r ∧ Listed w' r.addr := by
  obtain ⟨w, w', run, submitted, hw⟩ := exists_last (f := step) (s := Env.calm.start false) (l := [.arrive 1])
    (a := .submit (planFor 1 1000 [guest 'a' '1']) 1000) (P := fun w w' => w'.mem.memo.clean = true ∧ w.log = [] ∧
      (w'.mem.memo.renewable.lookup (guest 'a' '1').key).isSome ∧
      w'.log = [.authorized (guest 'a' '1').key addrOne 90000 1000 (some (some 15000)), .noted (guest 'a' '1').key addrOne,
        .admitted (guest 'a' '1').key 12, .answered (guest 'a' '1').key 12,
        .authorized (guest 'a' '1').key addrOne 15000 1000 none, .granted (guest 'a' '1').key addrOne 90000 none none] ++
        [.began, .enforced 1 ['a', '0']]) (by decide +kernel)
  obtain ⟨hclean, hlog, hsome, hlog'⟩ := of_decide_eq_true hw
  obtain ⟨r, hr⟩ := Option.isSome_iff_exists.mp hsome
  exact ⟨w, w', run, submitted, hclean, r, hr, (ended_stays_away (Env.calm.started false) run submitted
    (by rw [hlog]; exact hlog') hclean (by simp)).1 _ r hr⟩

/-- The database ends a session between two starts of netd. -/
def Env.ending : Env := { Env.calm with
  reply := fun n => if n < 40 then .ok else .ended
  confirm := fun _ => some false }

/-- The walk after the second start keeps the lease of the unchanged session, notes it, and ends it when the
re-proof finds it ended; the walk is clean, and a second later the timer authorizes the address again. -/
theorem ended_session_comes_back : ∃ w w', Run (ofOption step) (Env.ending.start false)
      ([.restart .calm] ++ planned 1 1000 [guest 'a' '1'] ++ [.restart .calm] ++ planned 2 2000 [guest 'a' '1']) w ∧
    step w (.renewDue 3000) = some w' ∧ w.mem.memo.clean = true ∧ .ended (guest 'a' '1').key addrOne ∈ w.events ∧
    w.left addrOne = none ∧ (w.mem.memo.renewable.lookup (guest 'a' '1').key).isSome ∧
    w'.left addrOne = some (some 89000) := by
  obtain ⟨w, w', run, timer, h⟩ := exists_last (f := step) (s := Env.ending.start false)
    (l := [.restart .calm] ++ planned 1 1000 [guest 'a' '1'] ++ [.restart .calm] ++ planned 2 2000 [guest 'a' '1'])
    (a := .renewDue 3000) (P := fun w w' => w.mem.memo.clean = true ∧ .ended (guest 'a' '1').key addrOne ∈ w.events ∧
      w.left addrOne = none ∧ (w.mem.memo.renewable.lookup (guest 'a' '1').key).isSome ∧
      w'.left addrOne = some (some 89000)) (by decide +kernel)
  exact ⟨w, w', run, timer, of_decide_eq_true h⟩

end StayConnect.Netd
