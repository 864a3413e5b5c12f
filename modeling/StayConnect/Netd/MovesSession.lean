import StayConnect.Netd.Moves

/-!
# The changes made for one session

One lemma for each function of `Provision`. Whatever becomes of a session that is handled, its address
is `Kept` afterwards: forwarding, or reported, or ended. In between it may not be, when a class is moved
to another group.
-/

namespace StayConnect.Netd

open Framing Prog Relation

variable {o : Scope} {w : World}

/-- The scope covers the session at its address. -/
structure Covers (o : Scope) (c : Wanted) : Prop where
  key : o.keys c.key
  addr : o.addrs c.addr
  bridge : c.addr.bridge = c.s.bridge
  revokes : o.revokes
  denies : o.denies

structure Renews (o : Scope) (c : Wanted) : Prop extends Covers o c where
  queues : o.queues
  notes : o.notes

/-- The scope may build and prove the candidate's class. -/
structure Owns (o : Scope) (c : Cand) : Prop extends Renews o c.toWanted where
  cls : o.HasClass c.s.bridge c.minor
  proves : o.proves c.key
  fresh : o.fresh

/-- An address the snapshot does not show as absent is kept. -/
def Seen (view : GateView) (a : Addr) (w : World) : Prop := view.lookup a ≠ some none → Kept w a

lemma fail_wp {p} : Wp (Act o) (fail p) (fun _ w' => ¬ w'.clean) w :=
  .change (.idle (.reported (by simp))) (by simp [World.clean])

lemma problem_wp {p} : Wp (Act o) (problem p) (fun _ w' => ¬ w'.clean) w :=
  .change (.idle (.reported (by simp))) (by simp [World.clean])

variable {why : Cause} {a : Addr} {now minor : Nat} {device : Bytes}

lemma failSession_wp {s} : Wp (Act o) (failSession s why) (fun _ w' => ¬ w'.clean) w := fail_wp

lemma abortTc_idle : Steps Idle (abortTc a) := by
  refine .read fun w => ?_
  cases minorFor w.env.nets a with
  | none => exact .pure
  | some minor =>
    refine .bind abortSession_idle fun err => ?_
    split
    · refine .bind (.bind removeFilter_idle fun _ => .bind removeFilter_idle fun _ => .pure) fun err => ?_
      split <;> exact .pure
    · exact .pure

lemma queueDeny_wp {d} (hb : w.pass.batched = true) (hd : o.denies) (ha : o.addrs d.addr)
    (hq : d.quiet = true → ∃ k, .ended k d.addr ∈ w.events) (hc : d.abort = false → ¬ w.clean) :
    Wp (Act o) (queueDeny d) (fun _ w' => d ∈ w'.pass.denies) w := .change (.deny d hb hd ha hq hc) (by simp)

lemma failClosed_queued {s} (hb : w.pass.batched = true) (hd : o.denies)
    (ha : o.addrs a) : Wp (Act o) (failClosed a s why) (fun _ w' => Closed w' a) w := by
  refine .read ?_
  rw [if_pos hb]
  exact (queueDeny_wp hb hd ha (by simp) (by simp)).conseq fun _ _ _ h => .inr (.inr ⟨_, h, rfl, rfl, rfl⟩)

lemma endClosed_queued {s} (hb : w.pass.batched = true) (hd : o.denies) (hk : o.keys ⟨a.bridge, s⟩) (ha : o.addrs a) :
    Wp (Act o) (endClosed a s why) (fun _ w' => Closed w' a) w := by
  refine .bind (.change (Q := fun _ t => .ended ⟨a.bridge, s⟩ a ∈ t.events ∧ t.pass.batched = true)
    (.ended _ a hk ha) ⟨by simp [World.events], hb⟩) fun _ t _ ht => .read ?_
  rw [if_pos ht.2]
  exact (queueDeny_wp ht.2 hd ha (fun _ => ⟨_, ht.1⟩) (by simp)).conseq fun _ _ moves _ =>
    moves_closed moves (.inr (.inl ⟨_, ht.1⟩))

section
variable {c : Wanted} {nowBoot lease : Nat} {bootID : Bytes}

lemma failClosed_wp (h : Covers o c) : Wp (Act o) (failClosed c.addr c.s.sessionID why) (fun _ w' => Closed w' c.addr) w := by
  cases hb : w.pass.batched with
  | true => exact failClosed_queued hb h.denies h.addr
  | false =>
    refine .read ?_
    rw [if_neg (by simp [hb])]
    exact .bind (denyAccess_steps h.revokes h.addr w) fun _ t _ _ => .bind (Idle.act abortTc_idle t) fun _ u _ _ =>
      fail_wp.conseq fun _ _ _ h => .inl h

lemma endClosed_wp (h : Covers o c) : Wp (Act o) (endClosed c.addr c.s.sessionID why) (fun _ w' => Closed w' c.addr) w := by
  have key : o.keys ⟨c.addr.bridge, c.s.sessionID⟩ := h.bridge ▸ h.key
  cases hb : w.pass.batched with
  | true => exact endClosed_queued hb h.denies key h.addr
  | false =>
    refine .bind (.change (Q := fun _ t => t.pass.batched = false) (.ended _ _ key h.addr) hb) fun _ t _ ht => .read ?_
    rw [if_neg (by simp [ht])]
    exact failClosed_wp h

lemma hold_wp (h : Covers o c) : Wp (Act o) (hold c why) (fun _ w' => ¬ w'.clean) w := by
  refine .read ?_
  split
  next hb =>
    refine .bind failSession_wp fun _ t moves ht => ?_
    exact (queueDeny_wp ((moves_batched moves).trans hb) h.denies h.addr (by simp) fun _ => ht).conseq fun _ _ moves _ hc => ht (moves_clean moves hc)
  · refine .bind (denyAccess_steps h.revokes h.addr w) fun err t _ _ => ?_
    split
    · exact .bind problem_wp fun _ _ _ _ => failSession_wp
    · exact failSession_wp

/-- A held session is reported; for one that is not held nothing was done. -/
def OnHold (w : World) (held : Bool) (w' : World) : Prop := (held = true → ¬ w'.clean) ∧ (held = false → Idle w w')

lemma crossBootHeld_wp (h : Covers o c) : Wp (Act o) (crossBootHeld c bootID) (OnHold w) w := by
  refine .read ?_
  split
  · exact .pure ⟨by simp, fun _ => Idle.refl w⟩
  refine .bind (Idle.wp confirm_idle) fun active t _ ht => ?_
  split
  · exact .bind (Idle.wp clearAttempt_idle) fun _ _ _ hu => .pure ⟨by simp, fun _ => ht.trans hu⟩
  · exact .bind (hold_wp h) fun _ _ _ hu => .pure ⟨fun _ => hu, by simp⟩

lemma backoffHeld_wp {q} (h : Covers o c) : Wp (Act o) (backoffHeld c q nowBoot) (OnHold w) w := by
  have held : ∀ (why : Cause) (t : World), Wp (Act o) (do hold c why; return true) (OnHold w) t :=
    fun _ _ => .bind (hold_wp h) fun _ _ _ hu => .pure ⟨fun _ => hu, by simp⟩
  unfold backoffHeld
  split
  · exact held _ w
  refine .bind (Idle.wp confirm_idle) fun active t _ ht => ?_
  split
  · exact .bind (Idle.wp setQuarantine_idle) fun _ _ _ hu => .pure ⟨by simp, fun _ => ht.trans hu⟩
  refine .bind (Idle.act setQuarantine_idle t) fun _ u _ _ =>
    .bind (Idle.act persistAttempts_idle u) fun err v _ _ => ?_
  split
  · exact .bind problem_wp fun _ x _ _ => held _ x
  · exact held _ v

lemma quarantineHold_wp (h : Covers o c) : Wp (Act o) (quarantineHold c nowBoot bootID) (OnHold w) w := by
  refine .bind (crossBootHeld_wp h) fun held t _ ht => ?_
  split
  next hheld => exact .pure ⟨fun _ => ht.1 hheld, by simp⟩
  next hheld =>
    have hidle := ht.2 (by simpa using hheld)
    refine .read ?_
    cases t.mem.quarantined.lookup c.key with
    | none => exact .pure ⟨by simp, fun _ => hidle⟩
    | some q =>
      dsimp only
      split
      · exact .pure ⟨by simp, fun _ => hidle⟩
      · exact (backoffHeld_wp h).conseq fun _ _ _ hu => ⟨hu.1, fun hf => hidle.trans (hu.2 hf)⟩

lemma ownership_idle : Steps Idle (ownership c) := by
  refine .read fun w => ?_
  split
  · exact .pure
  · exact .bind call_idle fun _ => .read fun _ => .pure

lemma verifiedLease_wp : Wp (Act o) (verifiedLease c lease now) (fun r w' => r.1 ≤ lease ∧ Idle w w') w := by
  refine .bind (Idle.wp ownership_idle) fun ev t _ ht => ?_
  split
  · exact .bind (Idle.wp (.read fun _ => .change fun _ => .aside)) fun _ _ _ hu => .pure ⟨Nat.le_refl _, ht.trans hu⟩
  refine .read ?_
  dsimp only
  split
  · exact .pure ⟨Nat.min_le_left _ _, ht⟩
  · exact .pure ⟨Nat.le_refl _, ht⟩

/-- A session the checks stop has been dealt with; for one they pass nothing was done. -/
def Checked {α : Type} (w : World) (a : Addr) (r : Option α) (w' : World) : Prop :=
  (r = none → Closed w' a) ∧ (r.isSome → Idle w w')

lemma ownedLease_wp (h : Covers o c) :
    Wp (Act o) (ownedLease c lease now) (fun r w' => Checked w c.addr r w' ∧ ∀ x, r = some x → x.1 ≤ lease) w := by
  refine .bind verifiedLease_wp fun r t _ ht => ?_
  obtain ⟨lease', ev⟩ := r
  dsimp only at ht ⊢
  split
  · refine .bind (.change (Q := fun _ u => Idle t u) (.idle .aside) .aside) fun _ u _ hu => .pure ⟨⟨by simp, fun _ => ?_⟩, ?_⟩
    · exact ht.2.trans hu
    · exact fun _ hx => (Option.some.inj hx) ▸ ht.1
  · refine .bind (failClosed_wp h) fun _ u _ hu => .bind (Idle.act markEnded_idle u) fun _ v moves _ =>
      .bind (endSeries_steps v) fun _ x moves' _ => .pure ⟨⟨fun _ => ?_, by simp⟩, by simp⟩
    exact moves_closed (moves.trans moves') hu
  · split
    · exact .pure ⟨⟨by simp, fun _ => ht.2⟩, fun _ hx => (Option.some.inj hx) ▸ ht.1⟩
    · refine .bind problem_wp fun _ u _ hu => .bind (.change (Q := fun _ _ => True) (.idle .aside) trivial)
        fun _ v moves _ => .pure ⟨⟨fun _ => moves_closed moves (.inl hu), by simp⟩, by simp⟩

/-- The candidate is the session with a lease within its boundary. -/
structure Bounded (c : Wanted) (minor now : Nat) (c' : Cand) : Prop where
  wanted : c'.toWanted = c
  minor : c'.minor = minor
  lease : ∃ lease, leaseFor c.s.accessEndsAt now = .ok lease ∧ c'.lease ≤ lease

lemma provisionChecks_wp (h : Covers o c) :
    Wp (Act o) (provisionChecks minor c now) (fun r w' => Checked w c.addr r w' ∧ ∀ c', r = some c' → Bounded c minor now c') w := by
  unfold provisionChecks
  cases hlease : leaseFor c.s.accessEndsAt now with
  | error why =>
    exact .bind (endClosed_wp h) fun _ t _ ht => .pure ⟨⟨fun _ => ht, by simp⟩, by simp⟩
  | ok lease =>
    refine .bind (ownedLease_wp h) fun r t _ ht => ?_
    match r with
    | none => exact .pure ⟨⟨fun _ => ht.1.1 rfl, by simp⟩, by simp⟩
    | some (lease', ev) =>
      have hidle : Idle w t := ht.1.2 rfl
      refine .bind (Idle.wp query_idle) fun nowBoot u _ hu => ?_
      match nowBoot with
      | none => exact .bind (failClosed_wp h) fun _ _ _ hv => .pure ⟨⟨fun _ => hv, by simp⟩, by simp⟩
      | some nowBoot =>
        refine .bind (Idle.wp query_idle) fun bootID v _ hv => ?_
        -- A boot identity that cannot be read is reported and the checks go on.
        have held : ∀ x : World, Idle w x → Wp (Act o) (do
            if ← quarantineHold c nowBoot (bootID.getD []) then return none
            return some ({ c with minor, lease := lease', ev, nowBoot } : Cand))
            (fun r w' => Checked w c.addr r w' ∧ ∀ c', r = some c' → Bounded c minor now c') x := by
          intro x hx
          refine .bind (quarantineHold_wp h) fun r y _ hy => ?_
          split
          next hr => exact .pure ⟨⟨fun _ => .inl (hy.1 hr), by simp⟩, by simp⟩
          next hr =>
            refine .pure ⟨⟨by simp, fun _ => hx.trans (hy.2 (by simpa using hr))⟩, fun c' hc' => ?_⟩
            obtain rfl := Option.some.inj hc'
            exact ⟨rfl, rfl, lease, hlease, ht.2 _ rfl⟩
        have hwv := (hidle.trans hu).trans hv
        split
        · refine .bind (.change (Q := fun _ x => Idle v x) (.idle ?_) ?_) fun _ x _ hx => held x (hwv.trans hx)
          all_goals exact .reported (by simp)
        · exact held v hwv

end

lemma Idle.kept {w'} (h : Idle w w') (hk : Kept w a) : Kept w' a :=
  (Act.idle (o := .bare True) h).keep_kept (fun h => h.1) hk

lemma noteRenewable_wp {c} (hn : o.notes) (hk : o.keys c.key) (ha : o.addrs c.addr)
    (h : Kept w a) : Wp (Act o) (noteRenewable c now) (fun _ w' => Kept w' a) w :=
  .change (.noted c now hn hk ha)
    ((Act.noted (o := { o with revokes := False }) c now hn hk ha).keep_kept (fun h => h.2) h)

lemma authorizeOne_wp {c : Cand} {ttl : Nat} (hk : o.keys c.key) (ha : o.addrs c.addr) (hl : Leased o.once w c.key c.addr ttl) :
    Wp (Act o) (authorize ⟨c.key, c.addr, ttl⟩) (fun _ w' => ReflTransGen (Act o.sober) w w') w := by
  have hreq : Requests o.sober w [⟨c.key, c.addr, ttl⟩] := by
    intro r hr
    obtain rfl := List.mem_singleton.mp hr
    exact ⟨hk, ha, hl⟩
  exact (Wp.sober (authorize_wp (by simp) hreq)).conseq fun _ _ _ h => h.2

lemma sober_kept {w'} (moves : ReflTransGen (Act o.sober) w w') (h : Kept w a) : Kept w' a :=
  moves_kept moves (fun h => h.2) h

lemma assertLease_wp {c : Cand} {want : Nat} {view : GateView} (h : Renews o c.toWanted)
    (hl : Leased o.once w c.key c.addr want) (hs : Seen view c.addr w) :
    Wp (Act o) (assertLease c want view) (fun _ w' => Kept w' c.addr) w := by
  unfold assertLease
  dsimp only
  split
  next hdue =>
    refine .pure (hs fun hnone => ?_)
    simp [hnone, leaseDue] at hdue
  · refine .read ?_
    split
    next hb =>
      -- The queued entry names the session by the bridge of its address.
      have hkey : PendingRenew.key ⟨c.addr, want, c.s.sessionID, (view.lookup c.addr).isSome⟩ = c.key := by
        simp [PendingRenew.key, h.bridge, Wanted.key, Session.key]
      refine .bind (.change (Q := fun _ t => (t.pass.renew.lookup c.addr).isSome)
        (.renew _ hb h.queues (hkey ▸ h.key) h.addr (by rw [hkey]; exact hl)) (by simp)) fun _ t _ ht => .pure (.inr (.inr ht))
    · refine .bind (authorizeOne_wp h.key h.addr hl) fun err t moves ht => ?_
      split
      · exact .bind (failClosed_wp h.toCovers) fun _ _ _ hu => .pure (.inl hu)
      split
      · refine .bind authorized_wp fun still u moves' hu => ?_
        split
        · exact .bind (failClosed_wp h.toCovers) fun _ _ _ hu => .pure (.inl hu)
        next hstill => exact .pure (.inr (.inl (Listed.of_left (hu.2 (by simpa using hstill)))))
      next hseen => exact .pure (sober_kept ht (hs hseen))

lemma readClassesForPass_idle : Steps Idle (readClassesForPass device) := by
  refine .read fun w => ?_
  cases w.pass.classes device with
  | some cs => exact .pure
  | none =>
    refine .bind query_idle fun cs => ?_
    cases cs with
    | none => exact .pure
    | some cs => exact .bind (.change fun _ => .aside) fun _ => .pure

lemma readGroupClassesForPass_idle : Steps Idle (readGroupClassesForPass device) := by
  refine .read fun w => ?_
  cases w.pass.groupClasses device with
  | some cs => exact .pure
  | none =>
    refine .bind query_idle fun cs => ?_
    cases cs with
    | none => exact .pure
    | some cs => exact .bind (.change fun _ => .aside) fun _ => .pure

lemma bothDevices_idle {read b} (h : ∀ device, Steps Idle (read device)) : Steps Idle (bothDevices read b) := by
  refine .bind (h b) fun down => ?_
  cases down with
  | none => exact .pure
  | some down =>
    refine .bind (h _) fun up => ?_
    cases up <;> exact .pure

lemma sharedDeviceMatches_idle {kbps group} : Steps Idle (sharedDeviceMatches device kbps minor group) := by
  refine .bind readClassesForPass_idle fun leaves => ?_
  cases leaves with
  | none => exact .pure
  | some leaves =>
    refine .bind readGroupClassesForPass_idle fun groups => ?_
    cases groups <;> exact .pure

lemma installedMatchesPlan_idle {s group} : Steps Idle (installedMatchesPlan s minor group) := by
  cases group with
  | some g =>
    unfold installedMatchesPlan
    dsimp only
    split
    · exact .pure
    refine .bind sharedDeviceMatches_idle fun same => ?_
    split
    · exact .pure
    · exact sharedDeviceMatches_idle
  | none =>
    refine .bind (bothDevices_idle fun _ => readClassesForPass_idle) fun both => ?_
    match both with
    | none => exact .pure
    | some (down, up) => exact .pure

lemma groupClassFor_idle {id} : Steps Idle (groupClassFor id) := .read fun _ => .pure

lemma groupClassFor_wp {once id} (hi : Inv once w) :
    Wp (Act o) (groupClassFor id) (fun r w' => Idle w w' ∧ ∀ g, r = some g → isGuestMinor g = false) w :=
  .read (.pure ⟨Idle.refl w, fun g hg => hi.groups _ g hg⟩)

/-- A class found under its own parent, or left where it is: nothing was withdrawn. -/
lemma regroup_wp {c} (h : Covers o c.toWanted) : Wp (Act o) (regroup c) (fun r w' => r = .none → Idle w w') w := by
  refine .bind (M := fun _ t => Idle w t) ?_ fun group t _ ht => ?_
  · split
    · exact Idle.wp groupClassFor_idle
    · exact .pure (Idle.refl w)
  · split
    · exact .pure fun _ => ht
    refine .bind (Idle.wp (bothDevices_idle fun _ => readClassesForPass_idle)) fun both u _ hu => ?_
    match both with
    | none => exact .pure fun _ => ht.trans hu
    | some (down, up) =>
      dsimp only
      split
      · exact .pure fun _ => ht.trans hu
      refine .read ?_
      split
      · refine .bind (.change (Q := fun _ v => Idle u v) (.idle .aside) .aside) fun _ v _ hv => .pure fun _ => ?_
        exact (ht.trans hu).trans hv
      refine .bind (denyAccess_steps h.revokes h.addr u) fun err v _ _ => ?_
      split
      · exact .pure (by simp)
      · exact .bind (Idle.act deleteSession_idle v) fun _ x _ _ =>
          .bind (.change (Q := fun _ _ => True) (.idle .aside) trivial) fun _ _ _ _ => .pure (by simp)

lemma ensureGroups_steps {s g} (hg : isGuestMinor g = false) : Steps (Act o) (ensureGroups s g) := by
  refine .bind (ensureGroupClass_steps hg) fun err => ?_
  split
  · exact .pure
  · refine .bind (ensureGroupClass_steps hg) fun err => ?_
    split <;> exact .pure

lemma reRateGroup_wp {s} (hi : Inv o.once w) : Wp (Act o) (reRateGroup s) (fun _ _ => True) w := by
  unfold reRateGroup
  split
  · exact .pure trivial
  refine .bind (groupClassFor_wp hi) fun g t _ ht => ?_
  match g with
  | none => exact .pure trivial
  | some g =>
    refine .read ?_
    split
    · exact .pure trivial
    refine .bind (ensureGroups_steps (ht.2 g rfl) t) fun err u _ _ => ?_
    match err with
    | some why => exact .pure trivial
    | none => exact .bind (.change (Q := fun _ _ => True) (.idle .aside) trivial) fun _ _ _ _ => .pure trivial

lemma ownMinor_idle {s} : Steps Idle (ownMinor s minor) := .change fun _ => .aside

lemma heldClass_wp {c} (h : Covers o c.toWanted) : Wp (Act o) (heldClass c) (fun r w' => r = .present → Idle w w') w := by
  refine .bind (Idle.wp (bothDevices_idle fun _ => readClassesForPass_idle)) fun both t _ ht => ?_
  match both with
  | none => exact .pure (by simp)
  | some (down, up) =>
    dsimp only
    split
    · exact .pure (by simp)
    refine .bind (regroup_wp h) fun r u _ hu => ?_
    cases r with
    | none => exact .pure fun _ => ht.trans (hu rfl)
    | rebuild | failed => exact .pure (by simp)

lemma reRate_wp {c} (hi : Inv o.once w) : Wp (Act o) (reRate c) (fun _ _ => True) w := by
  refine .bind (reRateGroup_wp hi) fun group t _ _ => ?_
  cases group with
  | error why => exact .pure trivial
  | ok group =>
    refine .read (.bind (M := fun _ _ => True) ?_ fun same u _ _ => ?_)
    · split
      · exact Idle.act installedMatchesPlan_idle t
      · exact .pure trivial
    · split
      · exact .pure trivial
      · refine .bind (Idle.act reRateSessionIn_idle u) fun err _ _ _ => ?_
        split <;> exact .pure trivial

/-- The pass granted the candidate the lease it carries. -/
structure Ready (once : Prop) (w : World) (c : Cand) : Prop where
  inv : Inv once w
  granted : ∃ left dhcp, .granted c.key c.addr c.lease left dhcp ∈ w.events

section
variable {c : Cand} {view : GateView}

variable {w' : World} {want now epoch nowBoot : Nat} {s : Session}

lemma Ready.moves (h : Ready o.once w c) (moves : ReflTransGen (Act o) w w') : Ready o.once w' c where
  inv := moves_inv moves h.inv
  granted := by
    obtain ⟨left, dhcp, hg⟩ := h.granted
    exact ⟨left, dhcp, moves_mem_events moves hg⟩

lemma Ready.provisional {once} (h : Ready once w c) (hle : want ≤ provisionalOrLess c.lease) : Leased once w c.key c.addr want where
  granted := by
    obtain ⟨left, dhcp, hg⟩ := h.granted
    exact ⟨c.lease, left, dhcp, hg, hle.trans (Nat.min_le_left _ _)⟩
  proven _ := .inl (hle.trans (Nat.min_le_right _ _))

lemma Ready.full {once} (h : Ready once w c) (hle : want ≤ c.lease)
    (hp : once → Proven w.log c.key) : Leased once w c.key c.addr want where
  granted := by
    obtain ⟨left, dhcp, hg⟩ := h.granted
    exact ⟨c.lease, left, dhcp, hg, hle⟩
  proven ho := .inr (hp ho)

lemma sober_generation {k} (moves : ReflTransGen (Act o.sober) w w') :
    generation w'.log k = generation w.log k := moves_generation moves fun h => h.2

lemma renewLease_wp (h : Renews o c.toWanted) (hl : Leased o.once w c.key c.addr want) (hs : Seen view c.addr w) :
    Wp (Act o) (renewLease c want view now) (fun _ w' => Kept w' c.addr) w := by
  refine .bind (assertLease_wp h hl hs) fun r t _ ht => ?_
  split
  · exact .bind (Idle.wp (.change fun _ => .aside)) fun _ u _ hu => noteRenewable_wp h.notes h.key h.addr (hu.kept ht)
  · exact .pure ht

lemma endActive_wp (h : Covers o c.toWanted) : Wp (Act o) (endActive c) (fun _ w' => Closed w' c.addr) w := by
  refine .bind (endClosed_wp h) fun _ t _ ht => ?_
  exact (endSeries_steps t).conseq fun _ _ moves _ => moves_closed moves ht

lemma failActive_wp (h : Covers o c.toWanted) : Wp (Act o) (failActive c) (fun _ w' => Closed w' c.addr) w := by
  refine .bind (failClosed_wp h) fun _ t _ ht => ?_
  exact (endSeries_steps t).conseq fun _ _ moves _ => moves_closed moves ht

/-- The class of a session in force is re-rated and its lease renewed, in full when it is proven. -/
lemma renewActive_wp (h : Owns o c) (hr : Ready o.once w c) (hg : generation w.log c.key = some epoch) (hs : Seen view c.addr w) :
    Wp (Act o) (renewActive c epoch nowBoot view now) (fun _ w' => Kept w' c.addr) w := by
  refine .bind (Wp.sober (reRate_wp hr.inv)) fun why t m₁ h₁ => ?_
  match why with
  | some why => exact failSession_wp.conseq fun _ _ _ hc => .inl (.inl hc)
  | none =>
    refine .bind (Wp.sober (Idle.act ownMinor_idle t)) fun _ u m₂ h₂ => ?_
    have hu := hr.moves (m₁.trans m₂)
    refine .bind (Wp.sober (proveActive_wp hu.inv h.proves)) fun r v m₃ h₃ => ?_
    have sober := (h₁.2.trans h₂.2).trans h₃.2
    have hv := hu.moves m₃
    cases r with
    | ended => exact (endActive_wp h.toCovers).conseq fun _ _ _ hc => .inl hc
    | failed => exact .bind failSession_wp fun _ _ _ _ => (failActive_wp h.toCovers).conseq fun _ _ _ hc => .inl hc
    | unproven =>
      refine .bind failSession_wp fun _ x m₄ hx => ?_
      have hx' := hv.moves m₄
      refine .bind (assertLease_wp h.toRenews (hx'.provisional (Nat.le_refl _)) fun _ => .inl (.inl hx))
        fun _ y m₅ _ => .pure (.inl (moves_closed m₅ (.inl hx)))
    | proven =>
      refine renewLease_wp h.toRenews (hv.full (Nat.le_refl _) fun _ => ?_) fun seen => sober_kept sober (hs seen)
      exact ⟨epoch, (sober_generation sober).trans hg, h₃.1 rfl⟩

lemma manageClass_wp {a} (hk : o.keys c.key) (hf : o.fresh) (hn : o.once → NoQueue w c.key) (h : Kept w a) :
    Wp (Act o) (manageClass c epoch) (fun _ w' => generation w'.log c.key = some epoch ∧ Kept w' a) w := by
  refine .change (.admitted c epoch hk hf hn) ⟨by simp [generation], ?_⟩
  exact (Act.admitted (o := { o with revokes := False }) c epoch hk hf hn).keep_kept (fun h => h.2) h

lemma completeAdmission_wp (h : Owns o c) (hr : Ready o.once w c) (hn : o.once → NoQueue w c.key) (hk : Kept w c.addr) :
    Wp (Act o) (completeAdmission c epoch view now) (fun _ w' => Kept w' c.addr) w := by
  refine .bind (manageClass_wp h.key h.fresh hn hk) fun _ t m₁ h₁ => ?_
  have ht := hr.moves m₁
  refine .bind (Wp.sober (proveActive_wp ht.inv h.proves)) fun r u m₂ h₂ => ?_
  have hu := ht.moves m₂
  have kept : Kept u c.addr := sober_kept h₂.2 h₁.2
  cases r with
  | ended => exact (endActive_wp h.toCovers).conseq fun _ _ _ hc => .inl hc
  | failed => exact .bind failSession_wp fun _ _ _ _ => (failActive_wp h.toCovers).conseq fun _ _ _ hc => .inl hc
  | unproven => exact failSession_wp.conseq fun _ _ _ hc => .inl (.inl hc)
  | proven =>
    refine renewLease_wp h.toRenews (hu.full (Nat.le_refl _) fun _ => ?_) fun _ => kept
    exact ⟨epoch, (sober_generation h₂.2).trans h₁.1, h₂.1 rfl⟩

lemma registerOrigin_idle : Steps Idle (registerOrigin s) := by
  unfold registerOrigin
  split
  · exact .pure
  refine .bind query_idle fun up => .bind query_idle fun down => ?_
  split
  · exact .pure
  · exact .bind registerClassOrigin_idle fun _ => .pure

lemma pendingEpoch_idle {k} : Steps Idle (pendingEpoch k) := by
  refine .read fun w => ?_
  cases w.mem.pending k with
  | some e => exact .pure
  | none =>
    refine .bind allocEpoch_idle fun e => ?_
    cases e with
    | none => exact .pure
    | some e => exact .bind (.change fun _ => .aside) fun _ => .pure

lemma endPrevious_steps {minor} : Steps (Act o) (endPrevious s minor) := by
  refine .read fun w => ?_
  cases w.mem.minorOwner ⟨s.bridge, minor⟩ with
  | none => exact .pure
  | some prev =>
    dsimp only
    split
    · exact endSeries_steps
    · exact .pure

lemma admissionGroup_wp (hi : Inv o.once w) : Wp (Act o) (admissionGroup s) (fun _ _ => True) w := by
  unfold admissionGroup
  split
  · exact .pure trivial
  refine .bind (groupClassFor_wp hi) fun g t _ ht => ?_
  match g with
  | none => exact .pure trivial
  | some g =>
    refine .bind (ensureGroups_steps (ht.2 g rfl) t) fun err _ _ _ => ?_
    match err with
    | some why => exact .pure trivial
    | none => exact .pure trivial

lemma originFailed_wp {why} (h : Covers o c.toWanted) : Wp (Act o) (originFailed c why) (fun _ w' => Closed w' c.addr) w := by
  unfold originFailed
  split
  · refine .bind (endClosed_wp h) fun _ t _ ht => ?_
    exact (dropEnded_steps t).conseq fun _ _ moves _ => moves_closed moves ht
  · exact failClosed_wp h

lemma authorizeProvisionally_wp (hk : o.keys c.key) (ha : o.addrs c.addr) (hr : Ready o.once w c) :
    Wp (Act o) (authorizeProvisionally c nowBoot) (fun r w' => r = none → Kept w' c.addr) w := by
  refine .bind (Idle.wp beginAttempt_idle) fun err t m₁ h₁ => ?_
  split
  · exact .pure (by simp)
  have ht := hr.moves m₁
  refine .bind (authorizeOne_wp hk ha (ht.provisional (Nat.le_refl _))) fun err u m₂ h₂ => ?_
  split
  · exact .pure (by simp)
  refine .bind authorized_wp fun still v m₃ h₃ => ?_
  split
  · exact .pure (by simp)
  next hstill => exact .pure fun _ => .inr (.inl (Listed.of_left (h₃.2 (by simpa using hstill))))

lemma verifyActivation_idle : Steps Idle (verifyActivation c) := by
  refine .bind forwarding_idle fun fw => .bind (bothDevices_idle fun _ => query_idle) fun both => ?_
  match both with
  | none => exact .pure
  | some (down, up) => exact .pure

/-- The staged admission of a new class: it ends authorized and proven, or failed closed, or ended. -/
lemma admitSession_wp (h : Owns o c) (hr : Ready o.once w c) (hn : o.once → NoQueue w c.key) :
    Wp (Act o) (admitSession c nowBoot view now) (fun _ w' => Kept w' c.addr) w := by
  have failed : ∀ (why : Cause) (t : World),
      Wp (Act o) (failClosed c.addr c.s.sessionID why) (fun _ w' => Kept w' c.addr) t :=
    fun _ _ => (failClosed_wp h.toCovers).conseq fun _ _ _ hc => .inl hc
  refine .bind (Wp.sober (Idle.act pendingEpoch_idle w)) fun epoch t m₁ h₁ => ?_
  match epoch with
  | none => exact failSession_wp.conseq fun _ _ _ hc => .inl (.inl hc)
  | some epoch =>
    refine .bind (Wp.sober (endPrevious_steps t)) fun _ u m₂ h₂ => ?_
    have hu := hr.moves (m₁.trans m₂)
    refine .bind (Wp.sober (admissionGroup_wp hu.inv)) fun group v m₃ h₃ => ?_
    match group with
    | .error why => exact failed why v
    | .ok group =>
      refine .bind (Wp.sober (prepareSessionIn_steps (o := o.sober) h.cls v)) fun refused x m₄ h₄ => ?_
      split
      · exact failed _ x
      refine .bind (Wp.sober (Idle.act registerOrigin_idle x)) fun verdict y m₅ h₅ => ?_
      match verdict with
      | .error why => exact (originFailed_wp h.toCovers).conseq fun _ _ _ hc => .inl hc
      | .ok () =>
        refine .bind (Wp.sober (Idle.act activateSession_idle y)) fun refused z m₆ h₆ => ?_
        split
        · exact failed _ z
        refine .bind (Wp.sober (Idle.act verifyActivation_idle z)) fun ok z' m₇ h₇ => ?_
        split
        · exact failed _ z'
        have hz := hu.moves ((((m₃.trans m₄).trans m₅).trans m₆).trans m₇)
        have sober := ((((((h₁.2.trans h₂.2).trans h₃.2).trans h₄.2).trans h₅.2).trans h₆.2).trans h₇.2)
        refine .bind (Wp.sober (authorizeProvisionally_wp h.key h.addr hz)) fun why z'' m₈ h₈ => ?_
        match why with
        | some why => exact failed why z''
        | none =>
          refine completeAdmission_wp h (hz.moves m₈) (fun ho => ?_) (h₈.1 rfl)
          exact moves_noQueue (sober.trans h₈.2) (fun hk => hk.1) (hn ho)

/-- Whatever is done about a session, its address is kept. -/
lemma provisionTail_wp (h : Owns o c) (hr : Ready o.once w c) (hn : o.once → NoQueue w c.key) (hs : Seen view c.addr w) :
    Wp (Act o) (provisionTail c view now) (fun _ w' => Kept w' c.addr) w := by
  refine .read (.bind (M := fun _ t => Idle w t) ?_ fun clock t m₁ h₁ => ?_)
  · split
    · exact Idle.wp query_idle
    · exact .pure (Idle.refl w)
  · have ht := hr.moves m₁
    have hnt : o.once → NoQueue t c.key := fun ho a r hl => hn ho a r (h₁.renew ▸ hl)
    match clock with
    | none => exact (failClosed_wp h.toCovers).conseq fun _ _ _ hc => .inl hc
    | some nowBoot =>
      refine .read ?_
      dsimp only
      cases hepoch : t.mem.epochs c.key with
      | none => exact admitSession_wp h ht hnt
      | some epoch =>
        dsimp only
        split
        · exact admitSession_wp h ht hnt
        have covers : Covers o.plain c.toWanted := ⟨h.key, h.addr, h.bridge, h.revokes, h.denies⟩
        refine .bind (Wp.widen Scope.plain_le (heldClass_wp covers)) fun held u m₂ h₂ => ?_
        have hu := ht.moves m₂
        cases held with
        | failed => exact failSession_wp.conseq fun _ _ _ hc => .inl (.inl hc)
        | present =>
          have idle := h₂.1 rfl
          refine renewActive_wp h hu ?_ fun hv => idle.kept (h₁.kept (hs hv))
          rw [idle.log]
          exact ht.inv.current _ _ hepoch
        | lost =>
          refine .bind (Wp.widen Scope.plain_le (endSeries_steps u)) fun _ v m₃ h₃ => ?_
          refine admitSession_wp h (hu.moves m₃) fun ho => ?_
          exact moves_noQueue (h₂.2.trans h₃.2) (fun hk => hk.1) (hnt ho)

end

end StayConnect.Netd
