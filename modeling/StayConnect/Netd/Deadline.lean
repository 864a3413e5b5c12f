import StayConnect.Netd.Record

/-!
# What continuity grants

A session's continuity deadline is fixed when its block is accepted; the tick of an outage renews elements
that are in the set, and no further than the deadlines. Both hold to the millisecond only where nothing
takes time: the tick measures the deadlines with a clock it read before it asked the database, looks at the
set before it writes, and a block is accepted at the end of a pass whose wall time was taken at its start.
-/

namespace StayConnect.Netd

open Framing Prog Relation Transition

section
variable {p : Powers} {w w' t u : World} {env : Envelope} {now : Nat} {op : Op} {k : Key} {a : Addr}

def World.saved (w : World) (k : Key) (s : ContSess) : Prop := ∃ st, w.disk.contState = some st ∧ st.sessions.lookup k = some s

/-- A deadline the plan's block gives the session, when it is accepted by the boot time `clock`. -/
structure Accepts (env : Envelope) (b : ContinuityBlock) (now clock : Nat) (k : Key) (deadline : Nat) (s : Session)
    (h : ContinuitySession) (accepted : Nat) : Prop where
  listed : s ∈ env.sessions
  key : s.key = k
  block : h ∈ b.sessions
  session : h.sessionID = s.sessionID
  time : accepted ≤ clock
  deadline : deadline = accepted + contRemaining b h.hardEnd s.accessEndsAt now
  long : 1000 ≤ contRemaining b h.hardEnd s.accessEndsAt now

/-- Where a deadline in the record comes from. -/
inductive Origin (p : Powers) (w : World) (clock : Nat) (k : Key) (deadline : Nat) : Prop where
  | kept (s : ContSess) : w.kept k s → s.deadlineBoot = deadline → Origin p w clock k deadline
  | accepted {env : Envelope} {b : ContinuityBlock} {now : Nat} {s : Session} {h : ContinuitySession} {accepted : Nat} :
    p.notes env b now → Accepts env b now clock k deadline s h accepted → Origin p w clock k deadline
  | restored (s : ContSess) : p.restores → w.saved k s → s.deadlineBoot = deadline → Origin p w clock k deadline

lemma Origin.later {clock clock' deadline} (h : Origin p w clock k deadline) (hc : clock ≤ clock') : Origin p w clock' k deadline := by
  cases h with
  | kept s hs hd => exact .kept s hs hd
  | accepted hn ha => exact .accepted hn { ha with time := ha.time.trans hc }
  | restored s hp hs hd => exact .restored s hp hs hd

/-- Every deadline of the record and of its file has an origin. -/
structure Traced (p : Powers) (w t : World) : Prop where
  kept : ∀ k s, t.kept k s → Origin p w t.clock k s.deadlineBoot
  saved : ∀ k s, t.saved k s → Origin p w t.clock k s.deadlineBoot ∨ ∃ s₀, w.saved k s₀ ∧ s₀.deadlineBoot = s.deadlineBoot

lemma Traced.refl (w : World) : Traced p w w where
  kept _ s hs := .kept s hs rfl
  saved _ s hs := .inr ⟨s, hs, rfl⟩

lemma Traced.kept_same (h : Traced p w t) (hst : u.mem.cont.st = t.mem.cont.st) (hclock : t.clock ≤ u.clock) (k : Key)
    (s : ContSess) (hs : u.kept k s) : Origin p w u.clock k s.deadlineBoot := by
  rw [World.kept, hst] at hs
  exact (h.kept k s hs).later hclock

lemma Traced.saved_same (h : Traced p w t) (hdisk : u.disk.contState = t.disk.contState) (hclock : t.clock ≤ u.clock) (k : Key)
    (s : ContSess) (hs : u.saved k s) :
    Origin p w u.clock k s.deadlineBoot ∨ ∃ s₀, w.saved k s₀ ∧ s₀.deadlineBoot = s.deadlineBoot := by
  rw [World.saved, hdisk] at hs
  exact (h.saved k s hs).imp_left (·.later hclock)

-- Stated for any journal: the kernel would otherwise unfold the pruned one.
lemma Traced.journal (h : Traced p w t) (journal : List ContRevocation) : Traced p w { t with mem.cont.journal := journal } :=
  ⟨h.kept_same rfl (Nat.le_refl _), h.saved_same rfl (Nat.le_refl _)⟩

lemma Side.traced (act : Side p t u) (h : Traced p w t) : Traced p w u := by
  cases act with
  | quiet calls clock hc => exact ⟨h.kept_same rfl hc, h.saved_same rfl hc⟩
  | cont c hc =>
    refine ⟨fun k s hs => ?_, h.saved_same rfl (Nat.le_refl _)⟩
    obtain ⟨st, hst, hs⟩ := hs
    obtain ⟨st₀, s₀, hst₀, hs₀, later⟩ := hc.sessions hst hs
    rw [later.1]
    exact h.kept k s₀ ⟨st₀, hst₀, hs₀⟩
  | accepted env b bootID nowBoot now hn hv hle =>
    refine ⟨fun k cs hcs => ?_, h.saved_same rfl (Nat.le_refl _)⟩
    obtain ⟨st, hst, hs⟩ := hcs
    obtain rfl := Option.some.inj hst
    obtain ⟨s, hlisted, hk, noted⟩ := contStateOf_session hs
    obtain ⟨hd, hblock, hid, hdeadline, hlong⟩ := noted.deadline
    exact .accepted hn ⟨hlisted, hk, hblock, hid, hle, hdeadline, hlong⟩
  | saved st hst =>
    refine ⟨h.kept_same rfl (Nat.le_refl _), fun k s hs => ?_⟩
    obtain ⟨st', hst', hs⟩ := hs
    obtain rfl := Option.some.inj hst'
    exact .inl (h.kept k s ⟨st, hst, hs⟩)
  | unsaved => exact ⟨h.kept_same rfl (Nat.le_refl _), fun k s ⟨_, hst, _⟩ => nomatch hst⟩
  | stateRead st hp hst =>
    refine ⟨fun k s hs => ?_, h.saved_same rfl (Nat.le_refl _)⟩
    obtain ⟨st', hst', hs⟩ := hs
    obtain rfl := Option.some.inj hst'
    rcases h.saved k s ⟨st, hst, hs⟩ with origin | ⟨s₀, hs₀, hd⟩
    · exact origin
    · exact .restored s₀ hp hs₀ hd
  | entry | pruned | journalRead => exact h.journal _
  | _ => exact ⟨h.kept_same rfl (Nat.le_refl _), h.saved_same rfl (Nat.le_refl _)⟩

lemma sides_traced (moves : ReflTransGen (Side p) w w') : Traced p w w' :=
  keep (S := Traced p w) (fun act h => act.traced h) moves (.refl w)

/-- A deadline in the record was in it before, comes with an accepted block, or from the file of a start. -/
lemma RecordStep.deadline (h : RecordStep w op w') {s'} (hs : w'.kept k s') :
    (∃ s, w.kept k s ∧ s.deadlineBoot = s'.deadlineBoot) ∨
    (∃ env now b s h accepted, op = .submit env now ∧ env.continuity = some b ∧
      Accepts env b now w'.clock k s'.deadlineBoot s h accepted) ∨
    (op.starts ∧ ∃ s, w.saved k s ∧ s.deadlineBoot = s'.deadlineBoot) := by
  have kept_of : ∀ {x : World} {s : ContSess}, x.mem.cont = w.mem.cont → x.kept k s → w.kept k s :=
    fun hx hs => by rwa [World.kept, hx] at hs
  cases h with
  | still _ hcont => exact .inl ⟨s', kept_of hcont hs, rfl⟩
  | sides _ hp _ moves =>
    cases (sides_traced moves).kept k s' hs with
    | kept s hs hd => exact .inl ⟨s, hs, hd⟩
    | accepted hn => exact (hp.notes _ _ _ hn).elim
    | restored _ hr => exact (hp.restores hr).elim
  | @noted x _ env now same moves =>
    cases (sides_traced moves).kept k s' hs with
    | kept s hs hd => exact .inl ⟨s, kept_of same.cont hs, hd⟩
    | @accepted _ b _ s h accepted hn ha =>
      obtain ⟨rfl, hb, rfl⟩ := hn
      exact .inr (.inl ⟨_, _, b, s, h, accepted, rfl, hb, ha⟩)
    | restored _ hr => exact hr.elim
  | started hop hcont hstate _ moves =>
    cases (sides_traced moves).kept k s' hs with
    | kept s hs hd =>
      obtain ⟨st, hst, -⟩ := hs
      simp [hcont] at hst
    | accepted hn => exact hn.elim
    | restored s _ hs hd => exact .inr (.inr ⟨hop, s, by rwa [World.saved, hstate] at hs, hd⟩)

def ContSess.addr (parse : Bytes → Option Ip) (s : ContSess) : Option Addr := (parse s.ip).map fun ip => ⟨s.bridge, ip⟩

lemma Side.lookup_of {e} (h : Side p w w') (hl : ∀ r, ¬ p.leases r) (he : w'.kern.auth.lookup a = some e) :
    w.kern.auth.lookup a = some e := by
  cases h with
  | wrote r hr => exact (hl r hr).elim
  | erased b =>
    rcases eq_or_ne a b with rfl | hne
    · simp [eraseAuth] at he
    · simpa [eraseAuth, AList.lookup_erase_ne hne] using he
  | _ => exact he

lemma sides_lookup_of {e} (moves : ReflTransGen (Side p) w w') (hl : ∀ r, ¬ p.leases r)
    (he : w'.kern.auth.lookup a = some e) : w.kern.auth.lookup a = some e := by
  induction moves with
  | refl => exact he
  | tail _ act ih => exact ih (act.lookup_of hl he)

lemma sides_lookup (moves : ReflTransGen (Side p) w w') (hl : ∀ r, ¬ p.leases r) (ha : ¬ p.removes a) :
    w'.kern.auth.lookup a = w.kern.auth.lookup a := by
  refine keep (S := fun t => t.kern.auth.lookup a = w.kern.auth.lookup a) (fun act h => ?_) moves rfl
  cases act with
  | wrote r hr => exact (hl r hr).elim
  | erased b hb =>
    have hne : a ≠ b := fun heq => ha (heq ▸ hb)
    simpa [eraseAuth, AList.lookup_erase_ne hne] using h
  | _ => exact h

def Apart (parse : Bytes → Option Ip) (x y : Key × ContSess) : Prop := ∀ a, x.2.addr parse = some a → y.2.addr parse ≠ some a

variable {nowBoot time : Nat}

lemma Renewal.addr {parse view x q} (h : Renewal parse view nowBoot x q) : x.2.addr parse = some q.addr := by
  simp only [ContSess.addr, h.ip, Option.map_some, ← h.bridge]

lemma contRenewals_kept {view : GateView} {meterOK : Bool} {xs : List (Key × ContSess)} (apart : xs.Pairwise (Apart w.env.parseIP)) :
    Wp (Side { removes := fun _ => True }) (xs.mapM (contRenewal view meterOK nowBoot now))
      (fun reqs t => (∀ q ∈ reqs.reduceOption, t.kern.auth.lookup q.addr = w.kern.auth.lookup q.addr) ∧
        (reqs.reduceOption.map (·.addr)).Nodup) w := by
  refine (Wp.collect (fun rest reqs t => t.env = w.env ∧ rest.Pairwise (Apart w.env.parseIP) ∧
    (∀ x ∈ rest, ∀ a, x.2.addr w.env.parseIP = some a → t.kern.auth.lookup a = w.kern.auth.lookup a) ∧
    (∀ q ∈ reqs.reduceOption, t.kern.auth.lookup q.addr = w.kern.auth.lookup q.addr ∧
      ∀ x ∈ rest, x.2.addr w.env.parseIP ≠ some q.addr) ∧ (reqs.reduceOption.map (·.addr)).Nodup)
    (fun x rest reqs t ht => ?_) ⟨rfl, apart, fun _ _ _ _ => rfl, by simp, by simp⟩).conseq
    fun reqs t _ ht => ⟨fun q hq => (ht.2.2.2.1 q hq).1, ht.2.2.2.2⟩
  obtain ⟨henv, hpair, hrest, hreqs, hnodup⟩ := ht
  obtain ⟨hx, hpair⟩ := List.pairwise_cons.mp hpair
  have own : Wp (Side { removes := fun a => x.2.addr w.env.parseIP = some a }) (contRenewal view meterOK nowBoot now x)
      (fun r u => ∀ q, r = some q → Renewal t.env.parseIP view nowBoot x q ∧ u.kern = t.kern) t :=
    contRenewal_wp fun ip hip => by rw [henv] at hip; simp [ContSess.addr, hip]
  refine ((own.conseq fun r u moves h => And.intro moves h).mono (Side.mono (Powers.removes_le fun _ _ => trivial))).conseq
    fun r u _ hu => ?_
  obtain ⟨moves, hr⟩ := hu
  have spared : ∀ a, x.2.addr w.env.parseIP ≠ some a → u.kern.auth.lookup a = t.kern.auth.lookup a :=
    fun a ha => sides_lookup moves (fun _ h => h) ha
  refine ⟨(sides_settled moves).env.trans henv, hpair, fun y hy a ha => ?_, ?_⟩
  · exact (spared a fun hxa => hx y hy a hxa ha).trans (hrest y (by simp [hy]) a ha)
  have old : ∀ q ∈ reqs.reduceOption, u.kern.auth.lookup q.addr = w.kern.auth.lookup q.addr ∧
      ∀ y ∈ rest, y.2.addr w.env.parseIP ≠ some q.addr := fun q hq =>
    ⟨(spared q.addr ((hreqs q hq).2 x (by simp))).trans (hreqs q hq).1, fun y hy => (hreqs q hq).2 y (by simp [hy])⟩
  cases r with
  | none =>
    rw [List.reduceOption_append, List.reduceOption_singleton]
    simp only [Option.toList_none, List.append_nil]
    exact ⟨old, hnodup⟩
  | some q =>
    obtain ⟨req, hkern⟩ := hr q rfl
    rw [henv] at req
    have hq := req.addr
    rw [List.reduceOption_append, List.reduceOption_singleton]
    simp only [Option.toList_some, List.mem_append, List.mem_singleton, List.map_append, List.map_cons, List.map_nil]
    refine ⟨fun q' hq' => ?_, ?_⟩
    · rcases hq' with hq' | rfl
      · exact old q' hq'
      · exact ⟨by rw [hkern]; exact hrest x (by simp) _ hq, fun y hy hya => hx y hy _ hq hya⟩
    · rw [List.nodup_append]
      refine ⟨hnodup, by simp, ?_⟩
      intro a ha b hb heq
      obtain ⟨q', hq', rfl⟩ := List.mem_map.mp ha
      obtain rfl := List.mem_singleton.mp hb
      exact (hreqs q' hq').2 x (by simp) (heq ▸ hq)

/-- A transaction being written: what is still to come is as it was, and what was written is on the record
with what its element had left. -/
structure Writing (reqs : List GateLease) (w : World) (rest : List GateLease) (t : World) : Prop where
  clock : w.clock ≤ t.clock
  within : ∀ r ∈ rest, r ∈ reqs
  nodup : (rest.map (·.addr)).Nodup
  untouched : ∀ r ∈ rest, t.kern.auth.lookup r.addr = w.kern.auth.lookup r.addr
  log : ∃ new, t.log = new ++ w.log ∧ ∀ e ∈ new, ∃ r ∈ reqs, ∃ time ≤ t.clock,
    e = .authorized r.key r.addr (wholeSeconds r.ttl) time (w.kern.left time r.addr)

section
variable {reqs rest : List GateLease} {r : GateLease}

lemma Writing.quiet (h : Writing reqs w rest t) (hq : Quiet t u) : Writing reqs w rest u := by
  obtain ⟨calls, clock, hc⟩ := hq
  obtain ⟨new, hlog, hnew⟩ := h.log
  refine ⟨h.clock.trans hc, h.within, h.nodup, h.untouched, new, hlog, fun e he => ?_⟩
  obtain ⟨r, hr, time, htime, he⟩ := hnew e he
  exact ⟨r, hr, time, htime.trans hc, he⟩

lemma Writing.skip (h : Writing reqs w (r :: rest) t) : Writing reqs w rest t where
  clock := h.clock
  within r' hr' := h.within r' (by simp [hr'])
  nodup := (List.nodup_cons.mp h.nodup).2
  untouched r' hr' := h.untouched r' (by simp [hr'])
  log := h.log

lemma Writing.write (h : Writing reqs w (r :: rest) t) : Writing reqs w rest (r.write t) where
  clock := h.clock
  within r' hr' := h.within r' (by simp [hr'])
  nodup := (List.nodup_cons.mp h.nodup).2
  untouched r' hr' := by
    have hne : r'.addr ≠ r.addr := fun heq =>
      (List.nodup_cons.mp h.nodup).1 (List.mem_map.mpr ⟨r', hr', heq⟩)
    simpa [GateLease.write, AList.lookup_insert_ne hne] using h.untouched r' (by simp [hr'])
  log := by
    obtain ⟨new, hlog, hnew⟩ := h.log
    refine ⟨.authorized r.key r.addr (wholeSeconds r.ttl) t.clock (t.left r.addr) :: new, by simp [GateLease.write, hlog],
      fun e he => ?_⟩
    rcases List.mem_cons.mp he with rfl | he
    · refine ⟨r, h.within r (by simp), t.clock, Nat.le_refl _, ?_⟩
      simp only [World.left, Kernel.left, h.untouched r (by simp)]
    · exact hnew e he

lemma Writing.land (h : Writing reqs w (r :: rest) t) {out} : Wp Any (land out r.write) (fun _ => Writing reqs w rest) t := by
  unfold Netd.land
  split
  · exact .bind (.set (Q := fun _ => Writing reqs w rest) h.write) fun _ _ _ hu => .pure hu
  · exact .pure h.skip

lemma authorizeItems_writing {n i} (h : Writing reqs w rest t) : Wp Any (authorizeItems n i rest) (fun _ => Writing reqs w []) t := by
  induction rest generalizing i t with
  | nil => exact .pure h
  | cons r rest ih =>
    have item : Wp Any (authorizeItem n i r) (fun _ => Writing reqs w rest) t := by
      refine .bind (M := fun _ => Writing reqs w rest) ?_ fun _ _ _ hu => .read (.pure hu)
      split
      · exact .pure h.skip
      · exact .bind (Quiet.wp outcomeOf_quiet).any fun out u _ hu => (h.quiet hu).land
    exact .bind item fun _ u _ hu => .bind (ih hu) fun _ _ _ hv => .pure hv

lemma authorizeBatch_writing (h : Writing reqs w reqs w) : Wp Any (authorizeBatch reqs) (fun _ => Writing reqs w []) w := by
  unfold authorizeBatch
  split
  next hnil => exact .pure (hnil ▸ h)
  · refine .read ?_
    split
    · refine Wp.collect (fun rest _ t => Writing reqs w rest t) (fun r rest _ t ht => ?_) h
      unfold authorize
      split
      · exact .pure ht.skip
      · exact .bind (Quiet.wp call_quiet).any fun n u _ hu => .bind (Quiet.wp outcomeOf_quiet).any fun out v _ hv =>
          ((ht.quiet hu).quiet hv).land
    · exact .bind (Quiet.wp call_quiet).any fun n u _ hu => authorizeItems_writing (h.quiet hu)

end

/-- What a tick puts on the record: leases written by its end, with what their elements had left. -/
def Ticked (w w' : World) : Prop := ∃ new, w'.log = new ++ w.log ∧ ∀ k a ttl time left,
  .authorized k a ttl time left ∈ new → time ≤ w'.clock ∧ left = w.kern.left time a

lemma sides_unwritten {new ttl left} (moves : ReflTransGen (Side p) w w')
    (hl : ∀ r, ¬ p.leases r) (hlog : w'.log = new ++ w.log) : .authorized k a ttl time left ∉ new := by
  intro hmem
  obtain ⟨new', hlog', hnew⟩ := sides_log moves
  obtain rfl : new = new' := List.append_cancel_right (hlog.symm.trans hlog')
  rcases hnew _ hmem with ⟨r, _, _, hr, -⟩ | ⟨_, -, he⟩
  · exact hl r hr
  · cases he

def World.Distinct (w : World) : Prop := ∀ k k' s s' a, w.kept k s → w.kept k' s' → s.addr w.env.parseIP = some a →
  s'.addr w.env.parseIP = some a → k = k'

lemma contSessions_nodup {R} : Wp R contSessions (fun xs _ => (xs.map (·.1)).Nodup) w := by
  refine .read (.pure ?_)
  cases w.mem.cont.st with
  | none => simp
  | some st =>
    simp only [Option.map_some, Option.getD_some, List.map_map]
    exact st.sessions.nodupKeys

lemma contRenew_ticked {meterOK : Bool} (distinct : w.Distinct) : Wp Any (contRenew meterOK nowBoot now) (fun _ y => Ticked w y) w := by
  refine .bind snapshotGate_quiet.any fun view t _ ht => .bind (contSessions_wp.both (contSessions_nodup (R := Any))) fun xs u _ hu => ?_
  obtain ⟨⟨rfl, hxs⟩, hkeys⟩ := hu
  obtain ⟨⟨calls, clock, hclock⟩, -⟩ := ht
  have apart : xs.Pairwise (Apart w.env.parseIP) := by
    refine List.Pairwise.imp_of_mem ?_ (List.pairwise_map.mp hkeys)
    exact fun {x y} hx hy hne a hxa hya => hne (distinct _ _ _ _ a ((hxs x.1 x.2).mp hx) ((hxs y.1 y.2).mp hy) hxa hya)
  refine .bind ((contRenewals_kept (w := { w with calls, clock }) apart).conseq fun _ _ moves h => And.intro moves h).any fun reqs v _ hv => ?_
  obtain ⟨moves, huntouched, hnodup⟩ := hv
  refine .bind (authorizeBatch_writing ⟨Nat.le_refl _, fun _ h => h, hnodup, fun _ _ => rfl, [], rfl, by simp⟩) fun _ x _ hx => .read ?_
  have saved : Steps (Side {}) (if x.mem.cont.dirty = true then saveState else pure ()) := by
    split
    · exact saveState_side
    · exact .pure
  refine ((saved x).conseq fun _ _ moves _ => moves).any.conseq fun _ y _ later => ?_
  obtain ⟨new, hlog, -⟩ := sides_log moves
  obtain ⟨new', hlog', hnew'⟩ := hx.log
  obtain ⟨new'', hlog'', -⟩ := sides_log later
  refine ⟨new'' ++ new' ++ new, by rw [hlog'', hlog', hlog]; simp, fun k a ttl time left hmem => ?_⟩
  have hend : x.clock ≤ y.clock := (sides_settled later).clock
  simp only [List.mem_append] at hmem
  rcases hmem with (hmem | hmem) | hmem
  · exact absurd hmem (sides_unwritten later (fun _ h => h) hlog'')
  · obtain ⟨r, hr, time', htime, he⟩ := hnew' _ hmem
    obtain ⟨-, rfl, -, rfl, rfl⟩ := Event.authorized.inj he
    refine ⟨htime.trans hend, ?_⟩
    simp only [Kernel.left, huntouched r hr]
  · exact absurd hmem (sides_unwritten moves (fun _ h => h) hlog)

lemma World.Distinct.sides (h : w.Distinct) (hp : p.Holding) (moves : ReflTransGen (Side p) w w') : w'.Distinct := by
  intro k k' s s' a hs hs' ha ha'
  have shrunk := sides_shrunk hp moves
  obtain ⟨s₀, hs₀, later⟩ := shrunk.kept hs
  obtain ⟨s₀', hs₀', later'⟩ := shrunk.kept hs'
  rw [(sides_settled moves).env] at ha ha'
  rw [later.1] at ha
  rw [later'.1] at ha'
  exact h k k' s₀ s₀' a hs₀ hs₀' ha ha'

lemma renewed_lookup {new ttl left} (moves : ReflTransGen (Side (.ticking (w.keeps nowBoot))) w w') (hlog : w'.log = new ++ w.log)
    (hmem : .authorized k a ttl time left ∈ new) : ∃ e, w.kern.auth.lookup a = some e := by
  obtain ⟨new', hlog', hnew⟩ := sides_log moves
  obtain rfl : new = new' := List.append_cancel_right (hlog.symm.trans hlog')
  rcases hnew _ hmem with ⟨r, _, _, hr, he⟩ | ⟨_, -, he⟩
  · obtain ⟨-, rfl, -⟩ := Event.authorized.inj he
    by_contra hnone
    have absent : w.kern.auth.lookup r.addr = none := by simpa [Option.eq_none_iff_forall_ne_some] using hnone
    simpa [World.left, Kernel.left, absent] using hr.shown
  · cases he

lemma contTickApply_ticked {tenantID siteID out} (distinct : w.Distinct) :
    Ticked w ((contTickApply now nowBoot tenantID siteID out).run w).2 := by
  rcases contTickApply_wp.2 with moves | ⟨v, meterOK, moves, none, hend⟩
  · obtain ⟨new, hlog, -⟩ := sides_log moves
    exact ⟨new, hlog, fun k a ttl time left hmem => absurd hmem (sides_unwritten moves (fun _ h => h) hlog)⟩
  rw [hend]
  obtain ⟨new, hlog, -⟩ := sides_log moves
  obtain ⟨new', hlog', hnew'⟩ := (contRenew_ticked (distinct.sides .removals moves)).2
  refine ⟨new' ++ new, by rw [hlog', hlog, List.append_assoc], fun k a ttl time left hmem => ?_⟩
  rcases List.mem_append.mp hmem with hmem | hmem
  · obtain ⟨htime, hleft⟩ := hnew' k a ttl time left hmem
    obtain ⟨e, he⟩ := renewed_lookup (contRenew_side none).1 hlog' hmem
    refine ⟨htime, hleft.trans ?_⟩
    simp only [Kernel.left, he, sides_lookup_of moves (fun _ h => h) he]
  · exact absurd hmem (sides_unwritten moves (fun _ h => h) hlog)

lemma left_lasting (h : (w.left a).isSome) (lasts : ∀ e, w.kern.auth.lookup a = some (some e) → w.clock < e → time < e) :
    (w.kern.left time a).isSome := by
  unfold World.left Kernel.left at h
  unfold Kernel.left
  cases he : w.kern.auth.lookup a with
  | none => simp [he] at h
  | some e =>
    cases e with
    | none => simp
    | some e =>
      have later : w.clock < e := by simpa [he] using h
      simp [lasts e he later]

lemma step_tickApply {tenantID siteID out}
    (htick : w.tick = .answered now nowBoot tenantID siteID out) (stepped : step w .tickApply = some w') :
    w' = ((contTickApply now nowBoot tenantID siteID out).run w).2 := by
  have enabled : Op.tickApply.enabled w = true := by simp [Op.enabled, htick]
  rw [step, if_pos enabled] at stepped
  have applied : tickStep.run w = (contTickApply now nowBoot tenantID siteID out).run w := by
    unfold tickStep
    rw [StateT.run_bind, StateT.run_get]
    simp only [pure_bind, htick]
  rw [← applied]
  exact (Option.some.inj stepped).symm

lemma contRemaining_window {b hardEnd accessEndsAt} : contRemaining b hardEnd accessEndsAt now ≤ b.windowSeconds.toNat * 1000 := by
  cases hardEnd <;> cases accessEndsAt <;> simp [contRemaining, List.reduceOption]

lemma contRemaining_end {b hardEnd accessEndsAt e}
    (h : hardEnd = some e ∨ accessEndsAt = some e) : contRemaining b hardEnd accessEndsAt now ≤ e - now := by
  rcases h with rfl | rfl
  · cases accessEndsAt <;> simp [contRemaining, List.reduceOption]
  · cases hardEnd <;> simp [contRemaining, List.reduceOption]

end

/-- What continuity does in one step: it renews elements that are in the set, up to the sessions' deadlines;
and deadlines stay, are read back into an empty memory, or come with a newer block and its bounds. -/
structure PreAuthorized (w : World) (op : Op) (w' : World) : Prop where
  leases : op = .tickApply → ∀ new, w'.log = new ++ w.log → ∀ k a ttl time left, .authorized k a ttl time left ∈ new →
    left.isSome ∧ ∃ s, w.kept k s ∧ s.addr w.env.parseIP = some a ∧ time + ttl ≤ s.deadlineBoot
  deadlines : ∀ k s', w'.kept k s' →
    (∃ s, (w.kept k s ∨ w.mem.cont.st = none ∧ w.saved k s) ∧ s.deadlineBoot = s'.deadlineBoot) ∨
    ∃ env now b s h accepted, op = .submit env now ∧ env.continuity = some b ∧
      (∀ old, w.mem.cont.st = some old → old.asOf < b.asOf) ∧ s ∈ env.sessions ∧ s.key = k ∧ h ∈ b.sessions ∧
      h.sessionID = s.sessionID ∧ accepted ≤ w'.clock ∧ s'.deadlineBoot ≤ accepted + b.windowSeconds.toNat * 1000 ∧
      ∀ e, h.hardEnd = some e ∨ s.accessEndsAt = some e → s'.deadlineBoot + now ≤ w.clock + e

/-- A step in which the time that passes does not matter: since the tick read its clock nothing has passed, or
the deadlines are a whole lease away, and no element lapses under it; no two sessions of the record share an
address; a block is newer than the record and its ends are far away unless the pass took no time; and a start
finds the record saved. -/
structure Punctual (w : World) (op : Op) (w' : World) : Prop where
  prompt : op = .tickApply → ∀ now nowBoot tenantID siteID out, w.tick = .answered now nowBoot tenantID siteID out →
    ∀ k s, w.kept k s → w'.clock ≤ nowBoot ∨ w'.clock + phase3LeaseTTL ≤ s.deadlineBoot
  lasting : op = .tickApply → ∀ a e, w.kern.auth.lookup a = some (some e) → w.clock < e → w'.clock < e
  distinct : op = .tickApply → w.Distinct
  newer : ∀ env now b old, op = .submit env now → env.continuity = some b → w.mem.cont.st = some old → old.asOf < b.asOf
  brief : ∀ env now b e, op = .submit env now → env.continuity = some b →
    (∃ h ∈ b.sessions, h.hardEnd = some e) ∨ (∃ s ∈ env.sessions, s.accessEndsAt = some e) →
    w'.clock ≤ w.clock ∨ w'.clock + b.windowSeconds.toNat * 1000 + now ≤ w.clock + e
  saved : op.starts → w.mem.cont.st.isSome → w.disk.contState = w.mem.cont.st

/-- Continuity grants no more than was accepted in every step in which the time that passes does not matter. -/
theorem continuity_bounded {w₀ w w' : World} {ops : List Op} {op : Op} (started : Started w₀)
    (run : Run (ofOption step) w₀ ops w) (stepped : step w op = some w') (punctual : Punctual w op w') : PreAuthorized w op w' := by
  have base := run_base run started.base
  have hstep := step_stepped base stepped
  refine ⟨?_, fun k s' hs' => ?_⟩
  · rintro rfl new hlog k a ttl time left hmem
    cases hstep with
    | @tickApplied _ now nowBoot tenantID siteID out htick moves =>
      obtain ⟨new', hlog', hnew⟩ := sides_log moves
      obtain rfl : new = new' := List.append_cancel_right (hlog.symm.trans hlog')
      have ticked : Ticked w w' := step_tickApply htick stepped ▸ contTickApply_ticked (punctual.distinct rfl)
      obtain ⟨new', hlog', hwrites⟩ := ticked
      obtain rfl : new = new' := List.append_cancel_right (hlog.symm.trans hlog')
      obtain ⟨htime, hleft⟩ := hwrites k a ttl time left hmem
      rcases hnew _ hmem with ⟨r, _, _, hr, he⟩ | ⟨_, -, he⟩
      · obtain ⟨rfl, rfl, rfl, rfl, rfl⟩ := Event.authorized.inj he
        obtain ⟨s, hs, hbridge, hip, hdeadline, httl, -⟩ := hr.session
        refine ⟨?_, s, hs, by simp [ContSess.addr, hip, ← hbridge], ?_⟩
        · rw [hleft]
          exact left_lasting hr.shown fun e he hlater => Nat.lt_of_le_of_lt htime (punctual.lasting rfl _ e he hlater)
        · have hwhole : wholeSeconds r.ttl ≤ r.ttl := Nat.div_mul_le_self _ _
          rcases punctual.prompt rfl now nowBoot tenantID siteID out htick r.key s hs with hc | hc <;> omega
      · cases he
  · rcases hstep.recordStep.deadline hs' with ⟨s, hs, hd⟩ | ⟨env, now, b, s, h, accepted, rfl, hb, ha⟩ | ⟨hop, s, hs, hd⟩
    · exact .inl ⟨s, .inl hs, hd⟩
    · refine .inr ⟨env, now, b, s, h, accepted, rfl, hb, fun old hold => punctual.newer env now b old rfl hb hold, ha.listed, ha.key,
        ha.block, ha.session, ha.time, ?_, fun e he => ?_⟩
      · rw [ha.deadline]
        exact Nat.add_le_add_left contRemaining_window _
      · have hend : contRemaining b h.hardEnd s.accessEndsAt now ≤ e - now := contRemaining_end he
        have hwindow : contRemaining b h.hardEnd s.accessEndsAt now ≤ b.windowSeconds.toNat * 1000 := contRemaining_window
        have htime := ha.time
        have hlong := ha.long
        rw [ha.deadline]
        rcases punctual.brief env now b e rfl hb (he.imp (⟨h, ha.block, ·⟩) (⟨s, ha.listed, ·⟩)) with hc | hc <;> omega
    · refine .inl ⟨s, ?_, hd⟩
      cases hmem : w.mem.cont.st with
      | none => exact .inr ⟨rfl, hs⟩
      | some st =>
        obtain ⟨st', hst', hs⟩ := hs
        rw [punctual.saved hop (by simp [hmem])] at hst'
        exact .inl ⟨st', hst', hs⟩

/-- A plan with a continuity block of a hundred seconds that lists the guest. -/
def vouchedFor (gen : Int) (now : Nat) (sessions : List Session) : Envelope :=
  { planFor gen now sessions with
    continuity := some { windowSeconds := 100, asOf := now, sessions := sessions.map fun s => ⟨s.sessionID, none⟩, budgets := []
                         contentsHash := [Char.ofNat (48 + now / 1000)] } }

def entitledGuest (id ip : Char) : Session := { guest id ip with entitlementID := ['e'] }

/-- Seventy seconds after the last plan a tick has begun and asked the database; `wait` passes after it read its
clock. -/
def outage (wait : Nat) : List Op :=
  [.arrive 1, .submit (vouchedFor 1 1000 [entitledGuest 'a' '1']) 1000, .wait 70000, .tickRead 71000, .wait wait, .tickBegin,
    .tickProbe]

/-- A tick that takes no time renews the guest up to their deadline. -/
theorem continuity_bounded_prompt : ∃ w w', Run (ofOption step) (Env.calm.start false) (outage 0) w ∧
    step w .tickApply = some w' ∧ .authorized (guest 'a' '1').key addrOne 30000 71000 (some (some 20000)) ∈ w'.log ∧
    PreAuthorized w .tickApply w' := by
  obtain ⟨w, w', run, ticked, hw⟩ := exists_last (f := step) (s := Env.calm.start false) (l := outage 0) (a := .tickApply)
    (P := fun w w' => .authorized (guest 'a' '1').key addrOne 30000 71000 (some (some 20000)) ∈ w'.log ∧
      w.tick = .answered 71000 71000 ['t'] ['s'] [] ∧ w.clock = 71000 ∧ w'.clock = 71000 ∧
      (w.mem.cont.st.map fun st => st.sessions.keys) = some [(guest 'a' '1').key]) (by decide +kernel)
  obtain ⟨hmem, htick, hclock, hclock', hkeys⟩ := of_decide_eq_true hw
  refine ⟨w, w', run, ticked, hmem, continuity_bounded (Env.calm.started false) run ticked ?_⟩
  refine ⟨fun _ now nowBoot _ _ _ ht k s _ => .inl ?_, fun _ a e _ he => by omega, fun _ => ?_, nofun, nofun, False.elim⟩
  · obtain ⟨-, rfl, -⟩ := Tick.answered.inj (htick.symm.trans ht)
    omega
  · intro k k' s s' a ⟨st, hst, hs⟩ ⟨st', hst', hs'⟩ _ _
    simp only [hst, Option.map_some, Option.some.injEq] at hkeys
    have only : ∀ {k : Key} {s : ContSess}, st.sessions.lookup k = some s → k = (guest 'a' '1').key := fun hs => by
      have := AList.mem_keys.mp (AList.lookup_isSome.mp (by rw [hs]; rfl))
      simpa [hkeys] using this
    obtain rfl : st' = st := Option.some.inj (hst'.symm.trans hst)
    exact (only hs).trans (only hs').symm

/-- Fifteen seconds after the tick read its clock it writes a lease of thirty seconds, which ends fifteen seconds
after the guest's deadline. -/
theorem late_tick_outlasts_deadline : ∃ w w', Run (ofOption step) (Env.calm.start false) (outage 15000) w ∧
    step w .tickApply = some w' ∧ .authorized (guest 'a' '1').key addrOne 30000 86000 (some (some 5000)) ∈ w'.log ∧
    (w.mem.cont.st.bind fun st => (st.sessions.lookup (guest 'a' '1').key).map (·.deadlineBoot)) = some 101000 := by
  obtain ⟨w, w', run, ticked, hw⟩ := exists_last (f := step) (s := Env.calm.start false) (l := outage 15000) (a := .tickApply)
    (P := fun w w' => .authorized (guest 'a' '1').key addrOne 30000 86000 (some (some 5000)) ∈ w'.log ∧
      (w.mem.cont.st.bind fun st => (st.sessions.lookup (guest 'a' '1').key).map (·.deadlineBoot)) = some 101000)
    (by decide +kernel)
  obtain ⟨hmem, hdeadline⟩ := of_decide_eq_true hw
  exact ⟨w, w', run, ticked, hmem, hdeadline⟩

end StayConnect.Netd
