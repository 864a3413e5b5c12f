import Mathlib.Data.List.ReduceOption
import StayConnect.Netd.Run
import StayConnect.Prog

/-!
# What netd does between passes

The lease timer, the revocation requests and outage continuity, as moves (`Side`): time passes, elements
are written and removed, and the continuity record and its journal change. `Powers` says what a request
may do of it: which leases it writes, which elements it removes, what it enters in the journal, which
blocks it accepts. Nothing here touches what a pass remembers.
-/

namespace StayConnect.Netd

open Framing Prog Relation

/-- Calls are made and time passes. -/
inductive Quiet : World → World → Prop where
  | mk {w : World} (calls clock : Nat) : w.clock ≤ clock → Quiet w { w with calls, clock }

section
variable {w : World} {α : Type}

lemma Quiet.refl (w : World) : Quiet w w := .mk w.calls w.clock (Nat.le_refl _)

lemma Quiet.trans {u v w} (h : Quiet u v) (h' : Quiet v w) : Quiet u w := by
  obtain ⟨calls, clock, hc⟩ := h
  obtain ⟨calls', clock', hc'⟩ := h'
  exact .mk calls' clock' (Nat.le_trans hc hc')

lemma Quiet.wp {m : NetdM α} (h : Steps Quiet m) : Wp Quiet m (fun _ w' => Quiet w w') w :=
  ⟨(h w).1, h.run Quiet.refl Quiet.trans w⟩

lemma call_quiet : Steps Quiet call := fun _ => ⟨.single (.mk _ _ (Nat.le_add_right _ _)), trivial⟩

lemma outcomeOf_quiet {n i} : Steps Quiet (outcomeOf n i) := .read fun _ => .pure

lemma query_quiet {f : World → α} : Steps Quiet (query f) := by
  refine .bind call_quiet fun _ => .bind outcomeOf_quiet fun _ => ?_
  split
  · exact .pure
  · exact .read fun _ => .pure

lemma query_answer {f : World → α} : Wp Quiet (query f) (fun r w' => Quiet w w' ∧ ∀ x, r = some x → x = f w') w := by
  refine .bind (Quiet.wp call_quiet) fun n t _ hi => .bind (Quiet.wp outcomeOf_quiet) fun out u _ hi' => ?_
  split
  · exact .pure ⟨hi.trans hi', by simp⟩
  · exact .read (.pure ⟨hi.trans hi', by simp⟩)

end

/-- What a snapshot says of the set it was taken of. -/
structure Snapshot (v : GateView) (w : World) : Prop where
  aged : v.aged = 0
  present : ∀ t a x, v.byKey = some t → t.lookup a = some x → ∃ r, w.left a = some r ∧ (x ≠ 0 → r = some x)
  complete : ∀ t a, v.byKey = some t → (w.left a).isSome → a ∈ t

lemma lookup_foldl_insert {els : List (Addr × Nat)} {t : Table Addr Nat} {a : Addr} {x : Nat}
    (h : (els.foldl (fun t e => t.insert e.1 e.2) t).lookup a = some x) : t.lookup a = some x ∨ (a, x) ∈ els := by
  induction els generalizing t with
  | nil => exact .inl h
  | cons e rest ih =>
    rcases ih h with h | h
    · rcases eq_or_ne a e.1 with rfl | hne
      · rw [AList.lookup_insert, Option.some.injEq] at h
        exact .inr (by simp [← h])
      · exact .inl (by rwa [AList.lookup_insert_ne hne] at h)
    · exact .inr (by simp [h])

lemma mem_foldl_insert {els : List (Addr × Nat)} {t : Table Addr Nat} {a : Addr} (h : a ∈ t ∨ a ∈ els.map Prod.fst) :
    a ∈ els.foldl (fun t e => t.insert e.1 e.2) t := by
  induction els generalizing t with
  | nil => simpa using h
  | cons e rest ih =>
    refine ih ?_
    simp only [List.map_cons, List.mem_cons, AList.mem_insert] at h ⊢
    tauto

lemma mem_keys_of_left {w : World} {a : Addr} (h : (w.left a).isSome) : a ∈ w.kern.auth.keys := by
  unfold World.left Kernel.left at h
  rw [← AList.mem_keys, ← AList.lookup_isSome]
  cases hl : w.kern.auth.lookup a with
  | none => simp [hl] at h
  | some _ => rfl

lemma snapshotGate_quiet {w : World} : Wp Quiet snapshotGate (fun v w' => Quiet w w' ∧ Snapshot v w') w := by
  refine .bind (.bind (Quiet.wp call_quiet) fun n t _ h₁ => .bind (Quiet.wp outcomeOf_quiet) fun out u _ h₂ =>
    (?_ : Wp _ _ (fun els w' => Quiet w w' ∧ (els = none ∨ ∃ n, els = some (w'.kern.auth.keys.filterMap fun a =>
      (w'.left a).map fun l => (a, if w'.env.unreported n a then 0 else l.getD 0)))) u)) fun els u _ h => ?_
  · split
    · exact .pure ⟨h₁.trans h₂, .inl rfl⟩
    · exact .read (.pure ⟨h₁.trans h₂, .inr ⟨n, rfl⟩⟩)
  · rcases h with ⟨hi, rfl | ⟨n, rfl⟩⟩
    · exact .pure ⟨hi, rfl, by simp, by simp⟩
    refine .pure ⟨hi, rfl, fun t a x ht hx => ?_, fun t a ht ha => ?_⟩
    · obtain rfl := Option.some.inj ht
      obtain h | h := lookup_foldl_insert hx
      · simp at h
      obtain ⟨b, hb, hx⟩ := List.mem_filterMap.mp h
      obtain ⟨r, hr, heq⟩ := Option.map_eq_some_iff.mp hx
      obtain ⟨rfl, rfl⟩ := Prod.mk.inj heq
      refine ⟨r, hr, fun hne => ?_⟩
      split at hne
      · exact absurd rfl hne
      next hunrep =>
        cases r with
        | none => simp at hne
        | some l => simp [hunrep]
    · obtain rfl := Option.some.inj ht
      obtain ⟨r, hr⟩ := Option.isSome_iff_exists.mp ha
      refine mem_foldl_insert (.inr ?_)
      simp only [List.mem_map, List.mem_filterMap]
      exact ⟨_, ⟨a, mem_keys_of_left ha, by rw [hr]; rfl⟩, rfl⟩

/-- What side moves may do. -/
structure Powers where
  /-- The leases that may be written. -/
  leases : GateLease → Prop := fun _ => False
  /-- The elements that may be removed. -/
  removes : Addr → Prop := fun _ => False
  /-- The revocations that may be entered. -/
  entries : ContRevocation → Prop := fun _ => False
  /-- The continuity blocks that may be accepted, with their plans and wall times. -/
  notes : Envelope → ContinuityBlock → Nat → Prop := fun _ _ _ => False
  /-- The files may be read back. -/
  restores : Prop := False

/-- The note of a plan accepts its block. -/
def Powers.noting (env : Envelope) (now : Nat) : Powers where
  notes e b n := e = env ∧ env.continuity = some b ∧ n = now

/-- A revocation enters its entries and removes elements. -/
def Powers.revoking (entries : ContRevocation → Prop) : Powers where
  removes _ := True
  entries := entries

def Powers.renewing (leases : GateLease → Prop) : Powers where
  leases := leases

/-- The tick renews and removes. -/
def Powers.ticking (leases : GateLease → Prop) : Powers where
  leases := leases
  removes _ := True

def Powers.starting : Powers where
  restores := True

/-- One change of the continuity record. -/
inductive ContMove : Continuity → Continuity → Prop where
  | aside {c c' : Continuity} : c'.st = c.st → c'.journal = c.journal → ContMove c c'
  | lost {c : Continuity} : ContMove c { c with st := none }
  | metered {c : Continuity} (counters : Map Key ContCount) : ContMove c { c with st := c.st.map (·.meter counters) }
  | dropped {c : Continuity} (k : Key) : ContMove c { c with st := c.st.map (·.drop k), dirty := true }
  | charged {c : Continuity} (id : Bytes) (live : Nat) : ContMove c { c with st := c.st.map (·.charge id live) }
  | planned {c : Continuity} (nowBoot : Nat) (dirty : Bool) :
    ContMove c { c with st := c.st.map fun st => { st with lastPlanBoot := nowBoot }, dirty }

/-- One change made outside a pass. -/
inductive Side (p : Powers) : World → World → Prop where
  | quiet {w : World} (calls clock : Nat) : w.clock ≤ clock → Side p w { w with calls, clock }
  | tick {w : World} (t : Tick) : Side p w { w with tick := t }
  | wrote {w : World} (r : GateLease) : p.leases r → Side p w (r.write w)
  | erased {w : World} (a : Addr) : p.removes a → Side p w (eraseAuth a w)
  | cont {w : World} (c : Continuity) : ContMove w.mem.cont c → Side p w { w with mem.cont := c }
  | entry {w : World} (e : ContRevocation) : p.entries e →
    Side p w { w with mem.cont.journal := newest contRevokeMax (w.mem.cont.journal ++ [e]) }
  | pruned {w : World} (env : Envelope) (b : ContinuityBlock) (now : Nat) : p.notes env b now →
    b.valid w.env.hashContinuity now = true →
    Side p w { w with mem.cont.journal := pruneJournal w.mem.cont.journal now b.asOf }
  | accepted {w : World} (env : Envelope) (b : ContinuityBlock) (bootID : Bytes) (nowBoot now : Nat) :
    p.notes env b now → b.valid w.env.hashContinuity now = true → nowBoot ≤ w.clock →
    Side p w { w with mem.cont.st := some (contStateOf env b w.mem bootID nowBoot now), mem.cont.dirty := true }
  | saved {w : World} (st : ContState) : w.mem.cont.st = some st → Side p w { w with disk.contState := some st }
  | unsaved {w : World} : Side p w { w with disk.contState := none }
  | journalSaved {w : World} : Side p w { w with disk.contJournal := w.mem.cont.journal }
  | journalRead {w : World} : p.restores → Side p w { w with mem.cont.journal := w.disk.contJournal }
  | stateRead {w : World} (st : ContState) : p.restores → w.disk.contState = some st →
    Side p w { w with mem.cont.st := some st }

structure Powers.Le (p q : Powers) : Prop where
  leases : ∀ r, p.leases r → q.leases r
  removes : ∀ a, p.removes a → q.removes a
  entries : ∀ e, p.entries e → q.entries e
  notes : ∀ env b now, p.notes env b now → q.notes env b now
  restores : p.restores → q.restores

lemma Powers.removes_le {f q} (h : ∀ a, f a → q.removes a) : Powers.Le { removes := f } q :=
  ⟨fun _ => False.elim, h, fun _ => False.elim, fun _ _ _ => False.elim, False.elim⟩

section
variable {p q : Powers} {w w' : World} {α β : Type}

lemma Side.mono (le : p.Le q) (h : Side p w w') : Side q w w' := by
  cases h with
  | quiet calls clock hc => exact .quiet calls clock hc
  | tick t => exact .tick t
  | wrote r hr => exact .wrote r (le.leases r hr)
  | erased a ha => exact .erased a (le.removes a ha)
  | cont c hc => exact .cont c hc
  | entry e he => exact .entry e (le.entries e he)
  | pruned env b now hn hv => exact .pruned env b now (le.notes env b now hn) hv
  | accepted env b bootID nowBoot now hn hv hle => exact .accepted env b bootID nowBoot now (le.notes env b now hn) hv hle
  | saved st hs => exact .saved st hs
  | unsaved => exact .unsaved
  | journalSaved => exact .journalSaved
  | journalRead hp => exact .journalRead (le.restores hp)
  | stateRead st hp hs => exact .stateRead st (le.restores hp) hs

lemma sides_mono (le : p.Le q) (moves : ReflTransGen (Side p) w w') : ReflTransGen (Side q) w w' :=
  keep (S := ReflTransGen (Side q) w) (fun act moves => moves.tail (act.mono le)) moves .refl

/-- What only passes, submissions and starts change. -/
structure Settled (w w' : World) : Prop where
  env : w'.env = w.env
  bootID : w'.bootID = w.bootID
  clock : w.clock ≤ w'.clock
  tc : w'.kern.tc = w.kern.tc
  mem : ∃ c, w'.mem = { w.mem with cont := c }
  plan : w'.disk.plan = w.disk.plan
  classState : w'.disk.classState = w.disk.classState
  attempts : w'.disk.journal = w.disk.journal
  pass : w'.pass = w.pass

lemma Settled.refl (w : World) : Settled w w := ⟨rfl, rfl, Nat.le_refl _, rfl, ⟨_, rfl⟩, rfl, rfl, rfl, rfl⟩

lemma Settled.trans {u v w} (h : Settled u v) (h' : Settled v w) : Settled u w where
  env := h'.env.trans h.env
  bootID := h'.bootID.trans h.bootID
  clock := h.clock.trans h'.clock
  tc := h'.tc.trans h.tc
  mem := by
    obtain ⟨c, hc⟩ := h.mem
    obtain ⟨c', hc'⟩ := h'.mem
    exact ⟨c', by rw [hc', hc]⟩
  plan := h'.plan.trans h.plan
  classState := h'.classState.trans h.classState
  attempts := h'.attempts.trans h.attempts
  pass := h'.pass.trans h.pass

lemma Side.settled (h : Side p w w') : Settled w w' := by
  cases h with
  | quiet calls clock hc => exact { Settled.refl w with clock := hc }
  | _ => exact ⟨rfl, rfl, Nat.le_refl _, rfl, ⟨_, rfl⟩, rfl, rfl, rfl, rfl⟩

lemma sides_settled (moves : ReflTransGen (Side p) w w') : Settled w w' :=
  keep (S := Settled w) (fun act h => h.trans act.settled) moves (.refl w)

/-- What a side move puts on the record: leases it may write, and removals it may make. -/
def Emitted (p : Powers) (e : Event) : Prop :=
  (∃ r t left, p.leases r ∧ e = .authorized r.key r.addr (wholeSeconds r.ttl) t left) ∨ ∃ a, p.removes a ∧ e = .revoked a

lemma Side.log (h : Side p w w') : ∃ new, w'.log = new ++ w.log ∧ ∀ e ∈ new, Emitted p e := by
  cases h with
  | wrote r hr => exact ⟨[_], rfl, by simpa [GateLease.write] using .inl ⟨r, w.clock, w.left r.addr, hr, rfl⟩⟩
  | erased a ha => exact ⟨[_], rfl, by simpa [eraseAuth] using .inr ⟨a, ha, rfl⟩⟩
  | _ => exact ⟨[], rfl, by simp⟩

lemma sides_log (moves : ReflTransGen (Side p) w w') : ∃ new, w'.log = new ++ w.log ∧ ∀ e ∈ new, Emitted p e :=
  grown Side.log moves

lemma Quiet.side (h : Quiet w w') : Side p w w' := by
  obtain ⟨calls, clock, hc⟩ := h
  exact .quiet calls clock hc

lemma Quiet.steps {m : NetdM α} (h : Steps Quiet m) : Steps (Side p) m := h.mono Quiet.side

lemma land_side {out f} (hf : ∀ w, Side p w (f w)) : Steps (Side p) (land out f) := by
  unfold land
  dsimp only
  split
  · exact .bind (.change hf) fun _ => .pure
  · exact .pure

lemma perform_side {f : World → World} (hf : ∀ w, Side p w (f w)) : Steps (Side p) (perform f) :=
  .bind (Quiet.steps call_quiet) fun _ => .bind (Quiet.steps outcomeOf_quiet) fun _ => land_side hf

lemma denyAccess_side {a : Addr} (ha : p.removes a) : Steps (Side p) (denyAccess a) := by
  refine .bind (perform_side fun _ => .erased a ha) fun err => ?_
  split
  · exact .pure
  · refine .bind (Quiet.steps query_quiet) fun still => ?_
    cases still <;> exact .pure

lemma gateList_quiet : Steps Quiet gateList := by
  refine .bind call_quiet fun _ => .bind outcomeOf_quiet fun _ => ?_
  split
  · exact .pure
  · exact .read fun _ => .pure

lemma authorize_side {r} (h : p.leases r) : Steps (Side p) (authorize r) := by
  unfold authorize
  split
  · exact .pure
  · exact perform_side fun _ => .wrote r h

lemma authorizeItems_side {n i : Nat} {reqs : List GateLease} (h : ∀ r ∈ reqs, p.leases r) :
    Steps (Side p) (authorizeItems n i reqs) := by
  induction reqs generalizing i with
  | nil => exact .pure
  | cons r rest ih =>
    have write : Steps (Side p) (if r.invalid then pure true else do land (← outcomeOf n i) r.write) := by
      split
      · exact .pure
      · exact .bind (Quiet.steps outcomeOf_quiet) fun _ => land_side fun _ => .wrote r (h r (by simp))
    exact .bind (.bind write fun _ => .read fun _ => .pure) fun _ =>
      .bind (ih fun r' hr' => h r' (by simp [hr'])) fun _ => .pure

lemma authorizeBatch_side {reqs : List GateLease} (h : ∀ r ∈ reqs, p.leases r) : Steps (Side p) (authorizeBatch reqs) := by
  unfold authorizeBatch
  split
  · exact .pure
  refine .read fun w => ?_
  split
  · intro t
    exact (Wp.mapM (fun rest _ => ∀ r ∈ rest, p.leases r) (fun _ _ => True) (fun r rest u hu =>
      (authorize_side (hu r (by simp)) u).conseq fun _ _ _ _ => ⟨trivial, fun r' hr' => hu r' (by simp [hr'])⟩) h).conseq
        fun _ _ _ _ => trivial
  · exact .bind (Quiet.steps call_quiet) fun _ => authorizeItems_side h

lemma modifyCont_side {f} (h : ∀ c, ContMove c (f c)) : Steps (Side p) (modifyCont f) :=
  .change fun w => .cont _ (h w.mem.cont)

lemma saveJournal_side : Steps (Side p) saveJournal := perform_side fun _ => .journalSaved

lemma removeState_side : Steps (Side p) removeState :=
  .bind (modifyCont_side fun _ => .lost) fun _ => .bind (perform_side fun _ => .unsaved) fun _ => .pure

lemma saveState_side : Steps (Side p) saveState := by
  intro w
  refine .read ?_
  cases hst : w.mem.cont.st with
  | none => exact .pure trivial
  | some st =>
    refine .bind (M := fun _ _ => True) ?_ fun err t _ _ => ?_
    · refine .bind ((Quiet.wp call_quiet).mono Quiet.side) fun n t _ ht => .bind ((Quiet.wp outcomeOf_quiet).mono Quiet.side) fun out u _ hu => ?_
      have same : u.mem.cont.st = some st := by
        obtain ⟨calls, clock, -⟩ := ht.trans hu
        exact hst
      unfold land
      dsimp only
      split
      · exact .bind (.change (Q := fun _ _ => True) (.saved st same) trivial) fun _ _ _ _ => .pure trivial
      · exact .pure trivial
    · split
      · exact .read (.change (.cont _ (.aside rfl rfl)) trivial)
      · exact .pure trivial

variable {k : Key} {now : Nat}

lemma dropSession_side : Steps (Side p) (dropSession k) := modifyCont_side fun _ => .dropped k

lemma denySession_side {s} (hp : ∀ a, p.removes a) : Steps (Side p) (denySession s) := by
  refine .read fun w => ?_
  cases w.env.parseIP s.ip with
  | none => exact .pure
  | some ip => exact .bind (denyAccess_side (hp _)) fun _ => .pure

lemma countersOn_quiet {b} : Steps Quiet (countersOn b) := by
  refine .bind (.bind query_quiet fun down => ?_) fun both => ?_
  · cases down with
    | none => exact .pure
    | some down =>
      refine .bind query_quiet fun up => ?_
      cases up <;> exact .pure
  · cases both with
    | none => exact .pure
    | some both => exact .read fun _ => .pure

lemma countersOf_quiet {l} : Steps Quiet (countersOf l) := by
  induction l with
  | nil => exact .pure
  | cons b rest ih =>
    refine .bind countersOn_quiet fun here => ?_
    cases here with
    | none => exact .pure
    | some here =>
      refine .bind ih fun there => ?_
      cases there <;> exact .pure

lemma managedBridges_quiet : Steps Quiet managedBridges := .read fun _ => .pure

lemma contRefreshUsage_side : Steps (Side p) contRefreshUsage := by
  refine .read fun w => ?_
  cases w.mem.cont.st with
  | none => exact .pure
  | some st =>
    dsimp only
    split
    · exact .pure
    refine .bind (Quiet.steps managedBridges_quiet) fun l => .bind (Quiet.steps countersOf_quiet) fun counters => ?_
    cases counters with
    | none => exact .pure
    | some counters => exact .bind (modifyCont_side fun _ => .metered counters) fun _ => .pure

lemma contSessions_quiet : Steps Quiet contSessions := .read fun _ => .pure

lemma contRevoke_side {e : ContRevocation} (he : p.entries e) (hp : ∀ a, p.removes a) : Steps (Side p) (contRevoke e) :=
  .bind (.change fun _ => .entry e he) fun _ => .bind saveJournal_side fun _ => .bind contRefreshUsage_side fun _ =>
    .read fun _ => .bind (Quiet.steps contSessions_quiet) fun _ =>
      .bind (.forM fun _ => .bind dropSession_side fun _ => denySession_side hp) fun _ => .pure

lemma endFlows_side {ip : BitVec 32} {bridge : Bytes} :
    Wp (Side (.revoking (· = { ip := w.env.ipText (.v4 ip), bridge, revokedAt := now }))) (endFlows ip bridge now)
      (fun _ _ => True) w := by
  refine .read (.bind (contRevoke_side rfl (fun _ => trivial) w) fun _ t _ _ => ?_)
  exact Steps.wp <| .bind (Quiet.steps gateList_quiet) fun _ => .bind (.mapM fun _ => denyAccess_side trivial) fun _ =>
    .bind (.bind (Quiet.steps call_quiet) fun _ => .bind (Quiet.steps outcomeOf_quiet) fun _ =>
      land_side fun w => .quiet w.calls w.clock (Nat.le_refl _)) fun _ => .pure

lemma continuityRevoke_side {ss es ip bridge} :
    Steps (Side (.revoking (· ∈ revocationsOf ss es ip bridge now))) (continuityRevoke ss es ip bridge now) := by
  intro w
  refine .bind (Wp.mapM (fun rest _ => ∀ e ∈ rest, e ∈ revocationsOf ss es ip bridge now) (fun _ _ => True)
    (fun e rest t ht => ?_) fun _ => id) fun _ _ _ _ => .pure trivial
  refine (contRevoke_side (ht e (by simp)) (fun _ => trivial) t).conseq fun _ _ _ _ => ⟨trivial, fun e' he' => ht e' (by simp [he'])⟩

/-- The leases the timer may write: for remembered sessions, while a clean walk's plan is in force. -/
def Mem.renews (m : Mem) (r : GateLease) : Prop :=
  m.renewsUnder.isSome ∧ ∃ s, m.memo.renewable.lookup r.key = some s ∧ s.addr = r.addr

lemma renewRequest_spec {view planLeft s r} (h : renewRequest view planLeft now k s = some r) : r.key = k ∧ r.addr = s.addr := by
  obtain ⟨want, -, h⟩ := Option.bind_eq_some_iff.mp h
  split at h
  · obtain rfl := Option.some.inj h
    exact ⟨rfl, rfl⟩
  · cases h

lemma renewDue_side : Wp (Side (.renewing w.mem.renews)) (renewDue now) (fun _ _ => True) w := by
  refine .read ?_
  cases hplan : w.mem.renewsUnder with
  | none => exact .pure trivial
  | some plan =>
    dsimp only
    split
    · exact .pure trivial
    refine .bind (snapshotGate_quiet.mono Quiet.side) fun view t _ ht => .read ?_
    have same : t.mem = w.mem := by
      obtain ⟨⟨calls, clock, -⟩, -⟩ := ht
      rfl
    refine .bind (authorizeBatch_side (fun r hr => ?_) t) fun _ _ _ _ => .pure trivial
    obtain ⟨⟨k, s⟩, hs, hr⟩ := List.mem_filterMap.mp hr
    obtain ⟨rfl, ha⟩ := renewRequest_spec hr
    refine ⟨by simp [hplan], s, ?_, ha.symm⟩
    rw [same] at hs
    exact AList.mem_lookup_iff.mpr hs

lemma lookup_foldl_meterAt {counters : Map Key ContCount} {ks : List Key} {t : Table Key ContSess} (hk : ks.Nodup) :
    (ks.foldl (meterAt counters) t).lookup k = if k ∈ ks then (t.lookup k).map (·.meter (counters k)) else t.lookup k := by
  induction ks generalizing t with
  | nil => simp
  | cons k' rest ih =>
    obtain ⟨hnot, hrest⟩ := List.nodup_cons.mp hk
    have step : (meterAt counters t k').lookup k = if k = k' then (t.lookup k).map (·.meter (counters k)) else t.lookup k := by
      unfold meterAt
      split
      next s hs =>
        rcases eq_or_ne k k' with rfl | hne
        · simp [hs]
        · simp [hne, AList.lookup_insert_ne hne]
      next hs =>
        rcases eq_or_ne k k' with rfl | hne
        · simp [hs]
        · simp [hne]
    rw [List.foldl_cons, ih hrest, step]
    rcases eq_or_ne k k' with rfl | hne
    · simp [hnot]
    · simp [hne]

lemma ContState.lookup_meter {st : ContState} {counters : Map Key ContCount} :
    (st.meter counters).sessions.lookup k = (st.sessions.lookup k).map (·.meter (counters k)) := by
  change (st.sessions.keys.foldl (meterAt counters) st.sessions).lookup k = _
  rw [lookup_foldl_meterAt (show st.sessions.keys.Nodup from st.sessions.nodupKeys)]
  split
  · rfl
  next hk =>
    have : st.sessions.lookup k = none := AList.lookup_eq_none.mpr fun h => hk (AList.mem_keys.mp h)
    simp [this]

/-- The same session, metered further. -/
def ContSess.Later (s s' : ContSess) : Prop := s' = { s with lastUsed := s'.lastUsed } ∧ s.lastUsed ≤ s'.lastUsed

lemma ContSess.Later.refl (s : ContSess) : s.Later s := ⟨rfl, Nat.le_refl _⟩

lemma ContSess.Later.trans {s s' s'' : ContSess} (h : s.Later s') (h' : s'.Later s'') : s.Later s'' :=
  ⟨by rw [h'.1, h.1], h.2.trans h'.2⟩

lemma ContSess.meter_later (s : ContSess) (cur : Option ContCount) : s.Later (s.meter cur) := by
  unfold ContSess.meter
  split
  · split
    · exact .refl s
    · exact ⟨rfl, Nat.le_max_left _ _⟩
  · exact .refl s

lemma ContState.lookup_drop {st : ContState} {k' : Key} :
    (st.drop k').sessions.lookup k = if k = k' then none else st.sessions.lookup k := by
  unfold ContState.drop
  split
  next hnone =>
    split
    · rename_i heq
      rw [heq, hnone]
    · rfl
  · rcases eq_or_ne k k' with rfl | hne
    · simp
    · simp [hne, AList.lookup_erase_ne hne]

/-- The sessions of the record are among those it had, and the journal is as it was. -/
structure Shrunk (w w' : World) : Prop where
  journal : w'.mem.cont.journal = w.mem.cont.journal
  sessions : ∀ st' k s', w'.mem.cont.st = some st' → st'.sessions.lookup k = some s' →
    ∃ st s, w.mem.cont.st = some st ∧ st.sessions.lookup k = some s ∧ s.Later s'

lemma Shrunk.refl (w : World) : Shrunk w w := ⟨rfl, fun st' _ s' h hs => ⟨st', s', h, hs, .refl s'⟩⟩

lemma Shrunk.trans {u v w : World} (h : Shrunk u v) (h' : Shrunk v w) : Shrunk u w := by
  refine ⟨h'.journal.trans h.journal, fun st'' k s'' hst hs => ?_⟩
  obtain ⟨st', s', hst', hs', later'⟩ := h'.sessions st'' k s'' hst hs
  obtain ⟨st, s, hst, hs, later⟩ := h.sessions st' k s' hst' hs'
  exact ⟨st, s, hst, hs, later.trans later'⟩

lemma ContMove.sessions {c c' : Continuity} (h : ContMove c c') {st' : ContState} {s' : ContSess}
    (hst : c'.st = some st') (hs : st'.sessions.lookup k = some s') :
    ∃ st s, c.st = some st ∧ st.sessions.lookup k = some s ∧ s.Later s' := by
  cases h with
  | aside h => exact ⟨st', s', h ▸ hst, hs, .refl s'⟩
  | lost => cases hst
  | metered counters =>
    obtain ⟨st, hold, rfl⟩ := Option.map_eq_some_iff.mp hst
    rw [ContState.lookup_meter] at hs
    obtain ⟨s, hs', rfl⟩ := Option.map_eq_some_iff.mp hs
    exact ⟨st, s, hold, hs', s.meter_later _⟩
  | dropped k' =>
    obtain ⟨st, hold, rfl⟩ := Option.map_eq_some_iff.mp hst
    rw [ContState.lookup_drop] at hs
    split at hs
    · cases hs
    · exact ⟨st, s', hold, hs, .refl s'⟩
  | charged id live | planned nowBoot dirty =>
    obtain ⟨st, hold, rfl⟩ := Option.map_eq_some_iff.mp hst
    exact ⟨st, s', hold, hs, .refl s'⟩

lemma ContMove.journal {c c'} (h : ContMove c c') : c'.journal = c.journal := by
  cases h with
  | aside _ h => exact h
  | _ => rfl

/-- Nothing is entered, accepted or read back. -/
structure Powers.Holding (p : Powers) : Prop where
  entries : ∀ e, ¬ p.entries e
  notes : ∀ env b now, ¬ p.notes env b now
  restores : ¬ p.restores

lemma Powers.Holding.removals {f} : ({ removes := f } : Powers).Holding :=
  ⟨fun _ => id, fun _ _ _ => id, id⟩

lemma Side.shrunk (hp : p.Holding) (h : Side p w w') : Shrunk w w' := by
  cases h with
  | cont c hc => exact ⟨hc.journal, fun st' k s' hst hs => hc.sessions hst hs⟩
  | entry e he => exact (hp.entries e he).elim
  | pruned env b now hn | accepted env b bootID nowBoot now hn => exact (hp.notes env b now hn).elim
  | journalRead hr | stateRead st hr => exact (hp.restores hr).elim
  | _ => exact ⟨rfl, fun st' k s' hst hs => ⟨st', s', hst, hs, .refl s'⟩⟩

lemma sides_shrunk (hp : p.Holding) (moves : ReflTransGen (Side p) w w') : Shrunk w w' :=
  keep (S := Shrunk w) (fun act h => h.trans (act.shrunk hp)) moves (.refl w)

lemma contScopeOK_side : Steps (Side p) contScopeOK := by
  refine .read fun w => ?_
  cases w.mem.cont.st with
  | none => exact .pure
  | some st =>
    dsimp only
    split
    · exact .pure
    · exact .bind removeState_side fun _ => .pure

lemma contTickRead_side : Steps (Side p) (contTickRead now) := by
  refine .bind (Quiet.steps query_quiet) fun nowBoot => ?_
  cases nowBoot with
  | none => exact .pure
  | some nowBoot => exact .change fun _ => .tick _

lemma contSample_side : Steps (Side p) (contSample now) := by
  refine .read fun w => ?_
  split
  · refine .bind (Quiet.steps managedBridges_quiet) fun l => .bind (Quiet.steps countersOf_quiet) fun counters => ?_
    cases counters with
    | none => exact .pure
    | some counters => exact modifyCont_side fun _ => .aside rfl rfl
  · exact .pure

lemma contTickBegin_side {nowBoot} : Steps (Side p) (contTickBegin now nowBoot) := by
  refine .bind (.change fun _ => .tick _) fun _ => .bind contScopeOK_side fun st => ?_
  cases st with
  | none => exact .pure
  | some st =>
    dsimp only
    split
    · refine .bind contSample_side fun _ => .read fun w => .bind (.read fun _ => .pure) fun due => ?_
      split
      · exact saveState_side
      · exact .pure
    · exact .change fun w => .tick _

lemma probeChunks_quiet {l} : Steps Quiet (probeChunks l) := by
  induction l with
  | nil => exact .pure
  | cons chunk rest ih =>
    refine .bind call_quiet fun n => .read fun w => ?_
    split
    · exact .pure
    · exact .bind ih fun _ => .pure

lemma contTickProbe_side {nowBoot : Nat} {tenantID siteID : Bytes} {ids : List Bytes} :
    Steps (Side p) (contTickProbe now nowBoot tenantID siteID ids) :=
  .bind (Quiet.steps probeChunks_quiet) fun _ => .change fun _ => .tick _

lemma dropAll_side {xs} : Steps (Side p) (dropAll xs) :=
  .bind (.forM fun _ => dropSession_side) fun _ => .pure

end

end StayConnect.Netd
