import StayConnect.Netd.Walk

/-!
# The moves of the batched pass

One lemma for each function of `Batch`: it keeps `WalkInv`. Between two flushes a session's address may
be kept only by a queued write, or given up only by a queued denial, so the flushes carry the argument.
-/

namespace StayConnect.Netd

open Framing Prog Relation

variable {W : Walk} {o : Scope} {w : World}

/-- The scope that only writes and queues denials. -/
def Scope.calm (o : Scope) : Scope := { o.sober with proves := fun _ => False }

lemma Scope.calm_le : o.calm.Le o.plain := { Scope.Le.refl o.plain with revokes := False.elim }

lemma mem_queue {t : Table Addr PendingRenew} {r : PendingRenew} : r ∈ t.entries.map (·.2) ↔ ∃ a, t.lookup a = some r := by
  simp only [List.mem_map, Sigma.exists, exists_eq_right]
  exact exists_congr fun a => AList.mem_lookup_iff.symm

lemma Kept.unqueue {a : Addr} (hi : Inv W.once w) (h : Kept w a) :
    Kept { w with pass.renew := ∅ } a ∨ ∃ r ∈ w.pass.renew.entries.map (·.2), r.addr = a := by
  rcases h with hc | hl | hq
  · exact .inl (.inl hc)
  · exact .inl (.inr (.inl hl))
  · obtain ⟨r, hr⟩ := Option.isSome_iff_exists.mp hq
    exact .inr ⟨r, mem_queue.mpr ⟨a, hr⟩, (hi.queued a r hr).1⟩

lemma noteRenewal_wp {r err} (hb : w.pass.batched = true) (hd : o.denies) (ha : o.addrs r.addr) (hr : err = false → Kept w r.addr) :
    Wp (Act o) (noteRenewal r err) (fun _ w' => Kept w' r.addr) w := by
  unfold noteRenewal
  split
  · exact (failClosed_queued hb hd ha).conseq fun _ _ _ h => .inl h
  next hfalse =>
    have idle : Idle w { w with pass.renewed := Function.update w.pass.renewed r.addr (some ()) } := .aside
    exact .change (.idle idle) (idle.kept (hr (by simpa using hfalse)))

def leasesOf (items : List PendingRenew) : List GateLease :=
  items.map fun r => ⟨⟨r.addr.bridge, r.sessionID⟩, r.addr, r.want⟩

lemma writeLeases_wp {items} (hb : w.pass.batched = true) (hno : w.mem.noBatch = false)
    (hd : o.denies) (hr : ¬ o.revokes) (h : Requests o w (leasesOf items)) :
    Wp (Act o) (writeLeases items) (fun _ w' => ∀ r ∈ items, Kept w' r.addr) w := by
  have addr : ∀ r ∈ items, o.addrs r.addr := fun r hr => (h _ (List.mem_map_of_mem hr)).2.1
  refine .bind (authorizeBatch_wp h) fun errs t m₁ ht => ?_
  have reported : List.Forall₂ (fun r err => err = false → Listed t r.addr) items errs :=
    List.forall₂_map_left_iff.mp (ht.2 hno)
  obtain ⟨hlen, hzip⟩ := List.forall₂_iff_zip.mp reported
  -- What is not kept is still to come, with its failure.
  refine (Wp.forM (fun rest u => u.pass.batched = true ∧
    (∀ p ∈ rest, p.1 ∈ items ∧ (p.2 = false → Kept u p.1.addr)) ∧ ∀ r ∈ items, Kept u r.addr ∨ ∃ p ∈ rest, p.1 = r)
    (fun p rest u hu => ?_) ⟨(moves_batched m₁).trans hb, fun p hp => ?_, fun r hr => .inr ?_⟩).conseq
      fun _ _ _ hu r hr => (hu.2.2 r hr).resolve_right (by simp)
  · have hp := hu.2.1 p (by simp)
    refine (noteRenewal_wp hu.1 hd (addr p.1 hp.1) hp.2).conseq fun _ x moves hk => ?_
    have kept : ∀ a, Kept u a → Kept x a := fun a => moves_kept moves fun h => hr h.2
    refine ⟨(moves_batched moves).trans hu.1, fun q hq => ?_, fun r hr => ?_⟩
    · exact ⟨(hu.2.1 q (by simp [hq])).1, fun hf => kept _ ((hu.2.1 q (by simp [hq])).2 hf)⟩
    · rcases hu.2.2 r hr with hr | ⟨q, hq, rfl⟩
      · exact .inl (kept _ hr)
      · rcases List.mem_cons.mp hq with rfl | hq
        · exact .inl hk
        · exact .inr ⟨q, hq, rfl⟩
  · exact ⟨(List.of_mem_zip hp).1, fun hf => .inr (.inl (hzip hp hf))⟩
  · have : r ∈ (items.zip errs).map Prod.fst := by rwa [List.map_fst_zip hlen.le]
    obtain ⟨p, hp, rfl⟩ := List.mem_map.mp this
    exact ⟨p, hp, rfl⟩

lemma flushRenewals_wp (h : WalkInv W w) (hb : w.pass.batched = true) :
    Wp (PassAct W W.all.plain) flushRenewals (fun _ w' => WalkInv W w' ∧ w'.pass.renew = ∅) w := by
  refine .read ?_
  dsimp only
  split
  next hnil => exact .pure ⟨h, AList.ext (by simpa using hnil)⟩
  · set items := w.pass.renew.entries.map (·.2) with hitems
    set t : World := { w with pass.renew := ∅ } with ht
    have walking : Walking W t := ⟨PassAct.keep_inv (o := W.all) rfl .write h.inv, h.mode, by simp [ht], h.denies⟩
    have requests : Requests W.all.calm t (leasesOf items) := by
      intro r hr
      obtain ⟨q, hq, rfl⟩ := List.mem_map.mp hr
      obtain ⟨a, ha⟩ := mem_queue.mp hq
      have hl := (h.inv.queued a q ha).2
      exact ⟨(h.renews a q ha).1, (h.renews a q ha).2, hl.granted, hl.proven⟩
    have hno : t.mem.noBatch = false := by simpa [hb] using h.mode
    refine .bind (.change (Q := fun _ u => u = t) .write rfl) fun _ u _ hu => ?_
    subst hu
    have written := writeLeases_wp (w := t) hb hno trivial id requests
    refine (Wp.wider Scope.calm_le (Wp.pass written)).conseq fun _ v _ hv => ?_
    obtain ⟨⟨hkept, moves⟩, -⟩ := hv
    refine ⟨h.of_kept (walking.moves (Scope.calm_le.trans Scope.plain_le) rfl moves) (fun k a ha => ?_) fun a hk => ?_, ?_⟩
    · exact (moves_events moves ha).resolve_right fun he => he.1
    · rcases hk.unqueue h.inv with hk | ⟨r, hr, rfl⟩
      · exact moves_kept moves (fun h => h.2) hk
      · exact hkept r hr
    · exact moves_renew moves fun hq => hq.1

lemma abortBatch_idle {bridge items} : Steps Idle (abortBatch bridge items) := by
  have each : ∀ (gone : Bool) (d : PendingDeny × Nat), Steps Idle (do
      if gone then return (d.2, .clean)
      return (d.2, ← abortTc d.1.addr)) := by
    intro gone d
    split
    · exact .pure
    · exact .bind abortTc_idle fun _ => .pure
  exact .read fun _ => .bind deleteClassesBatch_idle fun _ => .bind query_idle fun _ =>
    .bind query_idle fun _ => .mapM fun d => each _ d

lemma fail_idle {p} : Steps Idle (fail p) :=
  .change fun _ => .reported (by simp)

lemma reportDeny_wp {d notRemoved tc} :
    Wp (Act o) (reportDeny d notRemoved tc) (fun _ w' => Idle w w' ∧ (d.quiet = false → ¬ w'.clean)) w := by
  unfold reportDeny
  split
  next hquiet =>
    refine .change (.idle .aside) ⟨.aside, fun hq => ?_⟩
    simp [hq] at hquiet
  · exact ⟨(Idle.act fail_idle w).1, fail_idle.run Idle.refl Idle.trans w, fun _ => (fail_wp (o := o)).2⟩

def Scope.denials (once : Prop) (items : List PendingDeny) : Scope :=
  { Scope.bare once with addrs := fun a => ∃ d ∈ items, d.addr = a, revokes := True }

lemma carryDenials_wp {once items} : Wp (Act (.denials once items)) (carryDenials items)
    (fun _ w' => (∃ d ∈ items, d.abort = true ∧ d.quiet = false) → ¬ w'.clean) w := by
  refine .bind (denyBatch_wp (o := .denials once items) trivial (by simp [Scope.denials])) fun errs t _ hlen => ?_
  have holds : Steps Idle ((items.zip errs).forM fun d => do
      if !d.1.abort && d.2 then problem (.holdNotRemoved d.1.session)) := by
    refine .forM fun d => ?_
    split
    · exact .change fun _ => .reported (by simp)
    · exact .pure
  refine .bind (Idle.act holds t) fun _ u _ _ => ?_
  refine .bind (Idle.act (.mapM fun _ => abortBatch_idle) u) fun cleanups v _ _ => ?_
  -- Unless something was reported, the denial to report is still to come.
  refine (Wp.forM (fun (rest : List ((PendingDeny × Bool) × Nat)) x =>
    (∃ d ∈ items, d.abort = true ∧ d.quiet = false) → ¬ x.clean ∨ ∃ p ∈ rest, p.1.1.abort = true ∧ p.1.1.quiet = false)
    (fun p rest x hx => ?_) ?_).conseq fun _ _ _ hx hd => (hx hd).resolve_right (by simp)
  · have step : Wp (Act (.denials once items))
        (do if p.1.1.abort then reportDeny p.1.1 p.1.2 ((cleanups.flatten.lookup p.2).getD .clean))
        (fun _ y => Idle x y ∧ (p.1.1.abort = true → p.1.1.quiet = false → ¬ y.clean)) x := by
      split
      · exact reportDeny_wp.conseq fun _ _ _ h => ⟨h.1, fun _ => h.2⟩
      next habort => exact .pure ⟨Idle.refl x, fun h => absurd h habort⟩
    refine step.conseq fun _ y _ hy hd => ?_
    rcases hx hd with hc | ⟨p', hp', habort, hquiet⟩
    · exact .inl fun h => hc (hy.1.clean h)
    · rcases List.mem_cons.mp hp' with rfl | hp'
      · exact .inl (hy.2 habort hquiet)
      · exact .inr ⟨p', hp', habort, hquiet⟩
  · rintro ⟨d, hd, habort, hquiet⟩
    have hmem : d ∈ ((items.zip errs).zipIdx.map Prod.fst).map Prod.fst := by
      rw [List.zipIdx_map_fst, List.map_fst_zip (by simp [hlen])]
      exact hd
    simp only [List.map_map, List.mem_map, Function.comp] at hmem
    obtain ⟨p, hp, rfl⟩ := hmem
    exact .inr ⟨p, hp, habort, hquiet⟩

lemma flushDenies_wp (h : WalkInv W w) :
    Wp (PassAct W W.all.plain) flushDenies (fun _ w' => WalkInv W w' ∧ w'.pass.denies = [] ∧ w'.pass.renew = w.pass.renew) w := by
  refine .read ?_
  dsimp only
  split
  next hnil => exact .pure ⟨h, hnil, rfl⟩
  · set items := w.pass.denies with hitems
    set t : World := { w with pass.denies := [] } with ht
    have walking : Walking W t := ⟨PassAct.keep_inv (o := W.all) rfl .revoke h.inv, h.mode, h.renews, by simp [ht]⟩
    have le : (Scope.denials W.once items).Le W.all.plain := by
      refine ⟨fun _ => False.elim, ?_, fun _ => False.elim, False.elim, False.elim, id, fun _ => False.elim, False.elim,
        False.elim, fun _ => False.elim, id⟩
      rintro a ⟨d, hd, rfl⟩
      exact h.denies d hd
    refine .bind (.change (Q := fun _ u => u = t) .revoke rfl) fun _ u _ hu => ?_
    subst hu
    refine (Wp.wider le (Wp.pass carryDenials_wp)).conseq fun _ v _ hv => ?_
    obtain ⟨⟨hreported, moves⟩, -⟩ := hv
    refine ⟨h.of_kept (walking.moves (le.trans Scope.plain_le) rfl moves) (fun k a ha => ?_) fun a hk => ?_, ?_, ?_⟩
    · exact (moves_events moves ha).resolve_right fun he => he.1
    · by_cases ha : ∃ d ∈ items, d.addr = a
      · obtain ⟨d, hd, rfl⟩ := ha
        refine .inl ?_
        rcases hquiet : d.quiet with _ | _
        · rcases habort : d.abort with _ | _
          · exact .inl fun hc => (h.inv.denied d hd).2 habort (moves_clean (w := t) moves hc)
          · exact .inl (hreported ⟨d, hd, habort, hquiet⟩)
        · obtain ⟨k, hk⟩ := (h.inv.denied d hd).1 hquiet
          exact .inr (.inl ⟨k, moves_mem_events moves hk⟩)
      · refine moves_kept moves (fun h => ha h.1) ?_
        rcases hk with (hc | he | ⟨d, hd, had, -⟩) | hl | hq
        · exact .inl (.inl hc)
        · exact .inl (.inr (.inl he))
        · exact absurd ⟨d, hd, had⟩ ha
        · exact .inr (.inl hl)
        · exact .inr (.inr hq)
    · exact moves_denies moves fun hd => hd.1
    · exact moves_renew (w := t) moves fun hq => hq.1

/-- Nothing is queued. -/
structure Flushed (w : World) : Prop where
  renew : w.pass.renew = ∅
  denies : w.pass.denies = []

lemma flushBoth_wp (h : WalkInv W w) (hb : w.pass.batched = true) :
    Wp (PassAct W W.all.plain) flushBoth (fun _ w' => WalkInv W w' ∧ Flushed w') w :=
  .bind (flushRenewals_wp h hb) fun _ _ _ ht =>
    (flushDenies_wp ht.1).conseq fun _ _ _ hu => ⟨hu.1, hu.2.2.trans ht.2, hu.2.1⟩

/-- The lease the candidate carries was granted in this walk. -/
def Granted (w : World) (c : Cand) : Prop := ∃ left dhcp, .granted c.key c.addr c.lease left dhcp ∈ w.events

variable {c : Cand} {w' : World} {nowBoot : Nat} {S : Slot → Prop}

lemma Wp.kept {m : NetdM Unit} (hc : W.Has c) (le : o.Le (W.scope (· = c.slot))) (h : WalkInv W w)
    (hm : Wp (Act o) m (fun _ w' => Kept w' c.addr) w) : Wp (Act o) m (fun _ => WalkInv W) w := by
  refine hm.conseq fun _ t moves ht => h.handled hc ?_ ht
  exact keep (S := ReflTransGen (Act _) w) (fun act moves => moves.tail (act.mono le)) moves .refl

/-- Sessions handled one after another, each in its own scope: what one needs is not touched by the
others. -/
lemma Wp.each {β : Type} {f : β → NetdM Unit} {l : List β} (cand : β → Cand) (P : β → World → Prop)
    {o : β → Scope} {o' : Scope} (distinct : (l.map fun b => (cand b).slot).Nodup) (le : ∀ b ∈ l, (o b).Le o')
    (body : ∀ b ∈ l, ∀ t, WalkInv W t → P b t → Wp (Act (o b)) (f b) (fun _ => WalkInv W) t)
    (stable : ∀ b ∈ l, ∀ b' ∈ l, (cand b').slot ≠ (cand b).slot → ∀ t t', ReflTransGen (Act (o b)) t t' → P b' t → P b' t')
    (h : WalkInv W w) (pre : ∀ b ∈ l, P b w) : Wp (PassAct W o') (l.forM f) (fun _ => WalkInv W) w := by
  refine (Wp.forM (fun rest t => rest <:+ l ∧ WalkInv W t ∧ ∀ b ∈ rest, P b t) (fun b rest t ht => ?_)
    ⟨List.suffix_rfl, h, pre⟩).conseq fun _ _ _ ht => ht.2.1
  have hb : b ∈ l := ht.1.subset (by simp)
  refine (Wp.wider (le b hb) (Wp.pass (body b hb t ht.2.1 (ht.2.2 b (by simp))))).conseq
    fun _ u _ hu => ⟨(List.suffix_cons b rest).trans ht.1, hu.1.1, fun b' hb' => ?_⟩
  have hne : (cand b').slot ≠ (cand b).slot := by
    have nodup := distinct.sublist (ht.1.sublist.map fun b => (cand b).slot)
    rw [List.map_cons, List.nodup_cons] at nodup
    exact fun heq => nodup.1 (heq ▸ List.mem_map_of_mem hb')
  exact stable b hb b' (ht.1.subset (by simp [hb'])) hne t u hu.1.2 (ht.2.2 b' (by simp [hb']))

def Admissible (W : Walk) (c : Cand) (w : World) : Prop := Granted w c ∧ (W.once → NoQueue w c.key)

lemma Granted.moves (h : Granted w c) (moves : ReflTransGen (Act o) w w') : Granted w' c := by
  obtain ⟨left, dhcp, hg⟩ := h
  exact ⟨left, dhcp, moves_mem_events moves hg⟩

lemma Granted.passes (h : Granted w c) (moves : ReflTransGen (PassAct W o) w w') : Granted w' c := by
  obtain ⟨left, dhcp, hg⟩ := h
  exact ⟨left, dhcp, keep (S := fun t => _ ∈ t.events) (fun act h => act.mem_events h) moves hg⟩

lemma Admissible.others {c'} (h : Admissible W c' w) (hc' : W.Has c') (hne : c'.slot ≠ c.slot)
    (le : o.Le (W.scope (· = c.slot))) (moves : ReflTransGen (Act o) w w') : Admissible W c' w' :=
  ⟨h.1.moves moves, fun ho => moves_noQueue moves (fun hk => W.outside_key ho hc' hne (le.keys _ hk.2)) (h.2 ho)⟩

lemma Flushed.admissible (h : Flushed w) (hg : Granted w c) : Admissible W c w :=
  ⟨hg, fun _ a r hr => by simp [h.renew] at hr⟩

lemma tail_wp (hc : W.Has c) (h : WalkInv W w) (ha : Admissible W c w) :
    Wp (Act (W.scope (· = c.slot))) (provisionTail c W.view W.now) (fun _ => WalkInv W) w :=
  Wp.kept hc (W.scope_le fun _ h => h) h (provisionTail_wp (hc.owns rfl) ⟨h.inv, ha.1⟩ ha.2 (h.seen _ _ hc))

/-- The scope that renews sessions and neither proves nor admits any. -/
def Scope.renewing (o : Scope) : Scope := { o with fresh := False, proves := fun _ => False }

lemma Scope.renewing_le : o.renewing.Le o :=
  { Scope.Le.refl o with fresh := False.elim, proves := fun _ => False.elim }

lemma leaseWanted_wp {once} (hr : Ready once w c) (ht : once → Tidy w c.key) :
    Wp (Act o) (leaseWanted c nowBoot) (fun want w' => w' = w ∧ Leased once w c.key c.addr want) w := by
  refine .read ?_
  dsimp only
  split
  next hfresh =>
    refine .pure ⟨rfl, hr.full (Nat.le_refl _) fun ho => ?_⟩
    unfold Mem.proofFresh at hfresh
    cases hp : w.mem.provenAt c.key with
    | none => simp [hp] at hfresh
    | some p =>
      have hepoch : p.epoch = (w.mem.epochs c.key).getD 0 := by
        simp only [hp, Bool.and_eq_true, beq_iff_eq] at hfresh
        exact hfresh.1.1
      cases he : w.mem.epochs c.key with
      | none => simp [ht ho he] at hp
      | some e =>
        rw [he, Option.getD_some] at hepoch
        exact ⟨e, hr.inv.current _ e he, hepoch ▸ hr.inv.marked _ p hp⟩
  · exact .pure ⟨rfl, hr.provisional (Nat.le_refl _)⟩

lemma steadyLease_wp {now view} (h : Renews o c.toWanted)
    (hr : Ready o.once w c) (ht : o.once → Tidy w c.key) (hs : Seen view c.addr w) :
    Wp (Act o) (steadyLease c nowBoot view now) (fun _ w' => Kept w' c.addr) w := by
  refine .bind (Idle.wp ownMinor_idle) fun _ t moves hidle => ?_
  have htidy : o.once → Tidy t c.key := fun ho => (Act.idle (o := .bare True) hidle).keep_tidy id (ht ho)
  refine .bind (leaseWanted_wp (hr.moves moves) htidy) fun want u _ hu => ?_
  obtain ⟨rfl, hl⟩ := hu
  exact renewLease_wp h hl fun hv => hidle.kept (hs hv)

def Renewable (W : Walk) (c : Cand) (w : World) : Prop := Granted w c ∧ (W.once → Tidy w c.key)

lemma Renewable.passes (h : Renewable W c w)
    (hk : W.once → ¬ o.proves c.key) (moves : ReflTransGen (PassAct W o) w w') : Renewable W c w' :=
  ⟨h.1.passes moves, fun ho => passes_tidy moves (hk ho) (h.2 ho)⟩

lemma Renewable.renewing {o : Scope} (h : Renewable W c w) (moves : ReflTransGen (Act o.renewing) w w') : Renewable W c w' :=
  ⟨h.1.moves moves, fun ho => keep (S := fun t => Tidy t _) (fun act h => act.keep_tidy id h) moves (h.2 ho)⟩

lemma Walk.renewing_le (hs : S c.slot) : (W.scope (· = c.slot)).renewing.Le (W.scope S).renewing := by
  have le : (W.scope (· = c.slot)).Le (W.scope S) := W.scope_le fun s h => h ▸ hs
  exact { le with fresh := id, proves := fun _ => id }

lemma Walk.Has.renewing (h : W.Has c) : Renews (W.scope (· = c.slot)).renewing c.toWanted where
  key := (h.renews (S := (· = c.slot)) rfl).key
  addr := (h.renews (S := (· = c.slot)) rfl).addr
  bridge := (h.renews (S := (· = c.slot)) rfl).bridge
  revokes := trivial
  denies := trivial
  queues := trivial
  notes := trivial

lemma steadyLeases_wp {cs : List Cand} (has : ∀ c ∈ cs, W.Has c) (distinct : (cs.map Cand.slot).Nodup)
    (h : WalkInv W w) (pre : ∀ c ∈ cs, Renewable W c w) :
    Wp (PassAct W (W.scope (· ∈ cs.map Cand.slot)).renewing)
      (cs.forM fun c => steadyLease c nowBoot W.view W.now) (fun _ => WalkInv W) w := by
  refine Wp.each id (Renewable W) (o := fun c => (W.scope (· = c.slot)).renewing) distinct
    (fun c hc => W.renewing_le (List.mem_map_of_mem hc)) (fun c hc t ht hp => ?_)
    (fun _ _ _ _ _ _ _ moves hp => hp.renewing moves) h pre
  refine Wp.kept (has c hc) Scope.renewing_le ht ?_
  exact steadyLease_wp (has c hc).renewing ⟨ht.inv, hp.1⟩ hp.2 (ht.seen _ _ (has c hc))

lemma seen_aged {view a aged} (h : Seen view a w) : Seen { view with aged } a w := by
  refine fun hv => h fun hnone => hv ?_
  unfold GateView.lookup at hnone ⊢
  cases hk : view.byKey with
  | none => simp [hk] at hnone
  | some t => simpa [hk] using hnone

lemma renewAgain_wp {cs : List Cand} (has : ∀ c ∈ cs, W.Has c) (distinct : (cs.map Cand.slot).Nodup)
    (h : WalkInv W w) (hb : w.pass.batched = true) (pre : ∀ c ∈ cs, Renewable W c w) :
    Wp (PassAct W W.all.renewing) (renewAgain cs W.view) (fun _ => WalkInv W) w := by
  have plain : W.all.plain.Le W.all.renewing :=
    { Scope.Le.refl W.all.renewing with queues := False.elim, notes := False.elim }
  refine .read ?_
  dsimp only
  split
  · exact .pure h
  set aged := w.clock - w.pass.start
  refine .bind ((Idle.wp query_idle).mono .act) fun nowBoot t m₁ ht => ?_
  refine .bind (M := fun _ u => WalkInv W u) ?_ fun _ u m₂ hu => ?_
  · refine Wp.each id (Renewable W) (o := fun c => (W.scope (· = c.slot)).renewing) distinct
      (fun c _ => W.renewing_le (S := fun _ => True) trivial) (fun c hc v hv hp => ?_)
      (fun _ _ _ _ _ _ _ moves hp => hp.renewing moves) (h.idle ht)
      fun c hc => (pre c hc).passes (fun _ => id) m₁
    refine .read ?_
    split
    · refine .bind (leaseWanted_wp ⟨hv.inv, hp.1⟩ hp.2) fun want x _ hx => ?_
      obtain ⟨rfl, hl⟩ := hx
      split
      · have short : wholeSeconds (want - aged) ≤ want := (Nat.div_mul_le_self _ _).trans (Nat.sub_le _ _)
        refine Wp.kept (has c hc) Scope.renewing_le hv (.bind (assertLease_wp (has c hc).renewing (hl.mono short) ?_)
          fun _ y _ hy => .pure hy)
        exact seen_aged (hv.seen _ _ (has c hc))
      · exact .pure hv
    · exact .pure hv
  · have hbatched : u.pass.batched = true := by rw [passes_batched m₂, passes_batched m₁, hb]
    exact (Wp.wider plain (flushBoth_wp hu hbatched)).conseq fun _ _ _ hx => hx.1.1

lemma classifySession_wp :
    Wp (Act o) (classifySession c) (fun kind w' => Idle w w' ∧ (kind = .steady → (w.mem.epochs c.key).isSome)) w := by
  refine .read ?_
  dsimp only
  split
  · exact .pure ⟨Idle.refl w, by simp⟩
  split
  · split
    · exact .pure ⟨Idle.refl w, by simp⟩
    next hactive =>
      have hepoch : (w.mem.epochs c.key).isSome := by
        cases he : (w.mem.epochs c.key).isSome with
        | true => rfl
        | false => simp [he] at hactive
      refine .bind (Idle.wp groupClassFor_idle) fun g t _ ht => .bind (Idle.wp installedMatchesPlan_idle) fun same u _ hu => ?_
      split
      · exact .pure ⟨ht.trans hu, fun _ => hepoch⟩
      · exact .pure ⟨ht.trans hu, by simp⟩
  · refine .bind (Idle.wp (bothDevices_idle fun _ => readClassesForPass_idle)) fun both t _ ht => ?_
    match both with
    | none => exact .pure ⟨ht, by simp⟩
    | some (down, up) =>
      dsimp only
      split
      next hactive =>
        split
        · refine .bind (Idle.wp installedMatchesPlan_idle) fun same u _ hu => ?_
          split
          · exact .pure ⟨ht.trans hu, fun _ => by simp_all⟩
          · exact .pure ⟨ht.trans hu, by simp⟩
        · exact .pure ⟨ht, by simp⟩
      · split
        · exact .pure ⟨ht, by simp⟩
        · exact .pure ⟨ht, by simp⟩

/-- The scope of the checks. -/
def Walk.checking (W : Walk) (S : Slot → Prop) : Scope := { (W.scope S).plain with grants := (W.scope S).addrs }

lemma Walk.checking_le {S'} (h : ∀ s, S s → S' s) : (W.checking S).Le (W.checking S') :=
  have le : (W.scope S).Le (W.scope S') := W.scope_le h
  { le with fresh := id, queues := id, notes := id, proves := fun _ => id, grants := le.addrs }

lemma provisionPrecheck_wp {slot x} (hx : W.desired.lookup slot = some x) (h : WalkInv W w) (hu : Ungranted w x.addr) :
    Wp (PassAct W (W.checking (· = slot))) (provisionPrecheck slot.minor x W.now)
      (fun r w' => WalkInv W w' ∧ ∀ c, r = some c → c.toWanted = x ∧ c.slot = slot ∧ Granted w' c) w := by
  have covers : Covers (W.scope (· = slot)).plain x := by
    have := W.covers (S := (· = slot)) hx rfl
    exact ⟨this.key, this.addr, this.bridge, this.revokes, this.denies⟩
  refine .bind (Wp.wider { Scope.Le.refl (W.scope _).plain with grants := fun _ => False.elim } (Wp.pass (provisionChecks_wp covers))) fun r t _ ht => ?_
  obtain ⟨⟨⟨hchecked, hbounded⟩, moves⟩, -⟩ := ht
  match r with
  | none =>
    have moves' := keep (S := ReflTransGen (Act (W.scope (· = slot))) w)
      (fun act moves => moves.tail (act.mono Scope.plain_le)) moves .refl
    exact .pure ⟨h.handled hx moves' (.inl (hchecked.1 rfl)), by simp⟩
  | some c =>
    have hidle : Idle w t := hchecked.2 rfl
    obtain ⟨rfl, hminor, hlease⟩ := hbounded c rfl
    have hslot : c.slot = slot := by
      cases slot
      simp only [Cand.slot, hminor, W.bridge _ _ hx]
    have hc : W.Has c := by rw [Walk.Has, hslot, hx]
    have hut : Ungranted t c.addr := hu.idle hidle
    have ht' := h.idle hidle
    refine .read (.bind (.change (Q := fun _ u => WalkInv W u ∧ Granted u c)
      (.grant c hc ⟨slot, _, rfl, hx, rfl⟩ ⟨rfl, rfl, hlease⟩ hut) ⟨?_, ?_⟩) fun _ u _ hu => .pure ⟨hu.1, ?_⟩)
    · refine ht'.of_kept ⟨PassAct.keep_inv (o := W.checking (· = slot)) rfl
        (.grant c hc ⟨slot, _, rfl, hx, rfl⟩ ⟨rfl, rfl, hlease⟩ hut) ht'.inv, ht'.mode,
        ht'.renews, ht'.denies⟩ (fun k a ha => ?_) fun a hk => ?_
      · rw [events_record (by simp)] at ha
        simpa using ha
      · rcases hk with (hk | ⟨k, hk⟩ | hk) | hk
        · exact .inl (.inl hk)
        · exact .inl (.inr (.inl ⟨k, mem_events_record (by simp) hk⟩))
        · exact .inl (.inr (.inr hk))
        · exact .inr hk
    · exact ⟨t.left c.addr, _, by rw [events_record (by simp)]; exact List.mem_cons_self⟩
    · rintro c' hc'
      obtain rfl := Option.some.inj hc'
      exact ⟨rfl, hslot, hu.2⟩

lemma ctxDone_idle : Steps Idle ctxDone := .read fun _ => .pure

lemma pastSoftBudget_idle : Steps Idle pastSoftBudget := .read fun _ => .pure

lemma budgetBelow_idle {reserve} : Steps Idle (budgetBelow reserve) := .read fun _ => .pure

lemma Idle.walk {α : Type} {m : NetdM α} (hm : Steps Idle m) (h : WalkInv W w) :
    Wp (PassAct W o) m (fun _ w' => Idle w w' ∧ WalkInv W w') w :=
  ((Idle.wp hm).mono .act).conseq fun _ _ _ hi => ⟨hi, h.idle hi⟩

/-- The sessions of a bridge with their minors. -/
structure Listing (W : Walk) (bridge : Bytes) (l : List (Nat × Wanted)) : Prop where
  desired : ∀ p ∈ l, W.desired.lookup ⟨bridge, p.1⟩ = some p.2
  distinct : (l.map Prod.fst).Nodup

/-- What the checks leave to be done. -/
structure Work (W : Walk) (w : World) (work : List (WorkKind × Cand)) : Prop where
  has : ∀ q ∈ work, W.Has q.2
  granted : ∀ q ∈ work, Granted w q.2
  tidy : ∀ q ∈ work, q.1 = .steady → Tidy w q.2.key
  distinct : (work.map fun q => q.2.slot).Nodup

lemma Work.nil : Work W w [] := ⟨by simp, by simp, by simp, by simp⟩

def slotsOf (bridge : Bytes) (l : List (Nat × Wanted)) : Slot → Prop := (· ∈ l.map fun p => ⟨bridge, p.1⟩)

lemma Work.cons {kind work} (h : Work W w work) (hc : W.Has c)
    (hg : Granted w c) (ht : kind = .steady → Tidy w c.key) (hd : ∀ q ∈ work, q.2.slot ≠ c.slot) : Work W w ((kind, c) :: work) where
  has := by simpa using ⟨hc, fun a b hq => h.has (a, b) hq⟩
  granted := by simpa using ⟨hg, fun a b hq => h.granted (a, b) hq⟩
  tidy := by
    rintro q hq
    rcases List.mem_cons.mp hq with rfl | hq
    · exact ht
    · exact h.tidy q hq
  distinct := by
    rw [List.map_cons, List.nodup_cons]
    refine ⟨fun hmem => ?_, h.distinct⟩
    obtain ⟨q, hq, heq⟩ := List.mem_map.mp hmem
    exact hd q hq heq

lemma precheckAll_wp {bridge : Bytes} {l : List (Nat × Wanted)} (hl : Listing W bridge l) (h : WalkInv W w)
    (hu : ∀ p ∈ l, Ungranted w p.2.addr) :
    Wp (PassAct W (W.checking (slotsOf bridge l))) (precheckAll bridge W.now l)
      (fun work w' => WalkInv W w' ∧ Work W w' work ∧ ∀ q ∈ work, slotsOf bridge l q.2.slot) w := by
  induction l generalizing w with
  | nil => exact .pure ⟨h, .nil, by simp⟩
  | cons p rest ih =>
    have hp := hl.desired p (by simp)
    have hrest : Listing W bridge rest := ⟨fun q hq => hl.desired q (by simp [hq]), (List.nodup_cons.mp hl.distinct).2⟩
    have notin : ¬ slotsOf bridge rest ⟨bridge, p.1⟩ := by
      intro hmem
      obtain ⟨q, hq, heq⟩ := List.mem_map.mp hmem
      exact (List.nodup_cons.mp hl.distinct).1 (List.mem_map.mpr ⟨q, hq, (Slot.mk.inj heq).2⟩)
    refine .bind (Idle.walk ctxDone_idle h) fun done t m₁ ht => ?_
    split
    · exact .bind (Idle.walk fail_idle ht.2) fun _ u _ hu => .pure ⟨hu.2, .nil, by simp⟩
    have checked := provisionPrecheck_wp hp ht.2 ((hu p (by simp)).idle ht.1)
    refine .bind (Wp.wider (W.checking_le fun s hs => by rw [hs]; simp [slotsOf]) checked) fun r u m₂ hu' => ?_
    obtain ⟨⟨hinv, hcand⟩, m₂'⟩ := hu'
    have ungranted : ∀ q ∈ rest, Ungranted u q.2.addr := by
      intro q hq
      have hq' := hl.desired q (by simp [hq])
      refine passes_ungranted m₂' (W.outside_addr (S := (· = ⟨bridge, p.1⟩)) hq' fun heq => ?_)
        ((hu q (by simp [hq])).idle ht.1)
      exact notin (List.mem_map.mpr ⟨q, hq, heq⟩)
    have wider : ∀ s, slotsOf bridge rest s → slotsOf bridge (p :: rest) s := by
      intro s hs
      exact List.mem_cons_of_mem _ hs
    match r with
    | none =>
      exact (Wp.wider (W.checking_le wider) (ih hrest hinv ungranted)).conseq fun work v _ hv =>
        ⟨hv.1.1, hv.1.2.1, fun q hq => wider _ (hv.1.2.2 q hq)⟩
    | some c =>
      obtain ⟨hwanted, hslot, hg⟩ := hcand c rfl
      have hc : W.Has c := by rw [Walk.Has, hslot, hp, hwanted]
      refine .bind (Wp.pass classifySession_wp) fun kind v m₃ hv => ?_
      obtain ⟨⟨hidle, hsteady⟩, m₃'⟩ := hv
      refine .bind (Wp.wider (W.checking_le wider) (ih hrest (hinv.idle hidle) fun q hq => (ungranted q hq).idle hidle)) fun work x m₄ hx => .pure ?_
      obtain ⟨⟨hinv', hwork, hin⟩, m₄'⟩ := hx
      refine ⟨hinv', hwork.cons hc ((hg.moves m₃').passes m₄') (fun hk => ?_) (fun q hq heq => ?_), ?_⟩
      · refine passes_tidy m₄' id fun hnone => ?_
        have := hsteady hk
        rw [← hidle.epochs, hnone] at this
        simp at this
      · exact notin (hslot ▸ heq ▸ hin q hq)
      · intro q hq
        rcases List.mem_cons.mp hq with rfl | hq
        · exact hslot ▸ List.mem_cons_self
        · exact wider _ (hin q hq)

end StayConnect.Netd
