import Mathlib.Data.List.Dedup
import StayConnect.Netd.Clash
import StayConnect.Netd.MovesBridge

/-!
# The moves of a pass

`reconcileLocked` as a whole: what the plan no longer wants is removed first, without touching what it
does want (`clearAway`), then the walk over the bridges keeps `WalkInv` and ends with nothing queued.
-/

namespace StayConnect.Netd

open Framing Prog Relation

variable {W : Walk} {o : Scope} {w : World}

/-- Every slot of the table is a group's. -/
def GroupTable (slots : Table Bytes Nat) : Prop := ∀ id g, slots.lookup id = some g → isGuestMinor g = false

variable {m : Nat} {slots : Table Bytes Nat}

lemma isGuestMinor_of_group (h : groupMinorBase ≤ m) (h' : m ≤ groupMinorMax) : isGuestMinor m = false := by
  simp only [isGuestMinor, Bool.or_eq_false_iff, Bool.and_eq_false_iff, decide_eq_false_iff_not]
  simp only [groupMinorBase, groupMinorMax, guestMinorBase, guestMinorMax, extMinorBase, extMinorMax] at *
  omega

lemma GroupTable.insert {id} (h : GroupTable slots) (hm : isGuestMinor m = false) : GroupTable (slots.insert id m) := by
  intro id' g hg
  rcases eq_or_ne id' id with rfl | hne
  · simp only [AList.lookup_insert, Option.some.injEq] at hg
    exact hg ▸ hm
  · exact h id' g (by simpa [AList.lookup_insert_ne hne] using hg)

lemma GroupTable.keep {ids} (h : GroupTable slots) : GroupTable (keepSlots slots ids) := by
  unfold keepSlots
  generalize slots.keys.filter (· ∉ ids) = gone
  induction gone generalizing slots with
  | nil => exact h
  | cons id rest ih =>
    refine ih fun id' g hg => ?_
    rcases eq_or_ne id' id with rfl | hne
    · simp at hg
    · exact h id' g (by simpa [AList.lookup_erase_ne hne] using hg)

lemma GroupTable.adopt {c} (h : GroupTable slots) (hc : isGuestMinor c.minor = false) : GroupTable (adoptSlot slots c) := by
  unfold adoptSlot
  split
  · exact h.insert hc
  · exact h

lemma probeSlot_group {start fuel} (h : probeSlot slots start fuel = some m) : isGuestMinor m = false := by
  induction fuel with
  | zero => simp [probeSlot] at h
  | succ fuel ih =>
    simp only [probeSlot] at h
    split at h
    · obtain rfl := Option.some.inj h
      have := Nat.mod_lt (start - groupMinorBase + (groupMinorMax - groupMinorBase + 1 - (fuel + 1)))
        (show 0 < groupMinorMax - groupMinorBase + 1 by decide)
      refine isGuestMinor_of_group (Nat.le_add_right _ _) ?_
      simp only [groupMinorBase, groupMinorMax] at this ⊢
      omega
    · exact ih h

lemma GroupTable.give {id} (h : GroupTable slots) : GroupTable (giveSlot slots id) := by
  unfold giveSlot
  split
  · exact h
  split
  next m hm =>
    obtain ⟨start, -, hprobe⟩ := Option.bind_eq_some_iff.mp hm
    exact h.insert (probeSlot_group hprobe)
  · exact h

lemma GroupTable.foldl {α : Type} {f : Table Bytes Nat → α → Table Bytes Nat} {l : List α}
    (step : ∀ a ∈ l, ∀ t, GroupTable t → GroupTable (f t a)) (h : GroupTable slots) : GroupTable (l.foldl f slots) := by
  induction l generalizing slots with
  | nil => exact h
  | cons a rest ih => exact ih (fun b hb => step b (by simp [hb])) (step a (by simp) slots h)

lemma installedGroup_wp {slot} :
    Wp (Act o) (installedGroup slot) (fun r w' => Idle w w' ∧ ∀ g, r = some g → isGuestMinor g = false) w := by
  refine .bind (Idle.wp readClassesForPass_idle) fun cs t _ ht => ?_
  cases cs with
  | none => exact .pure ⟨ht, by simp⟩
  | some cs =>
    refine .pure ⟨ht, fun g hg => ?_⟩
    obtain ⟨c, -, hc⟩ := Option.bind_eq_some_iff.mp hg
    have hgroup := (Option.filter_eq_some_iff.mp hc).2
    simp only [isGroupMinor, Bool.and_eq_true, decide_eq_true_eq] at hgroup
    exact isGuestMinor_of_group hgroup.1 hgroup.2

lemma groupClaims_minor {found c} (h : c ∈ groupClaims found) : ∃ p ∈ found, c.minor = p.2 := by
  simp only [groupClaims, List.mem_insertionSort, List.mem_map, List.mem_dedup] at h
  obtain ⟨p, hp, rfl⟩ := h
  exact ⟨p, hp, rfl⟩

lemma assignGroups_wp {desired : Table Slot Wanted} (h : WalkInv W w) (hf : Flushed w) :
    Wp (PassAct W o) (assignGroups desired) (fun _ w' => WalkInv W w' ∧ Flushed w' ∧ w'.log = w.log) w := by
  refine .read ?_
  dsimp only
  set places := sharedPlaces w.env.trim desired
  set kept := keepSlots w.mem.groupSlots (places.map (·.1))
  have found : Wp (Act o) ((places.filter fun p => (kept.lookup p.1).isNone).mapM fun (p : Bytes × Slot) => do
      return (← installedGroup p.2).map fun g => (p.1, g))
      (fun found w' => Idle w w' ∧ ∀ p ∈ found.reduceOption, isGuestMinor p.2 = false) w := by
    refine (Wp.mapM (fun _ t => Idle w t) (fun _ r => ∀ p, r = some p → isGuestMinor p.2 = false)
      (fun p rest t ht => ?_) (Idle.refl w)).conseq fun found t _ ht => ⟨ht.2, fun p hp => ?_⟩
    · refine .bind installedGroup_wp fun g u _ hu => .pure ⟨fun q hq => ?_, ht.trans hu.1⟩
      obtain ⟨m, hm, rfl⟩ := Option.map_eq_some_iff.mp hq
      exact hu.2 m hm
    · obtain ⟨_, -, hg⟩ := Wp.exists_of_forall₂ ht.1 (some p) (List.reduceOption_mem_iff.mp hp)
      exact hg p rfl
  refine .bind (found.mono .act) fun found t _ ht => ?_
  have htable : GroupTable ((sortedBytes (places.map (·.1))).foldl giveSlot
      ((groupClaims found.reduceOption).foldl adoptSlot kept)) := by
    refine GroupTable.foldl (fun _ _ _ hs => hs.give) (GroupTable.foldl (fun c hc _ hs => ?_) (GroupTable.keep h.inv.groups))
    obtain ⟨p, hp, hminor⟩ := groupClaims_minor hc
    exact hs.adopt (hminor ▸ ht.2 p hp)
  have hwt := h.idle ht.1
  refine .change (.groups _ htable) ⟨?_, ⟨(hf.idle ht.1).renew, (hf.idle ht.1).denies⟩, ht.1.log⟩
  exact hwt.of_kept ⟨PassAct.keep_inv (o := W.all) rfl (.groups _ htable) hwt.inv, hwt.mode, hwt.renews, hwt.denies⟩
    (fun _ _ ha => ha) fun _ hk => hk

lemma mem_byMinor {desired bridge p} : p ∈ byMinor desired bridge ↔ desired.lookup ⟨bridge, p.1⟩ = some p.2 := by
  simp only [byMinor, List.mem_insertionSort, List.mem_filterMap]
  rw [← Option.mem_def, AList.mem_lookup_iff]
  constructor
  · rintro ⟨⟨slot, x⟩, he, hp⟩
    split at hp
    next hdevice =>
      obtain rfl := Option.some.inj hp
      cases slot
      cases hdevice
      exact he
    · cases hp
  · intro he
    exact ⟨_, he, by simp⟩

lemma Walk.listing (W : Walk) (bridge : Bytes) : Listing W bridge (byMinor W.desired bridge) where
  desired p hp := mem_byMinor.mp hp
  distinct := by
    rw [byMinor, ((List.perm_insertionSort _ _).map Prod.fst).nodup_iff, List.Nodup, List.pairwise_map]
    refine List.Pairwise.filterMap _ ?_ (List.pairwise_map.mp W.desired.nodupKeys)
    rintro ⟨slot, x⟩ ⟨slot', x'⟩ hne p hp q hq heq
    split at hp
    next hdevice =>
      split at hq
      · rename_i hdevice'
        obtain rfl := Option.some.inj hp
        obtain rfl := Option.some.inj hq
        cases slot
        cases slot'
        exact hne (by simp_all)
      · cases hq
    · cases hp

/-- Between bridges: the walk's invariant, and nothing queued. -/
def Rest (W : Walk) (w : World) : Prop := WalkInv W w ∧ Flushed w

lemma Rest.idle {w'} (h : Rest W w) (hi : Idle w w') : Rest W w' := ⟨h.1.idle hi, h.2.idle hi⟩

lemma passes_flushed {w'} (moves : ReflTransGen (PassAct W o) w w') (hb : w.pass.batched = false) (h : Flushed w) : Flushed w' := by
  refine (keep (S := fun t => Flushed t ∧ t.pass.batched = false) (fun act ht => ⟨?_, act.batched.trans ht.2⟩)
    moves ⟨h, hb⟩).1
  cases act with
  | act act =>
    exact ⟨(act.renew_eq (by simp [ht.2])).trans ht.1.renew, (act.denies_eq (by simp [ht.2])).trans ht.1.denies⟩
  | write => exact ⟨rfl, ht.1.denies⟩
  | revoke => exact ⟨ht.1.renew, rfl⟩
  | grant | groups => exact ⟨ht.1.renew, ht.1.denies⟩

lemma provisionSession_wp {slot x} (hx : W.desired.lookup slot = some x) (h : Rest W w)
    (hb : w.pass.batched = false) (hu : Ungranted w x.addr) :
    Wp (PassAct W (W.shaping (· = slot))) (provisionSession slot.minor x W.view W.now) (fun _ => Rest W) w := by
  refine .bind (Wp.wider W.checking_le_shaping (provisionPrecheck_wp hx h.1 hu)) fun r t m₁ ht => ?_
  obtain ⟨⟨hwt, hcand⟩, -⟩ := ht
  have hf := passes_flushed m₁ hb h.2
  match r with
  | none => exact .pure ⟨hwt, hf⟩
  | some c =>
    obtain ⟨rfl, rfl, hg⟩ := hcand c rfl
    refine (Wp.wider W.scope_le_shaping (Wp.pass (tail_wp hx hwt (hf.admissible hg)))).conseq fun _ u m₂ hu => ?_
    exact ⟨hu.1.1, passes_flushed m₂ ((passes_batched m₁).trans hb) hf⟩

lemma shapeBridge_wp {bridge} (h : Rest W w) (hu : ∀ p ∈ byMinor W.desired bridge, Ungranted w p.2.addr) :
    Wp (PassAct W (W.shaping (slotsOf bridge (byMinor W.desired bridge)))) (shapeBridge W.desired W.view W.now bridge)
      (fun _ => Rest W) w := by
  unfold shapeBridge
  dsimp only
  split
  · exact .pure h
  refine .bind ((Idle.wp ensureBridgeInfra_idle).mono .act) fun err t m₁ h₁ => ?_
  have ht := h.idle h₁
  split
  · exact ((Idle.wp fail_idle).mono .act).conseq fun _ _ _ hi => ht.idle hi
  refine .read ?_
  have hut : ∀ p ∈ byMinor W.desired bridge, Ungranted t p.2.addr := fun p hp => (hu p hp).idle h₁
  split
  next hb => exact (provisionBridgeBatched_wp (W.listing bridge) ⟨ht.1, hb, ht.2⟩ hut).conseq fun _ _ _ hu => ⟨hu.1, hu.2.2⟩
  next hb =>
    refine (Wp.forM (fun rest u => rest <:+ byMinor W.desired bridge ∧ Rest W u ∧ u.pass.batched = false ∧
      ∀ p ∈ rest, Ungranted u p.2.addr) (fun p rest u hu => ?_)
      ⟨List.suffix_rfl, ht, by simpa using hb, hut⟩).conseq fun _ _ _ hu => hu.2.1
    obtain ⟨hsuf, hrest, hbu, hung⟩ := hu
    have hp : p ∈ byMinor W.desired bridge := hsuf.subset (by simp)
    have inside : ∀ s, s = ⟨bridge, p.1⟩ → slotsOf bridge (byMinor W.desired bridge) s := by
      rintro s rfl
      exact List.mem_map.mpr ⟨p, hp, rfl⟩
    have one := provisionSession_wp (mem_byMinor.mp hp) hrest hbu (hung p (by simp))
    refine (Wp.wider (W.shaping_le inside) one).conseq fun _ v m₂ hv => ?_
    refine ⟨(List.suffix_cons p rest).trans hsuf, hv.1, (passes_batched m₂).trans hbu, fun q hq => ?_⟩
    have hq' := mem_byMinor.mp (hsuf.subset (by simp [hq]) : q ∈ byMinor W.desired bridge)
    refine passes_ungranted hv.2 (W.outside_addr (S := (· = ⟨bridge, p.1⟩)) hq' fun heq => ?_) (hung q (by simp [hq]))
    have nodup := (W.listing bridge).distinct.sublist (hsuf.sublist.map Prod.fst)
    rw [List.map_cons, List.nodup_cons] at nodup
    exact nodup.1 ((Slot.mk.inj heq).2 ▸ List.mem_map_of_mem hq)

lemma declaredBridges_nodup (env : Envelope) : (declaredBridges env).Nodup := by
  unfold declaredBridges sortedBytes
  rw [(List.perm_insertionSort _ _).nodup_iff]
  exact List.nodup_dedup _

lemma recordEnds_idle {n l} : Steps Idle (recordEnds n l) := by
  induction l generalizing n with
  | nil => exact .pure
  | cons e rest ih =>
    unfold recordEnds
    split
    · exact .pure
    refine .bind markEnded_idle fun recorded => ?_
    split
    · exact .bind (.change fun _ => .aside) fun _ => ih
    · exact ih

lemma finishEnds_idle : Steps Idle finishEnds := by
  refine .read fun w => .bind (.change fun _ => .aside) fun _ => .bind ctxDone_idle fun done =>
    .bind pastSoftBudget_idle fun past => .bind budgetBelow_idle fun below => ?_
  split
  · exact .pure
  · exact recordEnds_idle

lemma shapeAll_wp {env} (h : Rest W w) (hu : ∀ slot x, W.desired.lookup slot = some x → Ungranted w x.addr) :
    Wp (PassAct W (W.shaping fun _ => True)) (shapeAll env W.desired W.view W.now) (fun _ => Rest W) w := by
  refine .bind (.change (Q := fun _ t => Idle w t) (.act (.idle .aside)) .aside) fun _ t m₁ h₁ => ?_
  have ht := h.idle h₁
  refine .bind (assignGroups_wp ht.1 ht.2) fun _ u m₂ h₂ => ?_
  refine .bind (M := fun _ => Rest W) ?_ fun _ v m₃ h₃ => .read ?_
  · refine (Wp.forM (fun rest x => rest <:+ declaredBridges env ∧ Rest W x ∧ ∀ slot y, W.desired.lookup slot = some y →
      slot.device ∈ rest → Ungranted x y.addr) (fun b rest x hx => ?_) ⟨List.suffix_rfl, ⟨h₂.1, h₂.2.1⟩, ?_⟩).conseq
        fun _ _ _ hx => hx.2.1
    · obtain ⟨hsuf, hrest, hung⟩ := hx
      have ungranted : ∀ p ∈ byMinor W.desired b, Ungranted x p.2.addr :=
        fun p hp => hung _ _ (mem_byMinor.mp hp) (by simp)
      refine (Wp.wider (W.shaping_le fun _ _ => trivial) (shapeBridge_wp hrest ungranted)).conseq fun _ y _ hy => ?_
      refine ⟨(List.suffix_cons b rest).trans hsuf, hy.1, fun slot z hz hmem => ?_⟩
      refine passes_ungranted hy.2 (W.outside_addr (S := slotsOf b (byMinor W.desired b)) hz fun hin => ?_)
        (hung slot z hz (by simp [hmem]))
      obtain ⟨p, -, heq⟩ := List.mem_map.mp hin
      have nodup := (declaredBridges_nodup env).sublist hsuf.sublist
      rw [List.nodup_cons] at nodup
      exact nodup.1 (by rwa [← heq] at hmem)
    · intro slot y hy _ k lease left dhcp hg
      refine hu slot y hy k lease left dhcp ?_
      unfold World.events at hg ⊢
      rwa [h₂.2.2, h₁.log] at hg
  · split
    next hb =>
      refine .bind (Wp.wider W.plain_le_shaping (flushDenies_wp h₃.1)) fun _ x m₄ h₄ => ?_
      have hbx : x.pass.batched = true := (passes_batched m₄).trans hb
      refine .bind (Wp.wider W.plain_le_shaping (flushBoth_wp h₄.1.1 hbx)) fun _ y _ h₅ => ?_
      exact ((Idle.wp finishEnds_idle).mono .act).conseq fun _ _ _ hi => Rest.idle ⟨h₅.1.1, h₅.1.2⟩ hi
    · exact .pure h₃

/-- The scope of what happens before anything is shaped: elements are removed, none is written. -/
def Scope.clearing (once : Prop) : Scope := { Scope.bare once with addrs := fun _ => True, revokes := True }

lemma Scope.bare_le_clearing {once} : (Scope.bare once).Le (.clearing once) :=
  { Scope.Le.refl (.bare once) with addrs := fun _ => False.elim, revokes := False.elim }

section
variable {once : Prop} {nets : Bytes → List Subnet} {s : Session} {a : Addr} {bridge : Bytes} {desired : Table Slot Wanted}

lemma forgetTorn_idle : Steps Idle (forgetTorn nets s a) := .bind (.change fun _ => .aside) fun _ => .change fun _ => .aside

lemma queueEnd_idle {k} : Steps Idle (queueEnd k) := by
  refine .read fun w => ?_
  split
  · exact .bind (.change fun _ => .aside) fun _ => .pure
  · exact markEnded_idle

lemma handOver_steps : Steps (Act o) (handOver s) := by
  refine .read fun w => ?_
  split
  · exact .pure
  · exact .bind endSeries_steps fun _ => .bind (Idle.act queueEnd_idle) fun _ => .bind (.change fun _ => .idle .aside)
      fun _ => .bind (.change fun _ => .idle .aside) fun _ => .pure

lemma tearSession_steps : Steps (Act (.clearing once)) (tearSession nets s a) := by
  refine .bind (denyAccess_steps trivial trivial) fun err => ?_
  split
  · exact .bind (Idle.act fail_idle) fun _ => .pure
  have rest : Steps (Act (.clearing once)) (do
      let recorded ← markEnded
      forgetTorn nets s a
      return if recorded then [s.key] else []) :=
    .bind (Idle.act markEnded_idle) fun _ => .bind (Idle.act forgetTorn_idle) fun _ => .pure
  cases minorFor nets a with
  | none => exact rest
  | some minor => exact .bind (Idle.act deleteSession_idle) fun _ => rest

lemma tearOne_steps : Steps (Act (.clearing once)) (tearOne desired s) := by
  refine .read fun w => ?_
  cases w.env.parseIP s.ip with
  | none => exact .bind (Idle.act fail_idle) fun _ => .pure
  | some ip =>
    dsimp only
    split
    · exact .bind handOver_steps fun _ => .pure
    split
    · exact .pure
    refine .bind endSeries_steps fun _ => ?_
    split
    · exact .pure
    · exact .bind tearSession_steps fun _ => .pure

lemma tearAll_steps {l} : Steps (Act (.clearing once)) (tearAll desired l) := by
  induction l with
  | nil => exact .pure
  | cons s rest ih => exact .bind tearOne_steps fun _ => .bind ih fun _ => .pure

lemma tearClasses_idle {items} : Steps Idle (tearClasses nets items) := by
  refine .bind (.mapM fun b => .bind deleteClassesBatch_idle fun err => ?_) fun _ => .pure
  split <;> exact .pure

lemma tearBatch_steps {items} : Steps (Act (.clearing once)) (tearBatch items) := by
  unfold tearBatch
  split
  · exact .pure
  refine .read fun w => .bind (fun t => (denyBatch_wp trivial fun _ _ => trivial).conseq fun _ _ _ _ => trivial)
    fun errs => .bind (Idle.act tearClasses_idle) fun broken => .forM fun it => ?_
  split
  · exact Idle.act fail_idle
  dsimp only
  split
  · exact Idle.act fail_idle
  · exact .bind (Idle.act queueEnd_idle) fun _ => Idle.act forgetTorn_idle

lemma drainLegacy_idle : Steps Idle drainLegacy := by
  refine .bind call_idle fun n => .read fun w => .bind (.change fun _ => .aside) fun _ => ?_
  split
  · exact fail_idle
  · exact .pure

end

end StayConnect.Netd
