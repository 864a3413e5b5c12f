import StayConnect.Netd.Act

/-!
# The changes of the external calls and of the proof

One lemma for each function of `Calls` and `Enforcement`: the changes it makes (`Steps`, `Wp`) and what
its answer tells about the world it leaves.
-/

namespace StayConnect.Netd

open Framing Prog Relation

variable {o : Scope} {w : World} {α : Type}

/-- Changes on nobody's behalf. -/
def Scope.bare (once : Prop) : Scope where
  keys _ := False
  addrs _ := False
  slots _ := False
  fresh := False
  queues := False
  revokes := False
  proves _ := False
  notes := False
  denies := False
  grants _ := False
  once := once

/-- The scope without removals, queued and noted leases and new generations. -/
def Scope.sober (o : Scope) : Scope := { o with fresh := False, queues := False, revokes := False, notes := False }

/-- The scope without queued and noted leases, new generations and proofs. -/
def Scope.plain (o : Scope) : Scope :=
  { o with fresh := False, queues := False, notes := False, proves := fun _ => False }

lemma Scope.Le.refl (o : Scope) : o.Le o :=
  ⟨fun _ h => h, fun _ h => h, fun _ h => h, id, id, id, fun _ h => h, id, id, fun _ h => h, id⟩

lemma Scope.plain_le : o.plain.Le o :=
  { Scope.Le.refl o with fresh := False.elim, queues := False.elim, notes := False.elim, proves := fun _ => False.elim }

variable {m : NetdM α} {w' : World} {n i nowBoot epoch : Nat} {b : Bytes} {slot : Slot} {a : Addr} {k : Key}
  {reqs : List GateLease} {r : GateLease}

lemma Idle.act (h : Steps Idle m) : Steps (Act o) m := h.mono .idle

lemma Idle.wp (h : Steps Idle m) : Wp (Act o) m (fun _ w' => Idle w w') w :=
  ⟨(Idle.act h w).1, h.run Idle.refl Idle.trans w⟩

lemma Idle.of_moves (h : ReflTransGen Idle w w') : Idle w w' := closed Idle.refl Idle.trans h

lemma call_idle : Steps Idle call := Steps.change fun w =>
  { Idle.refl w with
    asked := Nat.le_add_right _ _
    clock := Nat.le_add_right _ _ }

lemma outcomeOf_idle : Steps Idle (outcomeOf n i) := .read fun _ => .pure

lemma land_idle {out f} (hf : ∀ w, Idle w (f w)) : Steps Idle (land out f) := by
  unfold land
  dsimp only
  split
  · exact .bind (.change hf) fun _ => .pure
  · exact .pure

lemma perform_idle {f} (hf : ∀ w, Idle w (f w)) : Steps Idle (perform f) :=
  .bind call_idle fun _ => .bind outcomeOf_idle fun _ => land_idle hf

lemma query_idle {f : World → α} : Steps Idle (query f) := by
  refine .bind call_idle fun _ => .bind outcomeOf_idle fun _ => ?_
  split
  · exact .pure
  · exact .read fun _ => .pure

/-- What a read answers holds in the world it leaves. -/
lemma query_wp {f : World → α} : Wp (Act o) (query f) (fun r w' => Idle w w' ∧ ∀ x, r = some x → x = f w') w := by
  refine .bind (Idle.wp call_idle) fun n t _ hi => .bind (Idle.wp outcomeOf_idle) fun out u _ hi' => ?_
  split
  · exact .pure ⟨hi.trans hi', by simp⟩
  · exact .read (.pure ⟨hi.trans hi', by simp⟩)

/-- A write that lands is made after the time the call takes. -/
lemma perform_wp {f} (move : ∀ w', Idle w w' → Act o w' (f w')) :
    Wp (Act o) (perform f) (fun _ w' => ∃ w₁, Idle w w₁ ∧ (w' = w₁ ∨ w' = f w₁)) w := by
  refine .bind (Idle.wp call_idle) fun n t _ hi => .bind (Idle.wp outcomeOf_idle) fun out u _ hi' => ?_
  have hu := hi.trans hi'
  unfold land
  dsimp only
  split
  · exact .bind (.change (Q := fun _ w' => w' = f u) (move u hu) rfl) fun _ v _ hv => .pure ⟨u, hu, .inr hv⟩
  · exact .pure ⟨u, hu, .inl rfl⟩

lemma Wp.widen {o' Q} (le : o.Le o') (h : Wp (Act o) m Q w) : Wp (Act o') m (fun r w' => Q r w' ∧ ReflTransGen (Act o) w w') w :=
  (h.conseq fun _ _ moves hq => ⟨hq, moves⟩).mono fun act => act.mono le

lemma Wp.sober {Q} (h : Wp (Act o.sober) m Q w) : Wp (Act o) m (fun r w' => Q r w' ∧ ReflTransGen (Act o.sober) w w') w :=
  Wp.widen { Scope.Le.refl o with fresh := False.elim, queues := False.elim, revokes := False.elim, notes := False.elim } h

lemma ensureBridgeInfra_idle : Steps Idle (ensureBridgeInfra b) := perform_idle Idle.refl

lemma addClass_steps {c} (h : o.slots slot ∨ isGuestMinor slot.minor = false) : Steps (Act o) (addClass slot c) := by
  intro w
  refine .read ?_
  split
  · exact .pure trivial
  · exact (perform_wp fun _ _ => .build slot c h).conseq fun _ _ _ _ => trivial

lemma reRate_idle (w : World) (slot : Slot) (c : Class) : Idle w { w with kern := w.kern.reRate slot c } := by
  unfold Kernel.reRate
  split
  · exact .refl w
  next old hold =>
    refine .classes rfl fun slot' h => ?_
    rcases eq_or_ne slot' slot with rfl | hne
    · simp [hold]
    · simpa [AList.lookup_insert_ne hne] using h

lemma changeClass_idle {c} : Steps Idle (changeClass slot c) := by
  refine .read fun w => ?_
  split
  · exact .pure
  · exact perform_idle fun w => reRate_idle w slot c

lemma addFilter_idle {ip} : Steps Idle (addFilter slot ip) := perform_idle fun _ => .aside

lemma dropClass_idle (w : World) (slot : Slot) : Idle w { w with kern := w.kern.dropClass slot } := by
  refine .classes rfl fun slot' h => ?_
  rcases eq_or_ne slot' slot with rfl | hne
  · simp [Kernel.dropClass] at h
  · simpa [Kernel.dropClass, AList.lookup_erase_ne hne] using h

lemma removeFilter_idle : Steps Idle (removeFilter slot) := perform_idle fun _ => .aside

lemma removeClass_idle : Steps Idle (removeClass slot) :=
  .bind (perform_idle fun w => dropClass_idle w slot) fun _ => .pure

lemma ensureGroupClass_steps {kbps} (h : isGuestMinor slot.minor = false) : Steps (Act o) (ensureGroupClass slot kbps) := by
  refine .bind (addClass_steps (.inr h)) fun refused => ?_
  split
  · exact Idle.act changeClass_idle
  · exact .pure

lemma deleteSession_idle {minor} : Steps Idle (deleteSession b minor) :=
  .bind removeClass_idle fun _ => removeClass_idle

lemma deleteSessionClass_idle {minor} : Steps Idle (deleteSessionClass b minor) := by
  unfold deleteSessionClass
  split
  · exact .pure
  · exact .bind deleteSession_idle fun _ => .pure

/-- The scope holds both slots of a session's class. -/
def Scope.HasClass (o : Scope) (bridge : Bytes) (minor : Nat) : Prop :=
  o.slots ⟨bridge, minor⟩ ∧ o.slots ⟨ifbName bridge, minor⟩

section
variable {bridge : Bytes} {minor : Nat} {down up : Int} {group : Option Nat}

lemma addSessionClasses_steps (h : o.HasClass bridge minor) : Steps (Act o) (addSessionClasses bridge minor down up group) := by
  refine .bind (addClass_steps (.inl h.1)) fun refused => ?_
  split
  · exact .pure
  · exact addClass_steps (.inl h.2)

lemma prepareSessionIn_steps (h : o.HasClass bridge minor) : Steps (Act o) (prepareSessionIn bridge minor down up group) := by
  refine .bind (Idle.act ensureBridgeInfra_idle) fun refused => ?_
  split
  · exact .pure
  refine .bind (Idle.act deleteSession_idle) fun _ => .bind (addClass_steps (.inl h.1)) fun refused => ?_
  split
  · exact .pure
  refine .bind (addClass_steps (.inl h.2)) fun refused => ?_
  split
  · exact .bind (Idle.act removeClass_idle) fun _ => .pure
  · exact .pure

lemma activateSession_idle {ip} : Steps Idle (activateSession bridge minor ip) := by
  refine .bind addFilter_idle fun refused => ?_
  split
  · exact .pure
  refine .bind addFilter_idle fun refused => ?_
  split
  · exact .bind removeFilter_idle fun _ => .pure
  · exact .pure

lemma reRateSessionIn_idle : Steps Idle (reRateSessionIn bridge minor down up group) := by
  refine .bind changeClass_idle fun refused => ?_
  split
  · exact .pure
  · exact changeClass_idle

lemma abortSession_idle : Steps Idle (abortSession bridge minor) := by
  refine .bind removeFilter_idle fun _ => .bind removeFilter_idle fun _ => .bind deleteSession_idle fun _ =>
    .bind query_idle fun down => ?_
  cases down with
  | none => exact .pure
  | some down =>
    dsimp only
    split
    · exact .pure
    · refine .bind query_idle fun up => ?_
      cases up <;> exact .pure

end

lemma forwarding_idle {bridge} : Steps Idle (forwarding bridge) :=
  .bind (.bind query_idle fun _ => .pure) fun _ => .bind (.bind query_idle fun _ => .pure) fun _ => .pure

lemma untilErr_steps {R : World → World → Prop} {f : α → NetdM Bool} {l} (h : ∀ x ∈ l, Steps R (f x)) : Steps R (untilErr f l) := by
  induction l with
  | nil => exact .pure
  | cons x rest ih =>
    refine .bind (h x (by simp)) fun err => ?_
    split
    · exact .pure
    · exact ih fun y hy => h y (by simp [hy])

lemma dropItems_idle {slots} : Steps Idle (dropItems n i slots) := by
  induction slots generalizing i with
  | nil => exact .pure
  | cons slot rest ih =>
    exact .bind outcomeOf_idle fun _ => .bind (land_idle fun w => dropClass_idle w slot) fun _ => ih

lemma deleteClassesBatch_idle {bridge minors} : Steps Idle (deleteClassesBatch bridge minors) := by
  unfold deleteClassesBatch
  split
  · exact .pure
  split
  · exact .pure
  refine .bind call_idle fun n => .bind outcomeOf_idle fun out => ?_
  split
  · exact .pure
  · exact .bind dropItems_idle fun _ => .pure

lemma gateList_idle : Steps Idle gateList := by
  refine .bind call_idle fun n => .bind outcomeOf_idle fun out => ?_
  split
  · exact .pure
  · exact .read fun _ => .pure

lemma snapshotGate_idle : Steps Idle snapshotGate := by
  refine .bind gateList_idle fun els => ?_
  cases els <;> exact .pure

/-- No element is removed on the way. -/
def NoRevoke (w w' : World) : Prop := ∀ a, Listed w a → Listed w' a

lemma NoRevoke.idle (h : Idle w w') : NoRevoke w w' := by
  intro a ha
  unfold Listed
  rwa [h.auth]

lemma NoRevoke.write (r : GateLease) (w : World) : NoRevoke w (r.write w) := by
  intro a ha
  rcases eq_or_ne a r.addr with rfl | hne
  · simp [Listed, GateLease.write]
  · simpa [Listed, GateLease.write, AList.lookup_insert_ne hne] using ha

lemma NoRevoke.trans {u v} (h : NoRevoke u v) (h' : NoRevoke v w) : NoRevoke u w :=
  fun a ha => h' a (h a ha)

lemma Listed.of_left (h : (w.left a).isSome) : Listed w a := by
  unfold World.left Kernel.left at h
  unfold Listed
  cases hl : w.kern.auth.lookup a with
  | none => simp [hl] at h
  | some _ => rfl

lemma revoke_steps (hr : o.revokes) (ha : o.addrs a) : Steps (Act o) (revoke a) :=
  fun _ => (perform_wp fun _ _ => .revoked a hr ha).conseq fun _ _ _ _ => trivial

lemma authorized_wp : Wp (Act o) (authorized a) (fun r w' => Idle w w' ∧ (r = some true → (w'.left a).isSome)) w :=
  query_wp.conseq fun _ _ _ h => ⟨h.1, fun hr => (h.2 true hr).symm⟩

lemma denyAccess_steps (hr : o.revokes) (ha : o.addrs a) : Steps (Act o) (denyAccess a) := by
  refine .bind (revoke_steps hr ha) fun err => ?_
  split
  · exact .pure
  · refine .bind (Idle.act query_idle) fun still => ?_
    cases still <;> exact .pure

/-- Requests a transaction may write: leases granted to sessions of the scope. -/
def Requests (o : Scope) (w : World) (reqs : List GateLease) : Prop :=
  ∀ r ∈ reqs, o.keys r.key ∧ o.addrs r.addr ∧ Leased o.once w r.key r.addr r.ttl

def Reported (w : World) (reqs : List GateLease) (errs : List Bool) : Prop :=
  List.Forall₂ (fun r err => err = false → Listed w r.addr) reqs errs

lemma Requests.idle (h : Requests o w reqs) (hi : Idle w w') :
    Requests o w' reqs := fun r hr => ⟨(h r hr).1, (h r hr).2.1, (Act.idle (o := o) hi).leased (h r hr).2.2 fun _ => by rw [hi.log]⟩

lemma Requests.write (h : Requests o w reqs) (hr : r ∈ reqs) : Act o w (r.write w) ∧ Requests o (r.write w) reqs := by
  have act : Act o w (r.write w) := .authorized r (h r hr).1 (h r hr).2.1 (h r hr).2.2
  exact ⟨act, fun r' hr' => ⟨(h r' hr').1, (h r' hr').2.1, act.leased (h r' hr').2.2 fun _ => rfl⟩⟩

lemma authorize_wp (hr : r ∈ reqs) (h : Requests o w reqs) :
    Wp (Act o) (authorize r) (fun _ w' => NoRevoke w w' ∧ Requests o w' reqs) w := by
  unfold authorize
  split
  · exact .pure ⟨fun _ ha => ha, h⟩
  refine (perform_wp fun _ hi => ((h.idle hi).write hr).1).conseq ?_
  rintro _ w' - ⟨w₁, hi, rfl | rfl⟩
  · exact ⟨.idle hi, h.idle hi⟩
  · exact ⟨(NoRevoke.idle hi).trans (.write r w₁), ((h.idle hi).write hr).2⟩

lemma landWrite_wp {out} (hr : r ∈ reqs) (h : Requests o w reqs) :
    Wp (Act o) (land out r.write) (fun _ w' => NoRevoke w w' ∧ Requests o w' reqs) w := by
  unfold land
  dsimp only
  split
  · exact .bind (.change (Q := fun _ w' => w' = r.write w) (h.write hr).1 rfl)
      fun _ t _ ht => .pure (ht ▸ ⟨.write r w, (h.write hr).2⟩)
  · exact .pure ⟨fun _ ha => ha, h⟩

lemma authorizeItem_wp (hr : r ∈ reqs) (h : Requests o w reqs) :
    Wp (Act o) (authorizeItem n i r) (fun err w' => NoRevoke w w' ∧ Requests o w' reqs ∧ (err = false → Listed w' r.addr)) w := by
  have write : Wp (Act o) (if r.invalid then pure true else do land (← outcomeOf n i) r.write)
      (fun _ w' => NoRevoke w w' ∧ Requests o w' reqs) w := by
    split
    · exact .pure ⟨fun _ ha => ha, h⟩
    · refine .bind (Idle.wp outcomeOf_idle) fun out t _ hidle => (landWrite_wp hr (h.idle hidle)).conseq ?_
      exact fun _ u _ hu => ⟨(NoRevoke.idle hidle).trans hu.1, hu.2⟩
  refine .bind write fun err t _ ht => .read (.pure ⟨ht.1, ht.2, fun hfalse => Listed.of_left ?_⟩)
  simp only [Bool.or_eq_false_iff] at hfalse
  simpa using hfalse.2

lemma authorizeItems_wp (h : Requests o w reqs) :
    Wp (Act o) (authorizeItems n i reqs) (fun errs w' => NoRevoke w w' ∧ Reported w' reqs errs) w := by
  induction reqs generalizing i w with
  | nil => exact .pure ⟨fun _ ha => ha, .nil⟩
  | cons r rest ih =>
    refine .bind (authorizeItem_wp (by simp) h) fun err t _ ht => ?_
    refine .bind (ih fun r' hr' => ht.2.1 r' (by simp [hr'])) fun errs u _ hu => .pure ⟨ht.1.trans hu.1, ?_⟩
    exact .cons (fun hfalse => hu.1 _ (ht.2.2 hfalse)) hu.2

lemma authorizeBatch_wp (h : Requests o w reqs) :
    Wp (Act o) (authorizeBatch reqs) (fun errs w' => NoRevoke w w' ∧ (w.mem.noBatch = false → Reported w' reqs errs)) w := by
  unfold authorizeBatch
  split
  next hnil =>
    subst hnil
    exact .pure ⟨fun _ ha => ha, fun _ => .nil⟩
  · refine .read ?_
    split
    next hno =>
      have each := Wp.mapM (R := Act o) (f := authorize) (fun rest t => NoRevoke w t ∧ Requests o t rest)
        (fun _ _ => True) (fun r rest t ht => (authorize_wp (by simp) ht.2).conseq fun _ u _ hu =>
          ⟨trivial, ht.1.trans hu.1, fun r' hr' => hu.2 r' (by simp [hr'])⟩) ⟨fun _ ha => ha, h⟩
      exact each.conseq fun _ _ _ hu => ⟨hu.2.1, fun hf => by simp [hf] at hno⟩
    · refine .bind (Idle.wp call_idle) fun n t _ hidle => ?_
      refine (authorizeItems_wp (h.idle hidle)).conseq ?_
      exact fun _ _ _ hu => ⟨(NoRevoke.idle hidle).trans hu.1, fun _ => hu.2⟩

lemma revokeItem_steps (hr : o.revokes) (ha : o.addrs a) : Steps (Act o) (revokeItem n i a) := by
  refine .bind ?_ fun err => .read fun _ => .pure
  split
  · exact .pure
  refine .bind (Idle.act outcomeOf_idle) fun out => ?_
  unfold land
  dsimp only
  split
  · exact .bind (.change fun _ => .revoked a hr ha) fun _ => .pure
  · exact .pure

lemma revokeItems_wp {l} (hr : o.revokes) (h : ∀ a ∈ l, o.addrs a) :
    Wp (Act o) (revokeItems n i l) (fun errs _ => errs.length = l.length) w := by
  induction l generalizing i w with
  | nil => exact .pure rfl
  | cons a rest ih =>
    exact .bind (revokeItem_steps hr (h a (by simp)) w) fun _ _ _ _ =>
      .bind (ih fun b hb => h b (by simp [hb])) fun _ _ _ hlen => .pure (by simp [hlen])

lemma denyBatch_wp {l} (hr : o.revokes) (h : ∀ a ∈ l, o.addrs a) :
    Wp (Act o) (denyBatch l) (fun errs _ => errs.length = l.length) w := by
  unfold denyBatch
  split
  next hnil => exact .pure (by simp [hnil])
  · refine .read ?_
    split
    · exact (Wp.mapM (fun rest _ => ∀ a ∈ rest, o.addrs a) (fun _ _ => True)
        (fun a rest t ht => (denyAccess_steps hr (ht a (by simp)) t).conseq fun _ _ _ _ =>
          ⟨trivial, fun b hb => ht b (by simp [hb])⟩) h).conseq fun _ _ _ hu => hu.1.length_eq.symm
    · exact .bind (Idle.act call_idle w) fun _ _ _ _ => revokeItems_wp hr h

lemma confirm_idle : Steps Idle confirm := .bind call_idle fun _ => .read fun _ => .pure

lemma allocEpoch_idle : Steps Idle allocEpoch := .bind call_idle fun _ => .read fun _ => .pure

lemma registerClassOrigin_idle : Steps Idle registerClassOrigin :=
  .bind call_idle fun _ => .read fun _ => .pure

lemma activate_wp {e} : Wp (Act o) (activate k e) (fun r w' => r = .ok → .answered k e ∈ w'.log) w := by
  refine .bind (Idle.wp call_idle) fun n t _ _ => .read ?_
  dsimp only
  split
  · exact .bind (.change (Q := fun _ w' => w' = { t with log := .answered k e :: t.log }) (.answered k e) rfl)
      fun _ u _ hu => .pure fun _ => by simp [hu]
  next hne => exact .pure fun h => absurd h hne

lemma setQuarantine_idle {q} : Steps Idle (setQuarantine k q) := .change fun _ => .aside

lemma persistAttempts_idle : Steps Idle persistAttempts := by
  refine .read fun w => ?_
  dsimp only
  split
  · exact .pure
  · exact perform_idle fun _ => .aside

lemma clearAttempt_idle : Steps Idle (clearAttempt k) := by
  refine .read fun w => ?_
  split
  · exact .bind (.change fun _ => .aside) fun _ => .bind persistAttempts_idle fun _ => .pure
  · exact .pure

lemma beginAttempt_idle : Steps Idle (beginAttempt k nowBoot) := by
  refine .read fun w => ?_
  split
  · exact .bind confirm_idle fun _ => .pure
  refine .bind query_idle fun bootID => ?_
  cases bootID with
  | none => exact .pure
  | some bootID =>
    refine .read fun w => ?_
    dsimp only
    split
    · exact .pure
    refine .bind setQuarantine_idle fun _ => .bind persistAttempts_idle fun err => ?_
    split
    · exact .bind (.change fun _ => .aside) fun _ => .pure
    · exact .pure

lemma endSeries_steps : Steps (Act o) (endSeries k) := .change fun _ => .endSeries k

lemma forgetProof_steps : Steps (Act o) (forgetProof k) := .change fun _ => .forget k

lemma noteProven_wp {e t} (hp : o.proves k) (hb : Backed w.log k e) :
    Wp (Act o) (noteProven k e t) (fun _ w' => Backed w'.log k e) w := .change (.proven k e t hp hb) hb

lemma takeActivation_wp : Wp (Act o) (takeActivation k) (fun r w' => r = w.pass.activations k ∧ Idle w w') w := by
  refine .read (.bind (.change (Q := fun _ w' => Idle w w') (.idle ?_) ?_) fun _ t _ ht => .pure ⟨rfl, ht⟩)
  all_goals
    refine { Idle.refl w with activations := fun k' x h => ?_ }
    rcases eq_or_ne k' k with rfl | hne
    · simp at h
    · simpa [Function.update_of_ne hne] using h

/-- A promotion that succeeds backs the generation it is taken for. -/
lemma promotion_wp (hi : Inv o.once w) : Wp (Act o) (promotion k epoch) (fun r w' => r = .ok → Backed w'.log k epoch) w := by
  refine .bind takeActivation_wp fun r t moves ht => ?_
  match r with
  | none => exact activate_wp.conseq fun _ _ _ h hr => .inl (h hr)
  | some (asked, r) =>
    dsimp only
    split
    · exact .bind (.change (Q := fun _ u => .stale k epoch ∈ u.log) (.stale k epoch) (by simp))
        fun _ u _ hu => .pure fun _ => .inr hu
    next hsame =>
      refine .pure fun hok => .inl ?_
      have hasked : asked = epoch := by simpa [hok] using hsame
      rw [ht.2.log]
      exact hasked ▸ hi.ahead k asked (hok ▸ ht.1.symm)

lemma boundAttempt_idle {q bootID} : Steps Idle (boundAttempt k q bootID nowBoot) := by
  unfold boundAttempt
  split
  · exact .pure
  refine .bind setQuarantine_idle fun _ => .bind persistAttempts_idle fun err => ?_
  split
  · exact .bind setQuarantine_idle fun _ => .pure
  · exact .pure

lemma unprovenActivation_wp : Wp (Act o) (unprovenActivation k nowBoot) (fun r _ => r ≠ .proven) w := by
  refine .bind (forgetProof_steps w) fun _ t _ _ => .read (.bind (Idle.act setQuarantine_idle _) fun _ u _ _ =>
    .bind (Idle.act query_idle u) fun bootID v _ _ => ?_)
  cases bootID with
  | none => exact .bind (Idle.act setQuarantine_idle v) fun _ _ _ _ => .pure (by simp)
  | some bootID =>
    refine .bind (Idle.act boundAttempt_idle v) fun q x _ _ => ?_
    cases q with
    | none => exact .pure (by simp)
    | some q =>
      dsimp only
      split
      · exact .pure (by simp)
      · exact .bind (Idle.act setQuarantine_idle x) fun _ y _ _ =>
          .bind (Idle.act persistAttempts_idle y) fun _ _ _ _ => .pure (by simp)

lemma Inv.recent {once} (hi : Inv once w) (h : w.mem.recentlyProven k epoch nowBoot = true) : Backed w.log k epoch := by
  unfold Mem.recentlyProven at h
  cases hp : w.mem.provenAt k with
  | none => simp [hp] at h
  | some p =>
    have he : p.epoch = epoch := by
      simp only [hp, Bool.and_eq_true, beq_iff_eq] at h
      exact h.1.1.1
    exact he ▸ hi.marked k p hp

lemma noteAnswered_wp (hp : o.proves k) : Wp (Act o) (noteAnswered k epoch nowBoot) (fun _ w' => Backed w'.log k epoch) w :=
  .bind (.change (Q := fun _ t => .answered k epoch ∈ t.log) (.answered k epoch) (by simp))
    fun _ _ _ ht => noteProven_wp hp (.inl ht)

lemma proveActive_wp (hi : Inv o.once w) (hp : o.proves k) :
    Wp (Act o) (proveActive k epoch nowBoot) (fun r w' => r = .proven → Backed w'.log k epoch) w := by
  refine .read ?_
  dsimp only
  split
  next hrecent =>
    simp only [Bool.and_eq_true] at hrecent
    exact .pure fun _ => hi.recent hrecent.2
  · refine .bind (M := fun _ _ => True) ?_ fun still t moves _ => ?_
    · split
      · exact Idle.act confirm_idle w
      · exact .pure trivial
    · split
      · exact .bind (noteAnswered_wp hp) fun _ _ _ hu => .pure fun _ => hu
      refine .bind (promotion_wp (moves_inv moves hi)) fun r u _ hr => ?_
      cases r with
      | ok =>
        refine .bind (noteProven_wp hp (hr rfl)) fun _ v _ hv => ?_
        exact .bind (Idle.wp clearAttempt_idle) fun _ x _ hx => .pure fun _ => by rw [hx.log]; exact hv
      | ended =>
        exact .bind (forgetProof_steps u) fun _ v _ _ =>
          .bind (Idle.act clearAttempt_idle v) fun _ _ _ _ => .pure (by simp)
      | failed =>
        refine .bind (Idle.act confirm_idle u) fun active v _ _ => ?_
        split
        · refine .bind (noteAnswered_wp hp) fun _ x _ hx => ?_
          exact .bind (Idle.wp clearAttempt_idle) fun _ y _ hy => .pure fun _ => by rw [hy.log]; exact hx
        · exact unprovenActivation_wp.conseq fun _ _ _ h hr => absurd hr h

lemma dropEnded_steps : Steps (Act o) (dropEnded k) :=
  .bind (.change fun _ => .idle .aside) fun _ => .bind forgetProof_steps fun _ =>
    .bind (Idle.act clearAttempt_idle) fun _ => endSeries_steps

lemma markEnded_idle : Steps Idle markEnded := by
  refine .read fun w => ?_
  split
  · refine .bind call_idle fun n => .read fun _ => ?_
    split
    · exact .pure
    · exact .bind (perform_idle Idle.refl) fun _ => .pure
  · exact .bind (perform_idle Idle.refl) fun _ => .pure

end StayConnect.Netd
