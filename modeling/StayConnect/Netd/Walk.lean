import StayConnect.Netd.MovesSession

/-!
# The moves of a walk

A walk works off the sessions of one plan (`Walk`). Besides the changes of `Act` it grants leases, takes
over its queues and assigns groups: these are its moves (`PassAct`). Between the steps of a walk
`WalkInv` holds: whatever was noted as renewable, or seen in the set when the walk began, is kept.
-/

namespace StayConnect.Netd

open Framing Prog Relation

/-- The sessions a walk shapes, one for each class, and the snapshot of the set it judges leases by. -/
structure Walk where
  desired : Table Slot Wanted
  view : GateView
  now : Nat
  nets : Bytes → List Subnet
  /-- No session is listed twice. -/
  once : Prop
  bridge : ∀ slot x, desired.lookup slot = some x → x.s.bridge = slot.device
  place : ∀ slot x, desired.lookup slot = some x → x.addr.bridge = slot.device
  minor : ∀ slot x, desired.lookup slot = some x → minorFor nets x.addr = some slot.minor
  distinct : once → ∀ slot slot' x x', desired.lookup slot = some x → desired.lookup slot' = some x' →
    x.key = x'.key → slot = slot'

def Cand.slot (c : Cand) : Slot := ⟨c.s.bridge, c.minor⟩

/-- The candidate is the session the walk shapes on its class. -/
def Walk.Has (W : Walk) (c : Cand) : Prop := W.desired.lookup c.slot = some c.toWanted

/-- The scope of the sessions on the classes `S`. -/
def Walk.scope (W : Walk) (S : Slot → Prop) : Scope where
  keys k := ∃ slot x, S slot ∧ W.desired.lookup slot = some x ∧ x.key = k
  addrs a := ∃ slot x, S slot ∧ W.desired.lookup slot = some x ∧ x.addr = a
  slots s := ∃ slot x, S slot ∧ W.desired.lookup slot = some x ∧ (s = slot ∨ s = ⟨ifbName slot.device, slot.minor⟩)
  fresh := True
  queues := True
  revokes := True
  proves k := ∃ slot x, S slot ∧ W.desired.lookup slot = some x ∧ x.key = k
  notes := True
  denies := True
  grants _ := False
  once := W.once

/-- The scope of the whole walk. -/
def Walk.all (W : Walk) : Scope := W.scope fun _ => True

section
variable {W : Walk} {S S' : Slot → Prop} {slot slot' : Slot} {x x' : Wanted} {c c' : Cand} {o o' : Scope} {w w' : World}

lemma Walk.scope_le (h : ∀ s, S s → S' s) : (W.scope S).Le (W.scope S') where
  keys := fun _ ⟨s, x, hs, hx⟩ => ⟨s, x, h s hs, hx⟩
  addrs := fun _ ⟨s, x, hs, hx⟩ => ⟨s, x, h s hs, hx⟩
  slots := fun _ ⟨s, x, hs, hx⟩ => ⟨s, x, h s hs, hx⟩
  fresh := id
  queues := id
  revokes := id
  proves := fun _ ⟨s, x, hs, hx⟩ => ⟨s, x, h s hs, hx⟩
  notes := id
  denies := id
  grants := fun _ => False.elim
  once := id

lemma Walk.scope_le_all : (W.scope S).Le W.all := W.scope_le fun _ _ => trivial

lemma Scope.Le.trans {o''} (h : o.Le o') (h' : o'.Le o'') : o.Le o'' where
  keys k hk := h'.keys k (h.keys k hk)
  addrs a ha := h'.addrs a (h.addrs a ha)
  slots s hs := h'.slots s (h.slots s hs)
  fresh hf := h'.fresh (h.fresh hf)
  queues hq := h'.queues (h.queues hq)
  revokes hr := h'.revokes (h.revokes hr)
  proves k hp := h'.proves k (h.proves k hp)
  notes hn := h'.notes (h.notes hn)
  denies hd := h'.denies (h.denies hd)
  grants a ha := h'.grants a (h.grants a ha)
  once ho := h.once (h'.once ho)

lemma Walk.slot_of_addr (h : W.desired.lookup slot = some x) (h' : W.desired.lookup slot' = some x')
    (ha : x.addr = x'.addr) : slot = slot' := by
  have hdevice : slot.device = slot'.device := by rw [← W.place slot x h, ← W.place slot' x' h', ha]
  have hminor : some slot.minor = some slot'.minor := by rw [← W.minor slot x h, ← W.minor slot' x' h', ha]
  cases slot
  cases slot'
  simp_all

lemma Walk.outside_addr (h : W.desired.lookup slot = some x) (hs : ¬ S slot) : ¬ (W.scope S).addrs x.addr := by
  rintro ⟨slot', x', hS, hx', ha⟩
  exact hs (W.slot_of_addr hx' h ha ▸ hS)

lemma Walk.outside_key (ho : W.once) (h : W.desired.lookup slot = some x) (hs : ¬ S slot) : ¬ (W.scope S).keys x.key := by
  rintro ⟨slot', x', hS, hx', hk⟩
  exact hs (W.distinct ho slot' slot x' x hx' h hk ▸ hS)

lemma Walk.covers (h : W.desired.lookup slot = some x) (hs : S slot) : Covers (W.scope S) x where
  key := ⟨slot, x, hs, h, rfl⟩
  addr := ⟨slot, x, hs, h, rfl⟩
  bridge := by rw [W.place slot x h, W.bridge slot x h]
  revokes := trivial
  denies := trivial

lemma Walk.Has.renews (h : W.Has c) (hs : S c.slot) : Renews (W.scope S) c.toWanted where
  toCovers := W.covers h hs
  queues := trivial
  notes := trivial

lemma Walk.Has.owns (h : W.Has c) (hs : S c.slot) : Owns (W.scope S) c where
  toRenews := h.renews hs
  cls := ⟨⟨c.slot, _, hs, h, .inl rfl⟩, ⟨c.slot, _, hs, h, .inr rfl⟩⟩
  proves := ⟨c.slot, _, hs, h, rfl⟩
  fresh := trivial

/-- No lease was granted for the address in this walk. -/
def Ungranted (w : World) (a : Addr) : Prop := ∀ k lease left dhcp, .granted k a lease left dhcp ∉ w.events

variable {a : Addr} {e : Event} {k : Key}

lemma Ungranted.idle (h : Ungranted w a) (hi : Idle w w') : Ungranted w' a := by
  unfold Ungranted World.events
  rw [hi.log]
  exact h

/-- One move of a walk on behalf of `o`. -/
inductive PassAct (W : Walk) (o : Scope) : World → World → Prop where
  | act {w w' : World} : Act o w w' → PassAct W o w w'
  /-- The checks have passed a session. -/
  | grant {w : World} (c : Cand) : W.Has c → o.grants c.addr → Bounded c.toWanted c.minor W.now c →
    Ungranted w c.addr →
    PassAct W o w { w with
      log := .granted c.key c.addr c.lease (w.left c.addr) (c.ev.lapses.map (· - W.now)) :: w.log }
  /-- The queued leases are about to be written. -/
  | write {w : World} : PassAct W o w { w with pass.renew := ∅ }
  /-- The queued denials are about to be carried out. -/
  | revoke {w : World} : PassAct W o w { w with pass.denies := [] }
  | groups {w : World} (slots : Table Bytes Nat) : (∀ id g, slots.lookup id = some g → isGuestMinor g = false) →
    PassAct W o w { w with mem.groupSlots := slots }

lemma PassAct.mono (le : o.Le o') (h : PassAct W o w w') : PassAct W o' w w' := by
  cases h with
  | act h => exact .act (h.mono le)
  | grant c hc ha hb hu => exact .grant c hc (le.grants _ ha) hb hu
  | write => exact .write
  | revoke => exact .revoke
  | groups slots h => exact .groups slots h

lemma PassAct.outer (h : PassAct W o w w') : Outer w w' := by
  cases h with
  | act h => exact h.outer
  | _ => exact .aside

lemma PassAct.batched (h : PassAct W o w w') : w'.pass.batched = w.pass.batched := by
  cases h with
  | act h => exact h.batched
  | _ => rfl

lemma events_record (he : e ≠ .began) : { w with log := e :: w.log }.events = e :: w.events := by
  simp [World.events, he]

lemma mem_events_record {e'} (he : e ≠ .began) (h : e' ∈ w.events) : e' ∈ { w with log := e :: w.log }.events := by
  rw [events_record he]
  exact List.mem_cons_of_mem _ h

lemma PassAct.mem_events (h : PassAct W o w w') (he : e ∈ w.events) : e ∈ w'.events := by
  cases h with
  | act h => exact h.mem_events he
  | grant c => exact mem_events_record (by simp) he
  | _ => exact he

lemma PassAct.keep_tidy (h : PassAct W o w w') (hk : ¬ o.proves k) (ht : Tidy w k) : Tidy w' k := by
  cases h with
  | act h => exact h.keep_tidy hk ht
  | _ => exact ht

lemma Leased.grant {once k' a' ttl lease left dhcp} (h : Leased once w k a ttl) :
    Leased once { w with log := .granted k' a' lease left dhcp :: w.log } k a ttl where
  granted := by
    obtain ⟨lease', left', dhcp', hm, hle⟩ := h.granted
    exact ⟨lease', left', dhcp', mem_events_record (by simp) hm, hle⟩
  proven ho := by
    refine (h.proven ho).imp_right ?_
    rintro ⟨e, he, hb⟩
    exact ⟨e, he, hb.imp (List.mem_cons_of_mem _) (List.mem_cons_of_mem _)⟩

lemma PassAct.keep_inv (ho : o.once = W.once) (h : PassAct W o w w') (hi : Inv W.once w) : Inv W.once w' := by
  cases h with
  | act h => exact ho ▸ h.keep_inv (ho ▸ hi)
  | grant c =>
    refine { hi with marked := ?_, ahead := ?_, current := ?_, queued := ?_, denied := ?_ }
    · exact fun k m hm => (hi.marked k m hm).imp (List.mem_cons_of_mem _) (List.mem_cons_of_mem _)
    · exact fun k e he => List.mem_cons_of_mem _ (hi.ahead k e he)
    · exact fun k e he => hi.current k e he
    · exact fun a r hr => ⟨(hi.queued a r hr).1, (hi.queued a r hr).2.grant⟩
    · refine fun d hd => ⟨fun hq => ?_, (hi.denied d hd).2⟩
      obtain ⟨k, hk⟩ := (hi.denied d hd).1 hq
      exact ⟨k, mem_events_record (by simp) hk⟩
  | write => exact { hi with queued := by simp }
  | revoke =>
    refine { hi with queued := fun a r hr => ⟨(hi.queued a r hr).1, ?_⟩, denied := by simp }
    exact ⟨(hi.queued a r hr).2.granted, (hi.queued a r hr).2.proven⟩
  | groups slots h =>
    refine { hi with groups := h, queued := fun a r hr => ⟨(hi.queued a r hr).1, ?_⟩ }
    exact ⟨(hi.queued a r hr).2.granted, (hi.queued a r hr).2.proven⟩

lemma PassAct.keep_unqueued (h : PassAct W o w w') (hq : ¬ o.queues) (hr : w.pass.renew = ∅) : w'.pass.renew = ∅ := by
  cases h with
  | act h => exact (h.renew_eq fun hb => hq hb.1).trans hr
  | write => rfl
  | _ => exact hr

lemma PassAct.keep_ungranted (h : PassAct W o w w') (ha : ¬ o.grants a) (hu : Ungranted w a) : Ungranted w' a := by
  intro k lease left dhcp hg
  cases h with
  | act h =>
    obtain ⟨new, hlog, hnew⟩ := h.log
    rw [events_of_log hlog hnew, List.mem_append] at hg
    exact hg.elim (hnew _) (hu k lease left dhcp)
  | grant c hc hin =>
    rw [events_record (by simp), List.mem_cons] at hg
    rcases hg with hg | hg
    · exact ha ((Event.granted.inj hg).2.1 ▸ hin)
    · exact hu k lease left dhcp hg
  | _ => exact hu k lease left dhcp hg

lemma passes_outer (moves : ReflTransGen (PassAct W o) w w') : Outer w w' :=
  keep (S := Outer w) (fun act h => h.trans act.outer) moves (Outer.refl w)

lemma PassAct.left_none (h : PassAct W o w w') (ha : ∀ r : GateLease, o.keys r.key → o.addrs r.addr → r.addr ≠ a)
    (hl : w.left a = none) : w'.left a = none := by
  cases h with
  | act h => exact h.left_none ha hl
  | _ => exact hl

section
variable (moves : ReflTransGen (PassAct W o) w w')
include moves

lemma passes_batched : w'.pass.batched = w.pass.batched :=
  keep (S := fun t => t.pass.batched = w.pass.batched) (fun act h => act.batched.trans h) moves rfl

lemma passes_tidy (hk : ¬ o.proves k)
    (h : Tidy w k) : Tidy w' k := keep (S := fun t => Tidy t k) (fun act h => act.keep_tidy hk h) moves h

lemma passes_ungranted (ha : ¬ o.grants a) (h : Ungranted w a) : Ungranted w' a :=
  keep (S := fun t => Ungranted t a) (fun act h => act.keep_ungranted ha h) moves h

end

variable {α : Type} {m : NetdM α} {Q : α → World → Prop}

lemma Wp.pass (h : Wp (Act o) m Q w) : Wp (PassAct W o) m (fun r w' => Q r w' ∧ ReflTransGen (Act o) w w') w :=
  (h.conseq fun _ _ moves hq => ⟨hq, moves⟩).mono .act

lemma Wp.wider (le : o.Le o') (h : Wp (PassAct W o) m Q w) :
    Wp (PassAct W o') m (fun r w' => Q r w' ∧ ReflTransGen (PassAct W o) w w') w :=
  (h.conseq fun _ _ moves hq => ⟨hq, moves⟩).mono fun act => act.mono le

/-- What holds throughout a walk. -/
structure Walking (W : Walk) (w : World) : Prop where
  inv : Inv W.once w
  mode : w.pass.batched = !w.mem.noBatch
  renews : ∀ a r, w.pass.renew.lookup a = some r → W.all.keys r.key ∧ W.all.addrs r.addr
  denies : ∀ d ∈ w.pass.denies, W.all.addrs d.addr

/-- What holds between the steps of a walk. -/
structure WalkInv (W : Walk) (w : World) : Prop extends Walking W w where
  settled : ∀ k a, .noted k a ∈ w.events → Kept w a
  seen : ∀ slot x, W.desired.lookup slot = some x → Seen W.view x.addr w

lemma Act.renews (h : Act o w w') (le : o.Le W.all) (hi : ∀ a r, w.pass.renew.lookup a = some r → W.all.keys r.key ∧ W.all.addrs r.addr)
    (a : Addr) (r : PendingRenew) (hr : w'.pass.renew.lookup a = some r) : W.all.keys r.key ∧ W.all.addrs r.addr := by
  cases h with
  | idle h => exact hi a r (h.renew ▸ hr)
  | renew r' _ _ hk ha =>
    rcases eq_or_ne a r'.addr with rfl | hne
    · simp only [AList.lookup_insert, Option.some.injEq] at hr
      exact hr ▸ ⟨le.keys _ hk, le.addrs _ ha⟩
    · exact hi a r (by simpa [AList.lookup_insert_ne hne] using hr)
  | _ => exact hi a r hr

lemma Act.denied_addrs (h : Act o w w') (le : o.Le W.all) (hi : ∀ d ∈ w.pass.denies, W.all.addrs d.addr)
    (d : PendingDeny) (hd : d ∈ w'.pass.denies) : W.all.addrs d.addr := by
  cases h with
  | idle h => exact hi d (h.denies ▸ hd)
  | deny d' _ _ ha =>
    rcases List.mem_append.mp hd with hd | hd
    · exact hi d hd
    · exact List.mem_singleton.mp hd ▸ le.addrs _ ha
  | _ => exact hi d hd

lemma Walking.moves (h : Walking W w) (le : o.Le W.all) (once : o.once = W.once)
    (moves : ReflTransGen (Act o) w w') : Walking W w' where
  inv := once ▸ moves_inv moves (once ▸ h.inv)
  mode := by rw [moves_batched moves, (moves_outer moves).noBatch, h.mode]
  renews := keep (S := fun t => ∀ a r, t.pass.renew.lookup a = some r → W.all.keys r.key ∧ W.all.addrs r.addr)
    (fun act hi => act.renews le hi) moves h.renews
  denies := keep (S := fun t => ∀ d ∈ t.pass.denies, W.all.addrs d.addr)
    (fun act hi => act.denied_addrs le hi) moves h.denies

/-- What was noted or seen stays kept when the kept addresses stay so and nothing is noted. -/
lemma WalkInv.of_kept (h : WalkInv W w) (h' : Walking W w') (noted : ∀ k a, .noted k a ∈ w'.events → .noted k a ∈ w.events)
    (kept : ∀ a, Kept w a → Kept w' a) : WalkInv W w' where
  toWalking := h'
  settled k a ha := kept a (h.settled k a (noted k a ha))
  seen slot x hx hv := kept _ (h.seen slot x hx hv)

lemma WalkInv.aside (h : WalkInv W w) (le : o.Le W.all) (once : o.once = W.once) (hr : ¬ o.revokes)
    (hn : ¬ o.notes) (moves : ReflTransGen (Act o) w w') : WalkInv W w' := by
  refine h.of_kept (h.toWalking.moves le once moves) (fun k a ha => ?_) fun a => moves_kept moves fun ha => hr ha.2
  exact (moves_events moves ha).resolve_right fun he => hn he.1

lemma WalkInv.idle (h : WalkInv W w) (hi : Idle w w') : WalkInv W w' :=
  h.aside (o := .bare W.once) ⟨fun _ => False.elim, fun _ => False.elim, fun _ => False.elim, False.elim,
    False.elim, False.elim, fun _ => False.elim, False.elim, False.elim, fun _ => False.elim, id⟩ rfl id id
    (.single (.idle hi))

lemma WalkInv.handled (h : WalkInv W w) (hx : W.desired.lookup slot = some x)
    (moves : ReflTransGen (Act (W.scope (· = slot))) w w') (hk : Kept w' x.addr) : WalkInv W w' := by
  have others : ∀ a, a ≠ x.addr → Kept w a → Kept w' a := by
    intro a hne
    refine moves_kept moves fun ha => ?_
    obtain ⟨slot', x', rfl, hx', rfl⟩ := ha.1
    exact hne (by rw [Option.some.inj (hx'.symm.trans hx)])
  refine ⟨h.toWalking.moves W.scope_le_all rfl moves, fun k a ha => ?_, fun slot' x' hx' hv => ?_⟩
  · rcases eq_or_ne a x.addr with rfl | hne
    · exact hk
    refine others a hne (h.settled k a ?_)
    refine (moves_events moves ha).resolve_right fun he => ?_
    obtain ⟨slot', x', rfl, hx', rfl⟩ := he.2.2
    exact hne (by rw [Option.some.inj (hx'.symm.trans hx)])
  · rcases eq_or_ne x'.addr x.addr with heq | hne
    · exact heq ▸ hk
    · exact others _ hne (h.seen slot' x' hx' hv)

end

end StayConnect.Netd
