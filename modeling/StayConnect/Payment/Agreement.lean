import StayConnect.Payment.Checkout

/-!
# Money and access agree

What a commit changes is a `Change`: statuses of settlements, states of purchases, statuses of charges, and new charges and
sweeps. It is made under the locks of its process (`Change.Under`), so that what another process has read under its own locks
stays true, and it is right (`Change.Right`), so that the tables go on to agree with what the provider reported (`Agree`).
-/

namespace StayConnect.Payment
open Transition Interleave
open Iam (Scope second)
open Commerce (Settlement SettlementStatus Purchase PurchaseState AcquisitionMethod)

/-- The settlement was paid, whatever was reversed later. -/
def paid : SettlementStatus → Bool
  | .settled | .partiallyReversed | .reversed => true
  | .notRequired | .required | .inProgress | .failed | .manualReview => false

/-- The charge is over the amount and the currency of the purchase it settles. -/
def Pinned (db : Db) (c : Charge) : Prop :=
  ∃ se ∈ db.settlements, se.id = c.settlement ∧
    ∃ pu ∈ db.purchases, pu.id = se.purchase ∧ c.amountMinor = pu.amountMinor ∧ c.currency = pu.currency

/-- The provider reported a capture of what the charge is over, for its client reference. -/
def Reported (w : World) (c : Charge) : Prop :=
  ∃ r, (c.ref, r) ∈ w.reports ∧ r.state = .captured ∧ c.agrees r

structure Agree (db : Db) (w : World) : Prop where
  settlementIDs : (db.settlements.map (·.id)).Nodup
  settlementOf : (db.settlements.map (·.purchase)).Nodup
  chargeIDs : (db.charges.map (·.id)).Nodup
  chargeOf : (db.charges.map (·.settlement)).Nodup
  refs : (db.charges.map (·.ref)).Nodup
  pinned : ∀ c ∈ db.charges, Pinned db c
  creates : ∀ x ∈ w.creates, ∃ c ∈ db.charges, c.settlement = x.1
  once : (w.creates.map (·.1)).Nodup
  captured : ∀ c ∈ db.charges, c.status = .captured → Reported w c
  settled : ∀ se ∈ db.settlements, se.method = .card → paid se.status → ∃ c ∈ db.charges, c.settlement = se.id ∧ c.status = .captured
  granted : ∀ se ∈ db.settlements, se.method = .card →
    ∀ pu ∈ db.purchases, pu.id = se.purchase → pu.state = .granted → paid se.status
  swept : ∀ sw ∈ db.sweeps, (∃ se ∈ db.settlements, se.id = sw.settlement ∧ se.status = .failed) ∧
    ∀ c ∈ db.charges, c.settlement ≠ sw.settlement

structure Change where
  settlement : Settlement → SettlementStatus
  purchase : Purchase → PurchaseState
  charge : Charge → ChargeStatus × Option String
  charges : List Charge
  sweeps : List Sweep

namespace Change

def onSettlement (d : Change) (s : Settlement) : Settlement := { s with status := d.settlement s }

def onPurchase (d : Change) (p : Purchase) : Purchase := { p with state := d.purchase p }

def onCharge (d : Change) (c : Charge) : Charge := { c with status := (d.charge c).1, providerTxnRef := (d.charge c).2 }

def still : Change := ⟨(·.status), (·.state), fun c => (c.status, c.providerTxnRef), [], []⟩

/-- The tables after the change. -/
structure Leads (d : Change) (db db' : Db) : Prop where
  settlements : db'.settlements = db.settlements.map d.onSettlement
  purchases : db'.purchases = db.purchases.map d.onPurchase
  charges : db'.charges = db.charges.map d.onCharge ++ d.charges
  sweeps : db'.sweeps = db.sweeps ++ d.sweeps

/-- Only rows whose locks are held change, and new charges come with theirs. -/
structure Under (d : Change) (held : List Lock) : Prop where
  settlement : ∀ s, .settlement s.id ∉ held → d.settlement s = s.status
  charge : ∀ c, .charge c.id ∉ held → d.charge c = (c.status, c.providerTxnRef)
  new : ∀ c ∈ d.charges, .settlement c.settlement ∈ held ∧ .ref c.ref ∈ held ∧ .charge c.id ∈ held

/-- What the invariant asks of a change. -/
structure Right (d : Change) (db : Db) (w : World) : Prop where
  /-- A settlement becomes paid with its charge. -/
  settlement : ∀ s ∈ db.settlements, paid (d.settlement s) → paid s.status ∨
    ∃ c ∈ db.charges, c.settlement = s.id ∧ (d.charge c).1 = .captured
  paid : ∀ s ∈ db.settlements, paid s.status → paid (d.settlement s)
  failed : ∀ s ∈ db.settlements, s.status = .failed → d.settlement s = .failed
  purchase : ∀ p ∈ db.purchases, d.purchase p = .granted → p.state = .granted ∨
    ∀ s ∈ db.settlements, s.purchase = p.id → Payment.paid (d.settlement s)
  /-- A charge that has ended keeps its status. -/
  terminal : ∀ c ∈ db.charges, c.status.terminal → (d.charge c).1 = c.status
  charge : ∀ c ∈ db.charges, (d.charge c).1 = .captured → c.status = .captured ∨ Reported w c
  /-- At most one charge is new. -/
  new : d.charges = [] ∨ ∃ c, d.charges = [c] ∧ c.status ≠ .captured ∧ Pinned db c ∧
    (∀ x ∈ db.charges, x.settlement ≠ c.settlement ∧ x.ref ≠ c.ref ∧ x.id ≠ c.id) ∧
    ∀ sw ∈ db.sweeps, sw.settlement ≠ c.settlement
  sweeps : ∀ sw ∈ d.sweeps, d.charges = [] ∧ (∃ s ∈ db.settlements, s.id = sw.settlement ∧ d.settlement s = .failed) ∧
    ∀ c ∈ db.charges, c.settlement ≠ sw.settlement

end Change

section
variable {d : Change} {db db' : Db} {w : World} {held : List Lock}

section
variable (leads : d.Leads db db')
include leads

lemma Change.Leads.settlement_mem {s} (h : s ∈ db.settlements) : d.onSettlement s ∈ db'.settlements := by
  rw [leads.settlements]
  exact List.mem_map_of_mem h

lemma Change.Leads.charge_mem {c} (h : c ∈ db.charges) : d.onCharge c ∈ db'.charges := by
  rw [leads.charges]
  exact List.mem_append_left _ (List.mem_map_of_mem h)

lemma Change.Leads.mem_charges {c} (h : c ∈ db'.charges) : (∃ x ∈ db.charges, d.onCharge x = c) ∨ c ∈ d.charges := by
  rw [leads.charges] at h
  rcases List.mem_append.mp h with old | new
  · exact .inl (List.mem_map.mp old)
  · exact .inr new

lemma Change.Leads.pinned {c} (h : Pinned db c) : Pinned db' c := by
  obtain ⟨se, hs, id, pu, hp, bought, amount⟩ := h
  refine ⟨d.onSettlement se, leads.settlement_mem hs, id, d.onPurchase pu, ?_, bought, amount⟩
  rw [leads.purchases]
  exact List.mem_map_of_mem hp

lemma Change.Leads.nodup_charges (right : d.Right db w) {key : Charge → Nat}
    (kept : ∀ c, key (d.onCharge c) = key c) (h : (db.charges.map key).Nodup)
    (fresh : ∀ c, d.charges = [c] → ∀ x ∈ db.charges, key x ≠ key c) : (db'.charges.map key).Nodup := by
  have old : (db.charges.map d.onCharge).map key = db.charges.map key := by
    rw [List.map_map]
    exact List.map_congr_left fun c _ => kept c
  rw [leads.charges, List.map_append, old]
  rcases right.new with none | ⟨c, one, -⟩
  · simpa [none] using h
  rw [one, List.map_singleton]
  refine List.nodup_append.mpr ⟨h, List.nodup_singleton _, fun a ha b hb => ?_⟩
  obtain ⟨x, hx, rfl⟩ := List.mem_map.mp ha
  cases List.mem_singleton.mp hb
  exact fresh c one x hx

end

lemma Change.Right.mem_new (right : d.Right db w) {c} (h : c ∈ d.charges) : c.status ≠ .captured ∧ Pinned db c ∧
    (∀ x ∈ db.charges, x.settlement ≠ c.settlement ∧ x.ref ≠ c.ref ∧ x.id ≠ c.id) ∧ ∀ sw ∈ db.sweeps, sw.settlement ≠ c.settlement := by
  rcases right.new with none | ⟨c', one, facts⟩
  · rw [none] at h
    cases h
  · rw [one] at h
    cases List.mem_singleton.mp h
    exact facts

/-- A change that is right keeps money and access in agreement. -/
lemma Agree.change (agree : Agree db w) (leads : d.Leads db db') (right : d.Right db w) : Agree db' w := by
  have fresh : ∀ c, d.charges = [c] → ∀ x ∈ db.charges, x.settlement ≠ c.settlement ∧ x.ref ≠ c.ref ∧ x.id ≠ c.id :=
    fun c one => (right.mem_new (one ▸ List.mem_singleton_self c)).2.2.1
  have settlement : ∀ s' ∈ db'.settlements, ∃ s ∈ db.settlements, d.onSettlement s = s' := by
    rw [leads.settlements]
    exact fun s' h => List.mem_map.mp h
  exact {
    settlementIDs := by
      rw [leads.settlements, List.map_map]
      exact agree.settlementIDs
    settlementOf := by
      rw [leads.settlements, List.map_map]
      exact agree.settlementOf
    chargeIDs := leads.nodup_charges right (fun _ => rfl) agree.chargeIDs fun c one x hx => (fresh c one x hx).2.2
    chargeOf := leads.nodup_charges right (fun _ => rfl) agree.chargeOf fun c one x hx => (fresh c one x hx).1
    refs := leads.nodup_charges right (fun _ => rfl) agree.refs fun c one x hx => (fresh c one x hx).2.1
    pinned := by
      intro c hc
      rcases leads.mem_charges hc with ⟨x, hx, rfl⟩ | new
      · exact leads.pinned (agree.pinned x hx)
      · exact leads.pinned (right.mem_new new).2.1
    creates := by
      intro x hx
      obtain ⟨c, hc, same⟩ := agree.creates x hx
      exact ⟨d.onCharge c, leads.charge_mem hc, same⟩
    once := agree.once
    captured := by
      intro c hc captured
      rcases leads.mem_charges hc with ⟨x, hx, rfl⟩ | new
      · rcases right.charge x hx captured with before | reported
        · exact agree.captured x hx before
        · exact reported
      · exact absurd captured (right.mem_new new).1
    settled := by
      intro s' hs' card hpaid
      obtain ⟨s, hs, rfl⟩ := settlement s' hs'
      rcases right.settlement s hs hpaid with before | ⟨c, hc, same, captured⟩
      · obtain ⟨c, hc, same, captured⟩ := agree.settled s hs card before
        refine ⟨d.onCharge c, leads.charge_mem hc, same, ?_⟩
        exact (right.terminal c hc (by rw [captured]; rfl)).trans captured
      · exact ⟨d.onCharge c, leads.charge_mem hc, same, captured⟩
    granted := by
      intro s' hs' card p' hp' bought granted
      obtain ⟨s, hs, rfl⟩ := settlement s' hs'
      rw [leads.purchases] at hp'
      obtain ⟨p, hp, rfl⟩ := List.mem_map.mp hp'
      rcases right.purchase p hp granted with before | now
      · exact right.paid s hs (agree.granted s hs card p hp bought before)
      · exact now s hs bought.symm
    swept := by
      intro sw hsw
      rw [leads.sweeps] at hsw
      rcases List.mem_append.mp hsw with old | new
      · obtain ⟨⟨s, hs, same, failed⟩, without⟩ := agree.swept sw old
        refine ⟨⟨d.onSettlement s, leads.settlement_mem hs, same, right.failed s hs failed⟩, fun c hc => ?_⟩
        rcases leads.mem_charges hc with ⟨x, hx, rfl⟩ | fresh
        · exact without x hx
        · exact ((right.mem_new fresh).2.2.2 sw old).symm
      · obtain ⟨none, ⟨s, hs, same, failed⟩, without⟩ := right.sweeps sw new
        refine ⟨⟨d.onSettlement s, leads.settlement_mem hs, same, failed⟩, fun c hc => ?_⟩
        rcases leads.mem_charges hc with ⟨x, hx, rfl⟩ | fresh
        · exact without x hx
        · rw [none] at fresh
          cases fresh }

end

def Unused (db : Db) (c : Charge) : Prop :=
  ∀ x ∈ db.charges, x.settlement ≠ c.settlement ∧ x.ref ≠ c.ref ∧ x.id ≠ c.id

def Open (db : Db) (c : Charge) : Prop := ∀ se ∈ db.settlements, se.id = c.settlement → closed se.status = false

/-- What a process may do with the outcome it applies. -/
def Evidenced (w : World) (a : Apply) (c : Charge) : Prop := a.outcome = .captured → Reported w c

def Phase.Knows (db : Db) (w : World) : Phase → Prop
  | .admission _ c => c.status ≠ .captured ∧ Pinned db c
  | .execute _ c | .insertCheckout _ c | .intended _ c => c.status ≠ .captured ∧ Pinned db c ∧ Unused db c ∧ Open db c
  | .create _ c => (∃ x ∈ db.charges, x.settlement = c.settlement) ∧ ∀ x ∈ w.creates, x.1 ≠ c.settlement
  | .resolve a => a.outcome = .captured → ∃ x ∈ db.charges, x.ref = a.ref ∧ Reported w x
  | .lockCharge a id => ∃ x ∈ db.charges, x.id = id ∧ Evidenced w a x
  | .lockSettlement a c => c ∈ db.charges ∧ c.status = .pending ∧ Evidenced w a c
  | .applied a (some (c, none)) => c ∈ db.charges ∧ c.status = a.outcome
  | .applied a (some (c, some se)) =>
      c ∈ db.charges ∧ c.status = .pending ∧ Evidenced w a c ∧ se ∈ db.settlements ∧ se.id = c.settlement
  | .query _ c _ => ∃ x ∈ db.charges, x.ref = c.ref ∧ x.amountMinor = c.amountMinor ∧ x.currency = c.currency
  | .grantPurchase _ _ se | .granted _ _ se _ => se ∈ db.settlements ∧ se.status = .settled
  | .reversed _ se status => se ∈ db.settlements ∧ paid se.status ∧ paid status
  | .scan _ swept _ | .lockSweep _ swept _ _ =>
      ∀ se ∈ swept, se ∈ db.settlements ∧ se.status = .required ∧ ∀ c ∈ db.charges, c.settlement ≠ se.id
  | _ => True

def Phase.writes : Phase → Db → Db
  | .execute _ c => insertCharge c
  | .insertCheckout _ c => beginExecution c ∘ insertCharge c
  | .intended t c => Payment.insertCheckout t c ∘ beginExecution c ∘ insertCharge c
  | .marked t c => markCheckout t c
  | .lockSettlement a c | .applied a (some (c, none)) => recordOutcome a c
  | .applied a (some (c, some se)) => settleBy a se ∘ recordOutcome a c
  | .granted _ _ se true => Payment.grantPurchase se
  | .reversed _ se status => moveSettlement se status
  | .scan _ swept _ | .lockSweep _ swept _ _ => fun db => swept.foldl sweepOne db
  | _ => id

def Phase.locks : Phase → List Lock
  | .execute _ c | .insertCheckout _ c | .intended _ c => [.settlement c.settlement, .key c.settlement, .ref c.ref, .charge c.id]
  | .create _ c => [.key c.settlement]
  | .lockSettlement _ c | .applied _ (some (c, none)) => [.charge c.id]
  | .applied _ (some (c, some se)) => [.charge c.id, .settlement se.id]
  | .grantPurchase _ _ se | .granted _ _ se _ => [.settlement se.id]
  | .reversed _ se _ => [.settlement se.id]
  | .scan _ swept _ | .lockSweep _ swept _ _ => swept.map fun se => .settlement se.id
  | _ => []

abbrev Proc := Process Db Lock Phase

structure Stands (p : Proc) (db : Db) (w : World) : Prop where
  writes : p.writes = p.here.writes
  locks : ∀ k ∈ p.here.locks, k ∈ p.held
  knows : p.here.Knows db w

lemma follow_state (se : Settlement) (status : SettlementStatus) (p : Purchase) :
    Purchase.follow se status p = { p with state := (Purchase.follow se status p).state } := by
  unfold Purchase.follow
  repeat' split
  all_goals rfl

lemma follow_granted {se status p} (h : (Purchase.follow se status p).state = .granted) : p.state = .granted := by
  unfold Purchase.follow at h
  repeat' split at h
  all_goals first
    | exact h
    | cases h

namespace Change

/-- Execution begins: the settlement, and a charge that is new. -/
def begin (c : Charge) : Change :=
  { still with
    settlement := fun s => if s.id = c.settlement then .inProgress else s.status
    charges := [{ c with status := .pending }] }

def outcome (a : Apply) (c : Charge) : Change :=
  { still with charge := fun x => if x.id = c.id then (a.outcome, x.providerTxnRef.or a.txnRef) else (x.status, x.providerTxnRef) }

/-- A settlement moves, with its purchase. -/
def move (se : Settlement) (status : SettlementStatus) (d : Change) : Change :=
  { d with
    settlement := fun s => if s.id = se.id then status else s.status
    purchase := fun p => (Purchase.follow se status p).state }

def grant (se : Settlement) : Change :=
  { still with purchase := fun p => if p.id = se.purchase then .granted else p.state }

/-- The purchase of every settlement that is swept follows it. -/
def followAll (swept : List Settlement) (p : Purchase) : Purchase :=
  swept.foldl (fun p se => p.follow { se with status := .inProgress } .failed) p

def sweep (swept : List Settlement) : Change :=
  { still with
    settlement := fun s => if s.id ∈ swept.map (·.id) then .failed else s.status
    purchase := fun p => (followAll swept p).state
    sweeps := swept.map fun se => ⟨se.id, se.purchase⟩ }

end Change

section
variable {db : Db} {w : World} {held : List Lock} {c : Charge} {a : Apply} {se : Settlement} {status : SettlementStatus}

lemma leads_still : Change.still.Leads db db where
  settlements := (List.map_id _).symm
  purchases := (List.map_id _).symm
  charges := by
    rw [show Change.still.charges = [] from rfl, List.append_nil]
    exact (List.map_id _).symm
  sweeps := (List.append_nil _).symm

lemma leads_begin {t} (unused : Unused db c) :
    (Change.begin c).Leads db (insertCheckout t c (beginExecution c (insertCharge c db))) where
  settlements := by
    refine List.map_congr_left fun s _ => ?_
    unfold Change.onSettlement Change.begin
    by_cases hit : s.id = c.settlement <;> simp [hit]
  purchases := (List.map_id _).symm
  charges := by
    have old : ∀ x ∈ db.charges, (if x.id = c.id then { x with status := .pending } else x) = (Change.begin c).onCharge x :=
      fun x hx => if_neg (unused x hx).2.2
    change (db.charges ++ [c]).map _ = _
    rw [List.map_append, List.map_congr_left old, List.map_singleton, if_pos rfl]
    rfl
  sweeps := (List.append_nil _).symm

lemma leads_outcome : (Change.outcome a c).Leads db (recordOutcome a c db) where
  __ := @leads_still db
  charges := by
    rw [show (Change.outcome a c).charges = [] from rfl, List.append_nil]
    refine List.map_congr_left fun x _ => ?_
    unfold Change.onCharge Change.outcome Charge.move
    by_cases hit : x.id = c.id <;> simp [hit]

variable {d : Change} {swept : List Settlement} {next : Phase}

lemma leads_move {db'} (leads : d.Leads db db') (settlements : db'.settlements = db.settlements)
    (purchases : db'.purchases = db.purchases) : (d.move se status).Leads db (moveSettlement se status db') where
  settlements := by
    change db'.settlements.map _ = _
    rw [settlements]
    refine List.map_congr_left fun s _ => ?_
    unfold Change.onSettlement Change.move
    by_cases hit : s.id = se.id <;> simp [hit]
  purchases := by
    change db'.purchases.map _ = _
    rw [purchases]
    exact List.map_congr_left fun p _ => follow_state se status p
  charges := leads.charges
  sweeps := leads.sweeps

lemma leads_grant : (Change.grant se).Leads db (grantPurchase se db) where
  __ := @leads_still db
  purchases := by
    refine List.map_congr_left fun p _ => ?_
    unfold Change.onPurchase Change.grant
    by_cases hit : p.id = se.purchase <;> simp [hit]

lemma foldl_sweepOne (swept : List Settlement) (db : Db) :
    (swept.foldl sweepOne db).settlements = db.settlements.map (Change.sweep swept).onSettlement ∧
    (swept.foldl sweepOne db).purchases = db.purchases.map (Change.followAll swept) ∧
    (swept.foldl sweepOne db).charges = db.charges ∧ (swept.foldl sweepOne db).sweeps = db.sweeps ++ (Change.sweep swept).sweeps := by
  induction swept generalizing db with
  | nil => exact ⟨(List.map_id _).symm, (List.map_id _).symm, rfl, (List.append_nil _).symm⟩
  | cons se rest ih =>
    obtain ⟨settlements, purchases, charges, sweeps⟩ := ih (sweepOne db se)
    refine ⟨?_, ?_, charges, ?_⟩
    · rw [List.foldl_cons, settlements]
      change (db.settlements.map _).map _ = _
      rw [List.map_map]
      refine List.map_congr_left fun s _ => ?_
      unfold Change.onSettlement Change.sweep
      by_cases hit : s.id = se.id <;> by_cases later : s.id ∈ rest.map (·.id) <;> simp_all
    · rw [List.foldl_cons, purchases]
      change (db.purchases.map _).map _ = _
      rw [List.map_map]
      rfl
    · rw [List.foldl_cons, sweeps]
      change (db.sweeps ++ [_]) ++ _ = _
      rw [List.append_assoc]
      rfl

lemma followAll_state (swept : List Settlement) (p : Purchase) :
    Change.followAll swept p = { p with state := (Change.followAll swept p).state } := by
  induction swept generalizing p with
  | nil => rfl
  | cons se rest ih =>
    unfold Change.followAll at ih ⊢
    rw [List.foldl_cons, ih, follow_state]

lemma followAll_granted {p} (h : (Change.followAll swept p).state = .granted) : p.state = .granted := by
  induction swept generalizing p with
  | nil => exact h
  | cons se rest ih => exact follow_granted (ih h)

lemma leads_sweep : (Change.sweep swept).Leads db (swept.foldl sweepOne db) := by
  obtain ⟨settlements, purchases, charges, sweeps⟩ := foldl_sweepOne swept db
  refine ⟨settlements, purchases.trans ?_, charges.trans leads_still.charges, sweeps⟩
  exact List.map_congr_left fun p _ => followAll_state swept p

lemma under_still : Change.still.Under held := ⟨fun _ _ => rfl, fun _ _ => rfl, nofun⟩

lemma under_begin (settlement : .settlement c.settlement ∈ held) (ref : .ref c.ref ∈ held) (charge : .charge c.id ∈ held) :
    (Change.begin c).Under held where
  settlement s free := if_neg fun same : s.id = c.settlement => free (same ▸ settlement)
  charge _ _ := rfl
  new x hx := by
    cases List.mem_singleton.mp hx
    exact ⟨settlement, ref, charge⟩

lemma under_outcome (charge : .charge c.id ∈ held) : (Change.outcome a c).Under held where
  __ := @under_still held
  charge x free := if_neg fun same : x.id = c.id => free (same ▸ charge)

lemma under_move (under : d.Under held) (settlement : .settlement se.id ∈ held) : (d.move se status).Under held where
  __ := under
  settlement s free := if_neg fun same : s.id = se.id => free (same ▸ settlement)

lemma under_sweep (locks : ∀ k ∈ swept.map (fun se => Lock.settlement se.id), k ∈ held) : (Change.sweep swept).Under held where
  __ := @under_still held
  settlement s free := by
    refine if_neg fun hit => free ?_
    obtain ⟨se, hse, same⟩ := List.mem_map.mp hit
    exact same ▸ locks _ (List.mem_map_of_mem (f := fun se : Settlement => Lock.settlement se.id) hse)

lemma right_still : Change.still.Right db w where
  settlement _ _ h := .inl h
  paid _ _ h := h
  failed _ _ h := h
  purchase _ _ h := .inl h
  terminal _ _ _ := rfl
  charge _ _ h := .inl h
  new := .inl rfl
  sweeps _ h := nomatch h

lemma paid_closed {status} (h : paid status) : closed status = true := by
  cases status <;> first | rfl | cases h

lemma right_begin (agree : Agree db w) (pinned : Pinned db c) (unused : Unused db c) (isOpen : Open db c) :
    (Change.begin c).Right db w := by
  -- a settlement that is closed is not the one of the charge
  have kept : ∀ s ∈ db.settlements, closed s.status = true → (Change.begin c).settlement s = s.status := by
    refine fun s hs h => if_neg fun same => ?_
    rw [isOpen s hs same] at h
    cases h
  exact { @right_still db w with
    settlement := by
      intro s hs h
      by_cases hit : s.id = c.settlement
      · simp [Change.begin, hit, paid] at h
      · simp only [Change.begin, if_neg hit] at h
        exact .inl h
    paid := fun s hs h => by rwa [kept s hs (paid_closed h)]
    failed := fun s hs h => (kept s hs (by rw [h]; rfl)).trans h
    purchase := fun _ _ h => .inl h
    new := by
      refine .inr ⟨_, rfl, nofun, pinned, unused, fun sw hsw same => ?_⟩
      obtain ⟨⟨s, hs, id, failed⟩, -⟩ := agree.swept sw hsw
      have stillOpen := isOpen s hs (id.trans same)
      rw [failed] at stillOpen
      cases stillOpen
    sweeps := nofun }

lemma right_outcome (agree : Agree db w) (mem : c ∈ db.charges) (moves : c.status = .pending ∨ c.status = a.outcome)
    (evidenced : c.status ≠ a.outcome → Evidenced w a c) : (Change.outcome a c).Right db w := by
  have row : ∀ x ∈ db.charges, x.id = c.id → x = c := fun x hx same => List.inj_on_of_nodup_map agree.chargeIDs hx mem same
  exact { @right_still db w with
    settlement := fun _ _ h => .inl h
    terminal := by
      intro x hx terminal
      by_cases hit : x.id = c.id
      · cases row x hx hit
        rcases moves with pending | same
        · rw [pending] at terminal
          cases terminal
        · simp [Change.outcome, same]
      · simp [Change.outcome, hit]
    charge := by
      intro x hx captured
      by_cases hit : x.id = c.id
      · cases row x hx hit
        simp only [Change.outcome, if_true] at captured
        by_cases same : c.status = a.outcome
        · exact .inl (same.trans captured)
        · exact .inr (evidenced same captured)
      · simp only [Change.outcome, if_neg hit] at captured
        exact .inl captured }

/-- A settlement moves on: it keeps what was paid or failed, and it becomes paid with its charge. -/
lemma right_move (agree : Agree db w) (right : d.Right db w) (mem : se ∈ db.settlements) (alone : d.sweeps = [])
    (stays : paid se.status → paid status) (ended : se.status ≠ .failed)
    (pays : paid status → paid se.status ∨ ∃ c ∈ db.charges, c.settlement = se.id ∧ (d.charge c).1 = .captured) :
    (d.move se status).Right db w := by
  have row : ∀ s ∈ db.settlements, s.id = se.id → s = se := fun s hs same => List.inj_on_of_nodup_map agree.settlementIDs hs mem same
  exact { right with
    settlement := by
      intro s hs h
      by_cases hit : s.id = se.id
      · cases row s hs hit
        simp only [Change.move, if_true] at h
        exact pays h
      · simp only [Change.move, if_neg hit] at h
        exact .inl h
    paid := by
      intro s hs h
      by_cases hit : s.id = se.id
      · cases row s hs hit
        simpa only [Change.move, if_true] using stays h
      · simpa only [Change.move, if_neg hit] using h
    failed := by
      intro s hs h
      by_cases hit : s.id = se.id
      · cases row s hs hit
        exact absurd h ended
      · simpa only [Change.move, if_neg hit] using h
    purchase := fun _ _ h => .inl (follow_granted h)
    sweeps := by
      intro sw h
      rw [show (d.move se status).sweeps = d.sweeps from rfl, alone] at h
      cases h }

lemma right_grant (agree : Agree db w) (mem : se ∈ db.settlements) (settled : se.status = .settled) : (Change.grant se).Right db w where
  __ := @right_still db w
  purchase p _ h := by
    by_cases hit : p.id = se.purchase
    · refine .inr fun s hs bought => ?_
      cases List.inj_on_of_nodup_map agree.settlementOf hs mem (bought.trans hit)
      change paid se.status = true
      rw [settled]
      rfl
    · simp only [Change.grant, if_neg hit] at h
      exact .inl h

lemma right_sweep (agree : Agree db w)
    (knows : ∀ se ∈ swept, se ∈ db.settlements ∧ se.status = .required ∧ ∀ c ∈ db.charges, c.settlement ≠ se.id) :
    (Change.sweep swept).Right db w := by
  have row : ∀ s ∈ db.settlements, s.id ∈ swept.map (·.id) → s.status = .required := by
    intro s hs hit
    obtain ⟨se, hse, same⟩ := List.mem_map.mp hit
    obtain ⟨mem, required, -⟩ := knows se hse
    cases List.inj_on_of_nodup_map agree.settlementIDs mem hs same
    exact required
  exact { @right_still db w with
    settlement := by
      intro s hs h
      by_cases hit : s.id ∈ swept.map (·.id)
      · simp only [Change.sweep, if_pos hit] at h
        cases h
      · simp only [Change.sweep, if_neg hit] at h
        exact .inl h
    paid := by
      intro s hs h
      by_cases hit : s.id ∈ swept.map (·.id)
      · rw [row s hs hit] at h
        cases h
      · simpa only [Change.sweep, if_neg hit] using h
    failed := by
      intro s hs h
      by_cases hit : s.id ∈ swept.map (·.id)
      · rw [row s hs hit] at h
        cases h
      · simpa only [Change.sweep, if_neg hit] using h
    purchase := fun _ _ h => .inl (followAll_granted h)
    sweeps := by
      intro sw h
      obtain ⟨se, hse, rfl⟩ := List.mem_map.mp h
      obtain ⟨mem, -, without⟩ := knows se hse
      refine ⟨rfl, ⟨se, mem, rfl, ?_⟩, without⟩
      simp only [Change.sweep, if_pos (List.mem_map_of_mem (f := fun s : Settlement => s.id) hse)] }

lemma target_inProgress {o} (h : target o = some status) : paid status → o = .captured := by
  cases o <;> cases h <;> intro paid <;> first | rfl | cases paid

/-- The commit of a process is a change under its locks that is right. -/
lemma commit_change {p kept} (agree : Agree db w) (stands : Stands p db w)
    (commits : Commits p.here kept next) : ∃ d : Change, d.Leads db (p.view db) ∧ d.Under p.held ∧ d.Right db w := by
  obtain ⟨here, writes, held⟩ := p
  obtain ⟨wrote, locks, knows⟩ := stands
  change writes = here.writes at wrote
  subst wrote
  have still : ∃ d : Change, d.Leads db db ∧ d.Under held ∧ d.Right db w := ⟨.still, leads_still, under_still, right_still⟩
  cases commits with
  | @intended t c =>
    obtain ⟨-, pinned, unused, isOpen⟩ := knows
    refine ⟨.begin c, leads_begin unused, under_begin ?_ ?_ ?_, right_begin agree pinned unused isOpen⟩
    all_goals exact locks _ (by simp [Phase.locks])
  | marked | markedNotCreated =>
    exact ⟨.still, ⟨leads_still.settlements, leads_still.purchases, leads_still.charges, leads_still.sweeps⟩, under_still, right_still⟩
  | @applied a row =>
    match row with
    | none => exact still
    | some (c, none) =>
      obtain ⟨mem, same⟩ := knows
      exact ⟨.outcome a c, leads_outcome, under_outcome (locks _ (by simp [Phase.locks])),
        right_outcome agree mem (.inr same) fun differs => absurd same differs⟩
    | some (c, some se) =>
      obtain ⟨mem, pending, evidenced, settlement, same⟩ := knows
      have right := right_outcome agree mem (.inl pending) fun _ => evidenced
      have under : (Change.outcome a c).Under held := under_outcome (locks (.charge c.id) (by simp [Phase.locks]))
      change ∃ d : Change, d.Leads db (settleBy a se (recordOutcome a c db)) ∧ _
      unfold settleBy
      split
      next status target =>
        split
        · rename_i inProgress
          refine ⟨(Change.outcome a c).move se status, leads_move leads_outcome rfl rfl,
            under_move under (locks _ (by simp [Phase.locks])), right_move agree right settlement rfl ?_ ?_ ?_⟩
          · rw [inProgress]
            nofun
          · rw [inProgress]
            nofun
          · intro paid
            refine .inr ⟨c, mem, same.symm, ?_⟩
            simpa only [Change.outcome, if_true] using target_inProgress target paid
        · exact ⟨_, leads_outcome, under, right⟩
      · exact ⟨_, leads_outcome, under, right⟩
  | @granted t last se new =>
    cases new with
    | false => exact still
    | true =>
      obtain ⟨mem, settled⟩ := knows
      exact ⟨.grant se, leads_grant, ⟨fun _ _ => rfl, fun _ _ => rfl, nofun⟩, right_grant agree mem settled⟩
  | @reversed t se status =>
    obtain ⟨mem, before, after⟩ := knows
    refine ⟨Change.still.move se status, leads_move leads_still rfl rfl, under_move under_still (locks _ (by simp [Phase.locks])),
      right_move agree right_still mem rfl (fun _ => after) ?_ (fun _ => .inl before)⟩
    intro failed
    rw [failed] at before
    cases before
  | swept => exact ⟨.sweep _, leads_sweep, under_sweep locks, right_sweep agree knows⟩

section
variable {d : Change} {db' : Db} {here : Phase}

section
variable (leads : d.Leads db db') (under : d.Under held)
include leads under

lemma Change.Leads.settlement_kept (free : .settlement se.id ∉ held) (mem : se ∈ db.settlements) : se ∈ db'.settlements := by
  have same : d.onSettlement se = se := by rw [Change.onSettlement, under.settlement se free]
  exact same ▸ leads.settlement_mem mem

lemma Change.Leads.charge_kept (free : .charge c.id ∉ held) (mem : c ∈ db.charges) : c ∈ db'.charges := by
  have same : d.onCharge c = c := by rw [Change.onCharge, under.charge c free]
  exact same ▸ leads.charge_mem mem

lemma Unused.touched (settlement : .settlement c.settlement ∉ held)
    (ref : .ref c.ref ∉ held) (charge : .charge c.id ∉ held) (unused : Unused db c) : Unused db' c := by
  intro x hx
  rcases leads.mem_charges hx with ⟨y, hy, rfl⟩ | new
  · exact unused y hy
  · obtain ⟨h₁, h₂, h₃⟩ := under.new x new
    exact ⟨fun e => settlement (e ▸ h₁), fun e => ref (e ▸ h₂), fun e => charge (e ▸ h₃)⟩

lemma Open.touched (settlement : .settlement c.settlement ∉ held) (isOpen : Open db c) : Open db' c := by
  intro s' hs' same
  rw [leads.settlements] at hs'
  obtain ⟨s, hs, rfl⟩ := List.mem_map.mp hs'
  change closed (d.settlement s) = false
  rw [under.settlement s (by rw [show s.id = c.settlement from same]; exact settlement)]
  exact isOpen s hs same

/-- The commits of others leave what a process knows, since they hold none of its locks. -/
lemma Phase.Knows.touched (free : ∀ k ∈ here.locks, k ∉ held) (knows : here.Knows db w) : here.Knows db' w := by
  cases here with
  | admission => exact ⟨knows.1, leads.pinned knows.2⟩
  | execute | insertCheckout | intended =>
    simp only [Phase.locks, List.forall_mem_cons] at free
    obtain ⟨settlement, -, ref, charge, -⟩ := free
    obtain ⟨status, pinned, unused, isOpen⟩ := knows
    exact ⟨status, leads.pinned pinned, unused.touched leads under settlement ref charge, isOpen.touched leads under settlement⟩
  | create =>
    obtain ⟨⟨x, hx, same⟩, first⟩ := knows
    exact ⟨⟨d.onCharge x, leads.charge_mem hx, same⟩, first⟩
  | resolve a =>
    intro captured
    obtain ⟨x, hx, same, reported⟩ := knows captured
    exact ⟨d.onCharge x, leads.charge_mem hx, same, reported⟩
  | lockCharge =>
    obtain ⟨x, hx, same, evidenced⟩ := knows
    exact ⟨d.onCharge x, leads.charge_mem hx, same, evidenced⟩
  | lockSettlement => exact ⟨leads.charge_kept under (free _ (by simp [Phase.locks])) knows.1, knows.2⟩
  | applied a row =>
    match row with
    | none => trivial
    | some (c, none) => exact ⟨leads.charge_kept under (free _ (by simp [Phase.locks])) knows.1, knows.2⟩
    | some (c, some se) =>
      obtain ⟨mem, pending, evidenced, settlement, same⟩ := knows
      exact ⟨leads.charge_kept under (free _ (by simp [Phase.locks])) mem, pending, evidenced,
        leads.settlement_kept under (free _ (by simp [Phase.locks])) settlement, same⟩
  | query =>
    obtain ⟨x, hx, same⟩ := knows
    exact ⟨d.onCharge x, leads.charge_mem hx, same⟩
  | grantPurchase | granted | reversed =>
    exact ⟨leads.settlement_kept under (free _ (by simp [Phase.locks])) knows.1, knows.2⟩
  | scan | lockSweep =>
    intro se hse
    obtain ⟨mem, required, without⟩ := knows se hse
    have unlocked : .settlement se.id ∉ held := free _ (List.mem_map_of_mem (f := fun s : Settlement => Lock.settlement s.id) hse)
    refine ⟨leads.settlement_kept under unlocked mem, required, fun c hc same => ?_⟩
    rcases leads.mem_charges hc with ⟨x, hx, rfl⟩ | new
    · exact without x hx same
    · exact unlocked (same ▸ (under.new c new).1)
  | select | mark | marked | load | recheck | grant | reverse | ended => trivial

end

lemma Reported.mono {w'} (reports : w.reports ⊆ w'.reports) (h : Reported w c) : Reported w' c := by
  obtain ⟨r, mem, captured, agrees⟩ := h
  exact ⟨r, reports mem, captured, agrees⟩

/-- The provider only reports more; a process about to create a checkout is the only one for its settlement. -/
lemma Phase.Knows.world {w'} (reports : w.reports ⊆ w'.reports)
    (creates : ∀ t c, here = .create t c → ∀ x ∈ w'.creates, x ∈ w.creates ∨ x.1 ≠ c.settlement)
    (knows : here.Knows db w) : here.Knows db w' := by
  cases here with
  | create t c =>
    refine ⟨knows.1, fun x hx => ?_⟩
    rcases creates t c rfl x hx with old | other
    · exact knows.2 x old
    · exact other
  | resolve a =>
    intro captured
    obtain ⟨x, hx, same, reported⟩ := knows captured
    exact ⟨x, hx, same, reported.mono reports⟩
  | lockCharge =>
    obtain ⟨x, hx, same, evidenced⟩ := knows
    exact ⟨x, hx, same, fun captured => (evidenced captured).mono reports⟩
  | lockSettlement => exact ⟨knows.1, knows.2.1, fun captured => (knows.2.2 captured).mono reports⟩
  | applied a row =>
    match row with
    | none => trivial
    | some (c, none) => exact knows
    | some (c, some se) =>
      obtain ⟨mem, pending, evidenced, settlement⟩ := knows
      exact ⟨mem, pending, fun captured => (evidenced captured).mono reports, settlement⟩
  | _ => exact knows

end

lemma stands_statement {p locks write} (agree : Agree db w) (stands : Stands p db w)
    (statement : Statement (p.view db) p.here locks write next) : Stands (p.extend locks write next) db w := by
  obtain ⟨here, writes, held⟩ := p
  obtain ⟨wrote, old, knows⟩ := stands
  change writes = here.writes at wrote
  subst wrote
  have mine : ∀ k ∈ locks, k ∈ held ++ locks := fun k h => List.mem_append_right _ h
  have before : ∀ k ∈ here.locks, k ∈ held ++ locks := fun k h => List.mem_append_left _ (old k h)
  cases statement with
  | select settlement bought same =>
    exact ⟨rfl, nofun, nofun, _, settlement, rfl, _, bought, same, rfl, rfl⟩
  | admission found stillOpen unused =>
    refine ⟨rfl, mine, knows.1, knows.2, unused, fun s hs same => ?_⟩
    obtain ⟨mem, id⟩ := Db.settlement_mem found
    cases List.inj_on_of_nodup_map agree.settlementIDs hs mem (same.trans id.symm)
    exact stillOpen
  | execute | insertCheckout | grantExisting | grantPurchase | scan | pass | skip => exact ⟨rfl, before, knows⟩
  | mark | duplicate | loadResolved | recheck | recheckEnded => exact ⟨rfl, nofun, trivial⟩
  | @resolve a c mem same =>
    refine ⟨rfl, nofun, c, mem, rfl, fun captured => ?_⟩
    obtain ⟨x, hx, ref, reported⟩ := knows captured
    cases List.inj_on_of_nodup_map agree.refs hx mem (ref.trans same.symm)
    exact reported
  | noop mem _ same => exact ⟨rfl, mine, mem, same⟩
  | lockCharge mem same pending =>
    obtain ⟨x, hx, id, evidenced⟩ := knows
    cases List.inj_on_of_nodup_map agree.chargeIDs hx mem (id.trans same.symm)
    exact ⟨rfl, mine, mem, pending, evidenced⟩
  | lockSettlement mem same =>
    refine ⟨rfl, ?_, knows.1, knows.2.1, knows.2.2, mem, same⟩
    intro k hk
    rcases List.mem_cons.mp hk with rfl | hk
    · exact before _ (by simp [Phase.locks])
    · cases List.mem_singleton.mp hk
      exact mine _ (by simp)
  | load mem => exact ⟨rfl, nofun, _, mem, rfl, rfl, rfl⟩
  | grant mem settled => exact ⟨rfl, mine, mem, settled⟩
  | reverse mem start after =>
    refine ⟨rfl, mine, mem, ?_, ?_⟩
    · rcases start with h | h <;> rw [h] <;> rfl
    · rcases after with h | h <;> rw [h] <;> rfl
  | @sweep t swept id rest se mem required without =>
    obtain ⟨settlements, -, charges, -⟩ := foldl_sweepOne swept db
    refine ⟨?_, ?_, ?_⟩
    · funext x
      change sweepOne (swept.foldl sweepOne x) se = (swept ++ [se]).foldl sweepOne x
      rw [List.foldl_append]
      rfl
    · intro k hk
      obtain ⟨s, hs, rfl⟩ := List.mem_map.mp hk
      rcases List.mem_append.mp hs with earlier | last
      · exact before _ (List.mem_map_of_mem (f := fun s : Settlement => Lock.settlement s.id) earlier)
      · cases List.mem_singleton.mp last
        exact mine _ (by simp)
    · intro s hs
      rcases List.mem_append.mp hs with earlier | last
      · exact knows s earlier
      cases List.mem_singleton.mp last
      have mem : se ∈ (swept.foldl sweepOne db).settlements := mem
      rw [settlements] at mem
      obtain ⟨s, there, same⟩ := List.mem_map.mp mem
      -- a settlement that is swept already has failed
      by_cases hit : s.id ∈ swept.map (·.id)
      · rw [← same, Change.onSettlement, show (Change.sweep swept).settlement s = .failed from if_pos hit] at required
        cases required
      · rw [Change.onSettlement, show (Change.sweep swept).settlement s = s.status from if_neg hit] at same
        cases same
        exact ⟨there, required, charges ▸ without⟩

lemma queryAndApply_captured {t k} (h : queryAndApply t c k = some a) (captured : a.outcome = .captured) :
    a.ref = c.ref ∧ ∃ r, t.answer = .report r ∧ r.state = .captured ∧ c.agrees r := by
  unfold queryAndApply at h
  split at h
  · cases h
  · split at h
    · cases h
      cases captured
    · cases h
  next r answer =>
    split at h
    · rename_i state
      split at h
      · rename_i ok
        cases h
        simp only [Bool.and_eq_true] at ok
        exact ⟨rfl, r, answer, state, ok.1⟩
      · cases h
        cases captured
    all_goals
      repeat' split at h
      all_goals cases h
      all_goals cases captured

lemma queryStatus_reports (t : ReconcileTask) (c : Charge) (w : World) : w.reports ⊆ (queryStatus t c w).reports := by
  unfold queryStatus
  split
  · exact List.subset_append_left _ _
  · exact List.Subset.refl _
  · exact List.Subset.refl _

lemma queryStatus_creates (t : ReconcileTask) (c : Charge) (w : World) : (queryStatus t c w).creates = w.creates := by
  unfold queryStatus
  split <;> rfl

lemma Restarts.stands (h : Restarts next) : Stands (.fresh next) db w := by
  cases h with
  | ended | recheck | reverse => exact ⟨rfl, nofun, trivial⟩

lemma stands_committed {p kept} (agree : Agree db w) (stands : Stands p db w)
    (commits : Commits p.here kept next) : Stands (p.commit kept next) (p.view db) w := by
  obtain ⟨here, writes, held⟩ := p
  obtain ⟨wrote, locks, knows⟩ := stands
  change writes = here.writes at wrote
  subst wrote
  have restart {next : Phase} (h : Restarts next) : Stands ((⟨here, here.writes, held⟩ : Proc).commit kept next) (here.writes db) w := by
    obtain ⟨writes, -, knows⟩ : Stands (.fresh next) (here.writes db) w := h.stands
    exact ⟨writes, by cases h <;> exact nofun, knows⟩
  cases commits with
  | @intended t c =>
    obtain ⟨-, -, unused, -⟩ := knows
    refine ⟨rfl, ?_, ⟨{ c with status := .pending }, ?_, rfl⟩, fun x hx same => ?_⟩
    · intro k hk
      cases List.mem_singleton.mp hk
      exact List.mem_filter.mpr ⟨locks _ (by simp [Phase.locks]), by simp⟩
    · change _ ∈ (insertCheckout t c (beginExecution c (insertCharge c db))).charges
      rw [(leads_begin unused).charges]
      exact List.mem_append_right _ (List.mem_singleton_self _)
    · obtain ⟨y, hy, created⟩ := agree.creates x hx
      exact (unused y hy).1 (created.trans same)
  | marked | swept => exact restart .ended
  | markedNotCreated => exact ⟨rfl, nofun, nofun⟩
  | @applied a row =>
    unfold Apply.goesOnApplied
    split
    · exact restart .ended
    · split
      · exact ⟨rfl, nofun, trivial⟩
      · exact restart .recheck
  | granted => exact restart (afterGrant_restarts _ _ _)
  | reversed => exact restart .recheck

lemma stands_call {p effect} (agree : Agree db w) (stands : Stands p db w)
    (calls : Calls p.here effect next) : Agree db (effect w) ∧ Stands (p.moved next) db (effect w) := by
  obtain ⟨here, writes, held⟩ := p
  obtain ⟨wrote, locks, knows⟩ := stands
  change writes = here.writes at wrote
  subst wrote
  cases calls with
  | @create t c =>
    obtain ⟨⟨x, hx, same⟩, first⟩ := knows
    refine ⟨{ agree with creates := ?_, once := ?_, captured := agree.captured }, rfl, nofun, trivial⟩
    · intro y hy
      rcases List.mem_append.mp hy with old | new
      · exact agree.creates y old
      · cases List.mem_singleton.mp new
        exact ⟨x, hx, same⟩
    · change ((w.creates ++ [_]).map _).Nodup
      rw [List.map_append]
      refine List.nodup_append.mpr ⟨agree.once, List.nodup_singleton _, fun a ha b hb => ?_⟩
      obtain ⟨y, hy, rfl⟩ := List.mem_map.mp ha
      cases List.mem_singleton.mp hb
      exact first y hy
  | @query t c k =>
    have creates := queryStatus_creates t c w
    refine ⟨{ agree with creates := ?_, once := ?_, captured := ?_ }, ?_⟩
    · exact creates ▸ agree.creates
    · exact creates ▸ agree.once
    · exact fun x hx captured => (agree.captured x hx captured).mono (queryStatus_reports t c w)
    unfold afterQuery
    split
    · exact ⟨rfl, nofun, trivial⟩
    next a applied =>
      refine ⟨rfl, nofun, fun captured => ?_⟩
      obtain ⟨ref, r, answer, state, agrees⟩ := queryAndApply_captured applied captured
      obtain ⟨x, hx, sameRef, amount, currency⟩ := knows
      refine ⟨x, hx, sameRef.trans ref.symm, r, ?_, state, ?_⟩
      · simp [queryStatus, answer, sameRef]
      · unfold Charge.agrees at agrees ⊢
        rw [amount, currency]
        exact agrees

end

lemma payments_invariant : Invariant payments (fun _ => True) Anytime Agree Stands where
  start r _ _ := by
    cases r with
    | start | reconcile => exact ⟨rfl, nofun, trivial⟩
    | sweep t =>
      change Stands (.fresh (if t.age < 600 ∨ 7 * 86400 < t.age then .ended else .scan t [] t.picks)) _ _
      split
      · exact ⟨rfl, nofun, trivial⟩
      · exact ⟨rfl, nofun, nofun⟩
  statement agree stands _ act := stands_statement agree stands (statement_of_act act)
  commit agree stands _ act := by
    have commits := commits_of_act act
    obtain ⟨d, leads, -, right⟩ := commit_change agree stands commits
    exact ⟨agree.change leads right, stands_committed agree stands commits⟩
  commit_other agree stands _ act other disjoint := by
    obtain ⟨d, leads, under, -⟩ := commit_change agree stands (commits_of_act act)
    refine ⟨other.writes, other.locks, other.knows.touched leads under fun k hk held => ?_⟩
    exact disjoint k held (other.locks k hk)
  rollback _ _ _ act := (restarts_of_act act).stands
  call agree stands _ act := stands_call agree stands (calls_of_act act)
  call_other {db w p effect next q} _ stands _ act other disjoint := by
    refine ⟨other.writes, other.locks, ?_⟩
    have calls := calls_of_act act
    obtain ⟨here, writes, held⟩ := p
    cases calls with
    | @create t c =>
      refine other.knows.world (List.Subset.refl w.reports) fun t' c' here x hx => ?_
      rcases List.mem_append.mp hx with old | new
      · exact .inl old
      cases List.mem_singleton.mp new
      -- both would hold the key of the settlement
      refine .inr fun same : c.settlement = c'.settlement => ?_
      refine disjoint (.key c.settlement) (stands.locks _ (by simp [Phase.locks])) (other.locks _ ?_)
      simp [here, Phase.locks, same]
    | query =>
      refine other.knows.world (queryStatus_reports _ _ w) fun _ _ _ x hx => .inl ?_
      rwa [queryStatus_creates] at hx

/-- Before any card payment. -/
structure Untouched (db : Db) : Prop where
  settlementIDs : (db.settlements.map (·.id)).Nodup
  settlementOf : (db.settlements.map (·.purchase)).Nodup
  charges : db.charges = []
  sweeps : db.sweeps = []
  unpaid : ∀ se ∈ db.settlements, se.method = .card → paid se.status = false
  ungranted : ∀ se ∈ db.settlements, se.method = .card → ∀ pu ∈ db.purchases, pu.id = se.purchase → pu.state ≠ .granted

lemma Untouched.agree {db} (h : Untouched db) : Agree db ⟨[], []⟩ where
  settlementIDs := h.settlementIDs
  settlementOf := h.settlementOf
  chargeIDs := by simp [h.charges]
  chargeOf := by simp [h.charges]
  refs := by simp [h.charges]
  pinned := by simp [h.charges]
  creates := by simp
  once := by simp
  captured := by simp [h.charges]
  settled se hse card hpaid := by
    rw [h.unpaid se hse card] at hpaid
    cases hpaid
  granted se hse card pu hpu bought state := absurd state (h.ungranted se hse card pu hpu bought)
  swept := by simp [h.sweeps]

/-- The provider reported a capture for the client reference of the charge of the settlement, of exactly the amount and the
currency of the purchase. -/
def CaptureReported (db : Db) (w : World) (se : Settlement) : Prop :=
  ∃ c ∈ db.charges, c.settlement = se.id ∧ ∃ r, (c.ref, r) ∈ w.reports ∧ r.state = .captured ∧
    ∃ pu ∈ db.purchases, pu.id = se.purchase ∧ r.amountMinor = pu.amountMinor ∧
      equalFold r.currency (Commerce.trimSpace pu.currency)

lemma Agree.captureReported {db w} (agree : Agree db w) {se} (mem : se ∈ db.settlements)
    (card : se.method = .card) (hpaid : paid se.status) : CaptureReported db w se := by
  obtain ⟨c, hc, same, captured⟩ := agree.settled se mem card hpaid
  obtain ⟨r, reported, state, agrees⟩ := agree.captured c hc captured
  obtain ⟨se', hse', id, pu, hpu, bought, amount, currency⟩ := agree.pinned c hc
  cases List.inj_on_of_nodup_map agree.settlementIDs hse' mem (id.trans same)
  simp only [Charge.agrees, Bool.and_eq_true, decide_eq_true_eq] at agrees
  exact ⟨c, hc, same, r, reported, state, pu, hpu, bought, agrees.1.trans amount, currency ▸ agrees.2⟩

/-- In every interleaving of checkouts, reconciliations, sweeps and crashes, whatever the provider answers: at most one checkout
is created for a settlement; a card settlement is settled, and its purchase granted, only on a reported capture of what is
pinned; a settlement that was swept has no checkout at the provider; and a charge that has ended keeps its status. -/
theorem money_and_access_agree {db : Db} (start : Untouched db) {labels : List (Label Task)} {s : System Db Lock World Phase}
    (run : Run (ofOption payments.step) (idle db ⟨[], []⟩) labels s) :
    (∀ id, (s.world.creates.filter (·.1 = id)).length ≤ 1) ∧
    (∀ se ∈ s.db.settlements, se.method = .card →
      (se.status = .settled ∨ ∃ pu ∈ s.db.purchases, pu.id = se.purchase ∧ pu.state = .granted) →
      CaptureReported s.db s.world se) ∧
    (∀ sw ∈ s.db.sweeps, ∀ x ∈ s.world.creates, x.1 ≠ sw.settlement) ∧
    ∀ label s', payments.step s label = some s' → ∀ c ∈ s.db.charges, c.status.terminal → ∀ c' ∈ s'.db.charges, c'.id = c.id →
      c'.status = c.status := by
  have sound := payments_invariant.run (run.mono fun step => guarded_of_step step) (sound_idle start.agree)
  have agree := sound.holds
  refine ⟨fun id => ?_, fun se hse card h => ?_, fun sw hsw x hx same => ?_, ?_⟩
  · have once := List.nodup_iff_count_le_one.mp agree.once id
    rw [List.count, List.countP_map, List.countP_eq_length_filter] at once
    exact once
  · refine agree.captureReported hse card ?_
    rcases h with settled | ⟨pu, hpu, bought, granted⟩
    · rw [settled]
      rfl
    · exact agree.granted se hse card pu hpu bought granted
  · obtain ⟨c, hc, created⟩ := agree.creates x hx
    exact (agree.swept sw hsw).2 c hc (created.trans same)
  · intro label s' step c hc terminal c' hc' same
    have agree' := (payments_invariant.step (guarded_of_step step) sound).holds
    rcases Protocol.step_db step with unchanged | ⟨i, p, kept, next, -, slot, act, view⟩
    · rw [unchanged] at hc'
      cases List.inj_on_of_nodup_map agree.chargeIDs hc' hc same
      rfl
    · obtain ⟨d, leads, -, right⟩ := commit_change agree (sound.each slot) (commits_of_act act)
      rw [← view] at leads
      cases List.inj_on_of_nodup_map agree'.chargeIDs hc' (leads.charge_mem hc) same
      exact right.terminal c hc terminal

/-- A card purchase of ten euros that waits for its payment. -/
def awaitingPayment : Db :=
  ⟨[⟨1, ⟨1, 1⟩, 2, .card, .required⟩],
    [⟨2, ⟨1, 1⟩, 10, 20, 5, .guestSelection, 1000, "EUR", 2, none, none, .awaitingSettlement⟩], [(2, 0)], [], [], [], [], []⟩

/-- A checkout, and a reconciliation that hears of the capture. -/
def cardPayment : List (Label Task) :=
  .start (.start ⟨⟨1, 1⟩, 1, 7, 9, 0, 3600, .created "session"⟩) :: List.replicate 8 (.step 0) ++
  .start (.reconcile ⟨⟨1, 1⟩, 7, 60, 900, .report ⟨.captured, "txn", 1000, "eur"⟩, none⟩) :: List.replicate 12 (.step 1)

lemma cardPayment_executes : (exec payments.step (idle awaitingPayment ⟨[], []⟩) cardPayment).any (fun s =>
    s.db.settlements.map (·.status) = [.settled] ∧ s.db.purchases.map (·.state) = [.granted] ∧ s.db.entitlements = [2]) = true := by
  decide +kernel

/-- The purchase is paid and granted in a run of the model. -/
theorem card_purchase_is_granted : ∃ s, Run (ofOption payments.step) (idle awaitingPayment ⟨[], []⟩) cardPayment s ∧
    (s.db.settlements.map (·.status) = [.settled] ∧ s.db.purchases.map (·.state) = [.granted] ∧ s.db.entitlements = [2]) ∧
    ∀ id, (s.world.creates.filter (·.1 = id)).length ≤ 1 := by
  obtain ⟨s, run, check⟩ := exists_run cardPayment_executes
  have start : Untouched awaitingPayment := by
    constructor <;> simp [awaitingPayment, paid]
  exact ⟨s, run, of_decide_eq_true check, (money_and_access_agree start run).1⟩

/-- Settlements keep what they are over; paid stays paid and failed stays failed. -/
def Final (db db' : Db) : Prop := ∀ se ∈ db.settlements, ∃ status, { se with status } ∈ db'.settlements ∧
  (paid se.status → paid status) ∧ (se.status = .failed → status = .failed)

/-- In every interleaving the outcome of a settlement is final, from any state reached to any later one. -/
theorem outcome_is_final {db : Db} (start : Untouched db) {labels labels' : List (Label Task)} {s s' : System Db Lock World Phase}
    (run : Run (ofOption payments.step) (idle db ⟨[], []⟩) labels s) (later : Run (ofOption payments.step) s labels' s') :
    Final s.db s'.db := by
  have sound := payments_invariant.run (run.mono fun step => guarded_of_step step) (sound_idle start.agree)
  clear run
  induction later with
  | nil => exact fun se mem => ⟨_, mem, id, id⟩
  | cons step _ ih =>
    intro se mem
    have rest := ih (payments_invariant.step (guarded_of_step step) sound)
    rcases Protocol.step_db step with same | ⟨i, p, kept, next, -, slot, act, same⟩
    · exact rest se (same ▸ mem)
    · obtain ⟨d, leads, -, right⟩ := commit_change sound.holds (sound.each slot) (commits_of_act act)
      rw [← same] at leads
      obtain ⟨status, mem', hpaid, failed⟩ := rest _ (leads.settlement_mem mem)
      exact ⟨status, mem', hpaid ∘ right.paid se mem, failed ∘ right.failed se mem⟩

theorem card_payment_is_final : ∃ s, Run (ofOption payments.step) (idle awaitingPayment ⟨[], []⟩) cardPayment s ∧
    ∀ labels s', Run (ofOption payments.step) s labels s' → Final s.db s'.db := by
  obtain ⟨s, run, -⟩ := exists_run cardPayment_executes
  exact ⟨s, run, fun _ _ => outcome_is_final (by constructor <;> simp [awaitingPayment, paid]) run⟩

end StayConnect.Payment
