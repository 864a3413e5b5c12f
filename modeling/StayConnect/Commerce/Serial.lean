import StayConnect.Commerce.Confirm

/-!
# One live entitlement, one grant, one burn

What a process has written and locked is read off where it stands (`Stands`), and so is what its commit can touch: the rows
and subjects it has locked (`Touches`). Under the lock of the kernel a subject has the one live entitlement that is
superseded, under the lock of the purchase no entitlement of it, and under the lock of the voucher the voucher is unused;
other commits leave these facts. So every committed state is `Consistent`, whatever the interleaving.
-/

namespace StayConnect.Commerce
open Iam Tx Interleave Transition

def Confirm.locks (c : Confirm) : List Lock :=
  [.quote c.quote.id, .authContext c.context.id, .subject c.request.scope c.context.subject.kind c.context.subject.id]

def Confirm.bought (c : Confirm) : List Lock := .purchase c.request.purchase :: c.locks

def Grant.locks (g : Grant) : List Lock := g.confirm.elim [] Confirm.bought

def Kernel.locks (k : Kernel) (g : Grant) : List Lock := .purchase k.purchase :: .grantee g.scope k.subject.id :: g.locks

def Kernel.voucherLock (k : Kernel) : List Lock :=
  match k.subject with
  | .voucher id => [.voucher id]
  | _ => []

def Kernel.grants (k : Kernel) (g : Grant) (superseded : Option Nat) : Db → Db :=
  k.burn g ∘ k.insert g superseded ∘ terminate superseded ∘ g.base

def Outcome.writes : Outcome → Db → Db
  | .signedIn ac => fun db => { db with authContexts := db.authContexts ++ [ac] }
  | .quoted q => fun db => { db with quotes := db.quotes ++ [q] }
  | .awaiting c => c.writes
  | .granted g k superseded => k.markGranted ∘ k.grants g superseded
  | .already g => g.base
  | .settled se status => settle se status
  | .disabled | .invalidInput | .failed | .quoteDenied | .denied _ => id

def Outcome.locks : Outcome → List Lock
  | .awaiting c => c.bought
  | .granted g k _ => k.voucherLock ++ k.locks g
  | .already g => g.locks
  | _ => []

def Phase.writes : Phase → Db → Db
  | .consumeContext c => c.consumeQuote
  | .insertPurchase c => c.consumeContext ∘ c.consumeQuote
  | .insertSettlement c => c.insertPurchase ∘ c.consumeContext ∘ c.consumeQuote
  | .lockPurchase g _ _ | .pinned g _ | .lockGrantee g _ | .existing g _ | .supersede g _ => g.base
  | .insertEntitlement g _ superseded => terminate superseded ∘ g.base
  | .burn g k superseded => k.insert g superseded ∘ terminate superseded ∘ g.base
  | .markGranted g k superseded => k.grants g superseded
  | .lockSettlement g _ => g.base
  | .finish o => o.writes
  | _ => id

def Phase.locks : Phase → List Lock
  | .lockContext _ q _ => [.quote q.id]
  | .lockSubject c => [.quote c.quote.id, .authContext c.context.id]
  | .consumeQuote c | .consumeContext c | .insertPurchase c => c.locks
  | .insertSettlement c => c.bought
  | .lockPurchase g _ _ | .lockSettlement g _ => g.locks
  | .pinned g k | .lockGrantee g k => .purchase k.purchase :: g.locks
  | .existing g k | .supersede g k | .insertEntitlement g k _ | .burn g k _ => k.locks g
  | .markGranted g k _ => k.voucherLock ++ k.locks g
  | .finish o => o.locks
  | _ => []

/-- The locked auth context of a confirm is not consumed yet. -/
def Phase.ContextOpen (db : Db) : Phase → Prop
  | .lockSubject c | .consumeQuote c | .consumeContext c =>
    ∃ ac ∈ db.authContexts, ac.id = c.context.id ∧ ac.usable c.request.now = true
  | _ => True

/-- A process has written and locked what its phase says, unless it is about to roll back. -/
structure Stands (p : Process Db Lock Phase) (db : Db) : Prop where
  writes : p.here ≠ .finish .failed → p.writes = p.here.writes
  held : ∀ k ∈ p.here.locks, k ∈ p.held
  context : p.here.ContextOpen db

section
variable {e : Engine} {cat : Catalogue} {db : Db} {p : Process Db Lock Phase}

lemma stands_ended (o : Outcome) (db : Db) : Stands (.fresh (.ended o)) db := ⟨fun _ => rfl, fun _ h => (nomatch h), trivial⟩

lemma stands_commit (p : Process Db Lock Phase) (o : Outcome) (db : Db) : Stands (p.commit [] (.ended o)) db :=
  ⟨fun _ => rfl, fun _ h => (nomatch h), trivial⟩

lemma stands_initial (e : Engine) (t : Task) (db : Db) : Stands (.fresh (initial e t)) db := by
  cases t with
  | signIn ac | quote t | settle key status => exact ⟨fun _ => rfl, fun _ h => (nomatch h), trivial⟩
  | confirm r =>
    simp only [initial]
    split
    · exact stands_ended _ db
    · split
      · exact stands_ended _ db
      · exact ⟨fun _ => rfl, fun _ h => (nomatch h), trivial⟩
  | grant rail scope key clock entitlement => cases rail <;> exact ⟨fun _ => rfl, fun _ h => (nomatch h), trivial⟩

variable {locks held : List Lock} {write : Db → Db} {next : Phase} {db' : Db} {o : Outcome}

lemma Stands.extend (stands : Stands p db) (ne : p.here ≠ .finish .failed)
    (writes : next ≠ .finish .failed → next.writes = write ∘ p.here.writes)
    (held : ∀ k ∈ next.locks, k ∈ p.here.locks ∨ k ∈ locks) (context : next.ContextOpen db) :
    Stands (p.extend locks write next) db where
  writes h := by
    change write ∘ p.writes = next.writes
    rw [stands.writes ne, writes h]
  held k hk := List.mem_append.mpr ((held k hk).imp_left (stands.held k))
  context := context

lemma kernelFor_purchase {g se pu k} (h : kernelFor g se db pu = .ok k) : k.purchase = pu.id := by
  unfold kernelFor at h
  split at h
  case h_1 =>
    simp only [grantQuoted, ok_bind_iff] at h
    obtain ⟨_, -, _, -, _, -, _, -, _, -, ⟨⟩⟩ := h
    rfl
  case h_2 =>
    simp only [grantVoucher, ok_bind_iff] at h
    obtain ⟨_, -, _, -, _, -, _, -, _, -, ⟨⟩⟩ := h
    rfl
  case h_3 =>
    simp only [grantPaid, ok_bind_iff] at h
    obtain ⟨_, -, _, -, _, -, _, -, _, -, ⟨⟩⟩ := h
    rfl
  case h_4 => cases h

lemma afterSettlement_writes (c : Confirm) (h : afterSettlement c ≠ .finish .failed) : (afterSettlement c).writes = c.writes := by
  unfold afterSettlement at h ⊢
  split
  case h_4 method =>
    simp only [method] at h
    exact absurd rfl h
  all_goals rfl

lemma afterSettlement_locks (c : Confirm) : ∀ k ∈ (afterSettlement c).locks, k ∈ c.bought := by
  intro k hk
  unfold afterSettlement at hk
  split at hk
  case h_4 => cases hk
  all_goals exact hk

lemma afterSettlement_context (c : Confirm) : (afterSettlement c).ContextOpen db := by
  unfold afterSettlement
  split <;> trivial

lemma Stands.statement (stands : Stands p db)
    (h : Statement e cat (p.view db) p.here locks write next) : Stands (p.extend locks write next) db := by
  have view : p.here ≠ .finish .failed → p.view db = p.here.writes db := fun ne => congrFun (stands.writes ne) db
  have context := stands.context
  obtain ⟨here, writes, held⟩ := p
  cases h with
  | signIn ac | quoteDenied t | quote t | insertQuote q | quoteGone c | settle key =>
    exact stands.extend nofun (fun _ => rfl) (fun _ h => (nomatch h)) trivial
  | quoteStopped r q stop | contextStopped r q method ac stop =>
    cases stop <;> exact stands.extend nofun (fun _ => rfl) (fun _ h => (nomatch h)) trivial
  | settlementRefused g | purchaseRefused g =>
    exact stands.extend nofun (fun ne => absurd rfl ne) (fun _ h => (nomatch h)) trivial
  | lockQuote r q method => exact stands.extend nofun (fun _ => rfl) (fun _ h => .inr h) trivial
  | lockContext r q method ac found usable =>
    refine stands.extend nofun (fun _ => rfl) (fun k hk => List.mem_append.mp hk) ⟨ac, ?_, rfl, usable⟩
    rw [view nofun] at found
    exact (Keyed.lookup_mem (Option.filter_eq_some_iff.mp found).1).1
  | lockSubject c => exact stands.extend nofun (fun _ => rfl) (fun k hk => List.mem_append.mp hk) context
  | consumeQuote c => exact stands.extend nofun (fun _ => rfl) (fun k hk => .inl hk) context
  | consumeContext c | lockSettlement g key se | grantedBefore g se key pu | pinned g k | existing g k | supersede g k | insertEntitlement g k | markGranted g k =>
    exact stands.extend nofun (fun _ => rfl) (fun k hk => .inl hk) trivial
  | insertPurchase c =>
    refine stands.extend nofun (fun _ => rfl) (fun k hk => ?_) trivial
    exact (List.mem_cons.mp hk).symm.imp_right List.mem_singleton.mpr
  | contextGone c gone =>
    -- the row is locked, and was open when it was locked
    obtain ⟨ac, mem, same, usable⟩ := context
    rw [view nofun] at gone
    have closed := List.any_eq_false.mp gone ac mem
    simp [same, usable] at closed
  | insertSettlement c =>
    exact stands.extend nofun (fun ne => afterSettlement_writes c ne) (fun k hk => .inl (afterSettlement_locks c k hk))
      (afterSettlement_context c)
  | lockPurchase g se key pu k found kernel =>
    refine stands.extend nofun (fun _ => rfl) (fun l hl => ?_) trivial
    rcases List.mem_cons.mp hl with rfl | held
    · exact .inr (by simp [kernelFor_purchase kernel])
    · exact .inl held
  | lockGrantee g k =>
    refine stands.extend nofun (fun _ => rfl) (fun l hl => ?_) trivial
    simp only [Phase.locks, Kernel.locks, List.mem_cons, List.not_mem_nil, or_false] at hl ⊢
    tauto
  | already g k =>
    exact stands.extend nofun (fun _ => rfl) (fun k hk => .inl (List.mem_cons_of_mem _ (List.mem_cons_of_mem _ hk))) trivial
  | burn g k superseded _ spent =>
    refine stands.extend (by simp) (fun _ => rfl) (fun l hl => ?_) trivial
    rcases List.mem_append.mp hl with voucher | held
    · unfold Kernel.voucherLock at voucher
      split at voucher
      case h_1 id subject =>
        obtain rfl := List.mem_singleton.mp voucher
        exact .inr (spent id subject).1
      · cases voucher
    · exact .inl held

/-- A commit under these locks: rows are consumed, superseded or spent, and new rows come, only where it has the lock. -/
structure Touches (held : List Lock) (db db' : Db) : Prop where
  contexts : ∃ f new, db'.authContexts = db.authContexts.map f ++ new ∧
    ∀ ac, f ac = ac ∨ Lock.authContext ac.id ∈ held ∧ ∃ t, f ac = { ac with consumedAt := some t }
  entitlements : ∃ f new, db'.entitlements = db.entitlements.map f ++ new ∧
    (∀ e, f e = e ∨ f e = { e with status := .terminated }) ∧
    ∀ e ∈ new, Lock.grantee e.scope e.subject.id ∈ held ∧ Lock.purchase e.purchase ∈ held
  purchases : ∃ f new, db'.purchases = db.purchases.map f ++ new ∧ (∀ p, (f p).id = p.id) ∧
    ∀ p ∈ new, Lock.purchase p.id ∈ held
  vouchers : ∃ f, db'.vouchers = db.vouchers.map f ∧
    ∀ v, f v = v ∨ v.state = .unused ∧ Lock.voucher v.id ∈ held ∧ f v = { v with state := .redeemed }

lemma map_same {α} (l : List α) : l = l.map id ++ [] := by simp

@[simp] lemma base_entitlements (g : Grant) (db : Db) : (g.base db).entitlements = db.entitlements := by
  unfold Grant.base
  cases g.confirm <;> rfl

@[simp] lemma base_vouchers (g : Grant) (db : Db) : (g.base db).vouchers = db.vouchers := by
  unfold Grant.base
  cases g.confirm <;> rfl

lemma Confirm.touches (c : Confirm) (db : Db) (locks : ∀ k ∈ c.bought, k ∈ held) : Touches held db (c.writes db) where
  contexts := by
    refine ⟨_, [], (List.append_nil _).symm, fun ac => ?_⟩
    split
    case isTrue here => exact .inr ⟨locks _ (by simp [Confirm.bought, Confirm.locks, here.1]), _, rfl⟩
    · exact .inl rfl
  purchases := by
    refine ⟨id, [c.purchaseRow], by rw [List.map_id]; rfl, fun _ => rfl, fun p hp => ?_⟩
    obtain rfl := List.mem_singleton.mp hp
    exact locks _ List.mem_cons_self
  entitlements := ⟨id, [], map_same _, fun _ => .inl rfl, fun _ h => (nomatch h)⟩
  vouchers := ⟨id, (List.map_id _).symm, fun _ => .inl rfl⟩

lemma Touches.refl (held : List Lock) (db : Db) : Touches held db db where
  contexts := ⟨id, [], map_same _, fun _ => .inl rfl⟩
  purchases := ⟨id, [], map_same _, fun _ => rfl, fun _ h => (nomatch h)⟩
  entitlements := ⟨id, [], map_same _, fun _ => .inl rfl, fun _ h => (nomatch h)⟩
  vouchers := ⟨id, (List.map_id _).symm, fun _ => .inl rfl⟩

lemma Grant.touches (g : Grant) (db : Db) (locks : ∀ k ∈ g.locks, k ∈ held) : Touches held db (g.base db) := by
  obtain ⟨confirm, rail, scope, clock, entitlement⟩ := g
  cases confirm with
  | none => exact Touches.refl held db
  | some c => exact c.touches db locks

@[simp] lemma grants_entitlements (k : Kernel) (g : Grant) (superseded : Option Nat) (db : Db) :
    (k.grants g superseded db).entitlements = (terminate superseded db).entitlements ++ [k.row g superseded] := by
  simp only [Kernel.grants, Function.comp_apply, Kernel.burn]
  split <;> simp [Kernel.insert, terminate]

def Kernel.spend (k : Kernel) (g : Grant) (v : Voucher) : Voucher :=
  match k.subject with
  | .voucher id => if v.redeemable g.scope id g.clock then { v with state := .redeemed } else v
  | _ => v

@[simp] lemma grants_vouchers (k : Kernel) (g : Grant) (superseded : Option Nat) (db : Db) :
    (k.grants g superseded db).vouchers = db.vouchers.map (k.spend g) := by
  have spends : (k.burn g (k.insert g superseded (terminate superseded (g.base db)))).vouchers = (g.base db).vouchers.map (k.spend g) := by
    unfold Kernel.burn
    split
    case h_1 id subject =>
      refine List.map_congr_left fun v _ => ?_
      simp [Kernel.spend, subject]
    case h_2 other =>
      have same : k.spend g = id := by
        funext v
        unfold Kernel.spend
        split
        case h_1 id subject => exact absurd subject (other id)
        · rfl
      rw [same, List.map_id]
      rfl
  rw [base_vouchers] at spends
  exact spends

lemma spend_cases (k : Kernel) (g : Grant) (v : Voucher) : k.spend g v = v ∨
    k.subject = .voucher v.id ∧ v.redeemable g.scope v.id g.clock = true ∧ k.spend g v = { v with state := .redeemed } := by
  unfold Kernel.spend
  split
  case h_1 id subject =>
    split
    case isTrue redeemable =>
      have same : v.id = id := by
        simp only [Voucher.redeemable, Bool.and_eq_true, decide_eq_true_eq] at redeemable
        exact redeemable.1.1.2
      exact .inr ⟨same ▸ subject, same ▸ redeemable, rfl⟩
    · exact .inl rfl
  · exact .inl rfl

lemma Voucher.redeemable_unused {v : Voucher} {scope : Scope} {id : Nat} {now : Int} (h : v.redeemable scope id now = true) :
    v.scope = scope ∧ v.id = id ∧ v.state = .unused ∧ v.inWindow now = true := by
  simpa [Voucher.redeemable, and_assoc] using h

lemma grants_authContexts (k : Kernel) (g : Grant) (superseded : Option Nat) (db : Db) :
    (k.grants g superseded db).authContexts = (g.base db).authContexts := by
  simp only [Kernel.grants, Function.comp_apply, Kernel.burn]
  split <;> rfl

lemma grants_purchases (k : Kernel) (g : Grant) (superseded : Option Nat) (db : Db) :
    (k.grants g superseded db).purchases = (g.base db).purchases := by
  simp only [Kernel.grants, Function.comp_apply, Kernel.burn]
  split <;> rfl

lemma Touches.restate {db} (h : Touches held db db') {f}
    (same : ∀ p, (f p).id = p.id) : Touches held db { db' with purchases := db'.purchases.map f } := by
  obtain ⟨f₀, new, eq, ids, locked⟩ := h.purchases
  refine { h with purchases := ⟨f ∘ f₀, new.map f, ?_, fun p => (same _).trans (ids p), fun p hp => ?_⟩ }
  · rw [eq, List.map_append, List.map_map]
  · obtain ⟨p₀, mem, rfl⟩ := List.mem_map.mp hp
    rw [same]
    exact locked p₀ mem

lemma Kernel.touches (k : Kernel) (g : Grant) (superseded : Option Nat) (db : Db)
    (locks : ∀ l ∈ k.voucherLock ++ k.locks g, l ∈ held) : Touches held db (k.grants g superseded db) := by
  have base := g.touches db fun l hl => locks l (List.mem_append_right _ (List.mem_cons_of_mem _ (List.mem_cons_of_mem _ hl)))
  refine ⟨?_, ⟨_, _, grants_entitlements k g superseded db, fun e => ?_, fun e he => ?_⟩, ?_,
    ⟨_, grants_vouchers k g superseded db, fun v => ?_⟩⟩
  · rw [grants_authContexts]
    exact base.contexts
  · split
    · exact .inr rfl
    · exact .inl rfl
  · obtain rfl := List.mem_singleton.mp he
    exact ⟨locks _ (List.mem_append_right _ (by simp [Kernel.locks, Kernel.row])),
      locks _ (List.mem_append_right _ (by simp [Kernel.locks, Kernel.row]))⟩
  · rw [grants_purchases]
    exact base.purchases
  · rcases spend_cases k g v with same | ⟨subject, redeemable, spent⟩
    · exact .inl same
    · refine .inr ⟨(Voucher.redeemable_unused redeemable).2.2.1, locks _ (List.mem_append_left _ ?_), spent⟩
      simp [Kernel.voucherLock, subject]

lemma follow_id (se : Settlement) (status : SettlementStatus) (p : Purchase) : (p.follow se status).id = p.id := by
  unfold Purchase.follow
  split
  · split <;> rfl
  · rfl

lemma Outcome.touches (o : Outcome) (db : Db) (locks : ∀ k ∈ o.locks, k ∈ held) : Touches held db (o.writes db) := by
  cases o with
  | signedIn ac => exact { Touches.refl held db with contexts := ⟨id, [ac], by simp [Outcome.writes], fun _ => .inl rfl⟩ }
  | quoted q => exact ⟨(Touches.refl held db).contexts, (Touches.refl held db).entitlements, (Touches.refl held db).purchases,
      (Touches.refl held db).vouchers⟩
  | awaiting c => exact c.touches db locks
  | already g => exact g.touches db locks
  | granted g k superseded => exact (k.touches g superseded db locks).restate fun p => by split <;> rfl
  | settled se status =>
    have restated := (Touches.refl held db).restate (follow_id se status)
    exact ⟨restated.contexts, restated.entitlements, restated.purchases, restated.vouchers⟩
  | disabled | invalidInput | failed | quoteDenied | denied why => exact Touches.refl held db

lemma Stands.touches (stands : Stands p db) (here : p.here = .finish o) (commits : o.commits = true) :
    p.view db = o.writes db ∧ Touches p.held db (p.view db) := by
  have writes : p.writes = o.writes := by
    rw [stands.writes, here]
    · rfl
    · rintro failed
      obtain rfl : o = .failed := by simpa [here] using failed
      cases commits
  have view : p.view db = o.writes db := congrFun writes db
  exact ⟨view, view ▸ o.touches db fun k hk => stands.held k (here ▸ hk)⟩

/-- The voucher of a grant was printed for its package revision. -/
def Pinned (db : Db) (g : Grant) (k : Kernel) : Prop :=
  ∀ id, k.subject = .voucher id → db.voucherPinnedPackageRevision g.scope id = some k.packageRevision

/-- The live entitlement of the subject, if any, is the one superseded. -/
def Sole (db : Db) (g : Grant) (k : Kernel) (superseded : Option Nat) : Prop :=
  ∀ e ∈ db.liveOf g.scope k.subject, superseded = some e.id

/-- The voucher of a grant can be spent on it. -/
def Burnable (db : Db) (g : Grant) (k : Kernel) : Prop :=
  ∀ id, k.subject = .voucher id → ∃ v ∈ db.vouchers, v.redeemable g.scope id g.clock ∧ v.packageRevision = k.packageRevision

def Phase.Found (db : Db) : Phase → Prop
  | .lockGrantee g k | .existing g k => Pinned db g k
  | .supersede g k => Pinned db g k ∧ db.granted k.purchase = false
  | .insertEntitlement g k superseded | .burn g k superseded =>
    Pinned db g k ∧ db.granted k.purchase = false ∧ Sole db g k superseded
  | .markGranted g k superseded | .finish (.granted g k superseded) =>
    Burnable db g k ∧ db.granted k.purchase = false ∧ Sole db g k superseded
  | _ => True

/-- Every subject has at most one live entitlement and every purchase at most one; a voucher has one when it is redeemed,
for the revision it was printed for and from inside its window. -/
structure Consistent (db : Db) : Prop where
  voucherIDs : (db.vouchers.map (·.id)).Nodup
  live : ∀ scope subject, (db.liveOf scope subject).length ≤ 1
  purchases : ∀ purchase, (db.entitlements.filter (·.purchase = purchase)).length ≤ 1
  vouchers : ∀ id, (db.entitlements.filter (·.subject = .voucher id)).length ≤ 1
  granted : ∀ e ∈ db.entitlements, ∀ id, e.subject = .voucher id → ∃ v ∈ db.vouchers, v.id = id ∧ v.scope = e.scope ∧
    v.state = .redeemed ∧ v.packageRevision = e.packageRevision ∧ e.activatedAt.any v.inWindow = true
  redeemed : ∀ v ∈ db.vouchers, v.state = .redeemed → ∃ e ∈ db.entitlements, e.subject = .voucher v.id

section
variable {db' : Db} {held : List Lock} {g : Grant} {k : Kernel} {superseded : Option Nat}

lemma Pinned.touched (h : Pinned db g k) (touches : Touches held db db') : Pinned db' g k := by
  intro id subject
  obtain ⟨f, eq, changes⟩ := touches.vouchers
  have same : ∀ v, (f v).scope = v.scope ∧ (f v).id = v.id ∧ (f v).packageRevision = v.packageRevision := by
    intro v
    rcases changes v with e | ⟨-, -, e⟩ <;> simp [e]
  have pinned := h id subject
  unfold Db.voucherPinnedPackageRevision at pinned ⊢
  rw [eq, List.find?_map, Option.map_map]
  simpa [Function.comp_def, same] using pinned

lemma granted_touched (h : db.granted k.purchase = false) (touches : Touches held db db')
    (apart : Lock.purchase k.purchase ∉ held) : db'.granted k.purchase = false := by
  obtain ⟨f, new, eq, changes, locked⟩ := touches.entitlements
  have purchase : ∀ e, (f e).purchase = e.purchase := by
    intro e
    rcases changes e with e | e <;> simp [e]
  have old : ∀ e ∈ db.entitlements, ¬ e.purchase = k.purchase := by simpa [Db.granted] using h
  have fresh : ∀ e ∈ new, ¬ e.purchase = k.purchase := fun e he same => apart (same ▸ (locked e he).2)
  simp only [Db.granted, eq, List.any_append, List.any_map, Bool.or_eq_false_iff, List.any_eq_false, Function.comp_apply, purchase,
    decide_eq_true_eq]
  exact ⟨old, fresh⟩

lemma Sole.touched (h : Sole db g k superseded) (touches : Touches held db db')
    (apart : Lock.grantee g.scope k.subject.id ∉ held) : Sole db' g k superseded := by
  obtain ⟨f, new, eq, changes, locked⟩ := touches.entitlements
  intro e he
  obtain ⟨mem, hit⟩ := List.mem_filter.mp he
  simp only [Bool.and_eq_true, decide_eq_true_eq] at hit
  rw [eq] at mem
  rcases List.mem_append.mp mem with old | fresh
  · obtain ⟨e₀, mem₀, rfl⟩ := List.mem_map.mp old
    rcases changes e₀ with same | dead
    · rw [same] at hit ⊢
      exact h e₀ (List.mem_filter.mpr ⟨mem₀, by simpa using hit⟩)
    · rw [dead] at hit
      cases hit.1.1
  · -- a new entitlement of the subject comes under the lock of its grant
    have lock := (locked e fresh).1
    rw [hit.1.2, hit.2] at lock
    exact absurd lock apart

lemma Burnable.touched (h : Burnable db g k) (touches : Touches held db db') (apart : ∀ l ∈ k.voucherLock, l ∉ held) :
    Burnable db' g k := by
  intro id subject
  obtain ⟨v, mem, redeemable, revision⟩ := h id subject
  obtain ⟨f, eq, changes⟩ := touches.vouchers
  have same : f v = v := by
    rcases changes v with same | ⟨-, lock, -⟩
    · exact same
    · rw [(Voucher.redeemable_unused redeemable).2.1] at lock
      exact absurd lock (apart _ (by simp [Kernel.voucherLock, subject]))
  exact ⟨v, eq ▸ List.mem_map.mpr ⟨v, mem, same⟩, redeemable, revision⟩

lemma Phase.Found.touched {here : Phase} (found : here.Found db) (touches : Touches held db db')
    (apart : ∀ l ∈ here.locks, l ∉ held) : here.Found db' := by
  cases here with
  | lockGrantee g k | existing g k => exact Pinned.touched found touches
  | supersede g k => exact ⟨found.1.touched touches, granted_touched found.2 touches (apart _ (by simp [Phase.locks, Kernel.locks]))⟩
  | insertEntitlement g k superseded | burn g k superseded =>
    exact ⟨found.1.touched touches, granted_touched found.2.1 touches (apart _ (by simp [Phase.locks, Kernel.locks])),
      found.2.2.touched touches (apart _ (by simp [Phase.locks, Kernel.locks]))⟩
  | markGranted g k superseded =>
    exact ⟨found.1.touched touches fun l hl => apart l (List.mem_append_left _ hl),
      granted_touched found.2.1 touches (apart _ (by simp [Phase.locks, Kernel.locks])),
      found.2.2.touched touches (apart _ (by simp [Phase.locks, Kernel.locks]))⟩
  | finish o =>
    cases o with
    | granted g k superseded =>
      exact ⟨found.1.touched touches fun l hl => apart l (List.mem_append_left _ hl),
        granted_touched found.2.1 touches (apart _ (by simp [Phase.locks, Outcome.locks, Kernel.locks])),
        found.2.2.touched touches (apart _ (by simp [Phase.locks, Outcome.locks, Kernel.locks]))⟩
    | _ => trivial
  | _ => trivial

lemma head_sole {scope subject} (h : (db.liveOf scope subject).length ≤ 1) :
    ∀ e ∈ db.liveOf scope subject, (db.head scope subject).map (·.id) = some e.id := by
  intro e mem
  have single : db.liveOf scope subject = [e] := by
    cases rows : db.liveOf scope subject with
    | nil => simp [rows] at mem
    | cons x xs =>
      rw [rows] at h mem
      obtain rfl := List.eq_nil_of_length_eq_zero (Nat.le_zero.mp (Nat.succ_le_succ_iff.mp h))
      rw [List.mem_singleton.mp mem]
  simp [Db.head, single]

lemma Pinned.burnable (nodup : (db.vouchers.map (·.id)).Nodup) (pinned : Pinned db g k)
    (spent : ∀ id, k.subject = .voucher id → ∃ v ∈ db.vouchers, v.redeemable g.scope id g.clock = true) : Burnable db g k := by
  intro id subject
  obtain ⟨v, mem, redeemable⟩ := spent id subject
  obtain ⟨row, found, revision⟩ := Option.map_eq_some_iff.mp (pinned id subject)
  have same : row = v := by
    refine List.inj_on_of_nodup_map nodup (List.mem_of_find?_eq_some found) mem ?_
    have own := List.find?_some found
    simp only [decide_eq_true_eq] at own
    rw [own.2, (Voucher.redeemable_unused redeemable).2.1]
  exact ⟨v, mem, redeemable, same ▸ revision⟩

lemma Phase.Found.statement {here next locks write} (consistent : Consistent db)
    (found : here.Found db) (h : Statement e cat (here.writes db) here locks write next) : next.Found db := by
  cases h with
  | quoteStopped _ _ stop | contextStopped _ _ _ _ stop => cases stop <;> trivial
  | insertSettlement c =>
    unfold afterSettlement
    split <;> trivial
  | pinned g k pin => simpa [Phase.Found, Phase.writes, Pinned, Db.voucherPinnedPackageRevision] using pin
  | lockGrantee g k | insertEntitlement g k superseded | markGranted g k superseded => exact found
  | existing g k absent => exact ⟨found, by simpa [Phase.writes, Db.granted] using absent⟩
  | supersede g k _ superseded head =>
    refine ⟨found.1, found.2, ?_⟩
    have same : (g.base db).head g.scope k.subject = db.head g.scope k.subject := by simp [Db.head, Db.liveOf]
    rw [head, show (Phase.supersede g k).writes db = g.base db from rfl, same]
    exact fun e he => head_sole (consistent.live _ _) e he
  | burn g k superseded _ spent =>
    refine ⟨found.1.burnable consistent.voucherIDs fun id subject => ?_, found.2.1, found.2.2⟩
    have same : ((Phase.burn g k superseded).writes db).vouchers = db.vouchers := base_vouchers g db
    exact same ▸ (spent id subject).2
  | _ => trivial

lemma Consistent.congr (h : Consistent db) (entitlements : db'.entitlements = db.entitlements)
    (vouchers : db'.vouchers = db.vouchers) : Consistent db' := by
  obtain ⟨h₁, h₂, h₃, h₄, h₅, h₆⟩ := h
  refine ⟨vouchers ▸ h₁, ?_, entitlements ▸ h₃, entitlements ▸ h₄, entitlements ▸ vouchers ▸ h₅, entitlements ▸ vouchers ▸ h₆⟩
  simp only [Db.liveOf, entitlements]
  exact h₂

lemma Burnable.unserved (h : Consistent db) (burnable : Burnable db g k) {id : Nat} (subject : k.subject = .voucher id) :
    ∀ e ∈ db.entitlements, e.subject ≠ .voucher id := by
  intro e mem same
  obtain ⟨v, hv, redeemable, -⟩ := burnable id subject
  obtain ⟨v', hv', id', -, state, -⟩ := h.granted e mem id same
  obtain ⟨-, own, unused, -⟩ := Voucher.redeemable_unused redeemable
  obtain rfl : v' = v := List.inj_on_of_nodup_map h.voucherIDs hv' hv (id'.trans own.symm)
  rw [state] at unused
  cases unused

lemma countP_grant {q} (row : Entitlement) (old : ∀ e, q { e with status := .terminated } = true → q e = true)
    (bound : (db.entitlements.filter q).length ≤ 1) (hit : q row = true → ∀ e ∈ (terminate superseded db).entitlements, q e = false) :
    (((terminate superseded db).entitlements ++ [row]).filter q).length ≤ 1 := by
  rw [List.filter_append, List.length_append]
  cases taken : q row with
  | true =>
    have none_ : (terminate superseded db).entitlements.filter q = [] :=
      List.filter_eq_nil_iff.mpr fun e he => by simp [hit taken e he]
    simp [none_, taken]
  | false =>
    have le : ((terminate superseded db).entitlements.filter q).length ≤ (db.entitlements.filter q).length := by
      simp only [terminate, ← List.countP_eq_length_filter, List.countP_map]
      refine List.countP_mono_left fun e _ he => ?_
      simp only [Function.comp_apply] at he
      split at he
      · exact old e he
      · exact he
    simp [taken]
    omega

lemma Consistent.grant (h : Consistent db) (burnable : Burnable db g k) (fresh : db.granted k.purchase = false)
    (sole : Sole db g k superseded) : Consistent (k.markGranted (k.grants g superseded db)) := by
  have rows : (k.markGranted (k.grants g superseded db)).entitlements = (terminate superseded db).entitlements ++ [k.row g superseded] :=
    grants_entitlements k g superseded db
  have cards : (k.markGranted (k.grants g superseded db)).vouchers = db.vouchers.map (k.spend g) := grants_vouchers k g superseded db
  have old : ∀ e ∈ (terminate superseded db).entitlements, ∃ e₀ ∈ db.entitlements, e.scope = e₀.scope ∧ e.subject = e₀.subject ∧
      e.purchase = e₀.purchase ∧ e.packageRevision = e₀.packageRevision ∧ e.activatedAt = e₀.activatedAt ∧
      (EntitlementStatus.live e.status = true → e = e₀ ∧ superseded ≠ some e₀.id) := by
    intro e he
    obtain ⟨e₀, mem, rfl⟩ := List.mem_map.mp he
    refine ⟨e₀, mem, ?_⟩
    split
    · exact ⟨rfl, rfl, rfl, rfl, rfl, nofun⟩
    case isFalse other => exact ⟨rfl, rfl, rfl, rfl, rfl, fun _ => ⟨rfl, other⟩⟩
  refine ⟨?_, fun scope subject => ?_, fun purchase => ?_, fun id => ?_, fun e he id subject => ?_, fun v hv redeemed => ?_⟩
  · have ids : (db.vouchers.map (k.spend g)).map (·.id) = db.vouchers.map (·.id) := Keyed.keys_map fun v => by
      rcases spend_cases k g v with same | ⟨-, -, spent⟩
      · rw [same]
      · rw [spent]
    rw [cards, ids]
    exact h.voucherIDs
  · unfold Db.liveOf
    rw [rows]
    refine countP_grant _ (fun e he => by simp [EntitlementStatus.live] at he) (h.live scope subject) fun taken e he => ?_
    obtain ⟨e₀, mem, -, -, -, -, -, live⟩ := old e he
    simp only [Bool.and_eq_true, decide_eq_true_eq] at taken
    have own : g.scope = scope ∧ k.subject = subject := ⟨taken.1.2, taken.2⟩
    refine Bool.eq_false_iff.mpr fun hit => ?_
    simp only [Bool.and_eq_true, decide_eq_true_eq] at hit
    obtain ⟨rfl, ne⟩ := live hit.1.1
    refine ne (sole e (List.mem_filter.mpr ⟨mem, ?_⟩))
    simp [hit.1.1, hit.1.2, hit.2, own.1, own.2]
  · rw [rows]
    refine countP_grant _ (fun _ h => h) (h.purchases purchase) fun taken e he => ?_
    obtain ⟨e₀, mem, -, -, same, -⟩ := old e he
    have own : k.purchase = purchase := of_decide_eq_true taken
    have free : ¬ e₀.purchase = k.purchase := by simpa using List.any_eq_false.mp fresh e₀ mem
    simpa [same, ← own] using free
  · rw [rows]
    refine countP_grant _ (fun _ h => h) (h.vouchers id) fun taken e he => ?_
    obtain ⟨e₀, mem, -, same, -⟩ := old e he
    have own : k.subject = .voucher id := of_decide_eq_true taken
    simpa [same] using burnable.unserved h own e₀ mem
  · rw [rows] at he
    rw [cards]
    rcases List.mem_append.mp he with before | new
    · obtain ⟨e₀, mem, scope, same, -, revision, activated, -⟩ := old e before
      obtain ⟨v, hv, rest⟩ := h.granted e₀ mem id (same ▸ subject)
      refine ⟨v, List.mem_map.mpr ⟨v, hv, ?_⟩, by rw [scope, revision, activated]; exact rest⟩
      rcases spend_cases k g v with same | ⟨-, redeemable, -⟩
      · exact same
      · have unused := (Voucher.redeemable_unused redeemable).2.2.1
        rw [rest.2.2.1] at unused
        cases unused
    · obtain rfl := List.mem_singleton.mp new
      obtain ⟨v, hv, redeemable, revision⟩ := burnable id subject
      obtain ⟨scope, own, -, window⟩ := Voucher.redeemable_unused redeemable
      have subject : k.subject = .voucher id := subject
      refine ⟨{ v with state := .redeemed }, List.mem_map.mpr ⟨v, hv, ?_⟩, own, scope, rfl, revision, window⟩
      simp [Kernel.spend, subject, redeemable]
  · rw [cards] at hv
    rw [rows]
    obtain ⟨v₀, hv₀, rfl⟩ := List.mem_map.mp hv
    rcases spend_cases k g v₀ with same | ⟨subject, -, spent⟩
    · rw [same] at redeemed ⊢
      obtain ⟨e, mem, subject⟩ := h.redeemed v₀ hv₀ redeemed
      refine ⟨_, List.mem_append_left _ (List.mem_map.mpr ⟨e, mem, rfl⟩), ?_⟩
      split <;> exact subject
    · rw [spent]
      exact ⟨_, List.mem_append_right _ (List.mem_singleton.mpr rfl), subject⟩

end

lemma Consistent.outcome (h : Consistent db) (found : (Phase.finish o).Found db) : Consistent (o.writes db) := by
  cases o with
  | granted g k superseded => exact h.grant found.1 found.2.1 found.2.2
  | already g => exact h.congr (base_entitlements g db) (base_vouchers g db)
  | awaiting c | signedIn ac | quoted q | settled se status | disabled | invalidInput | failed | quoteDenied | denied why =>
    exact h.congr rfl rfl

lemma Statement.not_failed {here} (h : Statement e cat db here locks write next) : here ≠ .finish .failed := by
  rintro rfl
  cases h

lemma Stands.touched {q} (stands : Stands q db) (touches : Touches held db db')
    (apart : ∀ l ∈ q.here.locks, l ∉ held) : Stands q db' := by
  refine ⟨stands.writes, stands.held, ?_⟩
  have context := stands.context
  obtain ⟨f, new, eq, changes⟩ := touches.contexts
  have keep : ∀ c : Confirm, Lock.authContext c.context.id ∈ q.here.locks →
      (∃ ac ∈ db.authContexts, ac.id = c.context.id ∧ ac.usable c.request.now = true) →
      ∃ ac ∈ db'.authContexts, ac.id = c.context.id ∧ ac.usable c.request.now = true := by
    rintro c lock ⟨ac, mem, same, usable⟩
    have untouched : f ac = ac := (changes ac).resolve_right fun h => apart _ lock (same ▸ h.1)
    exact ⟨ac, eq ▸ List.mem_append_left _ (List.mem_map.mpr ⟨ac, mem, untouched⟩), same, usable⟩
  cases here : q.here with
  | lockSubject c | consumeQuote c | consumeContext c =>
    rw [here] at context keep
    exact keep c (by simp [Phase.locks, Confirm.locks]) context
  | _ => trivial

lemma found_initial (e : Engine) (t : Task) (db : Db) : (initial e t).Found db := by
  cases t with
  | confirm r =>
    simp only [initial]
    split
    · trivial
    · split <;> trivial
  | grant rail => cases rail <;> trivial
  | _ => trivial

lemma commerce_invariant (e : Engine) (cat : Catalogue) : Invariant (commerce e cat) (fun _ => True) Anytime
    (fun db _ => Consistent db) (fun p db _ => Stands p db ∧ p.here.Found db) where
  start {db _} t _ _ := ⟨stands_initial e t db, found_initial e t db⟩
  statement {db _ p _ _ _} consistent keeps _ h := by
    obtain ⟨stands, found⟩ := keeps
    have does := statement_of_act h
    have view : p.view db = p.here.writes db := congrFun (stands.writes does.not_failed) db
    exact ⟨stands.statement does, found.statement consistent (view ▸ does)⟩
  commit {db _ p _ _} consistent keeps _ h := by
    obtain ⟨stands, found⟩ := keeps
    obtain ⟨o, here, commits, rfl, rfl⟩ := commit_of_act h
    refine ⟨?_, stands_commit p o _, trivial⟩
    rw [(stands.touches here commits).1]
    exact consistent.outcome (here ▸ found)
  commit_other {db _ p _ _ q} _ keeps _ h keeps' apart := by
    obtain ⟨o, here, commits, rfl, rfl⟩ := commit_of_act h
    have touches := (keeps.1.touches here commits).2
    have apart : ∀ l ∈ q.here.locks, l ∉ p.held := fun l hl held => apart l held (keeps'.1.held l hl)
    exact ⟨keeps'.1.touched touches apart, keeps'.2.touched touches apart⟩
  rollback {db _ _ _} _ _ _ h := by
    obtain ⟨o, rfl⟩ := rollback_of_act h
    exact ⟨stands_ended o db, trivial⟩
  call _ _ _ h := (call_of_act h).elim
  call_other _ _ _ h := (call_of_act h).elim

/-- The end of a transaction that did what it was asked for. -/
def Outcome.succeeds : Outcome → Bool
  | .signedIn _ | .quoted _ | .awaiting _ | .granted _ _ _ | .already _ | .settled _ _ => true
  | .disabled | .invalidInput | .failed | .quoteDenied | .denied _ => false

lemma Outcome.writes_eq_id (h : o.succeeds = false) : o.writes = id := by
  cases o <;> first | rfl | cases h

def Db.serves (db : Db) (voucher : Nat) : Prop := ∃ e ∈ db.entitlements, e.subject = .voucher voucher

def Db.voucherIs (db : Db) (voucher : Nat) (state : VoucherState) : Prop := ∃ v ∈ db.vouchers, v.id = voucher ∧ v.state = state

lemma Consistent.serves_iff (h : Consistent db) (id : Nat) : db.serves id ↔ db.voucherIs id .redeemed := by
  constructor
  · rintro ⟨e, mem, subject⟩
    obtain ⟨v, hv, own, -, redeemed, -⟩ := h.granted e mem id subject
    exact ⟨v, hv, own, redeemed⟩
  · rintro ⟨v, hv, rfl, redeemed⟩
    exact h.redeemed v hv redeemed

/-- A voucher is spent in the commit that grants for it, and in no other. -/
lemma Touches.burns (touches : Touches held db db') (h : Consistent db) (h' : Consistent db') (id : Nat) :
    db.voucherIs id .unused ∧ db'.voucherIs id .redeemed ↔ ¬ db.serves id ∧ db'.serves id := by
  rw [h.serves_iff, h'.serves_iff]
  obtain ⟨f, eq, changes⟩ := touches.vouchers
  constructor
  · rintro ⟨⟨v, hv, own, unused⟩, redeemed⟩
    refine ⟨?_, redeemed⟩
    rintro ⟨v', hv', own', state⟩
    obtain rfl : v' = v := List.inj_on_of_nodup_map h.voucherIDs hv' hv (own'.trans own.symm)
    rw [unused] at state
    cases state
  · rintro ⟨not_yet, redeemed⟩
    refine ⟨?_, redeemed⟩
    obtain ⟨v', hv', own, state⟩ := redeemed
    obtain ⟨v, hv, rfl⟩ := List.mem_map.mp (eq ▸ hv')
    rcases changes v with same | ⟨unused, -, spent⟩
    · rw [same] at own state
      exact absurd ⟨v, hv, own, state⟩ not_yet
    · rw [spent] at own
      exact ⟨v, hv, own, unused⟩

end

/-- In every interleaving of sign-ins, quotes, confirms, grants and settlements every committed state is consistent, a voucher is
spent by the commit that grants for it and by no other, and only a transaction that succeeds changes a table. -/
theorem commerce_consistent {e : Engine} {cat : Catalogue} {db : Db} (start : Consistent db) {labels : List (Label Task)}
    {s : System Db Lock Unit Phase} (run : Run (ofOption (commerce e cat).step) (idle db ()) labels s) :
    Consistent s.db ∧ ∀ l s', (commerce e cat).step s l = some s' →
      (∀ id, s.db.voucherIs id .unused ∧ s'.db.voucherIs id .redeemed ↔ ¬ s.db.serves id ∧ s'.db.serves id) ∧
      (s'.db = s.db ∨ ∃ i p o, l = .step i ∧ s.processes[i]? = some (some p) ∧ p.here = .finish o ∧ o.succeeds = true) := by
  have sound := (commerce_invariant e cat).run (run.mono fun step => guarded_of_step step) (sound_idle start)
  refine ⟨sound.holds, fun l s' step => ?_⟩
  have holds' := ((commerce_invariant e cat).step (guarded_of_step step) sound).holds
  rcases Protocol.step_db step with same | ⟨i, p, kept, next, rfl, slot, act, same⟩
  · refine ⟨fun id => ?_, .inl same⟩
    exact (same ▸ Touches.refl [] s.db : Touches [] s.db s'.db).burns sound.holds holds' id
  obtain ⟨o, here, commits, rfl, rfl⟩ := commit_of_act act
  obtain ⟨view, touches⟩ := (sound.each slot).1.touches here commits
  refine ⟨fun id => (same ▸ touches : Touches p.held s.db s'.db).burns sound.holds holds' id, ?_⟩
  cases success : o.succeeds with
  | true => exact .inr ⟨i, p, o, rfl, slot, here, success⟩
  | false => exact .inl (by rw [same, view, Outcome.writes_eq_id success]; rfl)

/-- A free package that a client may have once. -/
def welcomeCatalogue : Catalogue where
  packages := [⟨1, ⟨1, 1⟩, true, some 10⟩]
  revisions := [⟨10, ⟨1, 1⟩, 1, 100, 0, "EUR", 2, ["NOT_REQUIRED"], none, none, [("end_mode", .str "MANUAL_END")], "FIXED"⟩]
  plans := [(⟨1, 1⟩, ⟨100, 1000, 1000, 1, 3600, 0, "VALIDITY_WINDOW"⟩)]
  rules _ := [⟨"PRIOR_PURCHASE", [("forbids_prior", .bool true)]⟩]
  tiers _ := [⟨1, []⟩]
  lineage _ _ := []
  endedByStaff _ _ _ := false
  packageIDs := onlineTimeCatalogue.packageIDs
  revisionIDs := onlineTimeCatalogue.revisionIDs
  currentOwn := onlineTimeCatalogue.currentOwn

def voucherSignIn : Db :=
  ⟨[⟨5, ⟨1, 1⟩, .voucher, .voucher 3, 7, "lan", 1000, none, ""⟩], [], [], [], [], [⟨3, ⟨1, 1⟩, 10, .unused, none, some 1000⟩]⟩

/-- A quote, then its confirm. -/
def redemption : List (Label Task) :=
  .start (.quote ⟨⟨⟨1, 1⟩, some 5, some 7, "lan"⟩, none, none, 0, 20⟩) :: List.replicate 3 (.step 0) ++
  .start (.confirm ⟨⟨1, 1⟩, some 20, some 7, "lan", 10, 10, 30, 40, 50⟩) :: List.replicate 16 (.step 1)

/-- The voucher is redeemed in a run of the model. -/
theorem voucher_is_redeemed : ∃ s, Run (ofOption (commerce (engine false) welcomeCatalogue).step) (idle voucherSignIn ()) redemption s ∧
    (s.db.vouchers.map (·.state) = [.redeemed] ∧ s.db.entitlements.map (·.id) = [50]) ∧ Consistent s.db := by
  obtain ⟨s, run, check⟩ := exists_run (f := (commerce (engine false) welcomeCatalogue).step) (s := idle voucherSignIn ())
    (l := redemption) (P := fun s => s.db.vouchers.map (·.state) = [.redeemed] ∧ s.db.entitlements.map (·.id) = [50]) (by decide +kernel)
  have start : Consistent voucherSignIn := by
    constructor <;> simp [voucherSignIn, Db.liveOf]
  exact ⟨s, run, of_decide_eq_true check, (commerce_consistent start run).1⟩

end StayConnect.Commerce
