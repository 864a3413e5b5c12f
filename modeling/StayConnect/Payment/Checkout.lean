import StayConnect.Commerce.Confirm

/-!
# Hosted card checkouts

`StartCheckout` writes the charge and begins its execution in one transaction, calls the provider once, and leaves an
ambiguous creation to `Reconcile`, which asks the provider by client reference and applies what it reports. The sweep fails
card purchases that never got a charge. Every statement and every call of the provider is one step; what the provider answers
is part of the request, since each request asks it at most once.
-/

namespace StayConnect.Payment
open Interleave
open Iam (Scope second)
open Commerce (Settlement SettlementStatus Purchase PurchaseState AcquisitionMethod trimSpace)

/-- The statuses of a charge; a provider outcome is one of the last three. -/
inductive ChargeStatus where
  | created | pending | captured | failed | unknown
  deriving DecidableEq, Repr

def ChargeStatus.terminal : ChargeStatus → Bool
  | .captured | .failed | .unknown => true
  | .created | .pending => false

/-- A row of `payment_transactions` of type `CHARGE`. -/
structure Charge where
  id : Nat
  scope : Scope
  settlement : Nat
  /-- The client reference, random. -/
  ref : Nat
  amountMinor : Int
  currency : String
  currencyExponent : Int
  status : ChargeStatus
  providerTxnRef : Option String

inductive Creation where
  | unset | created | notCreated | ambiguous
  deriving DecidableEq, Repr

structure Checkout where
  charge : Nat
  createdAt : Int
  expiresAt : Int
  sessionRef : Option String
  creation : Creation

/-- What an outcome was learned from; with the client reference it makes the provider event id. -/
inductive EventType where
  | checkoutNotCreated | statusUnresolved | amountMismatch | captured | declined | expired | notFound | openAfterGrace
  deriving DecidableEq, Repr

/-- A row of `payment_transaction_events`. -/
structure Event where
  charge : Nat
  type : EventType
  deriving DecidableEq, Repr

/-- A row of `card_purchase_sweeps`. -/
structure Sweep where
  settlement : Nat
  purchase : Nat

structure Db where
  settlements : List Settlement
  purchases : List Purchase
  /-- When the quote of a purchase was consumed. -/
  consumedAt : List (Nat × Int)
  charges : List Charge
  checkouts : List Checkout
  events : List Event
  sweeps : List Sweep
  /-- The purchases with an entitlement. -/
  entitlements : List Nat

inductive CheckoutState where
  | stillOpen | captured | declined | expired | notFound

structure StatusResult where
  state : CheckoutState
  providerTxnRef : String
  amountMinor : Int
  currency : String

/-- How `CreateCheckout` answers: created, provably not created, or neither. -/
inductive CreationAnswer where
  | created (sessionRef : String)
  | notCreated
  | ambiguous

/-- How `QueryStatus` answers; without an account it is not asked. -/
inductive StatusAnswer where
  | noAccount
  | failed
  | report (r : StatusResult)

/-- What the provider was asked to create, by settlement and client reference, and what it has reported. -/
structure World where
  creates : List (Nat × Nat)
  reports : List (Nat × StatusResult)

structure StartTask where
  scope : Scope
  settlement : Nat
  charge : Nat
  ref : Nat
  now : Int
  expiry : Int
  answer : CreationAnswer

structure ReconcileTask where
  scope : Scope
  charge : Nat
  now : Int
  grace : Int
  answer : StatusAnswer
  /-- Where the reversals reported with a capture leave the settlement. -/
  reversal : Option SettlementStatus

structure SweepTask where
  scope : Scope
  now : Int
  age : Int
  /-- The settlements the scan comes to; one that is locked is skipped. -/
  picks : List Nat

inductive Task where
  | start (t : StartTask)
  | reconcile (t : ReconcileTask)
  | sweep (t : SweepTask)

/-- A call of `p4_apply_provider_outcome`; a reconciliation goes on afterwards. -/
structure Apply where
  ref : Nat
  settlement : Nat
  event : EventType
  outcome : ChargeStatus
  txnRef : Option String
  after : Option ReconcileTask

/-- `strings.EqualFold`, for ASCII. -/
def equalFold (s t : String) : Bool := s.toList.map Char.toLower = t.toList.map Char.toLower

/-- The pinned amount and currency were captured. -/
def Charge.agrees (c : Charge) (r : StatusResult) : Bool :=
  r.amountMinor = c.amountMinor && equalFold r.currency (trimSpace c.currency)

/-- The outcome to apply to a charge; an empty reference is none. -/
def Charge.apply (c : Charge) (t : ReconcileTask) (event : EventType) (outcome : ChargeStatus) (txnRef : String) : Apply :=
  ⟨c.ref, c.settlement, event, outcome, if txnRef = "" then none else some txnRef, some t⟩

/-- The checkout has expired for longer than the grace. -/
def ReconcileTask.late (t : ReconcileTask) (k : Checkout) : Bool := k.expiresAt + t.grace < t.now

/-- `queryAndApply`: the outcome to apply, if the answer has one. -/
def queryAndApply (t : ReconcileTask) (c : Charge) (k : Checkout) : Option Apply :=
  match t.answer with
  | .noAccount => none
  | .failed => if t.late k then some (c.apply t .statusUnresolved .unknown "") else none
  | .report r =>
    match r.state with
    | .captured =>
      if c.agrees r && r.providerTxnRef ≠ "" then some (c.apply t .captured .captured r.providerTxnRef)
      else some (c.apply t .amountMismatch .unknown r.providerTxnRef)
    | .declined => some (c.apply t .declined .failed r.providerTxnRef)
    | .expired => some (c.apply t .expired .failed r.providerTxnRef)
    | .notFound =>
      if t.late k || (k.creation = .ambiguous && k.createdAt + t.grace < t.now) then some (c.apply t .notFound .failed "") else none
    | .stillOpen => if t.late k then some (c.apply t .openAfterGrace .unknown "") else none

def insertCharge (c : Charge) (db : Db) : Db := { db with charges := db.charges ++ [c] }

def beginExecution (c : Charge) (db : Db) : Db :=
  { db with
    settlements := db.settlements.map fun s => if s.id = c.settlement then { s with status := .inProgress } else s
    charges := db.charges.map fun x => if x.id = c.id then { x with status := .pending } else x }

def insertCheckout (t : StartTask) (c : Charge) (db : Db) : Db :=
  { db with checkouts := db.checkouts ++ [⟨c.id, t.now, t.now + t.expiry, none, .unset⟩] }

/-- The answer to the creation, written to the checkout. -/
def markCheckout (t : StartTask) (c : Charge) (db : Db) : Db :=
  { db with checkouts := db.checkouts.map fun k => if k.charge = c.id then
      match t.answer with
      | .created session => { k with sessionRef := some session, creation := .created }
      | .notCreated => { k with creation := .notCreated }
      | .ambiguous => { k with creation := .ambiguous }
    else k }

/-- The outcome on the charge: the provider's reference is pinned once. -/
def Charge.move (a : Apply) (c : Charge) : Charge :=
  { c with status := a.outcome, providerTxnRef := c.providerTxnRef.or a.txnRef }

def recordOutcome (a : Apply) (c : Charge) (db : Db) : Db :=
  { db with
    events := db.events ++ [⟨c.id, a.event⟩]
    charges := db.charges.map fun x => if x.id = c.id then x.move a else x }

/-- Where an outcome of its charge leaves a settlement. -/
def target : ChargeStatus → Option SettlementStatus
  | .captured => some .settled
  | .failed => some .failed
  | .unknown => some .manualReview
  | .created | .pending => none

/-- A settlement gets a status, and its purchase follows. -/
def moveSettlement (se : Settlement) (status : SettlementStatus) (db : Db) : Db :=
  { db with
    settlements := db.settlements.map fun s => if s.id = se.id then { s with status } else s
    purchases := db.purchases.map (Purchase.follow se status) }

/-- The settlement of a charge in progress follows the outcome. -/
def settleBy (a : Apply) (se : Settlement) (db : Db) : Db :=
  match target a.outcome with
  | some status => if se.status = .inProgress then moveSettlement se status db else db
  | none => db

/-- The kernel: an entitlement for the purchase. -/
def grantPurchase (se : Settlement) (db : Db) : Db :=
  { db with
    entitlements := db.entitlements ++ [se.purchase]
    purchases := db.purchases.map fun p => if p.id = se.purchase then { p with state := .granted } else p }

/-- The sweep of one settlement: `REQUIRED` to `IN_PROGRESS` to `FAILED`, and a row that says so. -/
def sweepOne (db : Db) (se : Settlement) : Db :=
  { moveSettlement { se with status := .inProgress } .failed db with sweeps := db.sweeps ++ [⟨se.id, se.purchase⟩] }

inductive Lock where
  /-- The unique idempotency key of the checkout of a settlement. -/
  | key (settlement : Nat)
  | ref (ref : Nat)
  | charge (id : Nat)
  | settlement (id : Nat)
  | purchase (id : Nat)
  deriving DecidableEq, Repr

/-- Where a process stands, with the rows it has read. The key of a checkout stays with its process until the creation is
marked: another request finds the charge and does not wait for it. -/
inductive Phase where
  | select (t : StartTask)
  | admission (t : StartTask) (c : Charge)
  | execute (t : StartTask) (c : Charge)
  | insertCheckout (t : StartTask) (c : Charge)
  | intended (t : StartTask) (c : Charge)
  | create (t : StartTask) (c : Charge)
  | mark (t : StartTask) (c : Charge)
  | marked (t : StartTask) (c : Charge)
  | resolve (a : Apply)
  | lockCharge (a : Apply) (charge : Nat)
  | lockSettlement (a : Apply) (c : Charge)
  | applied (a : Apply) (row : Option (Charge × Option Settlement))
  | load (t : ReconcileTask)
  | query (t : ReconcileTask) (c : Charge) (k : Checkout)
  | recheck (t : ReconcileTask)
  | grant (t : ReconcileTask) (last : Bool) (settlement : Nat)
  | grantPurchase (t : ReconcileTask) (last : Bool) (se : Settlement)
  | granted (t : ReconcileTask) (last : Bool) (se : Settlement) (new : Bool)
  | reverse (t : ReconcileTask) (settlement : Nat)
  | reversed (t : ReconcileTask) (se : Settlement) (status : SettlementStatus)
  | scan (t : SweepTask) (swept : List Settlement) (rest : List Nat)
  | lockSweep (t : SweepTask) (swept : List Settlement) (settlement : Nat) (rest : List Nat)
  | ended

abbrev Step := Act Db Lock World Phase

/-- What follows a call of `applyOutcome`, whether it failed or not. -/
def Apply.goesOn (a : Apply) : Phase :=
  match a.after with
  | none => .ended
  | some t => .recheck t

/-- A capture that was applied is granted at once. -/
def Apply.goesOnApplied (a : Apply) : Phase :=
  match a.after with
  | none => .ended
  | some t => if a.event = .captured then .grant t false a.settlement else .recheck t

def afterGrant (t : ReconcileTask) (last : Bool) (settlement : Nat) : Phase :=
  if last then .ended else .reverse t settlement

def createCheckout (c : Charge) (w : World) : World := { w with creates := w.creates ++ [(c.settlement, c.ref)] }

def queryStatus (t : ReconcileTask) (c : Charge) (w : World) : World :=
  match t.answer with
  | .report r => { w with reports := w.reports ++ [(c.ref, r)] }
  | .noAccount | .failed => w

def afterQuery (t : ReconcileTask) (c : Charge) (k : Checkout) : Phase :=
  match queryAndApply t c k with
  | none => .recheck t
  | some a => .resolve a

/-- The settlement gets no charge any more. -/
def closed : SettlementStatus → Bool
  | .settled | .failed | .partiallyReversed | .reversed => true
  | .notRequired | .required | .inProgress | .manualReview => false

def Db.settlement (db : Db) (id : Nat) : Option Settlement := db.settlements.find? (·.id = id)

def Db.purchase (db : Db) (id : Nat) : Option Purchase := db.purchases.find? (·.id = id)

def Db.charged (db : Db) (settlement : Nat) : Bool := db.charges.any (·.settlement = settlement)

/-- The charge of a settlement, pinned to its purchase. -/
def chargeOf (t : StartTask) (se : Settlement) (pu : Purchase) : Charge :=
  { id := t.charge
    scope := t.scope
    settlement := se.id
    ref := t.ref
    amountMinor := pu.amountMinor
    currency := pu.currency
    currencyExponent := pu.currencyExponent
    status := .created
    providerTxnRef := none }

/-- The scan of the sweep: a card payment never started, of a purchase that waits for longer than the age. -/
def Db.unstarted (db : Db) (t : SweepTask) (settlement : Nat) : Bool :=
  (db.settlement settlement).any fun se =>
    se.scope = t.scope && se.method = .card && se.status = .required &&
    (db.purchase se.purchase).any (·.state = .awaitingSettlement) &&
    (db.consumedAt.lookup se.purchase).any (· < t.now - t.age * second) && !db.charged se.id

def act : Phase → Db → World → Step
  | .select t, db, _ =>
    match (db.settlements.find? fun s => s.scope = t.scope ∧ s.id = t.settlement ∧ s.method = .card ∧ s.status = .required) with
    | none => .rollback .ended
    | some se =>
      match db.purchase se.purchase with
      | none => .rollback .ended
      | some pu => .statement [] (fun db => db) (.admission t (chargeOf t se pu))
  | .admission t c, db, _ =>
    -- `p4_payment_admission_gate` locks the settlement; then the unique keys
    match db.settlement c.settlement with
    | none => .rollback .ended
    | some se =>
      if closed se.status || db.charges.any fun x => x.settlement = c.settlement || x.ref = c.ref || x.id = c.id then .rollback .ended
      else .statement [.settlement c.settlement, .key c.settlement, .ref c.ref, .charge c.id] (insertCharge c) (.execute t c)
  | .execute t c, db, _ =>
    if (db.settlement c.settlement).any fun s => s.status = .required || s.status = .inProgress then
      .statement [] (beginExecution c) (.insertCheckout t c)
    else .rollback .ended
  | .insertCheckout t c, _, _ => .statement [] (insertCheckout t c) (.intended t c)
  | .intended t c, _, _ => .commit [.key c.settlement] (.create t c)
  | .create t c, _, _ => .call (createCheckout c) (.mark t c)
  | .mark t c, _, _ => .statement [] (markCheckout t c) (.marked t c)
  | .marked t c, _, _ =>
    .commit [] <| match t.answer with
      | .notCreated => .resolve ⟨c.ref, c.settlement, .checkoutNotCreated, .failed, none, none⟩
      | .created _ | .ambiguous => .ended
  | .resolve a, db, _ =>
    match db.charges.find? (·.ref = a.ref) with
    | none => .rollback a.goesOn
    | some c => if c.status = .pending || c.status = a.outcome then .statement [] (fun db => db) (.lockCharge a c.id) else .rollback a.goesOn
  | .lockCharge a id, db, _ =>
    match db.charges.find? (·.id = id) with
    | none => .rollback a.goesOn
    | some c =>
      if a.txnRef.isSome && c.providerTxnRef.isSome && a.txnRef ≠ c.providerTxnRef then .rollback a.goesOn
      else if db.events.contains ⟨c.id, a.event⟩ then .statement [.charge c.id] (fun db => db) (.applied a none)
      -- `p4_payment_status_machine` refuses to move a charge that is not executing
      else if c.status ≠ .pending && c.status ≠ a.outcome then .rollback a.goesOn
      else .statement [.charge c.id] (recordOutcome a c)
        (if c.status = a.outcome then .applied a (some (c, none)) else .lockSettlement a c)
  | .lockSettlement a c, db, _ =>
    match db.settlement c.settlement with
    | none => .rollback a.goesOn
    | some se =>
      .statement [.settlement se.id, .purchase se.purchase] (settleBy a se) (.applied a (some (c, some se)))
  | .applied a _, _, _ => .commit [] a.goesOnApplied
  | .load t, db, _ =>
    match db.charges.find? fun c => c.scope = t.scope ∧ c.id = t.charge with
    | none => .rollback .ended
    | some c =>
      match db.checkouts.find? (·.charge = c.id) with
      | none => .rollback .ended
      | some k => .statement [] (fun db => db) (if c.status = .pending then .query t c k else .recheck t)
  | .query t c k, _, _ => .call (queryStatus t c) (afterQuery t c k)
  | .recheck t, db, _ =>
    match db.charges.find? (·.id = t.charge) with
    | none => .rollback .ended
    | some c => .statement [] (fun db => db) (if c.status = .captured then .grant t true c.settlement else .ended)
  | .grant t last id, db, _ =>
    match db.settlement id with
    | none => .rollback (afterGrant t last id)
    | some se =>
      if (se.method = .card || se.method = .roomCharge) && se.status = .settled then
        .statement [.settlement se.id] (fun db => db) (.grantPurchase t last se)
      else .rollback (afterGrant t last id)
  | .grantPurchase t last se, db, _ =>
    match db.purchase se.purchase with
    | none => .rollback (afterGrant t last se.id)
    | some pu =>
      if db.entitlements.contains pu.id then .statement [.purchase pu.id] (fun db => db) (.granted t last se false)
      else if pu.state = .awaitingSettlement || pu.state = .manualReview then
        .statement [.purchase pu.id] (grantPurchase se) (.granted t last se true)
      else .rollback (afterGrant t last se.id)
  | .granted t last se _, _, _ => .commit [] (afterGrant t last se.id)
  | .reverse t id, db, _ =>
    match db.settlement id, t.reversal with
    | some se, some status =>
      if (se.status = .settled || se.status = .partiallyReversed) && (status = .partiallyReversed || status = .reversed) then
        .statement [.settlement se.id] (moveSettlement se status) (.reversed t se status)
      else .rollback (.recheck t)
    | _, _ => .rollback (.recheck t)
  | .reversed t _ _, _, _ => .commit [] (.recheck t)
  | .scan _ _ [], _, _ => .commit [] .ended
  | .scan t swept (id :: rest), db, _ =>
    .statement [] (fun db => db) (if db.unstarted t id then .lockSweep t swept id rest else .scan t swept rest)
  | .lockSweep t swept id rest, db, _ =>
    match db.settlement id with
    | none => .statement [] (fun db => db) (.scan t swept rest)
    | some se =>
      if se.method = .card && se.status = .required && !db.charged se.id then
        .statement [.settlement se.id, .purchase se.purchase] (sweepOne · se) (.scan t (swept ++ [se]) rest)
      else .statement [.settlement se.id] (fun db => db) (.scan t swept rest)
  | .ended, _, _ => .stop

/-- The age of a sweep is bounded: never sooner than ten minutes, never later than a week. -/
def initial : Task → Phase
  | .start t => .select t
  | .reconcile t => .load t
  | .sweep t => if t.age < 600 ∨ 7 * 86400 < t.age then .ended else .scan t [] t.picks

def payments : Protocol Db Lock World Task Phase := ⟨initial, act⟩

/-- The statements that go through: what is read, the locks, the write and where the process stands next. -/
inductive Statement (db : Db) : Phase → List Lock → (Db → Db) → Phase → Prop where
  | select {t se pu} : se ∈ db.settlements → pu ∈ db.purchases → pu.id = se.purchase →
      Statement db (.select t) [] (fun db => db) (.admission t (chargeOf t se pu))
  | admission {t c se} : db.settlement c.settlement = some se → closed se.status = false →
      (∀ x ∈ db.charges, x.settlement ≠ c.settlement ∧ x.ref ≠ c.ref ∧ x.id ≠ c.id) →
      Statement db (.admission t c) [.settlement c.settlement, .key c.settlement, .ref c.ref, .charge c.id] (insertCharge c)
        (.execute t c)
  | execute {t c} : Statement db (.execute t c) [] (beginExecution c) (.insertCheckout t c)
  | insertCheckout {t c} : Statement db (.insertCheckout t c) [] (insertCheckout t c) (.intended t c)
  | mark {t c} : Statement db (.mark t c) [] (markCheckout t c) (.marked t c)
  | resolve {a c} : c ∈ db.charges → c.ref = a.ref → Statement db (.resolve a) [] (fun db => db) (.lockCharge a c.id)
  | duplicate {a id c} : Statement db (.lockCharge a id) [.charge c] (fun db => db) (.applied a none)
  | noop {a id c} : c ∈ db.charges → c.id = id → c.status = a.outcome →
      Statement db (.lockCharge a id) [.charge c.id] (recordOutcome a c) (.applied a (some (c, none)))
  | lockCharge {a id c} : c ∈ db.charges → c.id = id → c.status = .pending →
      Statement db (.lockCharge a id) [.charge c.id] (recordOutcome a c) (.lockSettlement a c)
  | lockSettlement {a c se} : se ∈ db.settlements → se.id = c.settlement →
      Statement db (.lockSettlement a c) [.settlement se.id, .purchase se.purchase] (settleBy a se) (.applied a (some (c, some se)))
  | load {t c k} : c ∈ db.charges → Statement db (.load t) [] (fun db => db) (.query t c k)
  | loadResolved {t} : Statement db (.load t) [] (fun db => db) (.recheck t)
  | recheck {t s} : Statement db (.recheck t) [] (fun db => db) (.grant t true s)
  | recheckEnded {t} : Statement db (.recheck t) [] (fun db => db) .ended
  | grant {t last id se} : se ∈ db.settlements → se.status = .settled →
      Statement db (.grant t last id) [.settlement se.id] (fun db => db) (.grantPurchase t last se)
  | grantExisting {t last se} :
      Statement db (.grantPurchase t last se) [.purchase se.purchase] (fun db => db) (.granted t last se false)
  | grantPurchase {t last se} :
      Statement db (.grantPurchase t last se) [.purchase se.purchase] (grantPurchase se) (.granted t last se true)
  | reverse {t id se status} : se ∈ db.settlements → se.status = .settled ∨ se.status = .partiallyReversed →
      status = .partiallyReversed ∨ status = .reversed →
      Statement db (.reverse t id) [.settlement se.id] (moveSettlement se status) (.reversed t se status)
  | scan {t swept id rest} : Statement db (.scan t swept (id :: rest)) [] (fun db => db) (.lockSweep t swept id rest)
  | pass {t swept id rest} : Statement db (.scan t swept (id :: rest)) [] (fun db => db) (.scan t swept rest)
  | sweep {t swept id rest se} : se ∈ db.settlements → se.status = .required → (∀ c ∈ db.charges, c.settlement ≠ se.id) →
      Statement db (.lockSweep t swept id rest) [.settlement se.id, .purchase se.purchase] (sweepOne · se)
        (.scan t (swept ++ [se]) rest)
  | skip {t swept id rest locks} : Statement db (.lockSweep t swept id rest) locks (fun db => db) (.scan t swept rest)

variable {db : Db} {id : Nat} {phase next : Phase} {w : World}

lemma Db.settlement_mem {se} (h : db.settlement id = some se) : se ∈ db.settlements ∧ se.id = id :=
  ⟨List.mem_of_find?_eq_some h, by simpa using List.find?_some h⟩

lemma Db.purchase_mem {pu} (h : db.purchase id = some pu) : pu ∈ db.purchases ∧ pu.id = id :=
  ⟨List.mem_of_find?_eq_some h, by simpa using List.find?_some h⟩

lemma statement_of_act {locks write} (h : act phase db w = .statement locks write next) : Statement db phase locks write next := by
  unfold act at h
  split at h
  case h_1 =>
    split at h
    · cases h
    next se found =>
      split at h
      · cases h
      · rename_i pu bought
        cases h
        exact .select (List.mem_of_find?_eq_some found) (Db.purchase_mem bought).1 (Db.purchase_mem bought).2
  case h_2 =>
    split at h
    · cases h
    next se found =>
      split at h
      · cases h
      rename_i ok
      cases h
      simp only [Bool.or_eq_true, List.any_eq_true, decide_eq_true_eq, not_or, not_exists, not_and, Bool.not_eq_true] at ok
      exact .admission found ok.1 fun x hx => ⟨(ok.2 x hx).1.1, (ok.2 x hx).1.2, (ok.2 x hx).2⟩
  case h_3 =>
    split at h
    · cases h
      exact .execute
    · cases h
  case h_9 =>
    split at h
    · cases h
    next c found =>
      split at h
      · cases h
        exact .resolve (List.mem_of_find?_eq_some found) (by simpa using List.find?_some found)
      · cases h
  case h_10 a id =>
    split at h
    · cases h
    next c found =>
      have mem := List.mem_of_find?_eq_some found
      have same : c.id = id := by simpa using List.find?_some found
      split at h
      · cases h
      split at h
      · cases h
        exact .duplicate
      split at h
      · cases h
      rename_i moves
      split at h
      · rename_i noop
        cases h
        exact .noop mem same noop
      · rename_i differs
        cases h
        exact .lockCharge mem same (by simpa [differs] using moves)
  case h_11 =>
    split at h
    · cases h
    next se found =>
      cases h
      exact .lockSettlement (Db.settlement_mem found).1 (Db.settlement_mem found).2
  case h_13 =>
    split at h
    · cases h
    next c found =>
      split at h
      · cases h
      injection h with locked wrote next
      subst locked wrote next
      split
      · exact .load (List.mem_of_find?_eq_some found)
      · exact .loadResolved
  case h_15 =>
    split at h
    · cases h
    injection h with locked wrote next
    subst locked wrote next
    split
    · exact .recheck
    · exact .recheckEnded
  case h_16 =>
    split at h
    · cases h
    next se found =>
      split at h
      · rename_i ok
        cases h
        simp only [Bool.and_eq_true, decide_eq_true_eq] at ok
        exact .grant (Db.settlement_mem found).1 ok.2
      · cases h
  case h_17 =>
    split at h
    · cases h
    next pu found =>
      rw [(Db.purchase_mem found).2] at h
      split at h
      · cases h
        exact .grantExisting
      split at h
      · cases h
        exact .grantPurchase
      · cases h
  case h_19 =>
    split at h
    next se status found _ =>
      split at h
      · rename_i ok
        cases h
        simp only [Bool.and_eq_true, Bool.or_eq_true, decide_eq_true_eq] at ok
        exact .reverse (Db.settlement_mem found).1 ok.1 ok.2
      · cases h
    · cases h
  case h_22 =>
    injection h with locked wrote next
    subst locked wrote next
    split
    · exact .scan
    · exact .pass
  case h_23 =>
    split at h
    · cases h
      exact .skip
    next se found =>
      split at h
      · rename_i ok
        cases h
        simp only [Bool.and_eq_true, decide_eq_true_eq, Bool.not_eq_true'] at ok
        exact .sweep (Db.settlement_mem found).1 ok.1.2 (by simpa [Db.charged] using ok.2)
      · cases h
        exact .skip
  all_goals cases h
  · exact .insertCheckout
  · exact .mark

/-- The phases that end a transaction, what is kept of its locks and where the process goes. -/
inductive Commits : Phase → List Lock → Phase → Prop where
  | intended {t c} : Commits (.intended t c) [.key c.settlement] (.create t c)
  | marked {t c} : Commits (.marked t c) [] .ended
  | markedNotCreated {t c} : Commits (.marked t c) [] (.resolve ⟨c.ref, c.settlement, .checkoutNotCreated, .failed, none, none⟩)
  | applied {a row} : Commits (.applied a row) [] a.goesOnApplied
  | granted {t last se new} : Commits (.granted t last se new) [] (afterGrant t last se.id)
  | reversed {t se status} : Commits (.reversed t se status) [] (.recheck t)
  | swept {t swept} : Commits (.scan t swept []) [] .ended

lemma commits_of_act {kept} (h : act phase db w = .commit kept next) : Commits phase kept next := by
  unfold act at h
  split at h
  case h_8 t c =>
    injection h with kept next
    subst kept next
    cases t.answer with
    | notCreated => exact .markedNotCreated
    | created | ambiguous => exact .marked
  all_goals repeat' split at h
  all_goals cases h
  · exact .intended
  · exact .applied
  · exact .granted
  · exact .reversed
  · exact .swept

/-- After an error a process starts over with nothing it has read. -/
inductive Restarts : Phase → Prop where
  | ended : Restarts .ended
  | recheck {t} : Restarts (.recheck t)
  | reverse {t id} : Restarts (.reverse t id)

lemma Apply.restarts (a : Apply) : Restarts a.goesOn := by
  unfold Apply.goesOn
  split
  · exact .ended
  · exact .recheck

lemma afterGrant_restarts (t : ReconcileTask) (last : Bool) (id : Nat) : Restarts (afterGrant t last id) := by
  unfold afterGrant
  split
  · exact .ended
  · exact .reverse

lemma restarts_of_act (h : act phase db w = .rollback next) : Restarts next := by
  unfold act at h
  split at h
  all_goals repeat' split at h
  all_goals cases h
  all_goals first
    | exact .ended
    | exact .recheck
    | exact Apply.restarts _
    | exact afterGrant_restarts _ _ _

inductive Calls : Phase → (World → World) → Phase → Prop where
  | create {t c} : Calls (.create t c) (createCheckout c) (.mark t c)
  | query {t c k} : Calls (.query t c k) (queryStatus t c) (afterQuery t c k)

lemma calls_of_act {effect} (h : act phase db w = .call effect next) : Calls phase effect next := by
  unfold act at h
  split at h
  all_goals repeat' split at h
  all_goals cases h
  · exact .create
  · exact .query

end StayConnect.Payment
