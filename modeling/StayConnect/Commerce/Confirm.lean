import StayConnect.Commerce.Offers
import StayConnect.Interleave
import Mathlib.Data.List.Sort

/-!
# Confirms and grants, statement by statement

`ConfirmPurchase` locks the quote, then its auth context, then the subject, consumes both rows and writes purchase and
settlement; a free or voucher purchase is granted in the same transaction by the grant kernel, which takes a lock on the
subject of its own. The entry points of the kernel may also be called alone, again and again. Every statement is one step
of the process that runs the transaction.
-/

namespace StayConnect.Commerce
open Iam Tx Interleave

inductive PurchaseDeny where
  | quoteUnavailable
  | methodNotAvailable | quoteNotPriced | quoteNotFree | quoteBadCurrency | quoteHasPmsSettlement | quoteHasTax
  | quoteBadSnapshot | cardCurrencyNotAccepted
  | timeMode (r : TimeModeRefusal) | perNightAllowanceNeedsStay
  | authContextMismatch | authContextUnavailable | subjectInvalid | methodSubjectMismatch
  | quoteAlreadyConsumed | authContextAlreadyConsumed

def PurchaseDeny.text : PurchaseDeny → String
  | .quoteUnavailable => "quote_unavailable"
  | .methodNotAvailable => "method_not_available"
  | .quoteNotPriced => "quote_not_priced"
  | .quoteNotFree => "quote_not_free"
  | .quoteBadCurrency => "quote_bad_currency"
  | .quoteHasPmsSettlement => "quote_has_pms_settlement"
  | .quoteHasTax => "quote_has_tax"
  | .quoteBadSnapshot => "quote_bad_snapshot"
  | .cardCurrencyNotAccepted => "card_currency_not_accepted"
  | .timeMode r => r.text
  | .perNightAllowanceNeedsStay => "per_night_allowance_needs_stay"
  | .authContextMismatch => "auth_context_mismatch"
  | .authContextUnavailable => "auth_context_unavailable"
  | .subjectInvalid => "subject_invalid"
  | .methodSubjectMismatch => "method_subject_mismatch"
  | .quoteAlreadyConsumed => "quote_already_consumed"
  | .authContextAlreadyConsumed => "auth_context_already_consumed"

/-- A `ConfirmRequest`, with the clocks its transaction reads and the ids its inserts are given. -/
structure ConfirmRequest where
  scope : Scope
  quote : Option Nat
  device : Option Nat
  guestNetwork : String
  /-- The engine's clock. -/
  now : Int
  /-- `now()` of the transaction. -/
  clock : Int
  purchase : Nat
  settlement : Nat
  entitlement : Nat

def ConfirmRequest.complete (r : ConfirmRequest) : Bool := r.quote.isSome && r.device.isSome && r.guestNetwork ≠ ""

def OfferQuote.hasPms (q : OfferQuote) : Bool := q.pmsInterface.isSome || q.settlementMapping.isSome

def OfferQuote.badCurrency (q : OfferQuote) : Bool := !(validateCurrency q.currency q.currencyExponent).isOk

def OfferQuote.badSnapshot (q : OfferQuote) : Bool := q.snapshot.version ≠ grantSnapshotVersion

def OfferQuote.usable (q : OfferQuote) (now : Int) : Bool := q.consumedAt.isNone && decide (now < q.expiresAt)

def revalidateFreeQuote (q : OfferQuote) : Except PurchaseDeny Unit := do
  refuse (q.priceMinor ≠ 0) .quoteNotFree
  refuse q.badCurrency .quoteBadCurrency
  refuse q.hasPms .quoteHasPmsSettlement
  refuse (q.taxCode.isSome || q.taxRateBP.any (· ≠ 0) || q.taxAmountMinor.any (· ≠ 0)) .quoteHasTax
  refuse q.badSnapshot .quoteBadSnapshot

def revalidateQuote (q : OfferQuote) (site : SiteMethods) : AcquisitionMethod → Except PurchaseDeny Unit
  | .free => revalidateFreeQuote q
  | .voucher => do
    refuse q.hasPms .quoteHasPmsSettlement
    refuse q.badCurrency .quoteBadCurrency
    refuse q.badSnapshot .quoteBadSnapshot
  | .card => do
    refuse (!site.paidAccess || !site.card) .methodNotAvailable
    refuse (q.priceMinor ≤ 0) .quoteNotPriced
    refuse q.hasPms .quoteHasPmsSettlement
    refuse (!site.cardApplicable q.currency) .cardCurrencyNotAccepted
    refuse q.badCurrency .quoteBadCurrency
    refuse q.badSnapshot .quoteBadSnapshot
  | .roomCharge => .error .methodNotAvailable

/-- Why a confirm stops: a reason for the guest, or a failure. -/
inductive ConfirmStop where
  | deny (why : PurchaseDeny)
  | failed

/-- What is asked of a locked quote; a quote without a method is free. -/
def quoteGates (e : Engine) (cat : Catalogue) (r : ConfirmRequest) (q : OfferQuote) : Except ConfirmStop AcquisitionMethod := do
  refuse (!q.usable r.now) (.deny .quoteUnavailable)
  let method := q.snapshot.acquisitionMethod.getD .free
  (revalidateQuote q e.site method).mapError .deny
  refuseAny (timeModeAcquirable q.snapshot.timeAccountingMode e.aggregateOnlineTime) fun r => .deny (.timeMode r)
  let pkg ← need .failed (cat.loadPackageRevisionByID r.scope q.packageRevision)
  refuse (pkg.dataAllocationMode = "PER_STAY_NIGHT") (.deny .perNightAllowanceNeedsStay)
  return method

/-- What is asked of the locked auth context. -/
def contextGates (r : ConfirmRequest) (method : AcquisitionMethod) (ac : AuthContext) : Except ConfirmStop Unit := do
  refuse (ac.scope ≠ r.scope || some ac.device ≠ r.device || ac.guestNetwork ≠ r.guestNetwork) (.deny .authContextMismatch)
  refuse (!ac.usable r.now) (.deny .authContextUnavailable)
  refuse (ac.subject.kind = .none) (.deny .subjectInvalid)
  refuse (decide (method = .voucher) ≠ decide (ac.subject.kind = .voucher)) (.deny .methodSubjectMismatch)

structure Confirm where
  request : ConfirmRequest
  quote : OfferQuote
  method : AcquisitionMethod
  context : AuthContext

namespace Confirm

variable (c : Confirm)

def consumeQuote (db : Db) : Db :=
  { db with quotes := db.quotes.map fun q =>
      if q.id = c.quote.id ∧ q.usable c.request.now = true then { q with consumedAt := some c.request.now } else q }

def consumeContext (db : Db) : Db :=
  { db with authContexts := db.authContexts.map fun ac =>
      if ac.id = c.context.id ∧ ac.usable c.request.now = true then { ac with consumedAt := some c.request.now } else ac }

def purchaseRow : Purchase :=
  { id := c.request.purchase
    scope := c.request.scope
    packageRevision := c.quote.packageRevision
    offerQuote := c.quote.id
    authContext := c.context.id
    trigger := if c.method = .voucher then .voucherRedemption else .guestSelection
    amountMinor := c.quote.priceMinor
    currency := c.quote.currency
    currencyExponent := c.quote.currencyExponent
    stay := none
    pmsInterface := none
    state := if c.method = .card then .awaitingSettlement else .pending }

def settlementRow : Settlement :=
  { id := c.request.settlement
    scope := c.request.scope
    purchase := c.request.purchase
    method := c.method
    status := match c.method with
      | .free => .notRequired
      | .voucher => .settled
      | .card | .roomCharge => .required }

def insertPurchase (db : Db) : Db := { db with purchases := db.purchases ++ [c.purchaseRow] }

def insertSettlement (db : Db) : Db := { db with settlements := db.settlements ++ [c.settlementRow] }

def writes : Db → Db := c.insertSettlement ∘ c.insertPurchase ∘ c.consumeContext ∘ c.consumeQuote

end Confirm

/-- The entry points of the kernel. -/
inductive Rail where
  | quoted | voucher | paid
  deriving DecidableEq, Repr

structure Grant where
  confirm : Option Confirm
  rail : Rail
  scope : Scope
  clock : Int
  entitlement : Nat

/-- What the confirm around a grant wrote. -/
def Grant.base (g : Grant) : Db → Db := g.confirm.elim id Confirm.writes

structure Kernel where
  purchase : Nat
  subject : Subject
  packageRevision : Nat
  snapshot : GrantSnapshot
  /-- The purchase is of the kind staff can end. -/
  free : Bool
  device : Nat

def Subject.id : Subject → Nat
  | .voucher id | .account id | .principal id | .anonymous id | .stay id | .postStay id => id

def EntitlementStatus.live : EntitlementStatus → Bool
  | .pending | .active | .suspended => true
  | .terminated => false

def Db.liveOf (db : Db) (scope : Scope) (subject : Subject) : List Entitlement :=
  db.entitlements.filter fun e => EntitlementStatus.live e.status && decide (e.scope = scope) && decide (e.subject = subject)

/-- `ORDER BY activated_at DESC NULLS LAST, id`. -/
def Entitlement.before (a b : Entitlement) : Bool :=
  match a.activatedAt, b.activatedAt with
  | some x, some y => y < x || x == y && a.id ≤ b.id
  | some _, none => true
  | none, some _ => false
  | none, none => a.id ≤ b.id

/-- The entitlement a grant supersedes. -/
def Db.head (db : Db) (scope : Scope) (subject : Subject) : Option Entitlement :=
  ((db.liveOf scope subject).insertionSort fun a b => a.before b = true).head?

/-- `apply_entitlement_transition` to `TERMINATED`. -/
def terminate (superseded : Option Nat) (db : Db) : Db :=
  { db with entitlements := db.entitlements.map fun e =>
      if superseded = some e.id then { e with status := .terminated } else e }

def Voucher.inWindow (v : Voucher) (now : Int) : Bool := v.validFrom.all (· ≤ now) && v.validUntil.all (now < ·)

def Voucher.redeemable (v : Voucher) (scope : Scope) (id : Nat) (now : Int) : Bool :=
  v.scope = scope && v.id = id && v.state = .unused && v.inWindow now

namespace Kernel

variable (k : Kernel) (g : Grant)

def row (superseded : Option Nat) : Entitlement :=
  { id := g.entitlement
    scope := g.scope
    subject := k.subject
    purchase := k.purchase
    packageRevision := k.packageRevision
    planRevision := k.snapshot.servicePlanRevisionID
    snapshot := k.snapshot
    status := .active
    activatedAt := some g.clock
    supersedes := superseded
    dataQuotaBytes := if 0 < k.snapshot.frozenDataQuotaBytes then some k.snapshot.frozenDataQuotaBytes else none }

def insert (superseded : Option Nat) (db : Db) : Db := { db with entitlements := db.entitlements ++ [k.row g superseded] }

def burn (db : Db) : Db :=
  match k.subject with
  | .voucher id =>
    { db with
      vouchers := db.vouchers.map fun v => if v.redeemable g.scope id g.clock then { v with state := .redeemed } else v }
  | _ => db

def markGranted (db : Db) : Db :=
  { db with purchases := db.purchases.map fun p => if p.id = k.purchase then { p with state := .granted } else p }

end Kernel

/-- `purchase_id` of a settlement is unique. -/
def Db.settlementOf (db : Db) (scope : Scope) (purchase : Nat) : Option Settlement :=
  db.settlements.find? fun s => s.scope = scope ∧ s.purchase = purchase

def Db.quote (db : Db) (scope : Scope) (id : Nat) : Option OfferQuote := db.quotes.find? fun q => q.scope = scope ∧ q.id = id

def Db.purchase (db : Db) (scope : Scope) (id : Nat) : Option Purchase := db.purchases.find? fun p => p.scope = scope ∧ p.id = id

def Db.granted (db : Db) (purchase : Nat) : Bool := db.entitlements.any (·.purchase = purchase)

/-- The subject a grant without a stay names. -/
def AuthContext.walkIn (ac : AuthContext) : Option Subject :=
  match ac.subject with
  | .voucher _ | .account _ | .principal _ | .anonymous _ => some ac.subject
  | .stay _ | .postStay _ => none

/-- The arguments an entry point hands to the kernel. -/
def kernelOf (pu : Purchase) (q : OfferQuote) (ac : AuthContext) (subject : Subject) : Kernel :=
  { purchase := pu.id
    subject
    packageRevision := pu.packageRevision
    snapshot := q.snapshot
    free := pu.amountMinor = 0
    device := ac.device }

/-- The pinned quote and auth context of a purchase. -/
def evidence (db : Db) (scope : Scope) (pu : Purchase) : Except Unit (OfferQuote × AuthContext) := do
  let q ← need () (db.quote scope pu.offerQuote)
  let ac ← need () (db.loadAuthContext scope pu.authContext)
  return (q, ac)

/-- `p4_grant_quoted_entitlement`, up to the kernel. -/
def grantQuoted (db : Db) (scope : Scope) (pu : Purchase) : Except Unit Kernel := do
  let se ← need () (db.settlementOf scope pu.id)
  refuse (se.method ≠ .free || se.status ≠ .notRequired) ()
  let (q, ac) ← evidence db scope pu
  refuse (q.priceMinor ≠ 0) ()
  let subject ← need () ac.walkIn
  return kernelOf pu q ac subject

/-- `p4_grant_voucher_entitlement`, up to the kernel. -/
def grantVoucher (db : Db) (scope : Scope) (pu : Purchase) : Except Unit Kernel := do
  refuse (pu.trigger ≠ .voucherRedemption) ()
  let se ← need () (db.settlementOf scope pu.id)
  refuse (se.method ≠ .voucher || se.status ≠ .settled) ()
  let (q, ac) ← evidence db scope pu
  refuse (ac.subject.kind ≠ .voucher) ()
  return kernelOf pu q ac ac.subject

/-- `p4_grant_paid_entitlement` after its settlement, up to the kernel; a stay is granted through its purchase. -/
def grantPaid (db : Db) (scope : Scope) (se : Settlement) (pu : Purchase) : Except Unit Kernel := do
  refuse (pu.state ≠ .awaitingSettlement && pu.state ≠ .manualReview) ()
  let (q, ac) ← evidence db scope pu
  refuse (se.method = .roomCharge && (pu.stay.isNone || pu.pmsInterface.isNone)) ()
  refuse (ac.ofStay && pu.pmsInterface.isNone) ()
  let subject ← need () (if ac.ofStay then pu.stay.map .stay else ac.walkIn)
  return kernelOf pu q ac subject

inductive Lock where
  | quote (id : Nat)
  | authContext (id : Nat)
  /-- The advisory lock of a confirm. -/
  | subject (scope : Scope) (kind : SubjectKind) (id : Nat)
  /-- The advisory lock of the kernel; its key names the subject by its id alone. -/
  | grantee (scope : Scope) (id : Nat)
  | purchase (id : Nat)
  | settlement (id : Nat)
  | entitlement (id : Nat)
  | voucher (id : Nat)
  deriving DecidableEq, Repr

structure QuoteTask where
  request : Request
  package : Option Nat
  method : Option AcquisitionMethod
  now : Int
  id : Nat

/-- What is asked of the database. -/
inductive Task where
  | signIn (ac : AuthContext)
  | quote (t : QuoteTask)
  | confirm (r : ConfirmRequest)
  | grant (rail : Rail) (scope : Scope) (key : Nat) (clock : Int) (entitlement : Nat)
  | settle (settlement : Nat) (status : SettlementStatus)

inductive Outcome where
  | disabled
  | invalidInput
  | failed
  | quoteDenied
  | denied (why : PurchaseDeny)
  | signedIn (ac : AuthContext)
  | quoted (q : OfferQuote)
  | awaiting (c : Confirm)
  | granted (g : Grant) (k : Kernel) (superseded : Option Nat)
  | already (g : Grant)
  | settled (se : Settlement) (status : SettlementStatus)

/-- Where a process stands: the statement it runs next, with what it has read. -/
inductive Phase where
  | signIn (ac : AuthContext)
  | quote (t : QuoteTask)
  | insertQuote (q : OfferQuote)
  | confirm (r : ConfirmRequest)
  | lockContext (r : ConfirmRequest) (q : OfferQuote) (method : AcquisitionMethod)
  | lockSubject (c : Confirm)
  | consumeQuote (c : Confirm)
  | consumeContext (c : Confirm)
  | insertPurchase (c : Confirm)
  | insertSettlement (c : Confirm)
  | lockSettlement (g : Grant) (settlement : Nat)
  | lockPurchase (g : Grant) (se : Option Settlement) (purchase : Nat)
  | pinned (g : Grant) (k : Kernel)
  | lockGrantee (g : Grant) (k : Kernel)
  | existing (g : Grant) (k : Kernel)
  | supersede (g : Grant) (k : Kernel)
  | insertEntitlement (g : Grant) (k : Kernel) (superseded : Option Nat)
  | burn (g : Grant) (k : Kernel) (superseded : Option Nat)
  | markGranted (g : Grant) (k : Kernel) (superseded : Option Nat)
  | settle (settlement : Nat) (status : SettlementStatus)
  | finish (o : Outcome)
  | ended (o : Outcome)

abbrev Step := Act Db Lock Unit Phase

/-- An error in a statement rolls the transaction back. -/
def Phase.raise : Step := .rollback (.ended .failed)

/-- A statement that fails if its row is there already. -/
def insertUnless (present : Bool) (lock : Lock) (write : Db → Db) (next : Phase) : Step :=
  if present then Phase.raise else .statement [lock] write next

def stopped : ConfirmStop → Phase
  | .deny why => .finish (.denied why)
  | .failed => .finish .failed

/-- The grant of a confirm, by its method; a card waits for its capture. -/
def afterSettlement (c : Confirm) : Phase :=
  let g (rail : Rail) : Grant := ⟨some c, rail, c.request.scope, c.request.clock, c.request.entitlement⟩
  match c.method with
  | .free => .lockPurchase (g .quoted) none c.request.purchase
  | .voucher => .lockPurchase (g .voucher) none c.request.purchase
  | .card => .finish (.awaiting c)
  | .roomCharge => .finish .failed

/-- The evidence of a locked purchase, by the entry point. -/
def kernelFor (g : Grant) (se : Option Settlement) (db : Db) (pu : Purchase) : Except Unit Kernel :=
  match g.rail, se with
  | .quoted, _ => grantQuoted db g.scope pu
  | .voucher, _ => grantVoucher db g.scope pu
  | .paid, some se => grantPaid db g.scope se pu
  | .paid, none => .error ()

/-- The purchase of a grant is locked; a paid one may be granted already. -/
def lockedPurchase (g : Grant) (se : Option Settlement) (db : Db) (pu : Purchase) : Phase :=
  if g.rail = .paid && db.granted pu.id then .finish (.already g)
  else match kernelFor g se db pu with
    | .error _ => .finish .failed
    | .ok k => .pinned g k

/-- `p4_purchase_follows_settlement`. -/
def Purchase.follow (se : Settlement) (status : SettlementStatus) (p : Purchase) : Purchase :=
  if p.id = se.purchase ∧ se.status ≠ status then
    match status, p.state with
    | .failed, .pending | .failed, .awaitingSettlement | .failed, .manualReview => { p with state := .failed }
    | .manualReview, .pending | .manualReview, .awaitingSettlement => { p with state := .manualReview }
    | _, _ => p
  else p

/-- Money moved: the settlement gets its status, and the purchase follows it. -/
def settle (se : Settlement) (status : SettlementStatus) (db : Db) : Db :=
  { db with
    settlements := db.settlements.map fun s => if s.id = se.id then { s with status } else s
    purchases := db.purchases.map (Purchase.follow se status) }

/-- A transaction that ends without an error commits, also one that denies. -/
def Outcome.commits : Outcome → Bool
  | .disabled | .invalidInput | .failed => false
  | _ => true

def act (e : Engine) (cat : Catalogue) : Phase → Db → Unit → Step
  | .signIn ac, db, _ =>
    insertUnless (db.authContexts.any (·.id = ac.id)) (.authContext ac.id)
      (fun db => { db with authContexts := db.authContexts ++ [ac] }) (.finish (.signedIn ac))
  | .quote t, db, _ =>
    .statement [] id <| match createQuote e cat db t.now t.request t.package t.method t.id with
      | .error _ => .finish .quoteDenied
      | .ok q => .insertQuote q
  | .insertQuote q, db, _ =>
    insertUnless (db.quotes.any (·.id = q.id)) (.quote q.id)
      (fun db => { db with quotes := db.quotes ++ [q] }) (.finish (.quoted q))
  | .confirm r, db, _ =>
    match r.quote.bind (db.quote r.scope) with
    | none => Phase.raise
    | some q => .statement [.quote q.id] id <| match quoteGates e cat r q with
      | .error stop => stopped stop
      | .ok method => .lockContext r q method
  | .lockContext r q method, db, _ =>
    match db.loadAuthContext r.scope q.authContext with
    | none => Phase.raise
    | some ac => .statement [.authContext ac.id] id <| match contextGates r method ac with
      | .error stop => stopped stop
      | .ok _ => .lockSubject ⟨r, q, method, ac⟩
  | .lockSubject c, _, _ =>
    .statement [.subject c.request.scope c.context.subject.kind c.context.subject.id] id (.consumeQuote c)
  | .consumeQuote c, db, _ =>
    if db.quotes.any fun q => q.id = c.quote.id && q.usable c.request.now then
      .statement [.quote c.quote.id] c.consumeQuote (.consumeContext c)
    else .statement [] id (.finish (.denied .quoteAlreadyConsumed))
  | .consumeContext c, db, _ =>
    if db.authContexts.any fun ac => ac.id = c.context.id && ac.usable c.request.now then
      .statement [.authContext c.context.id] c.consumeContext (.insertPurchase c)
    else .statement [] id (.finish (.denied .authContextAlreadyConsumed))
  | .insertPurchase c, db, _ =>
    -- a quote is bought once: `offer_quote_id` of a purchase is unique
    insertUnless (db.purchases.any fun p => p.id = c.request.purchase || p.offerQuote = c.quote.id) (.purchase c.request.purchase)
      c.insertPurchase (.insertSettlement c)
  | .insertSettlement c, db, _ =>
    insertUnless (db.settlements.any (·.id = c.request.settlement)) (.settlement c.request.settlement)
      c.insertSettlement (afterSettlement c)
  | .lockSettlement g key, db, _ =>
    match db.settlements.find? fun s => s.scope = g.scope ∧ s.id = key with
    | none => Phase.raise
    | some se => .statement [.settlement se.id] id <|
      if (se.method = .card || se.method = .roomCharge) && se.status = .settled then .lockPurchase g (some se) se.purchase
      else .finish .failed
  | .lockPurchase g se purchase, db, _ =>
    match db.purchase g.scope purchase with
    | none => Phase.raise
    | some pu => .statement [.purchase pu.id] id (lockedPurchase g se db pu)
  | .pinned g k, db, _ =>
    match k.subject with
    | .voucher id =>
      if db.voucherPinnedPackageRevision g.scope id = some k.packageRevision then .statement [] (fun db => db) (.lockGrantee g k)
      else Phase.raise
    | _ => .statement [] id (.lockGrantee g k)
  | .lockGrantee g k, _, _ => .statement [.grantee g.scope k.subject.id] id (.existing g k)
  | .existing g k, db, _ =>
    .statement [] id (if db.granted k.purchase then .finish (.already g) else .supersede g k)
  | .supersede g k, db, _ =>
    let superseded := (db.head g.scope k.subject).map (·.id)
    .statement (superseded.toList.map .entitlement) (terminate superseded) (.insertEntitlement g k superseded)
  | .insertEntitlement g k superseded, db, _ =>
    -- `staff_ended_benefit_guard`
    if k.free && cat.endedByStaff k.packageRevision k.subject k.device then Phase.raise
    else insertUnless (db.entitlements.any (·.id = g.entitlement)) (.entitlement g.entitlement)
      (k.insert g superseded) (.burn g k superseded)
  | .burn g k superseded, db, _ =>
    match k.subject with
    | .voucher id =>
      if db.vouchers.any fun v => v.redeemable g.scope id g.clock then
        .statement [.voucher id] (k.burn g) (.markGranted g k superseded)
      else Phase.raise
    | _ => .statement [] (k.burn g) (.markGranted g k superseded)
  | .markGranted g k superseded, db, _ =>
    if (db.purchases.find? (·.id = k.purchase)).all fun p =>
        p.state = .pending || p.state = .awaitingSettlement || p.state = .manualReview then
      .statement [.purchase k.purchase] k.markGranted (.finish (.granted g k superseded))
    else Phase.raise
  | .settle key status, db, _ =>
    match db.settlements.find? (·.id = key) with
    | none => Phase.raise
    | some se => .statement [.settlement se.id, .purchase se.purchase] (settle se status) (.finish (.settled se status))
  | .finish o, _, _ => if o.commits then .commit [] (.ended o) else .rollback (.ended o)
  | .ended _, _, _ => .stop

def initial (e : Engine) : Task → Phase
  | .signIn ac => .signIn ac
  | .quote t => .quote t
  | .confirm r => if !e.portalOn then .ended .disabled else if !r.complete then .ended .invalidInput else .confirm r
  | .grant rail scope key clock entitlement =>
    let g : Grant := ⟨none, rail, scope, clock, entitlement⟩
    match rail with
    | .quoted | .voucher => .lockPurchase g none key
    | .paid => .lockSettlement g key
  | .settle key status => .settle key status

def commerce (e : Engine) (cat : Catalogue) : Protocol Db Lock Unit Task Phase := ⟨initial e, act e cat⟩

inductive Statement (e : Engine) (cat : Catalogue) (db : Db) : Phase → List Lock → (Db → Db) → Phase → Prop where
  | signIn (ac : AuthContext) : Statement e cat db (.signIn ac) [.authContext ac.id]
      (fun db => { db with authContexts := db.authContexts ++ [ac] }) (.finish (.signedIn ac))
  | quoteDenied (t : QuoteTask) : Statement e cat db (.quote t) [] id (.finish .quoteDenied)
  | quote (t : QuoteTask) (q : OfferQuote) (made : createQuote e cat db t.now t.request t.package t.method t.id = .ok q) :
      Statement e cat db (.quote t) [] id (.insertQuote q)
  | insertQuote (q : OfferQuote) : Statement e cat db (.insertQuote q) [.quote q.id]
      (fun db => { db with quotes := db.quotes ++ [q] }) (.finish (.quoted q))
  | quoteStopped (r : ConfirmRequest) (q : OfferQuote) (stop : ConfirmStop) :
      Statement e cat db (.confirm r) [.quote q.id] id (stopped stop)
  | lockQuote (r : ConfirmRequest) (q : OfferQuote) (method : AcquisitionMethod) (key : Nat)
      (found : db.quote r.scope key = some q) : Statement e cat db (.confirm r) [.quote q.id] id (.lockContext r q method)
  | contextStopped (r : ConfirmRequest) (q : OfferQuote) (method : AcquisitionMethod) (ac : AuthContext) (stop : ConfirmStop) :
      Statement e cat db (.lockContext r q method) [.authContext ac.id] id (stopped stop)
  | lockContext (r : ConfirmRequest) (q : OfferQuote) (method : AcquisitionMethod) (ac : AuthContext)
      (found : db.loadAuthContext r.scope q.authContext = some ac) (usable : ac.usable r.now) :
      Statement e cat db (.lockContext r q method) [.authContext ac.id] id (.lockSubject ⟨r, q, method, ac⟩)
  | lockSubject (c : Confirm) : Statement e cat db (.lockSubject c)
      [.subject c.request.scope c.context.subject.kind c.context.subject.id] id (.consumeQuote c)
  | consumeQuote (c : Confirm) : Statement e cat db (.consumeQuote c) [.quote c.quote.id] c.consumeQuote (.consumeContext c)
  | quoteGone (c : Confirm) : Statement e cat db (.consumeQuote c) [] id (.finish (.denied .quoteAlreadyConsumed))
  | consumeContext (c : Confirm) :
      Statement e cat db (.consumeContext c) [.authContext c.context.id] c.consumeContext (.insertPurchase c)
  | contextGone (c : Confirm) (gone : (db.authContexts.any fun ac => ac.id = c.context.id && ac.usable c.request.now) = false) :
      Statement e cat db (.consumeContext c) [] id (.finish (.denied .authContextAlreadyConsumed))
  | insertPurchase (c : Confirm) (fresh : ∀ p ∈ db.purchases, p.id ≠ c.request.purchase) :
      Statement e cat db (.insertPurchase c) [.purchase c.request.purchase] c.insertPurchase (.insertSettlement c)
  | insertSettlement (c : Confirm) :
      Statement e cat db (.insertSettlement c) [.settlement c.request.settlement] c.insertSettlement (afterSettlement c)
  | settlementRefused (g : Grant) (key : Nat) (se : Settlement) :
      Statement e cat db (.lockSettlement g key) [.settlement se.id] id (.finish .failed)
  | lockSettlement (g : Grant) (key : Nat) (se : Settlement) :
      Statement e cat db (.lockSettlement g key) [.settlement se.id] id (.lockPurchase g (some se) se.purchase)
  | grantedBefore (g : Grant) (se : Option Settlement) (key : Nat) (pu : Purchase) :
      Statement e cat db (.lockPurchase g se key) [.purchase pu.id] id (.finish (.already g))
  | purchaseRefused (g : Grant) (se : Option Settlement) (key : Nat) (pu : Purchase) :
      Statement e cat db (.lockPurchase g se key) [.purchase pu.id] id (.finish .failed)
  | lockPurchase (g : Grant) (se : Option Settlement) (key : Nat) (pu : Purchase) (k : Kernel)
      (found : db.purchase g.scope key = some pu) (kernel : kernelFor g se db pu = .ok k) :
      Statement e cat db (.lockPurchase g se key) [.purchase pu.id] id (.pinned g k)
  | pinned (g : Grant) (k : Kernel)
      (pin : ∀ id, k.subject = .voucher id → db.voucherPinnedPackageRevision g.scope id = some k.packageRevision) :
      Statement e cat db (.pinned g k) [] id (.lockGrantee g k)
  | lockGrantee (g : Grant) (k : Kernel) :
      Statement e cat db (.lockGrantee g k) [.grantee g.scope k.subject.id] id (.existing g k)
  | already (g : Grant) (k : Kernel) : Statement e cat db (.existing g k) [] id (.finish (.already g))
  | existing (g : Grant) (k : Kernel) (absent : db.granted k.purchase = false) :
      Statement e cat db (.existing g k) [] id (.supersede g k)
  | supersede (g : Grant) (k : Kernel) (locks : List Lock) (superseded : Option Nat)
      (head : superseded = (db.head g.scope k.subject).map (·.id)) :
      Statement e cat db (.supersede g k) locks (terminate superseded) (.insertEntitlement g k superseded)
  | insertEntitlement (g : Grant) (k : Kernel) (superseded : Option Nat) :
      Statement e cat db (.insertEntitlement g k superseded) [.entitlement g.entitlement] (k.insert g superseded)
        (.burn g k superseded)
  | burn (g : Grant) (k : Kernel) (superseded : Option Nat) (locks : List Lock)
      (spent : ∀ id, k.subject = .voucher id →
        Lock.voucher id ∈ locks ∧ ∃ v ∈ db.vouchers, v.redeemable g.scope id g.clock) :
      Statement e cat db (.burn g k superseded) locks (k.burn g) (.markGranted g k superseded)
  | markGranted (g : Grant) (k : Kernel) (superseded : Option Nat) :
      Statement e cat db (.markGranted g k superseded) [.purchase k.purchase] k.markGranted (.finish (.granted g k superseded))
  | settle (key : Nat) (status : SettlementStatus) (se : Settlement) :
      Statement e cat db (.settle key status) [.settlement se.id, .purchase se.purchase] (settle se status)
        (.finish (.settled se status))

section
variable {e : Engine} {cat : Catalogue} {db : Db} {here next : Phase} {locks : List Lock} {write : Db → Db} {u : Unit}

lemma insertUnless_statement {present lock write' next'} (h : insertUnless present lock write' next' = .statement locks write next) :
    present = false ∧ locks = [lock] ∧ write = write' ∧ next = next' := by
  unfold insertUnless Phase.raise at h
  split at h
  · cases h
  case isFalse absent =>
    cases h
    exact ⟨by simpa using absent, rfl, rfl, rfl⟩

lemma contextGates_ok {r method ac} (h : contextGates r method ac = .ok ()) : ac.usable r.now = true := by
  simp only [contextGates, ok_bind_iff, refuse_ok] at h
  obtain ⟨-, -, -, usable, -⟩ := h
  simpa using usable

lemma statement_of_act (h : act e cat here db u = .statement locks write next) : Statement e cat db here locks write next := by
  cases here with
  | signIn ac =>
    obtain ⟨-, rfl, rfl, rfl⟩ := insertUnless_statement h
    exact .signIn ac
  | quote t =>
    simp only [act] at h
    split at h
    · cases h
      exact .quoteDenied t
    case h_2 q made =>
      cases h
      exact .quote t q made
  | insertQuote q =>
    obtain ⟨-, rfl, rfl, rfl⟩ := insertUnless_statement h
    exact .insertQuote q
  | confirm r =>
    simp only [act, Phase.raise] at h
    split at h
    · cases h
    case h_2 q found =>
      obtain ⟨key, -, found⟩ := Option.bind_eq_some_iff.mp found
      split at h
      · cases h
        exact .quoteStopped r q _
      · cases h
        exact .lockQuote r q _ key found
  | lockContext r q method =>
    simp only [act, Phase.raise] at h
    split at h
    · cases h
    case h_2 ac found =>
      split at h
      · cases h
        exact .contextStopped r q method ac _
      case h_2 gates =>
        cases h
        exact .lockContext r q method ac found (contextGates_ok gates)
  | lockSubject c =>
    cases h
    exact .lockSubject c
  | consumeQuote c =>
    simp only [act] at h
    split at h
    · cases h
      exact .consumeQuote c
    · cases h
      exact .quoteGone c
  | consumeContext c =>
    simp only [act] at h
    split at h
    · cases h
      exact .consumeContext c
    case isFalse gone =>
      cases h
      exact .contextGone c (by simpa using gone)
  | insertPurchase c =>
    obtain ⟨absent, rfl, rfl, rfl⟩ := insertUnless_statement h
    refine .insertPurchase c fun p hp same => ?_
    have free := List.any_eq_false.mp absent p hp
    simp [same] at free
  | insertSettlement c =>
    obtain ⟨-, rfl, rfl, rfl⟩ := insertUnless_statement h
    exact .insertSettlement c
  | lockSettlement g key =>
    simp only [act, Phase.raise] at h
    split at h
    · cases h
    split at h
    · cases h
      exact .lockSettlement g key _
    · cases h
      exact .settlementRefused g key _
  | lockPurchase g se key =>
    simp only [act, Phase.raise, lockedPurchase] at h
    split at h
    · cases h
    case h_2 pu found =>
      split at h
      · cases h
        exact .grantedBefore g se key pu
      split at h
      · cases h
        exact .purchaseRefused g se key pu
      case h_2 kernel =>
        cases h
        exact .lockPurchase g se key pu _ found kernel
  | pinned g k =>
    simp only [act, Phase.raise] at h
    split at h
    case h_1 id subject =>
      split at h
      case isTrue pin =>
        cases h
        refine .pinned g k fun id' same => ?_
        cases subject.symm.trans same
        exact pin
      · cases h
    case h_2 other =>
      cases h
      exact .pinned g k fun id same => absurd same (other id)
  | lockGrantee g k =>
    cases h
    exact .lockGrantee g k
  | existing g k =>
    simp only [act] at h
    split at h
    · cases h
      exact .already g k
    case isFalse absent =>
      cases h
      exact .existing g k (by simpa using absent)
  | supersede g k =>
    cases h
    exact .supersede g k _ _ rfl
  | insertEntitlement g k superseded =>
    simp only [act, Phase.raise] at h
    split at h
    · cases h
    · obtain ⟨-, rfl, rfl, rfl⟩ := insertUnless_statement h
      exact .insertEntitlement g k superseded
  | burn g k superseded =>
    simp only [act, Phase.raise] at h
    split at h
    case h_1 id subject =>
      split at h
      case isTrue spent =>
        cases h
        refine .burn g k superseded _ fun id' same => ?_
        cases subject.symm.trans same
        exact ⟨List.mem_singleton.mpr rfl, List.any_eq_true.mp spent⟩
      · cases h
    case h_2 other =>
      cases h
      exact .burn g k superseded _ fun id same => absurd same (other id)
  | markGranted g k superseded =>
    simp only [act, Phase.raise] at h
    split at h
    · cases h
      exact .markGranted g k superseded
    · cases h
  | settle key status =>
    simp only [act, Phase.raise] at h
    split at h
    · cases h
    · cases h
      exact .settle key status _
  | finish o =>
    simp only [act] at h
    split at h <;> cases h
  | ended o => cases h

lemma commit_of_act {kept} (h : act e cat here db u = .commit kept next) :
    ∃ o, here = .finish o ∧ o.commits = true ∧ kept = [] ∧ next = .ended o := by
  cases here
  case finish o =>
    simp only [act] at h
    split at h
    case isTrue ok =>
      cases h
      exact ⟨o, rfl, ok, rfl, rfl⟩
    · cases h
  all_goals simp only [act, insertUnless, Phase.raise] at h
  all_goals repeat' split at h
  all_goals cases h

lemma rollback_of_act (h : act e cat here db u = .rollback next) : ∃ o, next = .ended o := by
  cases here <;> simp only [act, insertUnless, Phase.raise] at h
  all_goals repeat' split at h
  all_goals cases h
  all_goals exact ⟨_, rfl⟩

lemma call_of_act {effect} (h : act e cat here db u = .call effect next) : False := by
  cases here <;> simp only [act, insertUnless, Phase.raise] at h
  all_goals repeat' split at h
  all_goals cases h

end

end StayConnect.Commerce
