import StayConnect.Commerce.Snapshot

/-!
# The tables of commerce

The catalogue is what operators publish: packages with their revisions, plans, rules and tiers. The database is what
sign-ins, quotes, confirms and grants write.
-/

namespace StayConnect.Commerce
open Iam

/-- A row of `internet_packages`. -/
structure Package where
  id : Nat
  scope : Scope
  active : Bool
  currentRevision : Option Nat

/-- A row of `internet_package_revisions`. -/
structure PackageRevision where
  id : Nat
  scope : Scope
  packageID : Nat
  planRevisionID : Nat
  priceMinor : Int
  currency : String
  currencyExponent : Int
  settlementMethods : List String
  visibleFrom : Option Int
  visibleUntil : Option Int
  durationPolicy : Fields
  dataAllocationMode : String

/-- A sign-in stands for one subject. -/
inductive Subject where
  | voucher (id : Nat)
  | account (id : Nat)
  | principal (id : Nat)
  | anonymous (id : Nat)
  | stay (id : Nat)
  | postStay (id : Nat)
  deriving DecidableEq, Repr

/-- The kind `loadAuthContext` gives a subject; a stay or post-stay context carries none. -/
def Subject.kind : Subject → SubjectKind
  | .voucher _ => .voucher
  | .account _ => .account
  | .principal _ => .principal
  | .anonymous _ => .anonymous
  | .stay _ | .postStay _ => .none

/-- What operators published. Package and revision ids are primary keys, and a package's current revision is one of its own. -/
structure Catalogue where
  packages : List Package
  revisions : List PackageRevision
  plans : List (Scope × PlanRevisionRow)
  rules : Nat → List EligibilityRule
  tiers : Nat → List GrantTier
  lineage : Scope → String → List String
  /-- `package_ended_by_staff`, of a package revision, a subject and a device. -/
  endedByStaff : Nat → Subject → Nat → Bool
  packageIDs : (packages.map (·.id)).Nodup
  revisionIDs : (revisions.map (·.id)).Nodup
  currentOwn : ∀ p ∈ packages, ∀ r ∈ revisions, p.currentRevision = some r.id → r.packageID = p.id

namespace Catalogue

variable (cat : Catalogue)

def row (p : Package) (r : PackageRevision) : PackageRevisionRow :=
  { id := r.id
    packageID := r.packageID
    planRevisionID := r.planRevisionID
    priceMinor := r.priceMinor
    currency := r.currency
    currencyExponent := r.currencyExponent
    settlementMethods := r.settlementMethods
    visibleFrom := r.visibleFrom
    visibleUntil := r.visibleUntil
    packageActive := p.active
    isCurrent := decide (p.currentRevision = some r.id)
    durationPolicy := r.durationPolicy
    dataAllocationMode := r.dataAllocationMode }

/-- The current revision of a package, joined. -/
def current (p : Package) : Option PackageRevisionRow :=
  (cat.revisions.find? fun r => some r.id = p.currentRevision).map (row p)

def resolveActivePackageRevision (scope : Scope) (package : Nat) : Option PackageRevisionRow :=
  (cat.packages.find? fun p => p.scope = scope ∧ p.id = package).bind cat.current

def listActivePackageRevisions (scope : Scope) : List PackageRevisionRow :=
  (cat.packages.filter fun p => p.scope = scope ∧ p.active).filterMap cat.current

def loadPackageRevisionByID (scope : Scope) (revision : Nat) : Option PackageRevisionRow :=
  (cat.revisions.find? fun r => r.scope = scope ∧ r.id = revision).bind fun r =>
    (cat.packages.find? fun p => p.scope = scope ∧ p.id = r.packageID).map fun p => row p r

def loadPlanRevision (scope : Scope) (plan : Nat) : Option PlanRevisionRow :=
  (cat.plans.find? fun x => x.1 = scope ∧ x.2.id = plan).map (·.2)

def guestNetworkAncestors (scope : Scope) (network : String) : List String :=
  if trimSpace network = "" then [] else cat.lineage scope network

def packageOf (revision : Nat) : Option Nat := (cat.revisions.find? (·.id = revision)).map (·.packageID)

end Catalogue

structure AuthContext where
  id : Nat
  scope : Scope
  method : AuthMethod
  subject : Subject
  device : Nat
  guestNetwork : String
  expiresAt : Int
  consumedAt : Option Int
  clientGroup : String

/-- A row of `offer_quotes`. The last column is a ghost: how many entitlements there were when the history of the
subject was read. -/
structure OfferQuote where
  id : Nat
  scope : Scope
  authContext : Nat
  packageRevision : Nat
  priceMinor : Int
  currency : String
  currencyExponent : Int
  pmsInterface : Option Nat
  settlementMapping : Option Nat
  taxCode : Option String
  taxRateBP : Option Int
  taxAmountMinor : Option Int
  snapshot : GrantSnapshot
  expiresAt : Int
  consumedAt : Option Int
  seen : Nat
  deriving DecidableEq, Repr

inductive PurchaseTrigger where
  | guestSelection | voucherRedemption
  deriving DecidableEq, Repr

inductive PurchaseState where
  | pending | awaitingSettlement | manualReview | granted | failed | cancelled
  deriving DecidableEq, Repr

structure Purchase where
  id : Nat
  scope : Scope
  packageRevision : Nat
  offerQuote : Nat
  authContext : Nat
  trigger : PurchaseTrigger
  amountMinor : Int
  currency : String
  currencyExponent : Int
  stay : Option Nat
  pmsInterface : Option Nat
  state : PurchaseState

inductive SettlementStatus where
  | notRequired | required | inProgress | settled | failed | manualReview | partiallyReversed | reversed
  deriving DecidableEq, Repr

structure Settlement where
  id : Nat
  scope : Scope
  purchase : Nat
  method : AcquisitionMethod
  status : SettlementStatus

structure Entitlement where
  id : Nat
  scope : Scope
  subject : Subject
  purchase : Nat
  packageRevision : Nat
  planRevision : Nat
  snapshot : GrantSnapshot
  status : EntitlementStatus
  activatedAt : Option Int
  supersedes : Option Nat
  dataQuotaBytes : Option Int

inductive VoucherState where
  | unused | redeemed | revoked | redemptionExpired
  deriving DecidableEq, Repr

structure Voucher where
  id : Nat
  scope : Scope
  packageRevision : Nat
  state : VoucherState
  validFrom : Option Int
  validUntil : Option Int

structure Db where
  authContexts : List AuthContext
  quotes : List OfferQuote
  purchases : List Purchase
  settlements : List Settlement
  entitlements : List Entitlement
  vouchers : List Voucher

namespace Db

variable (db : Db)

def authContext (id : Nat) : Option AuthContext := Keyed.lookup (·.id) id db.authContexts

def loadAuthContext (scope : Scope) (id : Nat) : Option AuthContext := (db.authContext id).filter (·.scope = scope)

def voucherPinnedPackageRevision (scope : Scope) (voucher : Nat) : Option Nat :=
  (db.vouchers.find? fun v => v.scope = scope ∧ v.id = voucher).map (·.packageRevision)

/-- An entitlement of the package inside the window of a policy. -/
def ofPackage (cat : Catalogue) (scope : Scope) (package : Nat) (since : Option Int) (now : Int) (e : Entitlement) : Bool :=
  e.scope = scope && cat.packageOf e.packageRevision = some package && since.all (· ≤ e.activatedAt.getD now)

/-- The subject columns of an entitlement name this subject; only vouchers, accounts and principals are asked for. -/
def bySubject (s : Subject) (e : Entitlement) : Bool :=
  match s with
  | .voucher _ | .account _ | .principal _ => e.subject = s
  | .anonymous _ | .stay _ | .postStay _ => false

def byDevice (device : Nat) (e : Entitlement) : Bool :=
  ((Keyed.lookup (·.id) e.purchase db.purchases).bind fun p => db.authContext p.authContext).any (·.device = device)

def hasPriorPurchase (cat : Catalogue) (scope : Scope) (package : Nat) (ac : AuthContext) (policy : PriorPurchasePolicy)
    (now : Int) : Bool :=
  let since := if 0 < policy.withinHours then some (now - policy.withinHours * hour) else none
  let useDevice := ac.subject.kind = .anonymous || policy.alsoByDevice
  (db.entitlements.filter (ofPackage cat scope package since now)).any fun e =>
    bySubject ac.subject e || (useDevice && db.byDevice ac.device e)

end Db

end StayConnect.Commerce
