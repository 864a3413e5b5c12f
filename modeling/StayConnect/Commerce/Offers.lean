import StayConnect.Commerce.Tables

/-!
# The package list and the quote

`ListEligiblePackages` and `CreateQuote` are two sequences of gates over the same rows: the list leaves a package out
in silence where the quote denies. They agree but for one gate, the time mode, which only the quote asks for
(`list_agrees_iff`).
-/

namespace StayConnect.Commerce
open Iam Tx

/-- The configuration of a `CommerceEngine`, with the clock it reads. -/
structure Engine where
  portalOn : Bool
  aggregateOnlineTime : Bool
  ttl : Int
  site : SiteMethods
  rfc3339 : String → Option Int

/-- The identifiers of a request; the surrounding code resolves them. -/
structure Request where
  scope : Scope
  authContext : Option Nat
  device : Option Nat
  guestNetwork : String

def Request.complete (req : Request) : Bool := req.authContext.isSome && req.device.isSome && req.guestNetwork ≠ ""

/-- The context was issued to this device on this network. -/
def Request.fits (req : Request) (ac : AuthContext) : Bool :=
  ac.scope = req.scope && some ac.device = req.device && ac.guestNetwork = req.guestNetwork

/-- A stay signs in by its room. -/
def AuthContext.ofStay (ac : AuthContext) : Bool :=
  match ac.subject with
  | .stay _ => true
  | _ => false

def AuthContext.usable (ac : AuthContext) (now : Int) : Bool := ac.consumedAt.isNone && decide (now < ac.expiresAt)

def applicableMethods (pkg : PackageRevisionRow) (ac : AuthContext) (site : SiteMethods) : List AcquisitionMethod :=
  if pkg.dataAllocationMode = "PER_STAY_NIGHT" then []
  else if ac.subject.kind = .voucher then [.voucher]
  else if !(validateCurrency pkg.currency pkg.currencyExponent).isOk then []
  else if pkg.priceMinor = 0 then
    if hasMethod pkg.settlementMethods .free then [.free] else []
  else if !site.paidAccess then []
  else if site.card && hasMethod pkg.settlementMethods .card && site.cardApplicable pkg.currency then [.card]
  else []

def eligibilitySubject (cat : Catalogue) (scope : Scope) (ac : AuthContext) (now : Int) (prior : Bool) : EligibilitySubject :=
  { now
    authMethod := ac.method
    kind := ac.subject.kind
    guestNetworkID := ac.guestNetwork
    guestNetworkLineage := cat.guestNetworkAncestors scope ac.guestNetwork
    clientGroupID := ac.clientGroup
    hasPriorPurchaseOfPackage := prior
    stay := none }

/-- What the history of the subject says of a package under the policy of its rules. -/
def priorPurchase (cat : Catalogue) (db : Db) (scope : Scope) (pkg : PackageRevisionRow) (ac : AuthContext) (now : Int) : Bool :=
  match priorPurchasePolicyOf (cat.rules pkg.id) pkg.priceMinor with
  | none => false
  | some policy => db.hasPriorPurchase cat scope pkg.packageID ac (policy.forSubject ac.subject.kind) now

/-- The window of an end policy, as it is written into the snapshot: whole seconds. -/
def withEnd (g : GrantSnapshot) (endMode : EndMode) (window : Option Int) : GrantSnapshot :=
  { g with endMode := some endMode, windowEndsAt := window.map fun t => t - t % second }

/-- Why a package is left out: in silence, for a rule, or because staff ended it. -/
inductive Exclusion where
  | silent
  | rule (r : Refusal)
  | endedByStaff

/-- `voucherMayHavePackage`: a voucher is offered the revision it was printed against. -/
def voucherMayHavePackage (db : Db) (scope : Scope) (ac : AuthContext) (pkg : PackageRevisionRow) : Bool :=
  match ac.subject with
  | .voucher v => db.voucherPinnedPackageRevision scope v = some pkg.id
  | _ => true

def evalPackageForSubject (e : Engine) (cat : Catalogue) (db : Db) (now : Int) (scope : Scope) (ac : AuthContext)
    (pkg : PackageRevisionRow) : Except Exclusion GrantSnapshot := do
  let isVoucher : Bool := ac.subject.kind = .voucher
  refuse (!isVoucher && (!pkg.packageActive || !pkg.isCurrent)) .silent
  refuse (!voucherMayHavePackage db scope ac pkg) .silent
  refuse (!isVoucher && pkg.visibleFrom.any (now < ·)) .silent
  refuse (!isVoucher && pkg.visibleUntil.any (· ≤ now)) .silent
  let _ ← (validateCurrency pkg.currency pkg.currencyExponent).mapError fun _ => .silent
  let plan ← need .silent (cat.loadPlanRevision scope pkg.planRevisionID)
  let subj := eligibilitySubject cat scope ac now (priorPurchase cat db scope pkg ac now)
  (evaluatePackageEligible e.rfc3339 (cat.rules pkg.id) subj).mapError .rule
  refuse (pkg.priceMinor = 0 && cat.endedByStaff pkg.id ac.subject ac.device) .endedByStaff
  let tier ← need .silent (firstMatchTier e.rfc3339 (cat.tiers pkg.id) subj)
  let snap ← (buildGrantSnapshot tier plan pkg).mapError fun _ => .silent
  let (endMode, window) ← (resolveEndPolicy e.rfc3339 pkg.durationPolicy now).mapError fun _ => .silent
  return withEnd snap endMode window

/-- An offered package, with the methods this client may use. -/
structure PackageListItem where
  packageID : Nat
  methods : List AcquisitionMethod
  priceMinor : Int
  currency : String
  currencyExponent : Int

/-- The packages a subject is asked about: for a voucher the revision it was printed against. -/
def listedPackages (cat : Catalogue) (db : Db) (scope : Scope) (ac : AuthContext) : List PackageRevisionRow :=
  match ac.subject with
  | .voucher v => ((db.voucherPinnedPackageRevision scope v).bind (cat.loadPackageRevisionByID scope)).toList
  | _ => cat.listActivePackageRevisions scope

def listItem (e : Engine) (cat : Catalogue) (db : Db) (now : Int) (scope : Scope) (ac : AuthContext)
    (pkg : PackageRevisionRow) : Option PackageListItem :=
  match evalPackageForSubject e cat db now scope ac pkg, applicableMethods pkg ac e.site with
  | .error _, _ | _, [] => none
  | .ok _, methods => some ⟨pkg.packageID, methods, pkg.priceMinor, pkg.currency, pkg.currencyExponent⟩

/-- A free package withheld only for the client's own history. -/
def freeAllowanceUsed (e : Engine) (cat : Catalogue) (db : Db) (now : Int) (scope : Scope) (ac : AuthContext)
    (pkg : PackageRevisionRow) : Bool :=
  match evalPackageForSubject e cat db now scope ac pkg with
  | .error (.rule .forbidsPriorPurchase) => pkg.priceMinor = 0
  | _ => false

inductive ListOutcome where
  | disabled
  | invalidInput
  | failed
  | authContextMismatch | pmsUsesRoomSignIn | authContextUnavailable
  | listed (packages : List PackageListItem) (freeAllowanceUsed : Bool) (clientGroup : String)

def listEligiblePackages (e : Engine) (cat : Catalogue) (db : Db) (now : Int) (req : Request) : ListOutcome :=
  if !e.portalOn then .disabled
  else if !req.complete then .invalidInput
  else match req.authContext.bind (db.loadAuthContext req.scope) with
    | none => .failed
    | some ac =>
      if !req.fits ac then .authContextMismatch
      else if ac.ofStay then .pmsUsesRoomSignIn
      else if !ac.usable now then .authContextUnavailable
      else
        let pkgs := listedPackages cat db req.scope ac
        .listed (pkgs.filterMap (listItem e cat db now req.scope ac))
          (pkgs.any (freeAllowanceUsed e cat db now req.scope ac)) ac.clientGroup

def ListOutcome.offers (o : ListOutcome) (package : Nat) (m : AcquisitionMethod) : Bool :=
  match o with
  | .listed items _ _ => items.any fun i => i.packageID = package && i.methods.contains m
  | _ => false

inductive QuoteDeny where
  | authContextMismatch | pmsUsesRoomSignIn | authContextUnavailable
  | voucherUnpinned | voucherPackageMismatch
  | packageUnavailable | notInSaleWindow | saleWindowClosed
  | methodNotAvailable | invalidCurrency
  | ineligible (r : Refusal) | endedByStaff
  | noMatchingGrantTier | invalidGrantConfig | timeMode (r : TimeModeRefusal) | invalidDurationPolicy
  deriving DecidableEq, Repr

def QuoteDeny.text : QuoteDeny → String
  | .authContextMismatch => "auth_context_mismatch"
  | .pmsUsesRoomSignIn => "pms_uses_room_sign_in"
  | .authContextUnavailable => "auth_context_unavailable"
  | .voucherUnpinned => "voucher_unpinned"
  | .voucherPackageMismatch => "voucher_package_mismatch"
  | .packageUnavailable => "package_unavailable"
  | .notInSaleWindow => "not_in_sale_window"
  | .saleWindowClosed => "sale_window_closed"
  | .methodNotAvailable => "method_not_available"
  | .invalidCurrency => "invalid_currency"
  | .ineligible r => "ineligible:" ++ r.text
  | .endedByStaff => "ineligible:ended_by_staff"
  | .noMatchingGrantTier => "no_matching_grant_tier"
  | .invalidGrantConfig => "invalid_grant_config"
  | .timeMode r => r.text
  | .invalidDurationPolicy => "invalid_duration_policy"

inductive QuoteStop where
  | disabled
  | invalidInput
  | failed
  | deny (reason : QuoteDeny)
  deriving DecidableEq, Repr

def quotedPackage (cat : Catalogue) (db : Db) (now : Int) (scope : Scope) (ac : AuthContext) (package : Option Nat) :
    Except QuoteStop PackageRevisionRow :=
  match ac.subject with
  | .voucher v => do
    let pinned ← need (.deny .voucherUnpinned) (db.voucherPinnedPackageRevision scope v)
    let pkg ← need .failed (cat.loadPackageRevisionByID scope pinned)
    -- a request that names another package is refused, not corrected
    refuse (package.any (· ≠ pkg.packageID)) (.deny .voucherPackageMismatch)
    return pkg
  | _ => do
    let package ← need .failed package
    let pkg ← need .failed (cat.resolveActivePackageRevision scope package)
    refuse (!pkg.packageActive || !pkg.isCurrent) (.deny .packageUnavailable)
    refuse (pkg.visibleFrom.any (now < ·)) (.deny .notInSaleWindow)
    refuse (pkg.visibleUntil.any (· ≤ now)) (.deny .saleWindowClosed)
    return pkg

/-- The method of a quote: the one asked for, or the only one there is. -/
def chooseMethod (applicable : List AcquisitionMethod) (asked : Option AcquisitionMethod) : Option AcquisitionMethod :=
  (match asked, applicable with
    | none, [m] => some m
    | _, _ => asked).filter applicable.contains

def quotedSnapshot (e : Engine) (cat : Catalogue) (db : Db) (now : Int) (scope : Scope) (ac : AuthContext)
    (pkg : PackageRevisionRow) (method : AcquisitionMethod) : Except QuoteStop GrantSnapshot := do
  let plan ← need .failed (cat.loadPlanRevision scope pkg.planRevisionID)
  let subj := eligibilitySubject cat scope ac now (priorPurchase cat db scope pkg ac now)
  (evaluatePackageEligible e.rfc3339 (cat.rules pkg.id) subj).mapError fun r => .deny (.ineligible r)
  refuse (pkg.priceMinor = 0 && cat.endedByStaff pkg.id ac.subject ac.device) (.deny .endedByStaff)
  let tier ← need (.deny .noMatchingGrantTier) (firstMatchTier e.rfc3339 (cat.tiers pkg.id) subj)
  let snap ← (buildGrantSnapshot tier plan pkg).mapError fun _ => .deny .invalidGrantConfig
  refuseAny (timeModeAcquirable snap.timeAccountingMode e.aggregateOnlineTime) fun r => .deny (.timeMode r)
  let (endMode, window) ← (resolveEndPolicy e.rfc3339 pkg.durationPolicy now).mapError fun _ => .deny .invalidDurationPolicy
  return { withEnd snap endMode window with acquisitionMethod := some method }

/-- `CreateQuote`, up to the row it inserts: the quote gets its id there. -/
def createQuote (e : Engine) (cat : Catalogue) (db : Db) (now : Int) (req : Request) (package : Option Nat)
    (method : Option AcquisitionMethod) (id : Nat) : Except QuoteStop OfferQuote := do
  refuse (!e.portalOn) .disabled
  refuse (!req.complete) .invalidInput
  let ac ← need .failed (req.authContext.bind (db.loadAuthContext req.scope))
  refuse (!req.fits ac) (.deny .authContextMismatch)
  refuse ac.ofStay (.deny .pmsUsesRoomSignIn)
  refuse (!ac.usable now) (.deny .authContextUnavailable)
  let pkg ← quotedPackage cat db now req.scope ac package
  let method ← need (.deny .methodNotAvailable) (chooseMethod (applicableMethods pkg ac e.site) method)
  let currency ← (validateCurrency pkg.currency pkg.currencyExponent).mapError fun _ => .deny .invalidCurrency
  let snapshot ← quotedSnapshot e cat db now req.scope ac pkg method
  return { id
           scope := req.scope
           authContext := ac.id
           packageRevision := pkg.id
           priceMinor := pkg.priceMinor
           currency
           currencyExponent := pkg.currencyExponent
           pmsInterface := none
           settlementMapping := none
           taxCode := none
           taxRateBP := none
           taxAmountMinor := none
           snapshot
           expiresAt := now + e.ttl
           consumedAt := none
           seen := db.entitlements.length }

section
variable {e : Engine} {cat : Catalogue} {db : Db} {now : Int} {scope : Scope} {ac : AuthContext} {pkg : PackageRevisionRow}

/-- The gates both ask for: a valid currency, a plan, the rules, a tier and a coherent grant. -/
def Grantable (e : Engine) (cat : Catalogue) (db : Db) (now : Int) (scope : Scope) (ac : AuthContext)
    (pkg : PackageRevisionRow) : Prop :=
  let subj := eligibilitySubject cat scope ac now (priorPurchase cat db scope pkg ac now)
  ∃ plan tier snap window,
    (∃ cur, validateCurrency pkg.currency pkg.currencyExponent = .ok cur) ∧
    cat.loadPlanRevision scope pkg.planRevisionID = some plan ∧
    evaluatePackageEligible e.rfc3339 (cat.rules pkg.id) subj = .ok () ∧
    (pkg.priceMinor = 0 && cat.endedByStaff pkg.id ac.subject ac.device) = false ∧
    firstMatchTier e.rfc3339 (cat.tiers pkg.id) subj = some tier ∧
    buildGrantSnapshot tier plan pkg = .ok snap ∧
    resolveEndPolicy e.rfc3339 pkg.durationPolicy now = .ok window

/-- On sale: current, active and inside its window; a voucher is not asked. -/
def OnSale (now : Int) (ac : AuthContext) (pkg : PackageRevisionRow) : Prop :=
  ac.subject.kind = .voucher ∨
    pkg.packageActive ∧ pkg.isCurrent ∧ pkg.visibleFrom.any (now < ·) = false ∧ pkg.visibleUntil.any (· ≤ now) = false

/-- The time mode of the package's plan may be acquired. -/
def timeModeOpen (e : Engine) (cat : Catalogue) (scope : Scope) (pkg : PackageRevisionRow) : Bool :=
  (cat.loadPlanRevision scope pkg.planRevisionID).all fun plan =>
    (timeModeAcquirable (planTimeMode plan) e.aggregateOnlineTime).isNone

lemma evalPackageForSubject_ok : (∃ snap, evalPackageForSubject e cat db now scope ac pkg = .ok snap) ↔
    OnSale now ac pkg ∧ voucherMayHavePackage db scope ac pkg ∧ Grantable e cat db now scope ac pkg := by
  simp only [evalPackageForSubject, ok_bind_iff, refuse_ok, mapError_ok, need_ok]
  have sale : OnSale now ac pkg ↔ (!decide (ac.subject.kind = .voucher) && (!pkg.packageActive || !pkg.isCurrent)) = false ∧
      (!decide (ac.subject.kind = .voucher) && pkg.visibleFrom.any (now < ·)) = false ∧
      (!decide (ac.subject.kind = .voucher) && pkg.visibleUntil.any (· ≤ now)) = false := by
    unfold OnSale
    by_cases voucher : ac.subject.kind = .voucher
    · simp [voucher]
    · simp [voucher, and_assoc]
  rw [sale]
  constructor
  · rintro ⟨-, -, h₁, -, may, -, h₂, -, h₃, cur, hcur, plan, hplan, ⟨⟩, rules, -, staff, tier, htier, snap, hsnap, window, hwindow, -⟩
    exact ⟨⟨h₁, h₂, h₃⟩, by simpa using may, plan, tier, snap, window, ⟨cur, hcur⟩, hplan, rules, staff, htier, hsnap, hwindow⟩
  · rintro ⟨⟨h₁, h₂, h₃⟩, may, plan, tier, snap, window, ⟨cur, hcur⟩, hplan, rules, staff, htier, hsnap, hwindow⟩
    exact ⟨_, (), h₁, (), by simpa using may, (), h₂, (), h₃, cur, hcur, plan, hplan, (), rules, (), staff, tier, htier,
      snap, hsnap, window, hwindow, rfl⟩

lemma quotedSnapshot_ok {m} : (∃ cur, validateCurrency pkg.currency pkg.currencyExponent = .ok cur) ∧
    (∃ g, quotedSnapshot e cat db now scope ac pkg m = .ok g) ↔
      Grantable e cat db now scope ac pkg ∧ timeModeOpen e cat scope pkg = true := by
  simp only [quotedSnapshot, ok_bind_iff, refuse_ok, mapError_ok, need_ok, refuseAny_ok]
  constructor
  · rintro ⟨cur, -, plan, hplan, ⟨⟩, rules, -, staff, tier, htier, snap, hsnap, -, mode, window, hwindow, -⟩
    rw [timeAccountingMode_eq hsnap] at mode
    exact ⟨⟨plan, tier, snap, window, cur, hplan, rules, staff, htier, hsnap, hwindow⟩, by simp [timeModeOpen, hplan, mode]⟩
  · rintro ⟨⟨plan, tier, snap, window, cur, hplan, rules, staff, htier, hsnap, hwindow⟩, mode⟩
    refine ⟨cur, _, plan, hplan, (), rules, (), staff, tier, htier, snap, hsnap, (), ?_, window, hwindow, rfl⟩
    rw [timeAccountingMode_eq hsnap]
    simpa [timeModeOpen, hplan] using mode

lemma chooseMethod_some {applicable m m'} : chooseMethod applicable (some m) = some m' ↔ m ∈ applicable ∧ m' = m := by
  simp only [chooseMethod, Option.filter_eq_some_iff, Option.some.injEq, List.contains_iff_mem]
  constructor
  · rintro ⟨rfl, mem⟩
    exact ⟨mem, rfl⟩
  · rintro ⟨mem, rfl⟩
    exact ⟨rfl, mem⟩

lemma current_spec {p} (h : cat.current p = some pkg) (mem : p ∈ cat.packages) :
    pkg.packageID = p.id ∧ pkg.packageActive = p.active ∧ pkg.isCurrent = true := by
  obtain ⟨r, found, rfl⟩ := Option.map_eq_some_iff.mp h
  have current : some r.id = p.currentRevision := by simpa using List.find?_some found
  exact ⟨cat.currentOwn p mem r (List.mem_of_find?_eq_some found) current.symm, rfl, decide_eq_true current.symm⟩

lemma mem_listActive_iff {p} : pkg ∈ cat.listActivePackageRevisions scope ∧ pkg.packageID = p ↔
    cat.resolveActivePackageRevision scope p = some pkg ∧ pkg.packageActive = true ∧ pkg.isCurrent = true := by
  unfold Catalogue.listActivePackageRevisions Catalogue.resolveActivePackageRevision
  constructor
  · rintro ⟨mem, rfl⟩
    obtain ⟨x, hx, row⟩ := List.mem_filterMap.mp mem
    obtain ⟨hx, own⟩ := List.mem_filter.mp hx
    obtain ⟨id, active, current⟩ := current_spec row hx
    have own : x.scope = scope ∧ x.active = true := by simpa using own
    refine ⟨?_, active.trans own.2, current⟩
    have found : cat.packages.find? (fun q => decide (q.scope = scope ∧ q.id = pkg.packageID)) = some x :=
      Keyed.find?_unique hx (by simp [own.1, id]) fun y hy same =>
        List.inj_on_of_nodup_map cat.packageIDs hy hx (by rw [← id]; exact (of_decide_eq_true same).2)
    rw [found]
    exact row
  · rintro ⟨found, active, -⟩
    obtain ⟨x, hx, row⟩ := Option.bind_eq_some_iff.mp found
    have here := List.mem_of_find?_eq_some hx
    have own : x.scope = scope ∧ x.id = p := by simpa using List.find?_some hx
    obtain ⟨id, active', -⟩ := current_spec row here
    refine ⟨List.mem_filterMap.mpr ⟨x, List.mem_filter.mpr ⟨here, ?_⟩, row⟩, id.trans own.2⟩
    simp [own.1, ← active', active]

lemma loadPackageRevisionByID_id {revision} (h : cat.loadPackageRevisionByID scope revision = some pkg) : pkg.id = revision := by
  obtain ⟨r, found, h⟩ := Option.bind_eq_some_iff.mp h
  obtain ⟨p, -, rfl⟩ := Option.map_eq_some_iff.mp h
  have own := List.find?_some found
  simp only [decide_eq_true_eq] at own
  exact own.2

lemma quotedPackage_ok {p} : quotedPackage cat db now scope ac (some p) = .ok pkg ↔
    (pkg ∈ listedPackages cat db scope ac ∧ pkg.packageID = p) ∧ voucherMayHavePackage db scope ac pkg ∧ OnSale now ac pkg := by
  unfold quotedPackage listedPackages voucherMayHavePackage OnSale
  cases subject : ac.subject with
  | voucher v =>
    simp only [ok_bind_iff, need_ok, refuse_ok, Option.mem_toList, decide_eq_true_eq]
    constructor
    · rintro ⟨pinned, hv, _, loaded, -, same, ⟨⟩⟩
      refine ⟨⟨Option.bind_eq_some_iff.mpr ⟨pinned, hv, loaded⟩, ?_⟩, ?_, .inl rfl⟩
      · simpa using (Eq.symm (by simpa using same) : pkg.packageID = p)
      · rw [hv, loadPackageRevisionByID_id loaded]
    · rintro ⟨⟨mem, rfl⟩, -, -⟩
      obtain ⟨pinned, hv, loaded⟩ := Option.bind_eq_some_iff.mp mem
      exact ⟨pinned, hv, pkg, loaded, (), by simp, rfl⟩
  | account _ | principal _ | anonymous _ | stay _ | postStay _ =>
    simp only [ok_bind_iff, need_ok, refuse_ok, mem_listActive_iff]
    constructor
    · rintro ⟨_, ⟨⟩, _, found, -, sold, -, visible, -, closed, ⟨⟩⟩
      have sold : pkg.packageActive = true ∧ pkg.isCurrent = true := by simpa using sold
      exact ⟨⟨found, sold⟩, trivial, .inr ⟨sold.1, sold.2, visible, closed⟩⟩
    · rintro ⟨⟨found, active, current⟩, -, voucher | ⟨-, -, visible, closed⟩⟩
      · cases voucher
      · exact ⟨p, rfl, pkg, found, (), by simp [active, current], (), visible, (), closed, rfl⟩

end

/-- The auth context a request may use. -/
def Admitted (e : Engine) (db : Db) (now : Int) (req : Request) (ac : AuthContext) : Prop :=
  e.portalOn ∧ req.complete ∧ req.authContext.bind (db.loadAuthContext req.scope) = some ac ∧ req.fits ac ∧
    ac.ofStay = false ∧ ac.usable now

section
variable {e : Engine} {cat : Catalogue} {db : Db} {now : Int} {req : Request} {p id : Nat} {m : AcquisitionMethod}

lemma listItem_spec {scope ac pkg} :
    (∃ i, listItem e cat db now scope ac pkg = some i ∧ i.packageID = p ∧ m ∈ i.methods) ↔
      (∃ snap, evalPackageForSubject e cat db now scope ac pkg = .ok snap) ∧ pkg.packageID = p ∧
        m ∈ applicableMethods pkg ac e.site := by
  unfold listItem
  cases evalPackageForSubject e cat db now scope ac pkg with
  | error x => simp
  | ok snap =>
    cases methods : applicableMethods pkg ac e.site with
    | nil | cons m' rest => simp

structure Offers (e : Engine) (cat : Catalogue) (db : Db) (now : Int) (req : Request) (p : Nat) (m : AcquisitionMethod)
    (ac : AuthContext) (pkg : PackageRevisionRow) : Prop where
  admitted : Admitted e db now req ac
  asked : pkg ∈ listedPackages cat db req.scope ac ∧ pkg.packageID = p
  method : m ∈ applicableMethods pkg ac e.site
  passes : ∃ snap, evalPackageForSubject e cat db now req.scope ac pkg = .ok snap

/-- A list is given to an admitted context, and to no other. -/
lemma listed_iff {items} : (∃ used group, listEligiblePackages e cat db now req = .listed items used group) ↔
    ∃ ac, Admitted e db now req ac ∧ items = (listedPackages cat db req.scope ac).filterMap (listItem e cat db now req.scope ac) := by
  unfold listEligiblePackages
  constructor
  · rintro ⟨used, group, h⟩
    split at h
    · cases h
    case isFalse portal =>
      split at h
      · cases h
      case isFalse complete =>
        split at h
        · cases h
        case h_2 ac loaded =>
          split at h
          · cases h
          case isFalse fits =>
            split at h
            · cases h
            case isFalse stay =>
              split at h
              · cases h
              case isFalse usable =>
                cases h
                exact ⟨ac, ⟨by simpa using portal, by simpa using complete, loaded, by simpa using fits, by simpa using stay,
                  by simpa using usable⟩, rfl⟩
  · rintro ⟨ac, ⟨portal, complete, loaded, fits, stay, usable⟩, rfl⟩
    simp [portal, complete, loaded, fits, stay, usable]

lemma offers_iff : (listEligiblePackages e cat db now req).offers p m = true ↔ ∃ ac pkg, Offers e cat db now req p m ac pkg := by
  constructor
  · intro h
    unfold ListOutcome.offers at h
    split at h
    case h_1 items used group listed =>
      obtain ⟨ac, admitted, rfl⟩ := listed_iff.mp ⟨used, group, listed⟩
      obtain ⟨i, mem, hi⟩ := List.any_eq_true.mp h
      obtain ⟨pkg, asked, item⟩ := List.mem_filterMap.mp mem
      have hi : i.packageID = p ∧ m ∈ i.methods := by simpa using hi
      obtain ⟨passes, id, method⟩ := listItem_spec.mp ⟨i, item, hi.1, hi.2⟩
      exact ⟨ac, pkg, admitted, ⟨asked, id⟩, method, passes⟩
    case h_2 => cases h
  · rintro ⟨ac, pkg, ⟨admitted, ⟨asked, id⟩, method, passes⟩⟩
    obtain ⟨used, group, listed⟩ := listed_iff.mpr ⟨ac, admitted, rfl⟩
    obtain ⟨i, item, hid, hm⟩ := listItem_spec.mpr ⟨passes, id, method⟩
    rw [listed]
    exact List.any_eq_true.mpr ⟨i, List.mem_filterMap.mpr ⟨pkg, asked, item⟩, by simp [hid, hm]⟩

/-- The quote is issued for what the list offers, in a time mode that may be acquired. -/
lemma createQuote_ok_iff : (createQuote e cat db now req (some p) (some m) id).isOk = true ↔
    ∃ ac pkg, Offers e cat db now req p m ac pkg ∧ timeModeOpen e cat req.scope pkg = true := by
  have ok {x : Except QuoteStop OfferQuote} : x.isOk = true ↔ ∃ q, x = .ok q := by
    cases x <;> simp [Except.isOk, Except.toBool]
  rw [ok]
  simp only [createQuote, ok_bind_iff, refuse_ok, need_ok, mapError_ok, quotedPackage_ok, chooseMethod_some]
  constructor
  · rintro ⟨q, -, portal, -, complete, ac, loaded, -, fits, -, stay, -, usable, pkg, ⟨asked, may, sale⟩, _, ⟨method, rfl⟩,
      cur, hcur, snap, hsnap, -⟩
    obtain ⟨grantable, mode⟩ := quotedSnapshot_ok.mp ⟨⟨cur, hcur⟩, snap, hsnap⟩
    refine ⟨ac, pkg, ⟨⟨by simpa using portal, by simpa using complete, loaded, by simpa using fits, stay, by simpa using usable⟩,
      asked, method, evalPackageForSubject_ok.mpr ⟨sale, may, grantable⟩⟩, mode⟩
  · rintro ⟨ac, pkg, ⟨⟨portal, complete, loaded, fits, stay, usable⟩, asked, method, passes⟩, mode⟩
    obtain ⟨sale, may, grantable⟩ := evalPackageForSubject_ok.mp passes
    obtain ⟨⟨cur, hcur⟩, snap, hsnap⟩ := quotedSnapshot_ok.mpr ⟨grantable, mode⟩
    exact ⟨_, (), by simpa using portal, (), by simpa using complete, ac, loaded, (), by simpa using fits, (), stay, (),
      by simpa using usable, pkg, ⟨asked, may, sale⟩, m, ⟨method, rfl⟩, cur, hcur, snap, hsnap, rfl⟩

lemma Offers.unique {ac ac' pkg pkg'} (h : Offers e cat db now req p m ac pkg)
    (h' : Offers e cat db now req p m ac' pkg') : pkg' = pkg := by
  obtain ⟨⟨-, -, loaded, -⟩, asked, -, passes⟩ := h
  obtain ⟨⟨-, -, loaded', -⟩, asked', -, passes'⟩ := h'
  obtain rfl : ac = ac' := by simpa [loaded] using loaded'
  obtain ⟨sale, may, -⟩ := evalPackageForSubject_ok.mp passes
  obtain ⟨sale', may', -⟩ := evalPackageForSubject_ok.mp passes'
  have quoted := quotedPackage_ok.mpr ⟨asked, may, sale⟩
  rw [quotedPackage_ok.mpr ⟨asked', may', sale'⟩] at quoted
  exact Except.ok.inj quoted

/-- For every request, package and method, the list and the quote agree exactly when the plan of what the list offers is
accounted in a mode the engine may acquire. -/
theorem list_agrees_iff (e : Engine) (cat : Catalogue) (db : Db) (now : Int) (req : Request) (p : Nat)
    (m : AcquisitionMethod) (id : Nat) :
    ((listEligiblePackages e cat db now req).offers p m = true ↔ (createQuote e cat db now req (some p) (some m) id).isOk = true) ↔
      ∀ ac pkg, Offers e cat db now req p m ac pkg → timeModeOpen e cat req.scope pkg = true := by
  rw [offers_iff, createQuote_ok_iff]
  constructor
  · intro agree ac pkg offered
    obtain ⟨ac', pkg', offered', mode⟩ := agree.mp ⟨ac, pkg, offered⟩
    exact offered.unique offered' ▸ mode
  · intro mode
    constructor
    · rintro ⟨ac, pkg, offered⟩
      exact ⟨ac, pkg, offered, mode ac pkg offered⟩
    · rintro ⟨ac, pkg, offered, -⟩
      exact ⟨ac, pkg, offered⟩

end

/-- A free package whose plan counts online time. -/
def onlineTimeCatalogue : Catalogue where
  packages := [⟨1, ⟨1, 1⟩, true, some 10⟩]
  revisions := [⟨10, ⟨1, 1⟩, 1, 100, 0, "EUR", 2, ["NOT_REQUIRED"], none, none, [("end_mode", .str "MANUAL_END")], "FIXED"⟩]
  plans := [(⟨1, 1⟩, ⟨100, 1000, 1000, 1, 3600, 0, "AGGREGATE_ONLINE_TIME"⟩)]
  rules _ := []
  tiers _ := [⟨1, []⟩]
  lineage _ _ := []
  endedByStaff _ _ _ := false
  packageIDs := by decide
  revisionIDs := by decide
  currentOwn := by simp

def accountSignIn : Db := ⟨[⟨5, ⟨1, 1⟩, .account, .account 3, 7, "lan", 1000, none, ""⟩], [], [], [], [], []⟩

def accountRequest : Request := ⟨⟨1, 1⟩, some 5, some 7, "lan"⟩

def engine (aggregateOnlineTime : Bool) : Engine := ⟨true, aggregateOnlineTime, 300 * second, ⟨false, false, [], none⟩, fun _ => none⟩

/-- With online-time accounting off, the package is listed and every quote of it refused. -/
theorem listed_package_is_refused :
    (listEligiblePackages (engine false) onlineTimeCatalogue accountSignIn 0 accountRequest).offers 1 .free = true ∧
      createQuote (engine false) onlineTimeCatalogue accountSignIn 0 accountRequest (some 1) (some .free) 20 =
        .error (.deny (.timeMode .aggregateOnlineTimeNotEnabled)) := by
  decide +kernel

end StayConnect.Commerce
