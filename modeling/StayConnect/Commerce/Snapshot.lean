import StayConnect.Commerce.Eligibility

/-!
# What a quote grants

The currency of a price, the end of the access, and the grant snapshot: the pinned plan revision with the overrides
of the matched tier, every value checked. A time mode the runtime cannot account for is not acquirable.
-/

namespace StayConnect.Commerce
open Iam Tx

def iso4217Exponent : List (String × Int) :=
  (["JPY", "KRW", "CLP", "ISK", "VND", "XAF", "XOF", "XPF", "UGX", "RWF", "PYG"].map (·, 0)) ++
  (["USD", "EUR", "GBP", "CAD", "AUD", "CHF", "CNY", "HKD", "SGD", "AED", "SAR", "EGP", "ZAR", "INR", "BRL", "MXN",
    "TRY", "PLN", "SEK", "NOK", "DKK", "NZD", "THB", "MYR", "PHP", "IDR", "QAR", "ILS", "RON", "CZK"].map (·, 2)) ++
  (["BHD", "KWD", "OMR", "JOD", "TND", "LYD", "IQD"].map (·, 3))

inductive CurrencyError where
  | unknown (code : String)
  | exponentMismatch (code : String)

/-- `ValidateCurrency`: the normalized code. -/
def validateCurrency (code : String) (exponent : Int) : Except CurrencyError String :=
  match iso4217Exponent.lookup (upperTrim code) with
  | none => .error (.unknown (upperTrim code))
  | some want => if exponent = want then .ok (upperTrim code) else .error (.exponentMismatch (upperTrim code))

inductive AcquisitionMethod where
  | free | voucher | card | roomCharge
  deriving DecidableEq, Repr

def AcquisitionMethod.text : AcquisitionMethod → String
  | .free => "NOT_REQUIRED"
  | .voucher => "PREPAID"
  | .card => "ONLINE_PAYMENT"
  | .roomCharge => "PMS_POSTING"

def hasMethod (methods : List String) (m : AcquisitionMethod) : Bool := methods.any fun x => upperTrim x == m.text

/-- `SiteMethods`: what is effective at the site. -/
structure SiteMethods where
  paidAccess : Bool
  card : Bool
  cardCurrencies : List String
  cardAccepts : Option (String → Bool)

def SiteMethods.cardApplicable (s : SiteMethods) (cur : String) : Bool :=
  upperTrim cur ≠ "" && (s.cardAccepts.any (· (upperTrim cur)) || s.cardCurrencies.any fun c => upperTrim c == upperTrim cur)

/-- A row of `internet_package_revisions`, with what its package says of it. -/
structure PackageRevisionRow where
  id : Nat
  packageID : Nat
  planRevisionID : Nat
  priceMinor : Int
  currency : String
  currencyExponent : Int
  settlementMethods : List String
  visibleFrom : Option Int
  visibleUntil : Option Int
  packageActive : Bool
  isCurrent : Bool
  durationPolicy : Fields
  dataAllocationMode : String

/-- A row of `service_plan_revisions`; an absent limit is 0. -/
structure PlanRevisionRow where
  id : Nat
  downKbps : Int
  upKbps : Int
  maxConcurrentDevices : Int
  timeQuotaSeconds : Int
  dataQuotaBytes : Int
  timeAccountingMode : String

def stayDependentEndModes : List String :=
  ["AT_CHECKOUT", "GRACE_AFTER_CHECKOUT", "EARLIEST_OF_FIXED_AND_CHECKOUT", "REST_OF_STAY"]

def maxDurationSeconds : Int := 10 * 365 * 24 * 3600

inductive DurationError where
  | policyRequired | endModeRequired | capabilityDisabled (mode : String) | localTimeDisabled
  | durationSeconds | endsAtRequired | endsAtMalformed | endsAtPast | unsupported (mode : String)

/-- `ResolveEndPolicy`: the end mode and the instant it ends, if it has one. -/
def resolveEndPolicy (rfc3339 : String → Option Int) (dp : Fields) (now : Int) : Except DurationError (EndMode × Option Int) :=
  let mode := upperTrim ((Fields.str dp "end_mode").getD "")
  if dp.isEmpty then .error .policyRequired
  else if mode = "" then .error .endModeRequired
  else if stayDependentEndModes.contains mode then .error (.capabilityDisabled mode)
  else if (dp.lookup "local_end_time").isSome then .error .localTimeDisabled
  else match mode with
    | "MANUAL_END" => .ok (.manualEnd, none)
    | "VALIDITY_WINDOW" =>
      match (dp.lookup "duration_seconds").bind asInt64 with
      | none => .error .durationSeconds
      | some secs =>
        if secs ≤ 0 ∨ maxDurationSeconds < secs then .error .durationSeconds
        else .ok (.validityWindow, some (now + secs * second))
    | "FIXED_AT" =>
      let text := trimSpace ((Fields.str dp "ends_at").getD "")
      if text = "" then .error .endsAtRequired
      else match rfc3339 text with
        | none => .error .endsAtMalformed
        | some t => if t ≤ now then .error .endsAtPast else .ok (.fixedAt, some t)
    | _ => .error (.unsupported mode)

def grantSnapshotVersion : Nat := 1

structure GrantSnapshot where
  version : Nat
  servicePlanRevisionID : Nat
  packageRevisionID : Nat
  grantTierOrder : Int
  downKbps : Int
  upKbps : Int
  maxConcurrentDevices : Int
  deviceLimitPolicy : String
  idleTimeoutSeconds : Int
  maxContinuousSessionSeconds : Int
  timeQuotaSeconds : Int
  dataQuotaBytes : Int
  timeAccountingMode : String
  endMode : Option EndMode
  windowEndsAt : Option Int
  acquisitionMethod : Option AcquisitionMethod
  frozenDataQuotaBytes : Int
  deriving DecidableEq, Repr

inductive GrantError where
  | unknownKey (key : String)
  | outOfBounds (key : String)
  | unknownDeviceLimitPolicy
  | timeAccountingModeOverride
  | unsupportedTimeAccountingMode (mode : String)
  | noDevice

def knownGrantKeys : List String :=
  ["match", "down_kbps", "up_kbps", "max_concurrent_devices", "device_limit_policy", "idle_timeout_seconds",
    "max_continuous_session_seconds", "time_quota_seconds", "data_quota_bytes", "time_accounting_mode"]

def deviceLimitPolicies : List String := ["REJECT_NEW_DEVICE", "DISCONNECT_OLDEST", "ADMIN_APPROVAL"]

def maxKbps : Int := 10000000
def maxDevices : Int := 1000
def maxIdleSeconds : Int := 30 * 24 * 3600
def maxSessionSeconds : Int := 365 * 24 * 3600
def maxTimeQuotaSecond : Int := 10 * 365 * 24 * 3600
def maxDataQuotaBytes : Int := 2 ^ 50

/-- `intOverride` and `int64Override`: the tier's value where it has one, else the plan's. -/
def override (v : Fields) (key : String) (most plan : Int) : Except GrantError Int :=
  match v.lookup key with
  | none => .ok plan
  | some raw =>
    match asInt64 raw with
    | none => .error (.outOfBounds key)
    | some n => if n < 0 ∨ most < n then .error (.outOfBounds key) else .ok n

def deviceLimitPolicy (v : Fields) : Except GrantError String :=
  match v.lookup "device_limit_policy" with
  | none => .ok "REJECT_NEW_DEVICE"
  | some raw =>
    match raw.asString with
    | none => .error .unknownDeviceLimitPolicy
    | some s => if deviceLimitPolicies.contains (upperTrim s) then .ok (upperTrim s) else .error .unknownDeviceLimitPolicy

/-- The accounting mode of a plan; an omitted one is the validity window. -/
def planTimeMode (plan : PlanRevisionRow) : String :=
  if plan.timeAccountingMode = "" then "VALIDITY_WINDOW" else plan.timeAccountingMode

def buildGrantSnapshot (tier : GrantTier) (plan : PlanRevisionRow) (pkg : PackageRevisionRow) :
    Except GrantError GrantSnapshot := do
  let v := tier.value
  refuseAny (v.find? fun f => !knownGrantKeys.contains f.1) fun f => .unknownKey f.1
  let downKbps ← override v "down_kbps" maxKbps plan.downKbps
  let upKbps ← override v "up_kbps" maxKbps plan.upKbps
  let maxConcurrentDevices ← override v "max_concurrent_devices" maxDevices plan.maxConcurrentDevices
  let idleTimeoutSeconds ← override v "idle_timeout_seconds" maxIdleSeconds 0
  let maxContinuousSessionSeconds ← override v "max_continuous_session_seconds" maxSessionSeconds 0
  let timeQuotaSeconds ← override v "time_quota_seconds" maxTimeQuotaSecond plan.timeQuotaSeconds
  let dataQuotaBytes ← override v "data_quota_bytes" maxDataQuotaBytes plan.dataQuotaBytes
  let deviceLimitPolicy ← deviceLimitPolicy v
  if (v.lookup "time_accounting_mode").isSome then .error .timeAccountingModeOverride
  else if ! ["VALIDITY_WINDOW", "AGGREGATE_ONLINE_TIME"].contains (planTimeMode plan).toUpper then
    .error (.unsupportedTimeAccountingMode (planTimeMode plan))
  else if maxConcurrentDevices < 1 then .error .noDevice
  else
    .ok { version := grantSnapshotVersion
          servicePlanRevisionID := plan.id
          packageRevisionID := pkg.id
          grantTierOrder := tier.order
          downKbps, upKbps, maxConcurrentDevices, deviceLimitPolicy, idleTimeoutSeconds
          maxContinuousSessionSeconds, timeQuotaSeconds, dataQuotaBytes
          timeAccountingMode := planTimeMode plan
          endMode := none
          windowEndsAt := none
          acquisitionMethod := none
          frozenDataQuotaBytes := 0 }

inductive TimeModeRefusal where
  | aggregateOnlineTimeNotEnabled
  | unsupportedTimeAccountingMode
  deriving DecidableEq, Repr

def TimeModeRefusal.text : TimeModeRefusal → String
  | .aggregateOnlineTimeNotEnabled => "aggregate_online_time_not_enabled"
  | .unsupportedTimeAccountingMode => "unsupported_time_accounting_mode"

/-- `TimeModeAcquirable`: none when a quote may be made in this mode. -/
def timeModeAcquirable (mode : String) (aggregateEnabled : Bool) : Option TimeModeRefusal :=
  match upperTrim mode with
  | "" | "VALIDITY_WINDOW" => none
  | "AGGREGATE_ONLINE_TIME" => if aggregateEnabled then none else some .aggregateOnlineTimeNotEnabled
  | _ => some .unsupportedTimeAccountingMode

lemma timeAccountingMode_eq {tier plan pkg g}
    (h : buildGrantSnapshot tier plan pkg = .ok g) : g.timeAccountingMode = planTimeMode plan := by
  simp only [buildGrantSnapshot, ok_bind_iff] at h
  obtain ⟨-, -, _, -, _, -, _, -, _, -, _, -, _, -, _, -, _, -, h⟩ := h
  split at h
  · cases h
  split at h
  · cases h
  split at h
  · cases h
  · cases h
    rfl

end StayConnect.Commerce
