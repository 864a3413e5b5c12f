import StayConnect.Keyed
import StayConnect.Tx
import StayConnect.Pms.Stay
import Mathlib.Data.List.MinMax
import Mathlib.Logic.Function.Basic

/-!
# The access and accounting tables

The rows of `iam_v2` that checkout conversion and usage accounting read and write. A table is the list of its
rows; instants are microseconds. A statement that a constraint, a trigger or the function itself refuses ends
its transaction with a `Refusal`. `gen_random_uuid()` draws from an arbitrary supply, and a drawn id that is
already taken violates the primary key it is inserted under.
-/

namespace StayConnect.Iam

/-- `tenant_id` and `site_id`. -/
structure Scope where
  tenant : Nat
  site : Nat
  deriving DecidableEq, Repr

inductive EndMode where
  | fixedAt
  | validityWindow
  | atCheckout
  | earliestOfFixedAndCheckout
  | graceAfterCheckout
  | manualEnd
  deriving DecidableEq, Repr

/-- `entitlements.status`, and the states of `entitlement_state_transitions`. -/
inductive EntitlementStatus where
  | pending
  | active
  | suspended
  | terminated
  deriving DecidableEq, Repr

inductive TerminalReason where
  | time
  | data
  | hardExpiry
  | checkout
  | admin
  | revoked
  | superseded
  | converted
  | transferred
  | cancelled
  | other

inductive TimeAccountingMode where
  | validityWindow
  | aggregateOnlineTime
  deriving DecidableEq, Repr

structure Policy where
  durationSeconds : Int
  downKbps : Int
  upKbps : Int
  dataQuotaBytes : Int
  deviceLimit : Int
  deviceLimitPolicy : String
  isEmergency : Bool

/-- A row of `entitlements`; `policySnapshot` is the snapshot a conversion pins. -/
structure Entitlement where
  id : Nat
  scope : Scope
  iface : Option Nat
  stay : Option Nat
  purchase : Nat
  policySnapshot : Option (String × Policy)
  planRevision : Nat
  packageRevision : Nat
  timeAccountingMode : TimeAccountingMode
  endMode : EndMode
  windowEndsAt : Option Int
  status : EntitlementStatus
  terminalReason : Option TerminalReason
  dataQuotaBytes : Option Int
  consumedDataBytes : Nat
  usageVersion : Nat
  supersedes : Option Nat
  isEmergencyGrace : Bool
  activatedAt : Option Int
  terminatedAt : Option Int

/-- A row of `service_plan_revisions`. -/
structure PlanRevision where
  id : Nat
  scope : Scope
  timeAccountingMode : TimeAccountingMode
  dataQuotaBytes : Option Int

/-- A row of `internet_package_revisions`. -/
structure PackageRevision where
  id : Nat
  scope : Scope
  planRevision : Nat

structure StateTransition where
  id : Nat
  entitlement : Nat
  seq : Nat
  fromState : Option EntitlementStatus
  toState : EntitlementStatus
  effectiveAt : Int
  supersedes : Option Nat
  supersededBy : Option Nat
  reason : String

inductive DeviceStatus where
  | authorized
  | disconnected
  deriving DecidableEq, Repr

structure EntitlementDevice where
  entitlement : Nat
  device : Nat
  status : DeviceStatus
  grandfathered : Bool
  disconnectedReason : Option String
  firstAuthorized : Option Int
  lastAuthorized : Option Int

/-- A row of `entitlement_device_authorizations`: an interval, open while `deauthorizedAt` is absent. -/
structure Authorization where
  id : Nat
  entitlement : Nat
  device : Nat
  seq : Nat
  authorizedAt : Int
  deauthorizedAt : Option Int

inductive SessionState where
  | pendingEnforcement
  | active
  | ended
  deriving DecidableEq, Repr

inductive Inet where
  | v4 (address : Nat)
  | v6 (address : Nat)

structure Session where
  id : Nat
  scope : Scope
  entitlement : Nat
  device : Nat
  state : SessionState
  started : Int
  ended : Option Int
  endReason : Option String
  bytesUp : Nat
  bytesDown : Nat
  ingressInterface : Option String
  ip : Option Inet

/-- A row of `session_entitlement_bindings`. -/
structure Binding where
  id : Nat
  session : Nat
  entitlement : Nat
  seq : Nat
  boundFrom : Int
  boundUntil : Option Int
  deriving DecidableEq, Repr

/-- A row of `accounting_records`. -/
structure Sample where
  id : Nat
  scope : Scope
  session : Nat
  sampleSeq : Nat
  bytesUp : Nat
  bytesDown : Nat
  sampledAt : Int
  ingestedAt : Int
  deriving DecidableEq, Repr

/-- `accounting_checkpoints.last_classification`. -/
inductive Classification where
  | baselined
  | accepted
  | delayed
  | resetBaselined

/-- A row of `accounting_checkpoints`, named by its unique session and counter source. -/
structure Checkpoint where
  scope : Scope
  session : Nat
  sourceDevice : Nat
  bridge : String
  classMinor : Int
  sourceEpoch : Int
  prevBytesUp : Nat
  prevBytesDown : Nat
  prevSampledAt : Int
  lastRecord : Option Nat
  lastClassification : Classification
  lastSampleSeq : Nat

structure BoundaryWatermark where
  id : Nat
  entitlement : Nat
  boundaryAt : Int
  bytesUp : Nat
  bytesDown : Nat
  recordsCounted : Nat
  latestSampledAt : Option Int

structure DelayedRecord where
  record : Nat
  session : Nat
  entitlement : Nat
  watermark : Nat
  sampledAt : Int
  bytesUp : Nat
  bytesDown : Nat

structure CrossingProgress where
  binding : Nat
  entitlement : Nat
  session : Nat
  examinedSeq : Nat
  countedBytes : Nat
  final : Bool

structure CrossingState where
  entitlement : Nat
  quotaBytes : Int
  crossedAt : Option Int

/-- `accounting_usage_entitlement.arm`: 0, 1 and 2. -/
inductive Arm where
  | interval
  | closingInstant
  | noBinding
  deriving DecidableEq, Repr

structure FoldedUsage where
  scope : Scope
  entitlement : Nat
  arm : Arm
  bucket : Int
  bytesUp : Nat
  bytesDown : Nat
  records : Nat
  latestSampledAt : Int
  exact : Bool
  deriving DecidableEq, Repr

/-- A row of `accounting_usage_hour`. -/
structure TierUsage where
  scope : Scope
  session : Nat
  bucket : Int
  bytesUp : Nat
  bytesDown : Nat
  samples : Nat
  deriving DecidableEq, Repr

/-- `usage_rollup_settings_get`. -/
structure RollupSettings where
  rawRetentionDays : Nat

/-- A row of `public.guest_networks`: the network address and its mask length. -/
structure GuestNetwork where
  enabled : Bool
  network : Nat
  masklen : Nat

/-- A row of `stays`; `arrival` is the start of the arrival day in UTC. -/
structure StayRow where
  id : Nat
  scope : Scope
  iface : Nat
  lifecycleVersion : Int
  status : Pms.StayStatus
  postingAllowed : Bool
  effectiveCheckoutAt : Option Int
  lastAppliedEvent : Option Nat
  arrival : Option Int

structure StayEvent where
  id : Nat
  scope : Scope
  iface : Nat
  stay : Option Nat
  applied : Bool
  eventType : String
  pmsTimestamp : Option Int
  clockSuspect : Bool
  sequenceVersion : Int
  normalizationVersion : Int
  resync : Bool
  resyncGeneration : Int

/-- `checkout_grace_audit.trigger`, and the two triggers of a conversion purchase. -/
inductive GraceTrigger where
  | checkoutGrace
  | emergencyGrace
  | noGrace

/-- A conversion row of `purchases`. -/
structure Purchase where
  id : Nat
  scope : Scope
  packageRevision : Nat
  iface : Nat
  stay : Nat
  trigger : GraceTrigger
  checkoutEpisode : Int

structure CheckoutAudit where
  scope : Scope
  iface : Nat
  stay : Nat
  lifecycleVersion : Int
  trigger : GraceTrigger
  isEmergency : Bool
  policyVersion : String
  alertCode : Option String
  reasonCode : String
  graceEntitlement : Option Nat
  boundaryEvent : Nat
  boundaryEventSeq : Option Int
  boundaryNormalization : Option Int
  boundaryReason : String
  configVersion : Int
  boundaryAt : Int
  boundaryClockSuspect : Bool

/-- The row `p3_lock_grace_config` returns. -/
structure GraceConfig where
  durationSeconds : Option Int
  downKbps : Option Int
  upKbps : Option Int
  dataQuotaBytes : Option Int
  deviceLimit : Option Int
  deviceLimitPolicy : Option String
  packageRevision : Option Nat
  configVersion : Int

/-- Why a statement was refused. The constructors up to `noBinding` are the `ACCT_` refusals of the
accounting functions. -/
inductive Refusal where
  | invalid
  | sessionOutOfScope
  | sourceMismatch
  | staleEpoch
  | staleSample
  | counterRegression
  | noBinding
  | outOfRange
  | notFound
  | bindingPrecedesOpenInterval
  | batchRequired
  | windowRequired
  | stayNotFound
  | invalidBoundaryEvent
  | emergencyCatalogUnavailable
  | conflictingCheckoutEvent
  | constraint (name : String)

structure Db where
  now : Int
  /-- `gen_random_uuid()`: any supply of ids, and how many were drawn. -/
  uuid : Nat → Nat
  drawn : Nat
  entitlements : List Entitlement
  planRevisions : List PlanRevision
  packageRevisions : List PackageRevision
  transitions : List StateTransition
  devices : List EntitlementDevice
  authorizations : List Authorization
  sessions : List Session
  bindings : List Binding
  samples : List Sample
  checkpoints : List Checkpoint
  watermarks : List BoundaryWatermark
  delayed : List DelayedRecord
  progress : List CrossingProgress
  crossings : List CrossingState
  folded : List FoldedUsage
  hours : List TierUsage
  /-- `site_usage_rollup_state.watermark`. -/
  rolledUpTo : Scope → Option Int
  rollupSettings : Scope → RollupSettings
  /-- `accounting_retention_get(..).detail_retention_days`. -/
  detailRetentionDays : Scope → Option Nat
  networks : List GuestNetwork
  stays : List StayRow
  events : List StayEvent
  /-- `pms_interface_runtime.published_resync_generation`. -/
  publishedResync : Nat → Option Int
  purchases : List Purchase
  audits : List CheckoutAudit
  graceConfig : Scope → Option GraceConfig
  /-- `p3_after_checkout_enabled`. -/
  afterCheckoutEnabled : Scope → Bool
  /-- `grace_package_matches_policy`. -/
  packageMatchesPolicy : Scope → Nat → Policy → Bool
  /-- `emergency_grace_health(..) = 'OK'`, and the pre-provisioned catalog. -/
  emergencyHealthy : Scope → Bool
  emergencyCatalog : Scope → Option (Nat × Nat × TimeAccountingMode)

abbrev IamM := StateT Db (Except Refusal)

/-- One more id was drawn. -/
def Db.draw (db : Db) : Db := { db with drawn := db.drawn + 1 }

def genRandomUuid : IamM Nat := do
  let db ← get
  modify Db.draw
  return db.uuid db.drawn

/-- Refuses the statement unless the condition holds. -/
def require (c : Prop) [Decidable c] (r : Refusal) : IamM Unit := if c then pure () else throw r

/-- One second, one day and one hour of `timestamptz`. -/
def second : Int := 1000000
def hour : Int := 3600 * second
def day : Int := 24 * hour

/-- `date_trunc('hour', t)`, `date_trunc('minute', t)`. -/
def truncHour (t : Int) : Int := t - t % hour
def truncMinute (t : Int) : Int := t - t % (60 * second)

/-- The largest value of a `bigint` column. -/
def bigintMax : Int := 2 ^ 63 - 1

/-- A `bigint` result out of range is an error, never a wrap. -/
def requireBigint (n : Int) : IamM Unit := require (n ≤ bigintMax) .outOfRange

/-- `COALESCE(e.data_quota_bytes, spr.data_quota_bytes)` over the left join with the plan revision. -/
def Db.quotaOf (db : Db) (e : Entitlement) : Option Int :=
  e.dataQuotaBytes.or ((db.planRevisions.find? fun r => r.id == e.planRevision).bind (·.dataQuotaBytes))

@[simp] lemma commits_require {c} [Decidable c] {r s s' u} : Tx.Commits (require c r) s u s' ↔ c ∧ s' = s := by
  unfold require
  simp

lemma commits_require_bind {β : Type} {c : Prop} [Decidable c] {r} {f : Unit → IamM β} {s s' b} :
    Tx.Commits (require c r >>= f) s b s' ↔ c ∧ Tx.Commits (f ()) s b s' := by
  rw [Tx.commits_bind]
  constructor
  · rintro ⟨_, _, required, h⟩
    obtain ⟨hc, rfl⟩ := commits_require.mp required
    exact ⟨hc, h⟩
  · rintro ⟨hc, h⟩
    exact ⟨(), s, commits_require.mpr ⟨hc, rfl⟩, h⟩

lemma commits_genRandomUuid_bind {β : Type} {f : Nat → IamM β} {s s' b} :
    Tx.Commits (genRandomUuid >>= f) s b s' ↔ Tx.Commits (f (s.uuid s.drawn)) s.draw b s' := Iff.rfl

end StayConnect.Iam
