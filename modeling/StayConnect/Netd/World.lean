import Mathlib.Data.List.AList
import Mathlib.Data.List.Sort
import StayConnect.Framing

/-!
# The world of netd

Data of `data-plane/cmd/netd` and of the plan contract `data-plane/internal/shapeplan`: the plan
netd is given, what the kernel holds (the Phase-3 nft set, tc classes and filters), what netd keeps
in memory (`phase3Shaping`) and on disk, and the state of the pass in progress (`passBatch`,
`shapingPlanResponse`, the per-pass caches).

Everything outside netd answers through `Env`: the `n`-th external call asks the functions of `Env`
at `n`, so a statement over every `Env` is a statement over every pattern of failures, answers and
delays. Times are milliseconds; `clock` is the boot clock of `phase3_securitytime.go`, and wall
times (`now`, `AccessEndsAt`) are kept apart from it. `log` is a record of what was done, newest
first; no modelled function reads it.
-/

namespace StayConnect.Netd

open Framing

/-- A finite map netd iterates over. -/
abbrev Table (κ ν : Type) := AList fun _ : κ => ν

/-- A map netd only looks up. -/
abbrev Map (κ ν : Type) := κ → Option ν

inductive Ip where
  | v4 (a : BitVec 32)
  | v6 (a : BitVec 128)
deriving DecidableEq, Repr

/-- What `gateKey` names: an address on a bridge. -/
structure Addr where
  bridge : Bytes
  ip : Ip
deriving DecidableEq, Repr

/-- What `classKey` names: a session on a bridge. -/
structure Key where
  bridge : Bytes
  session : Bytes
deriving DecidableEq, Repr

/-- What `minorKey` names: a class minor on a device. -/
structure Slot where
  device : Bytes
  minor : Nat
deriving DecidableEq, Repr

/-- `shapeplan.Session`; the `Observed*` fields are read by nobody and left out. -/
structure Session where
  sessionID : Bytes
  deviceID : Bytes := []
  ip : Bytes
  bridge : Bytes
  downKbps : Int
  upKbps : Int
  entitled : Bool
  accessEndsAt : Option Nat := none
  endReason : Bytes := []
  mac : Bytes := []
  entitlementID : Bytes := []
  speedAllocation : Bytes := []
deriving DecidableEq, Repr

/-- `classKey` of a plan entry. -/
def Session.key (s : Session) : Key := ⟨s.bridge, s.sessionID⟩

/-- `speedAllocationShared`: any other text is PER_DEVICE. -/
def Session.shared (s : Session) : Bool := s.speedAllocation == "SHARED".toList

structure ContinuitySession where
  sessionID : Bytes
  hardEnd : Option Nat
deriving DecidableEq, Repr

structure ContinuityBudget where
  entitlementID : Bytes
  remainingBytes : Int
deriving DecidableEq, Repr

/-- `shapeplan.Continuity`. -/
structure ContinuityBlock where
  windowSeconds : Int
  asOf : Nat
  sessions : List ContinuitySession
  budgets : List ContinuityBudget
  contentsHash : Bytes

/-- `shapeplan.Envelope`; `AssignmentID`, `ProducerRuntimeGen` and `GeneratedAt` are informational. -/
structure Envelope where
  contractVersion : Bytes
  tenantID : Bytes
  siteID : Bytes
  applianceID : Bytes
  assignmentGen : Int
  planGeneration : Int
  expiresAt : Nat
  managedBridges : List Bytes
  sessions : List Session
  desiredStateHash : Bytes
  continuity : Option ContinuityBlock := none

/-- `shapeplan.Accepted`: the record of the last plan in force. -/
structure Accepted where
  generation : Int
  hash : Bytes
  tenantID : Bytes
  siteID : Bytes
  acceptedAt : Nat
  expiresAt : Nat
deriving DecidableEq, Repr

/-- `phase3Mode`. -/
structure Mode where
  active : Bool
  tenantID : Bytes
  siteID : Bytes
  applianceID : Bytes
  assignGen : Int

/-- How a write ended: whether netd was told of an error, and whether it took effect all the same. -/
inductive Outcome where
  | done
  | refused
  | lost
  | ignored

def Outcome.err : Outcome → Bool
  | .done | .ignored => false
  | .refused | .lost => true

def Outcome.lands : Outcome → Bool
  | .done | .lost => true
  | .refused | .ignored => false

/-- Answer of a controlled database writer; `ended` is the refusal `isSessionEndedErr` recognises. -/
inductive Reply where
  | ok
  | ended
  | failed
deriving DecidableEq, Repr

inductive Ownership where
  | owned
  | foreign
  | unknown
deriving DecidableEq, Repr

/-- `ownershipEvidence`; `lapses` is `Until`, `none` for the zero time, as is `epoch`. -/
structure Evidence where
  state : Ownership
  empty : Bool := false
  missing : Bool := false
  lapses : Option Nat := none
  epoch : Option Nat := none

/-- An IPv4 subnet of a bridge. -/
structure Subnet where
  base : BitVec 32
  ones : Nat
deriving DecidableEq, Repr

structure Env where
  /-- `net.ParseIP` and `net.IP.String`. -/
  parseIP : Bytes → Option Ip
  ipText : Ip → Bytes
  /-- `strings.TrimSpace`, and `strings.ToLower` after it, of the text fields of a plan. -/
  trim : Bytes → Bytes
  fold : Bytes → Bytes
  /-- `shapeplan.HashDesiredState` and `shapeplan.HashContinuity`. -/
  hashDesiredState : List Bytes → List Session → Bytes
  hashContinuity : ContinuityBlock → Bytes
  /-- `bridgeNets`: the subnets configured on a bridge. -/
  nets : Bytes → List Subnet
  /-- How long the `n`-th call takes. -/
  lasts : Nat → Nat
  /-- How the `n`-th call ends, for the `i`-th of its requests. -/
  outcome : Nat → Nat → Outcome
  reply : Nat → Reply
  confirm : Nat → Option Bool
  isEnded : Nat → Option Bool
  alloc : Nat → Option Nat
  evidence : Nat → Ip → Bytes → Evidence
  retired : Nat → Bytes → Bool
  drained : Nat → Nat
  /-- Elements the listing reports without an expiry though the kernel holds one. -/
  unreported : Nat → Addr → Bool
  notEntitled : Nat → Bytes → Bool

/-- Why a session was not provisioned, renewed or proven. -/
inductive Cause where
  | boundaryPassed
  | underOneSecond
  | addressForeign
  | ownershipUnverified
  | clockUnreadable
  | bootUntrusted
  | crossBootHold
  | quarantined (strikes seconds : Nat)
  | noGeneration
  | noEntitlement
  | groupDownload
  | groupUpload
  | prepare
  | originNoDevice
  | originUnreadable
  | originRefused
  | activate
  | postActivation
  | attemptNotDurable
  | authorize
  | authorizeUnverified
  | renew
  | reauthorizeUnverified
  | durableEnded
  | neverProven
  | unproven
  | regroup
  | reRate
deriving DecidableEq, Repr

/-- What the tc half of failing closed reported. -/
inductive Cleanup where
  | clean
  | classificationRemoved
  | failed
deriving DecidableEq, Repr

/-- The entries of `Problems`. -/
inductive Problem where
  | sharedUpload (other bridge : Bytes)
  | noBridge (session : Bytes)
  | networkRemoved (session : Bytes)
  | undeclaredBridge (session bridge : Bytes)
  | bridgeSharesUpload (session bridge : Bytes)
  | unusableEntry (session : Bytes)
  | unshapeable (session : Bytes)
  | contested (bridge session : Bytes) (minor : Nat)
  | conflict (bridge other session : Bytes) (minor : Nat)
  | tearUnusable (session : Bytes)
  | tearNotRemoved (session : Bytes)
  | tearCleanup (session : Bytes)
  | scanFailed
  | strayAuthorization (a : Addr)
  | strayScan (bridge : Bytes)
  | strayClass (bridge : Bytes) (minor : Nat)
  | legacyNotDrained
  | bridgeInfra (bridge : Bytes)
  | classStateNotWritten
  | budgetExhausted (bridge : Bytes) (left : Nat)
  | session (session : Bytes) (why : Cause) (notRemoved : Bool) (tc : Cleanup)
  | backoffNotPersisted (session : Bytes)
  | holdNotRemoved (session : Bytes)
  | storeUnreadable
  | notSaved
deriving DecidableEq, Repr

/-- `shapingPlanResponse`; `Accepted`, `Reason` and `PlanGeneration` are the answer of `submit`. -/
structure Response where
  tornDown : Nat := 0
  straysRemoved : Nat := 0
  shaped : Nat := 0
  failed : Nat := 0
  degraded : Bool := false
  endedMidPass : Nat := 0
  problems : List Problem := []

/-- An HTB class; `parent` is `none` under the root and the group's minor in a SHARED group. -/
structure Class where
  params : Bool := true
  parent : Option Nat := none
  rateKbit : Int
  ceilKbit : Int
  bytes : Nat := 0

/-- The Phase-3 set with the boot time each element lapses at (`none`: no timeout), tc classes and
the classification filters. -/
structure Kernel where
  auth : Table Addr (Option Nat) := ∅
  tc : Table Slot Class := ∅
  filters : Map Slot Ip := fun _ => none

/-- `quarantineState`; `BeganWall` is audit only. Zero stands for "not set", as in the source. -/
structure Quarantine where
  bootID : Bytes := []
  began : Nat := 0
  deadline : Nat := 0
  backoffUntil : Nat := 0
  strikes : Nat := 0
  freshAttempt : Bool := false

/-- `activationAttempt`. -/
structure Attempt where
  key : Key
  sessionID : Bytes
  bootID : Bytes
  began : Nat
  deadline : Nat
  strikes : Nat
  backoffUntil : Nat

structure JournalState where
  tenantID : Bytes
  siteID : Bytes
  applianceID : Bytes
  attempts : List Attempt

structure ManagedClass where
  sessionID : Bytes
  deviceID : Bytes
  bridge : Bytes
  minor : Nat
  epoch : Nat
  bootID : Bytes

structure ClassState where
  tenantID : Bytes
  siteID : Bytes
  applianceID : Bytes
  bootID : Bytes
  classes : Table Key ManagedClass

structure LeaseMemory where
  ip : Bytes
  mac : Bytes
  lapses : Nat
  epoch : Option Nat

structure ProvenMark where
  epoch : Nat
  bootMs : Nat

structure RenewSession where
  addr : Addr
  sessionID : Bytes
  accessEnds : Option Nat
  ownedUntil : Nat

structure WalkMemo where
  hash : Bytes := []
  walkedAt : Nat := 0
  clean : Bool := false
  res : Response := {}
  renewable : Table Key RenewSession := ∅

/-- `contSess`; `base` is `none` when `HasBase` is false. -/
structure ContSess where
  sessionID : Bytes
  bridge : Bytes
  ip : Bytes
  mac : Bytes
  entitlementID : Bytes
  minor : Nat
  epoch : Nat
  deadlineBoot : Nat
  base : Option Nat
  lastUsed : Nat

structure ContBudget where
  remaining : Int
  used : Nat := 0
  gone : Nat := 0
  exhausted : Bool := false
deriving DecidableEq, Repr

structure ContState where
  tenantID : Bytes
  siteID : Bytes
  applianceID : Bytes
  assignGen : Int
  bootID : Bytes
  planGen : Int
  lastPlanBoot : Nat
  windowSec : Int
  asOf : Nat
  sessions : Table Key ContSess
  budgets : Table Bytes ContBudget

structure ContRevocation where
  sessionID : Bytes := []
  entitlementID : Bytes := []
  bridge : Bytes := []
  ip : Bytes := []
  revokedAt : Nat

structure ContCount where
  epoch : Nat
  bytes : Nat

structure ContSample where
  takenAt : Nat
  bytes : Map Key ContCount
  classes : Map Key Nat

/-- `continuity`; what only the status route reads is left out. -/
structure Continuity where
  st : Option ContState := none
  journal : List ContRevocation := []
  samples : List ContSample := []
  lastSample : Option Nat := none
  lastSaved : Option Nat := none
  dirty : Bool := false

/-- What survives a restart of netd. -/
structure Disk where
  plan : Option Accepted := none
  classState : Option ClassState := none
  journal : Option JournalState := none
  contState : Option ContState := none
  contJournal : List ContRevocation := []

/-- `phase3Shaping`: what a restart loses, with the configuration it is built with. -/
structure Mem where
  mode : Mode
  fastPath : Bool := true
  noBatch : Bool := false
  lastAccepted : Option Accepted := none
  lastConverged : Option Accepted := none
  arrivedGen : Int := 0
  epochs : Map Key Nat := fun _ => none
  pending : Map Key Nat := fun _ => none
  minorOwner : Map Slot Bytes := fun _ => none
  quarantined : Table Key Quarantine := ∅
  unprovenUnknown : Bool := false
  journalUnreadable : Bool := false
  classSaveFailed : Bool := false
  classes : Table Key ManagedClass := ∅
  bootID : Bytes := []
  endedTorn : Map Key Unit := fun _ => none
  unverified : Map Key Unit := fun _ => none
  leaseMem : Map Key LeaseMemory := fun _ => none
  groupSlots : Table Bytes Nat := ∅
  provenAt : Map Key ProvenMark := fun _ => none
  indivCursor : Bytes → Nat := fun _ => 0
  regroupsDeferred : Nat := 0
  memo : WalkMemo := {}
  cont : Continuity := {}

/-- `pendingDeny`: `abort` asks for the tc teardown after the denial, `quiet` for an ordinary end. -/
structure PendingDeny where
  addr : Addr
  session : Bytes
  why : Cause
  abort : Bool
  quiet : Bool

structure PendingRenew where
  addr : Addr
  want : Nat
  sessionID : Bytes
  known : Bool

/-- `pendingEnd`; the recorded reason goes to the database only. -/
structure PendingEnd where
  key : Key
  sessionID : Bytes

/-- The pass in progress: the response being built, `passBatch` (`batched` is `pb != nil`), the
caches of the SHAPE step, the renewable set being built and the budget. -/
structure Pass where
  res : Response := {}
  batched : Bool := false
  denies : List PendingDeny := []
  renew : Table Addr PendingRenew := ∅
  ends : List PendingEnd := []
  /-- The answers fetched ahead, each with the generation it was asked for (kept for the record). -/
  activations : Map Key (Nat × Reply) := fun _ => none
  renewed : Map Addr Unit := fun _ => none
  walkRenewable : Table Key RenewSession := ∅
  classes : Map Bytes (List (Nat × Class)) := fun _ => none
  groupClasses : Map Bytes (List (Nat × Class)) := fun _ => none
  groups : Map Slot Unit := fun _ => none
  regroups : Nat := 0
  start : Nat := 0
  deadline : Nat := 0
  retired : Bytes → Bool := fun _ => false

/-- What was done, for the statements about a run. -/
inductive Event where
  /-- A walk began. -/
  | began
  /-- The walk computed the lease `ttl` for the session; its element had `left` to run (`none` when
  absent, `some none` without a timeout), and its DHCP lease `dhcp` when the evidence has an end. -/
  | granted (k : Key) (a : Addr) (ttl : Nat) (left : Option (Option Nat)) (dhcp : Option Nat)
  /-- A lease was written at a boot time; its element had `left` to run. -/
  | authorized (k : Key) (a : Addr) (ttl : Nat) (time : Nat) (left : Option (Option Nat))
  | revoked (a : Addr)
  /-- The database called the session active while it had this class generation. -/
  | answered (k : Key) (epoch : Nat)
  /-- An answer fetched ahead under one generation was taken as the proof of another. -/
  | stale (k : Key) (epoch : Nat)
  /-- The class was recorded as managed under this generation. -/
  | admitted (k : Key) (epoch : Nat)
  | noted (k : Key) (a : Addr)
  /-- Durable state had ended the session. -/
  | ended (k : Key) (a : Addr)
  /-- A plan was put in force. -/
  | enforced (generation : Int) (hash : Bytes)
deriving DecidableEq, Repr

/-- The continuity tick in flight: between its clock reading, its two locked parts and the database
probe the lock is free. -/
inductive Tick where
  | idle
  | read (now nowBoot : Nat)
  | asking (now nowBoot : Nat) (tenantID siteID : Bytes) (ids : List Bytes)
  | answered (now nowBoot : Nat) (tenantID siteID : Bytes) (notEntitled : List Bytes)
deriving DecidableEq, Repr

structure World where
  env : Env
  calls : Nat := 0
  clock : Nat := 0
  bootID : Bytes := []
  kern : Kernel := {}
  disk : Disk := {}
  mem : Mem
  pass : Pass := {}
  tick : Tick := .idle
  log : List Event := []

/-- netd's code: it reads and changes the world. -/
abbrev NetdM := StateM World

end StayConnect.Netd
