import StayConnect.Netd.Enforcement

/-!
# Provisioning one session

`phase3_lease.go`, `phase3_address_owner.go` and `phase3_provision.go`: the lease a session may have,
whose address it is, and the staged sequence that makes a session metered first and authorized last,
with its one fail-closed path. A batched pass (`pass.batched`) queues denials and lease writes; the
per-session pass carries them out at once.
-/

namespace StayConnect.Netd

open Framing

def phase3LeaseTTL : Nat := 90000
def phase3LeaseRenewBelow : Nat := 60000
def phase3ProvisionalLease : Nat := 15000

/-- `leaseFor`: the lease clamped by the access boundary, rounded down to whole seconds. -/
def leaseFor (accessEndsAt : Option Nat) (now : Nat) : Except Cause Nat :=
  match accessEndsAt with
  | none => .ok phase3LeaseTTL
  | some ends =>
    if ends ≤ now then .error .boundaryPassed
    else if phase3LeaseTTL ≤ ends - now then .ok phase3LeaseTTL
    else if wholeSeconds (ends - now) < 1000 then .error .underOneSecond
    else .ok (wholeSeconds (ends - now))

/-- `needsRenewal`: `remaining` is what the kernel reports left, zero for no expiry. -/
def needsRenewal (remaining want : Nat) : Bool :=
  remaining == 0 || remaining < min phase3LeaseRenewBelow want

/-- The lease of an element the snapshot shows (unknown, absent, or with what is left) is written. -/
def leaseDue (seen : Option (Option Nat)) (want : Nat) : Bool :=
  match seen with
  | some (some left) => needsRenewal left want
  | _ => true

def provisionalOrLess (lease : Nat) : Nat := min lease phase3ProvisionalLease

def fail (p : Problem) : NetdM Unit := modifyPass fun s => { s with
  res := { s.res with failed := s.res.failed + 1, problems := s.res.problems ++ [p] } }

def problem (p : Problem) : NetdM Unit := modifyPass fun s => { s with
  res := { s.res with problems := s.res.problems ++ [p] } }

def failSession (session : Bytes) (why : Cause) : NetdM Unit := fail (.session session why false .clean)

def countShaped : NetdM Unit := modifyPass fun s => { s with res := { s.res with shaped := s.res.shaped + 1 } }

/-- `AbortSession` with its `RemoveClassification` fallback. -/
def abortTc (a : Addr) : NetdM Cleanup := do
  match minorFor (← get).env.nets a with
  | none => return .clean
  | some minor =>
    if ← abortSession a.bridge minor then
      if ← removeClassification a.bridge minor then return .failed
      return .classificationRemoved
    return .clean

def queueDeny (d : PendingDeny) : NetdM Unit := modifyPass fun s => { s with denies := s.denies ++ [d] }

/-- `failClosed`: packet authorization first, then tc. -/
def failClosed (a : Addr) (session : Bytes) (why : Cause) : NetdM Unit := do
  if (← get).pass.batched then queueDeny ⟨a, session, why, true, false⟩
  else
    let notRemoved ← denyAccess a
    let tc ← abortTc a
    fail (.session session why notRemoved tc)

/-- `endClosed`: the withdrawal of access that has simply ended. -/
def endClosed (a : Addr) (session : Bytes) (why : Cause) : NetdM Unit := do
  record (.ended ⟨a.bridge, session⟩ a)
  if (← get).pass.batched then queueDeny ⟨a, session, why, true, true⟩
  else failClosed a session why

/-- A plan entry with the address it parses to. -/
structure Wanted where
  s : Session
  addr : Addr
deriving DecidableEq, Repr

/-- `batchCand` with its `provCtx`: a session the checks passed, and the lease they computed. -/
structure Cand extends Wanted where
  minor : Nat
  lease : Nat
  ev : Evidence
  nowBoot : Nat

def Wanted.key (c : Wanted) : Key := c.s.key

def leaseMemoryCap : Nat := 4 * 60 * 60 * 1000

def keaRestartTolerance : Nat := 15000

def rememberLease (k : Key) (s : Session) (ev : Evidence) (now : Nat) : NetdM Unit := do
  let fold := (← get).env.fold
  let mem : LeaseMemory := ⟨s.ip, fold s.mac, min (ev.lapses.getD 0) (now + leaseMemoryCap), ev.epoch⟩
  modifyMem fun m => { m with leaseMem := Function.update m.leaseMem k (some mem) }

def keaRestarted (was now : Option Nat) : Bool :=
  match was, now with
  | some a, some b => keaRestartTolerance < b - a || keaRestartTolerance < a - b
  | _, _ => false

def bridgedLeaseLeft (fold : Bytes → Bytes) (m : Mem) (k : Key) (s : Session) (ev : Evidence) (now : Nat) : Nat :=
  match m.leaseMem k with
  | none => 0
  | some mem =>
    if mem.ip != s.ip || mem.mac != fold s.mac then 0
    else if !ev.empty && !keaRestarted mem.epoch ev.epoch then 0
    else if mem.lapses - now < 1000 then 0
    else wholeSeconds (mem.lapses - now)

/-- `Evidence` for a plan entry: without a device address nothing can be asked. -/
def ownership (c : Wanted) : NetdM Evidence := do
  if (← get).env.trim c.s.mac = [] then return { state := .unknown }
  evidence c.addr.ip c.s.mac

/-- A hold is denied (`holdDeny`) and reported every pass; a queued denial does not keep the report
waiting. -/
def hold (c : Wanted) (why : Cause) : NetdM Unit := do
  if (← get).pass.batched then
    failSession c.s.sessionID why
    queueDeny ⟨c.addr, c.s.sessionID, why, false, false⟩
  else
    if ← denyAccess c.addr then problem (.holdNotRemoved c.s.sessionID)
    failSession c.s.sessionID why

/-- An attempt of another boot is held until durable state says active. -/
def crossBootHeld (c : Wanted) (curBootID : Bytes) : NetdM Bool := do
  if !((← get).mem.quarantined.lookup c.key).any (·.crossBoot curBootID) then return false
  if (← confirm) = some true then
    clearAttempt c.key
    return false
  hold c .crossBootHold
  return true

/-- A quarantined session waits out its backoff, and then has one fresh attempt if durable state is
readable. -/
def backoffHeld (c : Wanted) (q : Quarantine) (nowBoot : Nat) : NetdM Bool := do
  if nowBoot < q.backoffUntil then
    hold c (.quarantined q.strikes ((q.backoffUntil - nowBoot) / 1000))
    return true
  if (← confirm).isSome then
    setQuarantine c.key { q with freshAttempt := true }
    return false
  let q := { q with backoffUntil := nowBoot + quarantineBackoff q.strikes }
  setQuarantine c.key q
  if ← persistAttempts then problem (.backoffNotPersisted c.s.sessionID)
  hold c (.quarantined q.strikes ((q.backoffUntil - nowBoot) / 1000))
  return true

/-- The quarantine half of `provisionPrecheck`: whether the session is held. -/
def quarantineHold (c : Wanted) (nowBoot : Nat) (curBootID : Bytes) : NetdM Bool := do
  if ← crossBootHeld c curBootID then return true
  match (← get).mem.quarantined.lookup c.key with
  | none => return false
  | some q =>
    if q.backoffUntil == 0 || q.freshAttempt then return false
    backoffHeld c q nowBoot

/-- The lease as far as the evidence carries it: an address Kea no longer knows is bridged by the lease
verified before. -/
def verifiedLease (c : Wanted) (lease now : Nat) : NetdM (Nat × Evidence) := do
  let ev ← ownership c
  if ev.state = .owned then
    rememberLease c.key c.s ev now
    return (lease, ev)
  let w ← get
  let left := bridgedLeaseLeft w.env.fold w.mem c.key c.s ev now
  if ev.missing && 0 < left then return (min lease left, { ev with state := .owned })
  return (lease, ev)

/-- The ownership half of `provisionPrecheck`: the lease the evidence leaves, `none` when the session
has been dealt with. -/
def ownedLease (c : Wanted) (lease now : Nat) : NetdM (Option (Nat × Evidence)) := do
  let (lease, ev) ← verifiedLease c lease now
  match ev.state with
  | .owned =>
    modifyMem fun m => { m with unverified := Function.update m.unverified c.key none }
    return some (lease, ev)
  | .foreign =>
    failClosed c.addr c.s.sessionID .addressForeign
    let _ ← markEnded
    endSeries c.key
    return none
  | .unknown =>
    if c.s.mac = [] then return some (lease, ev)
    problem (.session c.s.sessionID .ownershipUnverified false .clean)
    modifyMem fun m => { m with unverified := Function.update m.unverified c.key (some ()) }
    return none

/-- The checks of `provisionPrecheck`, each dealing with the session it stops. -/
def provisionChecks (minor : Nat) (c : Wanted) (now : Nat) : NetdM (Option Cand) := do
  match leaseFor c.s.accessEndsAt now with
  | .error why =>
    endClosed c.addr c.s.sessionID why
    return none
  | .ok lease =>
    match ← ownedLease c lease now with
    | none => return none
    | some (lease, ev) =>
      match ← bootNow with
      | none =>
        failClosed c.addr c.s.sessionID .clockUnreadable
        return none
      | some nowBoot =>
        let bootID ← currentBootID
        if bootID.isNone then problem (.session c.s.sessionID .bootUntrusted false .clean)
        if ← quarantineHold c nowBoot (bootID.getD []) then return none
        return some { c with minor, lease, ev, nowBoot }

/-- `provisionPrecheck`: whether a session may be provisioned or renewed at all. -/
def provisionPrecheck (minor : Nat) (c : Wanted) (now : Nat) : NetdM (Option Cand) := do
  match ← provisionChecks minor c now with
  | none => return none
  | some c =>
    record (.granted c.key c.addr c.lease ((← get).left c.addr) (c.ev.lapses.map (· - now)))
    return some c

/-- What the between-walks timer is told of a session: its lease ends with the DHCP lease, and one
lease length after the walk at the latest. -/
def Cand.renewSession (c : Cand) (now : Nat) : RenewSession :=
  let bound := now + phase3LeaseTTL
  ⟨c.addr, c.s.sessionID, c.s.accessEndsAt, c.ev.lapses.elim bound (min · bound)⟩

/-- `noteRenewable`: what the between-walks timer may keep alive. -/
def noteRenewable (c : Cand) (now : Nat) : NetdM Unit := modify fun w => { w with
  pass.walkRenewable := w.pass.walkRenewable.insert c.key (c.renewSession now)
  log := .noted c.key c.addr :: w.log }

/-- `assertLease`: install or refresh the lease, judged by this pass's snapshot; `false` when it has
already failed closed. -/
def assertLease (c : Cand) (want : Nat) (view : GateView) : NetdM Bool := do
  let seen := view.lookup c.addr
  if !leaseDue seen want then return true
  if (← get).pass.batched then
    modifyPass fun p => { p with renew := p.renew.insert c.addr ⟨c.addr, want, c.s.sessionID, seen.isSome⟩ }
    return true
  if ← authorize ⟨c.key, c.addr, want⟩ then
    failClosed c.addr c.s.sessionID (if seen.isSome then .authorize else .renew)
    return false
  if seen = some none then
    -- A missing element re-added is a genuine admission, so verify it.
    if (← authorized c.addr) != some true then
      failClosed c.addr c.s.sessionID .reauthorizeUnverified
      return false
  return true

/-- The lease of a session in force, remembered for the timer when it did not fail. -/
def renewLease (c : Cand) (want : Nat) (view : GateView) (now : Nat) : NetdM Unit := do
  if ← assertLease c want view then
    countShaped
    noteRenewable c now

/-- `readClassesForPass`: one read per device and SHAPE step; a failed read is never cached. -/
def readClassesForPass (device : Bytes) : NetdM (Option (List (Nat × Class))) := do
  match (← get).pass.classes device with
  | some cs => return some cs
  | none =>
    match ← readClasses device with
    | none => return none
    | some cs =>
      modifyPass fun p => { p with classes := Function.update p.classes device (some cs) }
      return some cs

def readGroupClassesForPass (device : Bytes) : NetdM (Option (List (Nat × Class))) := do
  match (← get).pass.groupClasses device with
  | some cs => return some cs
  | none =>
    match ← readGroupClasses device with
    | none => return none
    | some cs =>
      modifyPass fun p => { p with groupClasses := Function.update p.groupClasses device (some cs) }
      return some cs

/-- The classes of a bridge and of its upload device, through `read`; `none` when either read fails. -/
def bothDevices (read : Bytes → NetdM (Option (List (Nat × Class)))) (bridge : Bytes) :
    NetdM (Option (List (Nat × Class) × List (Nat × Class))) := do
  match ← read bridge with
  | none => return none
  | some down =>
    match ← read (ifbName bridge) with
    | none => return none
    | some up => return some (down, up)

/-- `groupClassFor`: the minor of the entitlement's group. -/
def groupClassFor (entitlementID : Bytes) : NetdM (Option Nat) := do
  let w ← get
  return w.mem.groupSlots.lookup (w.env.trim entitlementID)

/-- The class a session must have to be unchanged: parent, rate and ceiling. -/
def Class.matches (c expected : Class) : Bool :=
  c.params && c.parent == expected.parent && c.rateKbit == expected.rateKbit && c.ceilKbit == expected.ceilKbit

/-- One device of `sharedMatchesPlan`: the leaf under its group, and the group at the plan rate. -/
def sharedDeviceMatches (device : Bytes) (kbps : Int) (minor group : Nat) : NetdM Bool := do
  match ← readClassesForPass device with
  | none => return false
  | some leaves =>
    match ← readGroupClassesForPass device with
    | none => return false
    | some groups =>
      return (leaves.lookup minor).any (·.matches (sessionClass kbps (some group))) &&
        (groups.lookup group).any (·.matches { rateKbit := kbps, ceilKbit := kbps })

/-- `installedMatchesPlan`, with `sharedMatchesPlan` for a group. -/
def installedMatchesPlan (s : Session) (minor : Nat) (group : Option Nat) : NetdM Bool := do
  match group with
  | some g =>
    if s.downKbps ≤ 0 || s.upKbps ≤ 0 then return false
    if !(← sharedDeviceMatches s.bridge s.downKbps minor g) then return false
    sharedDeviceMatches (ifbName s.bridge) s.upKbps minor g
  | none =>
    match ← bothDevices readClassesForPass s.bridge with
    | none => return false
    | some (down, up) =>
      return (down.lookup minor).any (·.matches { rateKbit := s.downKbps, ceilKbit := s.downKbps }) &&
        (up.lookup minor).any (·.matches { rateKbit := s.upKbps, ceilKbit := s.upKbps })

def maxRegroupsPerPass : Nat := 8

inductive RegroupAction where
  | none
  | rebuild
  | failed

/-- A class is read under another parent than the wanted one. -/
def wrongParent (cs : List (Nat × Class)) (minor : Nat) (want : Option Nat) : Bool :=
  (cs.lookup minor).any fun c => c.params && c.parent != want

/-- `regroup`: a class under the wrong parent is denied, deleted and rebuilt in the same pass. -/
def regroup (c : Cand) : NetdM RegroupAction := do
  let group ← (if c.s.shared then groupClassFor c.s.entitlementID else pure none)
  if c.s.shared && group.isNone then return .none
  match ← bothDevices readClassesForPass c.s.bridge with
  | none => return .none
  | some (down, up) =>
    if !wrongParent down c.minor group && !wrongParent up c.minor group then return .none
    if maxRegroupsPerPass ≤ (← get).pass.regroups then
      modifyMem fun m => { m with regroupsDeferred := m.regroupsDeferred + 1 }
      return .none
    -- Without its class the device would forward unshaped and uncounted, so it is denied first.
    if ← denyAccess c.addr then return .failed
    deleteSession c.s.bridge c.minor
    modifyPass fun p => { p with
      regroups := p.regroups + 1
      classes := Function.update (Function.update p.classes c.s.bridge none) (ifbName c.s.bridge) none }
    return .rebuild

/-- `EnsureGroupClass` on both devices: what failed, if anything. -/
def ensureGroups (s : Session) (group : Nat) : NetdM (Option Cause) := do
  if ← ensureGroupClass ⟨s.bridge, group⟩ s.downKbps then return some .groupDownload
  if ← ensureGroupClass ⟨ifbName s.bridge, group⟩ s.upKbps then return some .groupUpload
  return none

/-- `reRateGroup`: the group of a SHARED session, re-rated once per pass; `error` when it failed. -/
def reRateGroup (s : Session) : NetdM (Except Cause (Option Nat)) := do
  if !s.shared then return .ok none
  match ← groupClassFor s.entitlementID with
  | none => return .error .noEntitlement
  | some g =>
    if ((← get).pass.groups ⟨s.bridge, g⟩).isSome then return .ok (some g)
    match ← ensureGroups s g with
    | some why => return .error why
    | none =>
      modifyPass fun p => { p with groups := Function.update p.groups ⟨s.bridge, g⟩ (some ()) }
      return .ok (some g)

/-- `minorOwner[minorKey(bridge, minor)] = session`. -/
def ownMinor (s : Session) (minor : Nat) : NetdM Unit := modifyMem fun m => { m with
  minorOwner := Function.update m.minorOwner ⟨s.bridge, minor⟩ (some s.sessionID) }

/-- What `provisionTail` finds of a class it holds. -/
inductive Held where
  | present
  | lost
  | failed

/-- The class of an active session: read on both devices and under the right parent. -/
def heldClass (c : Cand) : NetdM Held := do
  match ← bothDevices readClassesForPass c.s.bridge with
  | none => return .lost
  | some (down, up) =>
    if !(hasMinor down c.minor && hasMinor up c.minor) then return .lost
    match ← regroup c with
    | .none => return .present
    | .rebuild => return .lost
    | .failed => return .failed

/-- The re-rate of an active class: nothing is written when the class is installed as the plan asks. -/
def reRate (c : Cand) : NetdM (Option Cause) := do
  match ← reRateGroup c.s with
  | .error why => return some why
  | .ok group =>
    let batched := (← get).pass.batched
    let same ← (if batched then installedMatchesPlan c.s c.minor group else pure false)
    if same then return none
    if ← reRateSessionIn c.s.bridge c.minor c.s.downKbps c.s.upKbps group then return some .reRate
    return none

/-- The end of `provisionTail` for a session durable state has ended. -/
def endActive (c : Cand) : NetdM Unit := do
  endClosed c.addr c.s.sessionID .durableEnded
  endSeries c.key

/-- The end of `provisionTail` for an activation that was never proven. -/
def failActive (c : Cand) : NetdM Unit := do
  failClosed c.addr c.s.sessionID .neverProven
  endSeries c.key

/-- The first half of `provisionTail`: re-rate and renew a class that is in force. -/
def renewActive (c : Cand) (epoch nowBoot : Nat) (view : GateView) (now : Nat) : NetdM Unit := do
  match ← reRate c with
  | some why => failSession c.s.sessionID why
  | none =>
    ownMinor c.s c.minor
    match ← proveActive c.key epoch nowBoot with
    | .ended => endActive c
    | .failed =>
      failSession c.s.sessionID .unproven
      failActive c
    | .unproven =>
      failSession c.s.sessionID .unproven
      let _ ← assertLease c (provisionalOrLess c.lease) view
    | .proven => renewLease c c.lease view now

/-- The memory of `completeAdmission`: the class is managed from here on. -/
def Mem.manage (m : Mem) (c : Cand) (epoch : Nat) : Mem :=
  { m with
    minorOwner := Function.update m.minorOwner ⟨c.s.bridge, c.minor⟩ (some c.s.sessionID)
    epochs := Function.update m.epochs c.key (some epoch)
    classes := m.classes.insert c.key ⟨c.s.sessionID, c.s.deviceID, c.s.bridge, c.minor, epoch, m.bootID⟩
    pending := Function.update m.pending c.key none }

def manageClass (c : Cand) (epoch : Nat) : NetdM Unit := modify fun w => { w with
  mem := w.mem.manage c epoch
  log := .admitted c.key epoch :: w.log }

/-- `completeAdmission`: record the class, prove the session active, give it its full lease. -/
def completeAdmission (c : Cand) (epoch : Nat) (view : GateView) (now : Nat) : NetdM Unit := do
  manageClass c epoch
  match ← proveActive c.key epoch c.nowBoot with
  | .proven => renewLease c c.lease view now
  | .unproven => failSession c.s.sessionID .unproven
  | .ended => endActive c
  | .failed =>
    failSession c.s.sessionID .unproven
    failActive c

def originVerdict : Reply → Except Cause Unit
  | .ok => .ok ()
  | .ended => .error .durableEnded
  | .failed => .error .originRefused

def registerOrigin (s : Session) : NetdM (Except Cause Unit) := do
  if s.deviceID = [] then return .error .originNoDevice
  let up ← readClasses (ifbName s.bridge)
  let down ← readClasses s.bridge
  if up.isNone || down.isNone then return .error .originUnreadable
  return originVerdict (← registerClassOrigin)

/-- The generation of a new class: a pending one is reused, so a retry does not re-baseline. -/
def pendingEpoch (k : Key) : NetdM (Option Nat) := do
  match (← get).mem.pending k with
  | some e => return some e
  | none =>
    match ← allocEpoch with
    | none => return none
    | some e =>
      modifyMem fun m => { m with pending := Function.update m.pending k (some e) }
      return some e

/-- End the series of a previous occupant of the slot. -/
def endPrevious (s : Session) (minor : Nat) : NetdM Unit := do
  match (← get).mem.minorOwner ⟨s.bridge, minor⟩ with
  | none => return ()
  | some prev => if prev ≠ s.sessionID then endSeries ⟨s.bridge, prev⟩

/-- The group a new class goes under; `error` when the SHARED group is missing or not installed. -/
def admissionGroup (s : Session) : NetdM (Except Cause (Option Nat)) := do
  if !s.shared then return .ok none
  match ← groupClassFor s.entitlementID with
  | none => return .error .noEntitlement
  | some g =>
    match ← ensureGroups s g with
    | some why => return .error why
    | none => return .ok (some g)

/-- A registration that did not happen: the session ended meanwhile, or it fails closed. -/
def originFailed (c : Cand) (why : Cause) : NetdM Unit := do
  if why = .durableEnded then
    endClosed c.addr c.s.sessionID .durableEnded
    dropEnded c.key
  else failClosed c.addr c.s.sessionID why

/-- The write-ahead record and the provisional authorization of a new class, verified. -/
def authorizeProvisionally (c : Cand) (nowBoot : Nat) : NetdM (Option Cause) := do
  if ← beginAttempt c.key nowBoot then return some .attemptNotDurable
  if ← authorize ⟨c.key, c.addr, provisionalOrLess c.lease⟩ then return some .authorize
  if (← authorized c.addr) != some true then return some .authorizeUnverified
  return none

/-- Post-activation verification: both filters and both classes are read. -/
def verifyActivation (c : Cand) : NetdM Bool := do
  let fw ← forwarding c.s.bridge
  match ← bothDevices readClasses c.s.bridge with
  | none => return false
  | some (down, up) => return fw c.minor && hasMinor down c.minor && hasMinor up c.minor

/-- The second half of `provisionTail`: the staged admission of a new class. -/
def admitSession (c : Cand) (nowBoot : Nat) (view : GateView) (now : Nat) : NetdM Unit := do
  match ← pendingEpoch c.key with
  | none => failSession c.s.sessionID .noGeneration
  | some epoch =>
    endPrevious c.s c.minor
    match ← admissionGroup c.s with
    | .error why => failClosed c.addr c.s.sessionID why
    | .ok group =>
      if ← prepareSessionIn c.s.bridge c.minor c.s.downKbps c.s.upKbps group then
        failClosed c.addr c.s.sessionID .prepare
      else
        match ← registerOrigin c.s with
        | .error why => originFailed c why
        | .ok () =>
          if ← activateSession c.s.bridge c.minor c.addr.ip then
            failClosed c.addr c.s.sessionID .activate
          else if !(← verifyActivation c) then failClosed c.addr c.s.sessionID .postActivation
          else
            match ← authorizeProvisionally c nowBoot with
            | some why => failClosed c.addr c.s.sessionID why
            | none => completeAdmission c epoch view now

/-- `provisionTail`: re-rate or renew an active class, or admit a new one. -/
def provisionTail (c : Cand) (view : GateView) (now : Nat) : NetdM Unit := do
  -- In a batched pass the checks ran earlier; the clock the bound is measured on is read again.
  let batched := (← get).pass.batched
  match ← (if batched then bootNow else pure (some c.nowBoot)) with
  | none => failClosed c.addr c.s.sessionID .clockUnreadable
  | some nowBoot =>
    let m := (← get).mem
    match m.epochs c.key with
    | none => admitSession c nowBoot view now
    | some epoch =>
      if (m.classes.lookup c.key).isNone then admitSession c nowBoot view now
      else
        match ← heldClass c with
        | .present => renewActive c epoch nowBoot view now
        | .failed => failSession c.s.sessionID .regroup
        | .lost =>
          -- The kernel lost the class: its successor gets a fresh generation.
          endSeries c.key
          admitSession c nowBoot view now

def provisionSession (minor : Nat) (c : Wanted) (view : GateView) (now : Nat) : NetdM Unit := do
  match ← provisionPrecheck minor c now with
  | none => return ()
  | some c => provisionTail c view now

end StayConnect.Netd
