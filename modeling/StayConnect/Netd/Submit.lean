import StayConnect.Netd.Continuity

/-!
# Admission of a plan

`shapeplan.Validate`, `submit` (`phase3_shaping.go`), the fast path and the lease timer
(`phase3_fastpath.go`), the two revocation requests (`flows.go`, `phase3_continuity_http.go`) and the
start of netd (`main.go`).
-/

namespace StayConnect.Netd

open Framing

/-- Why a plan is refused: the reasons of `shapeplan` and those of `submit`. -/
inductive Reason where
  | unsupportedContract
  | wrongTenant
  | wrongSite
  | wrongAppliance
  | staleAssignment
  | invalidGeneration
  | expiredPlan
  | noManagedBridges
  | hashMismatch
  | badBridgeName
  | staleGeneration
  | generationConflict
  | superseded
  | phase3Dark
  | planValidityTooLong

def contractVersion : Bytes := "phase3-shaping/2".toList

def maxPlanValidity : Nat := 10 * 60 * 1000

/-- A letter or a digit of an interface name. -/
def isNameChar (c : Char) : Bool :=
  ('a' ≤ c && c ≤ 'z') || ('A' ≤ c && c ≤ 'Z') || ('0' ≤ c && c ≤ '9')

def validBridgeName (b : Bytes) : Bool :=
  b != [] && b.length ≤ 15 &&
    b.zipIdx.all fun p => isNameChar p.1 || ((p.1 == '.' || p.1 == '_' || p.1 == '-') && 0 < p.2)

/-- What `Validate` asks of the record of the last plan. -/
def checkLast (env : Envelope) : Option Accepted → Except Reason Unit
  | none => .ok ()
  | some last =>
    if env.planGeneration < last.generation then .error .staleGeneration
    else if env.planGeneration = last.generation && env.desiredStateHash ≠ last.hash then
      .error .generationConflict
    else .ok ()

def validate (hash : List Bytes → List Session → Bytes) (env : Envelope) (scope : Mode)
    (last : Option Accepted) (now : Nat) : Except Reason Unit :=
  if env.contractVersion ≠ contractVersion then .error .unsupportedContract
  else if env.tenantID = [] || env.tenantID ≠ scope.tenantID then .error .wrongTenant
  else if env.siteID = [] || env.siteID ≠ scope.siteID then .error .wrongSite
  else if env.applianceID = [] || env.applianceID ≠ scope.applianceID then .error .wrongAppliance
  else if env.assignmentGen < scope.assignGen then .error .staleAssignment
  else if env.planGeneration ≤ 0 then .error .invalidGeneration
  else if env.expiresAt ≤ now then .error .expiredPlan
  else if env.managedBridges = [] then .error .noManagedBridges
  else if env.desiredStateHash ≠ hash env.managedBridges env.sessions then .error .hashMismatch
  else if env.managedBridges.any fun b => b != [] && !validBridgeName b then .error .badBridgeName
  else checkLast env last

/-- `noteArrival`: before the plan waits for the lock. -/
def noteArrival (gen : Int) : NetdM Unit := modifyMem fun m => { m with arrivedGen := max m.arrivedGen gen }

/-- The record of the last plan, from memory or after a restart from the file; `none` when the file
could not be read. -/
def lastPlan : NetdM (Option (Option Accepted)) := do
  match (← get).mem.lastAccepted with
  | some a => return some (some a)
  | none => query (·.disk.plan)

/-- The first half of `submit`: whether the plan is admitted, and then whether the replay guard could
not be read. -/
def admission (env : Envelope) (now : Nat) : NetdM (Except Reason Bool) := do
  let m := (← get).mem
  if env.planGeneration < m.arrivedGen then return .error .superseded
  if !m.mode.active then return .error .phase3Dark
  if now + maxPlanValidity < env.expiresAt then return .error .planValidityTooLong
  let last ← lastPlan
  match validate (← get).env.hashDesiredState env m.mode last.join now with
  | .error why => return .error why
  | .ok () => return .ok last.isNone

def phase3FullWalkEvery : Nat := 30000

def Mem.fastPathApplies (m : Mem) (env : Envelope) (now : Nat) : Bool :=
  m.fastPath && m.memo.clean && m.regroupsDeferred == 0 && env.desiredStateHash == m.memo.hash &&
    m.lastConverged.any (·.hash == env.desiredStateHash) &&
    m.memo.walkedAt ≤ now && now - m.memo.walkedAt < phase3FullWalkEvery

/-- The record of an admitted plan. -/
def Envelope.accepted (env : Envelope) (now : Nat) : Accepted :=
  ⟨env.planGeneration, env.desiredStateHash, env.tenantID, env.siteID, now, env.expiresAt⟩

def acceptPlan (env : Envelope) (now : Nat) : NetdM Unit :=
  modifyMem fun m => { m with lastAccepted := some (env.accepted now) }

/-- An unchanged plan: the answer of the last walk, nothing walked. -/
def acceptUnchanged (env : Envelope) (now : Nat) : NetdM Response := do
  let res := (← get).mem.memo.res
  acceptPlan env now
  return { res with problems := [], degraded := false }

/-- The pass reported nothing at all. -/
def Response.clean (r : Response) : Bool := !r.degraded && r.problems == [] && r.failed == 0

/-- A walked plan; the pass budget runs from when the lock was had. -/
def walkPlan (env : Envelope) (now locked : Nat) (unreadable : Bool) : NetdM Response := do
  let start ← monoNow
  modifyPass fun p => { p with start, deadline := locked + phase3PassTimeout }
  let res ← reconcileLocked env now
  let renewable := (← get).pass.walkRenewable
  modifyMem fun m => { m with memo := ⟨env.desiredStateHash, now, res.clean, res, renewable⟩ }
  acceptPlan env now
  return if unreadable then { res with degraded := true, problems := res.problems ++ [.storeUnreadable] } else res

/-- The plan is put in force, on the fast path or by a walk. -/
def enforcePlan (env : Envelope) (now locked : Nat) (unreadable : Bool) : NetdM Response := do
  record (.enforced env.planGeneration env.desiredStateHash)
  if !unreadable && (← get).mem.fastPathApplies env now then acceptUnchanged env now
  else walkPlan env now locked unreadable

/-- The end of `submit`: the record is saved, and convergence noted only when nothing failed. -/
def savePlan (env : Envelope) (now : Nat) (res : Response) : NetdM Response := do
  let err ← perform fun w => { w with disk.plan := some (env.accepted now) }
  let res := if err then { res with degraded := true, problems := res.problems ++ [.notSaved] } else res
  if !res.degraded then modifyMem fun m => { m with lastConverged := some (env.accepted now) }
  return res

def submit (env : Envelope) (now : Nat) : NetdM (Except Reason Response) := do
  let locked ← monoNow
  match ← admission env now with
  | .error why => return .error why
  | .ok unreadable =>
    let res ← enforcePlan env now locked unreadable
    let res ← savePlan env now res
    contNotePlan env now
    return .ok res

/-- The plan `renewDue` renews under: the fast path is in force. -/
def Mem.renewsUnder (m : Mem) : Option Accepted :=
  if m.fastPath && m.memo.clean then m.lastConverged.filter (·.hash == m.memo.hash) else none

/-- The lease the timer wants for a session, `none` when there is no whole second of it. -/
def RenewSession.want (r : RenewSession) (planLeft now : Nat) : Option Nat :=
  match leaseFor r.accessEnds now with
  | .error _ => none
  | .ok lease =>
    let want := wholeSeconds (min (min lease planLeft) (r.ownedUntil - now))
    if want < 1000 then none else some want

/-- The request of one remembered session: an element absent or unknown is written too. -/
def renewRequest (view : GateView) (planLeft now : Nat) (k : Key) (r : RenewSession) : Option GateLease :=
  (r.want planLeft now).bind fun want =>
    if leaseDue (view.lookup r.addr) want then some ⟨k, r.addr, want⟩ else none

def renewDue (now : Nat) : NetdM Unit := do
  match (← get).mem.renewsUnder with
  | none => return ()
  | some plan =>
    let planLeft := plan.expiresAt - now
    if planLeft < 1000 then return ()
    let view ← snapshotGate
    let renewable := (← get).mem.memo.renewable
    let _ ← authorizeBatch (renewable.entries.filterMap fun e => renewRequest view planLeft now e.1 e.2)

/-- The elements an `endFlows` request names. -/
def namesElement (ip : BitVec 32) (bridge : Bytes) (a : Addr) : Bool :=
  a.ip = .v4 ip && (bridge == [] || a.bridge == bridge)

/-- `endFlows`: `true` when a part of it failed. -/
def endFlows (ip : BitVec 32) (bridge : Bytes) (revokedAt : Nat) : NetdM Bool := do
  let text := (← get).env.ipText (.v4 ip)
  let jerr ← contRevoke { ip := text, bridge, revokedAt }
  let els ← gateList
  let errs ← ((els.getD []).map (·.1) |>.filter (namesElement ip bridge)).mapM denyAccess
  let flushErr ← perform id
  return jerr || els.isNone || errs.any id || flushErr

/-- `continuityRevoke`: the entries of one request. -/
def revocationsOf (sessionIDs entitlementIDs : List Bytes) (ip bridge : Bytes) (revokedAt : Nat) :
    List ContRevocation :=
  sessionIDs.map (fun id => { sessionID := id, revokedAt }) ++
  entitlementIDs.map (fun id => { entitlementID := id, revokedAt }) ++
  if ip = [] then [] else [{ ip := ip, bridge := bridge, revokedAt := revokedAt }]

/-- `continuityRevoke`, for a request whose form was accepted. -/
def continuityRevoke (sessionIDs entitlementIDs : List Bytes) (ip bridge : Bytes) (revokedAt : Nat) :
    NetdM Bool := do
  let errs ← (revocationsOf sessionIDs entitlementIDs ip bridge revokedAt).mapM contRevoke
  return errs.any id

/-- How netd is started. -/
structure Config where
  mode : Mode
  fastPath : Bool
  noBatch : Bool

/-- `kernelInventory`: the guest classes installed on the bridges, `none` when one is unreadable. -/
def kernelInventory : List Bytes → NetdM (Option (List Slot))
  | [] => return some []
  | b :: rest => do
    match ← readClasses b with
    | none => return none
    | some cs =>
      match ← kernelInventory rest with
      | none => return none
      | some more => return some (cs.map (fun c => ⟨b, c.1⟩) ++ more)

def bridgesIn (st : ClassState) : List Bytes := sortedBytes ((st.classes.entries.map (·.2.bridge)).filter (· ≠ []))

/-- One persisted class carried forward. -/
def restoreClass (k : Key) (c : ManagedClass) : NetdM Unit := modify fun w => { w with
  mem.classes := w.mem.classes.insert k c
  mem.epochs := Function.update w.mem.epochs ⟨c.bridge, c.sessionID⟩ (some c.epoch)
  mem.minorOwner := Function.update w.mem.minorOwner ⟨c.bridge, c.minor⟩ (some c.sessionID)
  log := .admitted ⟨c.bridge, c.sessionID⟩ c.epoch :: w.log }

/-- The persisted inventory belongs to another appliance. -/
def ClassState.foreign (st : ClassState) (mode : Mode) : Bool :=
  st.tenantID != [] && (st.tenantID != mode.tenantID || st.siteID != mode.siteID || st.applianceID != mode.applianceID)

/-- `restore`: only classes whose slot is installed and whose boot is unchanged. -/
def restoreClasses (bootID : Bytes) : NetdM Unit := do
  match (← query (·.disk.classState)).join with
  | none => return ()
  | some st =>
    match ← kernelInventory (bridgesIn st) with
    | none => return ()
    | some installed =>
      if st.foreign (← get).mem.mode || bootID = [] || st.bootID ≠ bootID then return ()
      (st.classes.entries.filter fun e => ⟨e.2.bridge, e.2.minor⟩ ∈ installed).forM fun e => restoreClass e.1 e.2

def JournalState.belongs (trim : Bytes → Bytes) (st : JournalState) (mode : Mode) : Bool :=
  [(mode.tenantID, st.tenantID), (mode.siteID, st.siteID), (mode.applianceID, st.applianceID)].all
    fun p => trim p.1 != [] && trim p.2 == trim p.1

/-- The quarantine of a journalled attempt. -/
def Attempt.quarantine (a : Attempt) : Quarantine :=
  { bootID := a.bootID, began := a.began, deadline := a.deadline, backoffUntil := a.backoffUntil, strikes := a.strikes }

/-- `load` of the activation journal: `none` when it cannot be trusted. -/
def loadAttempts : NetdM (Option (List Attempt)) := do
  match ← query (·.disk.journal) with
  | none => return none
  | some none => return some []
  | some (some st) =>
    let w ← get
    if st.belongs w.env.trim w.mem.mode && validateAttempts w.env.trim st.attempts then return some st.attempts
    return none

def restoreAttempts : NetdM Unit := do
  let loaded ← loadAttempts
  let unreadable := loaded.isNone
  modifyMem fun m => { m with
    quarantined := (loaded.getD []).foldl (fun t a => t.insert a.key a.quarantine) ∅
    unprovenUnknown := unreadable, journalUnreadable := unreadable, classSaveFailed := false }

/-- netd starts: memory is empty but for what the files give back. -/
def restart (cfg : Config) : NetdM Unit := do
  modify fun w => { w with
    mem := { mode := cfg.mode, fastPath := cfg.fastPath, noBatch := cfg.noBatch }
    pass := {}, tick := .idle }
  let bootID := (← currentBootID).getD []
  modifyMem fun m => { m with bootID }
  restoreClasses bootID
  restoreAttempts
  contRestore

end StayConnect.Netd
