import StayConnect.Netd.Claims

/-!
# The pass

`reconcileLocked` (`phase3_shaping.go`) with `phase3_groups.go`: teardown, the removal of stray
authorizations and stray classes, the legacy set, SHARED group slots, shaping, and the durable
class inventory.
-/

namespace StayConnect.Netd

open Framing

/-- Forget a torn session's slot and managed class, and count it. -/
def forgetTorn (nets : Bytes → List Subnet) (s : Session) (a : Addr) : NetdM Unit := do
  modifyMem fun m => { m with
    minorOwner := match minorFor nets a with
      | some minor => Function.update m.minorOwner ⟨s.bridge, minor⟩ none
      | none => m.minorOwner
    classes := m.classes.erase s.key }
  modifyPass fun p => { p with res := { p.res with tornDown := p.res.tornDown + 1 } }

/-- A session whose address the plan hands to a newer one: only the durable half runs. -/
def handOver (s : Session) : NetdM (List Key) := do
  if ((← get).mem.endedTorn s.key).isSome then return [s.key]
  endSeries s.key
  let recorded ← queueEnd s.key
  modifyMem fun m => { m with classes := m.classes.erase s.key }
  modifyPass fun p => { p with res := { p.res with tornDown := p.res.tornDown + 1 } }
  return if recorded then [s.key] else []

/-- The per-session teardown: deny first, so a failed class delete cannot leave a guest online. -/
def tearSession (nets : Bytes → List Subnet) (s : Session) (a : Addr) : NetdM (List Key) := do
  if ← denyAccess a then
    fail (.tearNotRemoved s.sessionID)
    return []
  match minorFor nets a with
  | some minor => deleteSession s.bridge minor
  | none => pure ()
  let recorded ← markEnded
  forgetTorn nets s a
  return if recorded then [s.key] else []

/-- The teardown of one session: its key when it stays recorded as torn, or the work left to `tearBatch`. -/
def tearOne (desired : Table Slot Wanted) (s : Session) : NetdM (List Key × List (Session × Addr)) := do
  let w ← get
  match w.env.parseIP s.ip with
  | none =>
    fail (.tearUnusable s.sessionID)
    return ([], [])
  | some ip =>
    let a : Addr := ⟨s.bridge, ip⟩
    let next := (minorFor w.env.nets a).bind fun minor => desired.lookup ⟨s.bridge, minor⟩
    if next.any fun x => x.s.sessionID ≠ s.sessionID then return (← handOver s, [])
    if (w.mem.endedTorn s.key).isSome then return ([s.key], [])
    endSeries s.key
    if w.pass.batched then return ([], [(s, a)])
    return (← tearSession w.env.nets s a, [])

/-- The teardown loop: the keys that stay recorded as torn, and the sessions left to `tearBatch`. -/
def tearAll (desired : Table Slot Wanted) : List Session → NetdM (List Key × List (Session × Addr))
  | [] => return ([], [])
  | s :: rest => do
    let (torn, batch) ← tearOne desired s
    let (torns, batches) ← tearAll desired rest
    return (torn ++ torns, batch ++ batches)

/-- The tc half of `tearBatch`: one batch per bridge; the bridges whose batch did not run. -/
def tearClasses (nets : Bytes → List Subnet) (items : List (Session × Addr)) : NetdM (List Bytes) := do
  let failed ← (sortedBytes (items.map (·.1.bridge))).mapM fun b => do
    let minors := (items.filter (·.1.bridge = b)).filterMap fun it => minorFor nets it.2
    return if ← deleteClassesBatch b minors then some b else none
  return failed.reduceOption

/-- `tearBatch`: every denial proven in one transaction, then every class removed. -/
def tearBatch (items : List (Session × Addr)) : NetdM Unit := do
  if items = [] then return ()
  let nets := (← get).env.nets
  let errs ← denyBatch (items.map (·.2))
  let denied := (items.zip errs).filter (!·.2)
  let broken ← tearClasses nets (denied.map (·.1))
  (items.zip errs).forM fun it => do
    let s := it.1.1
    if it.2 then fail (.tearNotRemoved s.sessionID)
    else if s.bridge ∈ broken then fail (.tearCleanup s.sessionID)
    else
      let _ ← queueEnd s.key
      forgetTorn nets s it.1.2

/-- The address of an element is not the one the plan wants on its class. -/
def isStray (nets : Bytes → List Subnet) (desired : Table Slot Wanted) (a : Addr) : Bool :=
  match minorFor nets a with
  | none => false
  | some minor => !(desired.lookup ⟨a.bridge, minor⟩).any (·.addr = a)

def countStrays (n : Nat) : NetdM Unit := modifyPass fun p => { p with
  res := { p.res with straysRemoved := p.res.straysRemoved + n } }

/-- The outcome of one stray removal. -/
def strayRemoved (view : GateView) (a : Addr) (err : Bool) : NetdM GateView := do
  if err then
    fail (.strayAuthorization a)
    return view
  countStrays 1
  return view.delete a

/-- Step 2a: remove the authorizations the plan does not claim (`removeStrayAuthorizations` when
batched). -/
def sweepAuthorizations (desired : Table Slot Wanted) : NetdM GateView := do
  let view ← snapshotGate
  let w ← get
  match view.byKey with
  | none =>
    fail .scanFailed
    return view
  | some els =>
    let strays := els.keys.filter (isStray w.env.nets desired)
    if w.pass.batched then
      let errs ← denyBatch strays
      (strays.zip errs).foldlM (fun v e => strayRemoved v e.1 e.2) view
    else
      strays.foldlM (fun v a => do strayRemoved v a (← denyAccess a)) view

/-- A removed stray class ends the series of the session netd remembers on it. -/
def strayClassGone (bridge : Bytes) (minor : Nat) : NetdM Unit := do
  match (← get).mem.minorOwner ⟨bridge, minor⟩ with
  | some owner => endSeries ⟨bridge, owner⟩
  | none => pure ()
  modifyMem fun m => { m with minorOwner := Function.update m.minorOwner ⟨bridge, minor⟩ none }
  countStrays 1

def cacheClasses (device : Bytes) (cs : List (Nat × Class)) : NetdM Unit :=
  modifyPass fun p => { p with classes := Function.update p.classes device (some cs) }

/-- `removeStrayClasses`: one tc batch, proven by one read. -/
def removeStrayClasses (bridge : Bytes) (minors : List Nat) : NetdM Unit := do
  if minors = [] then return ()
  if ← deleteClassesBatch bridge minors then
    minors.forM fun m => fail (.strayClass bridge m)
  else
    match ← readClasses bridge with
    | none => minors.forM fun m => fail (.strayClass bridge m)
    | some down =>
      cacheClasses bridge down
      minors.forM fun m => do
        if hasMinor down m then fail (.strayClass bridge m) else strayClassGone bridge m

/-- Step 2b for one bridge: everything installed that the plan does not claim. -/
def sweepClasses (desired : Table Slot Wanted) (bridge : Bytes) : NetdM Unit := do
  match ← readClasses bridge with
  | none => fail (.strayScan bridge)
  | some installed =>
    cacheClasses bridge installed
    let strays := ((installed.map (·.1)).filter fun m =>
      isGuestMinor m && (desired.lookup ⟨bridge, m⟩).isNone).insertionSort (· ≤ ·)
    if (← get).pass.batched then removeStrayClasses bridge strays
    else strays.forM fun m => do
      if ← deleteSessionClass bridge m then fail (.strayClass bridge m) else strayClassGone bridge m

/-- Step 2c: the legacy set is drained to empty. -/
def drainLegacy : NetdM Unit := do
  let n ← call
  let w ← get
  countStrays (w.env.drained n)
  if (w.env.outcome n 0).err then fail .legacyNotDrained

/-- The places of each SHARED entitlement among the desired sessions. -/
def sharedPlaces (trim : Bytes → Bytes) (desired : Table Slot Wanted) : List (Bytes × Slot) :=
  desired.entries.filterMap fun e =>
    let id := trim e.2.s.entitlementID
    if e.2.s.shared && id ≠ [] then some (id, e.1) else none

/-- The group an installed class hangs under (`groupMinorOf` of its parent). -/
def installedGroup (slot : Slot) : NetdM (Option Nat) := do
  match ← readClassesForPass slot.device with
  | none => return none
  | some cs =>
    return ((cs.lookup slot.minor).filter (·.params)).bind fun c => c.parent.filter isGroupMinor

/-- A group claimed by an entitlement whose sessions already hang under it. -/
structure GroupClaim where
  id : Bytes
  minor : Nat
  n : Nat

/-- More sessions first, then by id and minor. -/
def GroupClaim.le (a b : GroupClaim) : Bool :=
  b.n < a.n || (a.n == b.n && (bytesLe a.id b.id && (a.id != b.id || a.minor ≤ b.minor)))

/-- The claims of the parents found, one for each entitlement and group. -/
def groupClaims (found : List (Bytes × Nat)) : List GroupClaim :=
  (found.dedup.map fun p => ⟨p.1, p.2, found.count p⟩).insertionSort fun a b => a.le b = true

def slotFree (slots : Table Bytes Nat) (minor : Nat) : Bool := !slots.entries.any fun e => e.2 == minor

/-- Probe for the next free group minor from the hash on. -/
def probeSlot (slots : Table Bytes Nat) (start : Nat) : Nat → Option Nat
  | 0 => none
  | fuel + 1 =>
    let span := groupMinorMax - groupMinorBase + 1
    let m := groupMinorBase + (start - groupMinorBase + (span - (fuel + 1))) % span
    if slotFree slots m then some m else probeSlot slots start fuel

/-- Adopt an installed group where it is free. -/
def adoptSlot (slots : Table Bytes Nat) (c : GroupClaim) : Table Bytes Nat :=
  if (slots.lookup c.id).isNone && slotFree slots c.minor then slots.insert c.id c.minor else slots

/-- Give an entitlement without a group the next free one. -/
def giveSlot (slots : Table Bytes Nat) (id : Bytes) : Table Bytes Nat :=
  if (slots.lookup id).isSome then slots
  else
    match (groupMinorFor id).bind fun start => probeSlot slots start (groupMinorMax - groupMinorBase + 1) with
    | some m => slots.insert id m
    | none => slots

/-- The slots of the entitlements still in the plan. -/
def keepSlots (slots : Table Bytes Nat) (ids : List Bytes) : Table Bytes Nat :=
  (slots.keys.filter (· ∉ ids)).foldl (fun t id => t.erase id) slots

/-- `assignGroups`: once per walk, before any session is shaped. -/
def assignGroups (desired : Table Slot Wanted) : NetdM Unit := do
  let w ← get
  let places := sharedPlaces w.env.trim desired
  let ids := places.map (·.1)
  let kept := keepSlots w.mem.groupSlots ids
  let found ← (places.filter fun p => (kept.lookup p.1).isNone).mapM fun (p : Bytes × Slot) => do
    return (← installedGroup p.2).map fun g => (p.1, g)
  let adopted := (groupClaims found.reduceOption).foldl adoptSlot kept
  let slots := (sortedBytes ids).foldl giveSlot adopted
  modifyMem fun m => { m with groupSlots := slots }

/-- Step 3 for one bridge. -/
def shapeBridge (desired : Table Slot Wanted) (view : GateView) (now : Nat) (bridge : Bytes) : NetdM Unit := do
  let sessions := byMinor desired bridge
  if sessions = [] then return ()
  if ← ensureBridgeInfra bridge then fail (.bridgeInfra bridge)
  else if (← get).pass.batched then provisionBridgeBatched bridge sessions view now
  else sessions.forM fun x => provisionSession x.1 x.2 view now

/-- `snapshot`: the managed classes as they are persisted. -/
def Mem.snapshot (m : Mem) : ClassState :=
  ⟨m.mode.tenantID, m.mode.siteID, m.mode.applianceID, m.bootID, m.classes⟩

/-- The durable class inventory, written after convergence. -/
def saveClasses : NetdM Unit := do
  if ← perform fun w => { w with disk.classState := some w.mem.snapshot } then
    fail .classStateNotWritten
    modifyMem fun m => { m with unprovenUnknown := true, classSaveFailed := true }
  else if (← get).mem.classSaveFailed then
    modifyMem fun m => { m with classSaveFailed := false, unprovenUnknown := m.journalUnreadable }

/-- The start of a pass: the caches are empty and memories of lapsed leases are dropped. -/
def beginPass (now : Nat) : NetdM Unit := do
  let n ← call
  modify fun w => { w with
    pass := { w.pass with
      res := {}, batched := !w.mem.noBatch, denies := [], renew := ∅, ends := []
      activations := fun _ => none, renewed := fun _ => none, walkRenewable := ∅
      classes := fun _ => none, groupClasses := fun _ => none, groups := fun _ => none, regroups := 0
      retired := w.env.retired n }
    mem := { w.mem with
      leaseMem := fun k => (w.mem.leaseMem k).filter fun l => now < l.lapses }
    log := .began :: w.log }

/-- The claims of a plan under the bridges and networks netd knows of. -/
def claimCtx (w : World) (env : Envelope) : ClaimCtx :=
  { parseIP := w.env.parseIP, nets := w.env.nets, retired := w.pass.retired
    bridges := declaredBridges env, shared := (sharedUploads (declaredBridges env)).shared }

/-- Steps 1 and 2: what the plan asks for, teardown and the sweeps. -/
def clearAway (env : Envelope) : NetdM (Table Slot Wanted × GateView) := do
  let w ← get
  let uploads := sharedUploads (declaredBridges env)
  let claims := claimsOf (claimCtx w env) env.sessions
  modifyPass fun p => { p with res := { p.res with
    failed := p.res.failed + uploads.problems.length + claims.failures
    problems := p.res.problems ++ uploads.problems ++ claims.problems } }
  claims.removed.forM fun s => do
    let _ ← queueEnd s.key
    endSeries s.key
  let (torn, batch) ← tearAll claims.desired claims.tear
  tearBatch batch
  modifyMem fun m => { m with endedTorn := fun k => if k ∈ torn then some () else none }
  let view ← sweepAuthorizations claims.desired
  (declaredBridges env).forM (sweepClasses claims.desired)
  drainLegacy
  return (claims.desired, view)

/-- Step 3: shape what must be forwarded, and leave nothing queued. -/
def shapeAll (env : Envelope) (desired : Table Slot Wanted) (view : GateView) (now : Nat) : NetdM Unit := do
  modifyMem fun m => { m with regroupsDeferred := 0 }
  assignGroups desired
  (declaredBridges env).forM (shapeBridge desired view now)
  if (← get).pass.batched then
    flushDenies
    flushBoth
    finishEnds

/-- The rest of the pass: shaping, the inventory, and the response. -/
def shapeAndSave (env : Envelope) (desired : Table Slot Wanted) (view : GateView) (now : Nat) : NetdM Response := do
  shapeAll env desired view now
  saveClasses
  modifyPass fun p => { p with res := { p.res with degraded := 0 < p.res.failed } }
  return (← get).pass.res

def reconcileLocked (env : Envelope) (now : Nat) : NetdM Response := do
  beginPass now
  let (desired, view) ← clearAway env
  shapeAndSave env desired view now

end StayConnect.Netd
