import StayConnect.Netd.Reconcile

/-!
# Outage continuity

`phase3_continuity.go` and `shapeplan/continuity.go`: what netd keeps of a plan's continuity block,
the revocation journal, and the tick that keeps authorizations alive when plans stop. Deadlines are
boot times. The tick is three steps, because netd's lock is free while the database is asked and
while the tick waits for it after reading its clock.
-/

namespace StayConnect.Netd

open Framing

def contTakeoverAge : Nat := 60000
def contSampleEvery : Nat := 30000
def contSampleKeep : Nat := 12
def contSaveEvery : Nat := 15000
def contBaselineSlack : Nat := 5000
def contRevokeKeep : Nat := 4 * 60 * 60 * 1000
def contRevokeMax : Nat := 4096
def maxContinuityWindowSeconds : Nat := 7200
def maxBudgetAge : Nat := 120000

def modifyCont (f : Continuity → Continuity) : NetdM Unit :=
  modifyMem fun m => { m with cont := f m.cont }

def saveState : NetdM Unit := do
  match (← get).mem.cont.st with
  | none => return ()
  | some st =>
    if !(← perform fun w => { w with disk.contState := some st }) then
      let now ← monoNow
      modifyCont fun c => { c with lastSaved := some now, dirty := false }

/-- `time.Since(c.lastSaved) >= contSaveEvery`. -/
def saveDue : NetdM Bool := do
  let w ← get
  return w.mem.cont.lastSaved.all fun t => contSaveEvery ≤ w.clock - t

def removeState : NetdM Unit := do
  modifyCont fun c => { c with st := none }
  let _ ← perform fun w => { w with disk.contState := none }

def saveJournal : NetdM Bool := perform fun w => { w with disk.contJournal := w.mem.cont.journal }

def newest (n : Nat) {α : Type} (l : List α) : List α := l.drop (l.length - n)

def pruneJournal (journal : List ContRevocation) (now asOf : Nat) : List ContRevocation :=
  newest contRevokeMax (journal.filter fun e => now ≤ e.revokedAt + contRevokeKeep && asOf ≤ e.revokedAt)

/-- One entry names the session. -/
def ContRevocation.names (e : ContRevocation) (s : ContSess) : Bool :=
  (e.sessionID != [] && e.sessionID == s.sessionID) ||
  (e.entitlementID != [] && e.entitlementID == s.entitlementID) ||
  (e.ip != [] && e.ip == s.ip && (e.bridge == [] || e.bridge == s.bridge))

def revokedBy (journal : List ContRevocation) (s : ContSess) : Bool := journal.any (·.names s)

/-- `drop`: what the session used stays on its entitlement's account. -/
def ContState.drop (st : ContState) (k : Key) : ContState :=
  match st.sessions.lookup k with
  | none => st
  | some s =>
    { st with
      sessions := st.sessions.erase k
      budgets := match s.base, st.budgets.lookup s.entitlementID with
        | some _, some b => st.budgets.insert s.entitlementID { b with gone := b.gone + s.lastUsed }
        | _, _ => st.budgets }

def dropSession (k : Key) : NetdM Unit := modifyCont fun c =>
  { c with st := c.st.map (·.drop k), dirty := true }

def ContState.hasBudgets (st : ContState) : Bool := st.budgets.entries.any fun e => !e.2.exhausted

/-- `classCounters` for one bridge. -/
def countersOn (b : Bytes) : NetdM (Option (Map Key ContCount)) := do
  match ← bothDevices readClasses b with
  | none => return none
  | some (down, up) =>
    let classes := (← get).mem.classes
    return some fun k => (classes.lookup k).bind fun mc =>
      if mc.bridge ≠ b then none
      else match down.lookup mc.minor, up.lookup mc.minor with
        | some d, some u => some ⟨mc.epoch, d.bytes + u.bytes⟩
        | _, _ => none

/-- `classCounters`: down and up counters of every managed class. -/
def countersOf : List Bytes → NetdM (Option (Map Key ContCount))
  | [] => return some fun _ => none
  | b :: rest => do
    match ← countersOn b with
    | none => return none
    | some here =>
      match ← countersOf rest with
      | none => return none
      | some there => return some fun k => (here k).or (there k)

def managedBridges : NetdM (List Bytes) := do
  return sortedBytes ((← get).mem.classes.entries.map (·.2.bridge))

/-- The metering of one session: a counter that went backwards counts in full. -/
def ContSess.meter (s : ContSess) (cur : Option ContCount) : ContSess :=
  match s.base, cur with
  | some base, some c =>
    if c.epoch ≠ s.epoch then s
    else { s with lastUsed := max s.lastUsed (if base ≤ c.bytes then c.bytes - base else c.bytes) }
  | _, _ => s

def meterAt (counters : Map Key ContCount) (t : Table Key ContSess) (k : Key) : Table Key ContSess :=
  match t.lookup k with
  | some s => t.insert k (s.meter (counters k))
  | none => t

def ContState.meter (st : ContState) (counters : Map Key ContCount) : ContState :=
  { st with sessions := st.sessions.keys.foldl (meterAt counters) st.sessions }

def contRefreshUsage : NetdM (Option (Map Key ContCount)) := do
  match (← get).mem.cont.st with
  | none => return none
  | some st =>
    if !st.hasBudgets then return none
    match ← countersOf (← managedBridges) with
    | none => return none
    | some counters =>
      modifyCont fun c => { c with st := c.st.map (·.meter counters) }
      return some counters

/-- Deny the address of a session the record no longer keeps. -/
def denySession (s : ContSess) : NetdM Unit := do
  match (← get).env.parseIP s.ip with
  | none => return ()
  | some ip =>
    let _ ← denyAccess ⟨s.bridge, ip⟩

def contSessions : NetdM (List (Key × ContSess)) := do
  return ((← get).mem.cont.st.map fun st => st.sessions.entries.map fun e => (e.1, e.2)).getD []

/-- `contRevoke`: journal first, then drop and deny what the entry names; `true` when the journal
could not be written. -/
def contRevoke (e : ContRevocation) : NetdM Bool := do
  modifyCont fun c => { c with journal := newest contRevokeMax (c.journal ++ [e]) }
  let jerr ← saveJournal
  let _ ← contRefreshUsage
  let journal := (← get).mem.cont.journal
  ((← contSessions).filter fun x => revokedBy journal x.2).forM fun x => do
    dropSession x.1
    denySession x.2
  return jerr

def ContinuityBlock.isOff (hash : ContinuityBlock → Bytes) (b : ContinuityBlock) : Bool :=
  b.windowSeconds == 0 && b.sessions == [] && b.budgets == [] && b.contentsHash == hash b

/-- `ValidateContinuity`. -/
def ContinuityBlock.valid (hash : ContinuityBlock → Bytes) (b : ContinuityBlock) (now : Nat) : Bool :=
  0 < b.windowSeconds && b.windowSeconds ≤ maxContinuityWindowSeconds && b.contentsHash == hash b &&
    b.asOf ≤ now + 30000 && now ≤ b.asOf + maxBudgetAge

/-- `baselineAt`: the latest sample taken at or shortly after `asOf`. -/
def baselineAt (samples : List ContSample) (asOf : Nat) : Option ContSample :=
  (samples.filter fun s => s.takenAt ≤ asOf + contBaselineSlack).getLast?

/-- How long the session may be kept: the window, the block's hard end, the plan's own boundary. -/
def contRemaining (b : ContinuityBlock) (hardEnd accessEndsAt : Option Nat) (now : Nat) : Nat :=
  [hardEnd, accessEndsAt].reduceOption.foldl (fun rem e => min rem (e - now)) (b.windowSeconds.toNat * 1000)

/-- The baseline of a budgeted session: `none` when it cannot be metered from a known point. -/
def contBase (sample : Option ContSample) (k : Key) (epoch : Nat) : Option Nat :=
  match sample with
  | none => none
  | some p =>
    match p.bytes k with
    | some b => some (if b.epoch = epoch then b.bytes else 0)
    -- Admitted after the sample: everything it ever carried counts.
    | none => if (p.classes k).isSome then none else some 0

/-- The record of one plan entry, if continuity may keep it. -/
def contSessOf (b : ContinuityBlock) (m : Mem) (nowBoot now : Nat) (s : Session) : Option ContSess :=
  if !s.entitled || s.ip = [] || s.entitlementID = [] then none
  else
    match b.sessions.reverse.find? (·.sessionID = s.sessionID), m.memo.renewable.lookup s.key,
      m.classes.lookup s.key with
    | some h, some _, some mc =>
      let rem := contRemaining b h.hardEnd s.accessEndsAt now
      let budgeted := b.budgets.any (·.entitlementID = s.entitlementID)
      let base := contBase (baselineAt m.cont.samples b.asOf) s.key mc.epoch
      let cs : ContSess :=
        { sessionID := s.sessionID, bridge := s.bridge, ip := s.ip, mac := s.mac
          entitlementID := s.entitlementID, minor := mc.minor, epoch := mc.epoch
          deadlineBoot := nowBoot + rem, base := if budgeted then base else none, lastUsed := 0 }
      if revokedBy m.cont.journal cs || rem < 1000 || (budgeted && base.isNone) then none else some cs
    | _, _, _ => none

/-- Add one plan entry to the record being built. -/
def ContState.note (b : ContinuityBlock) (st : ContState) (k : Key) (cs : ContSess) : ContState :=
  { st with
    sessions := st.sessions.insert k cs
    budgets := match b.budgets.reverse.find? (·.entitlementID = cs.entitlementID) with
      | some x => if (st.budgets.lookup cs.entitlementID).isSome then st.budgets
        else st.budgets.insert cs.entitlementID { remaining := x.remainingBytes }
      | none => st.budgets }

/-- A budget repeated under the same `AsOf` keeps what it was charged with. -/
def carryBudget (old t : Table Bytes ContBudget) (id : Bytes) : Table Bytes ContBudget :=
  match t.lookup id, old.lookup id with
  | some b, some o => t.insert id { b with gone := o.gone, exhausted := b.exhausted || o.exhausted }
  | _, _ => t

def ContState.spent (st : ContState) (k : Key) : Bool :=
  (st.sessions.lookup k).any fun s => (st.budgets.lookup s.entitlementID).any (·.exhausted)

/-- Some sessions of a record, dropped without touching any account. -/
def eraseSessions (t : Table Key ContSess) (ks : List Key) : Table Key ContSess :=
  ks.foldl (fun t k => t.erase k) t

/-- Under the same `AsOf` a budget keeps its account, and a spent one has no sessions. -/
def ContState.carry (st old : ContState) : ContState :=
  let st := { st with budgets := st.budgets.keys.foldl (carryBudget old.budgets) st.budgets }
  { st with sessions := eraseSessions st.sessions (st.sessions.keys.filter st.spent) }

/-- The record of an accepted block. -/
def contStateOf (env : Envelope) (b : ContinuityBlock) (m : Mem) (bootID : Bytes) (nowBoot now : Nat) :
    ContState :=
  let empty : ContState :=
    { tenantID := env.tenantID, siteID := env.siteID, applianceID := env.applianceID
      assignGen := env.assignmentGen, bootID, planGen := env.planGeneration, lastPlanBoot := nowBoot
      windowSec := b.windowSeconds, asOf := b.asOf, sessions := ∅, budgets := ∅ }
  let st := env.sessions.foldl (fun st s =>
    match contSessOf b m nowBoot now s with
    | some cs => st.note b s.key cs
    | none => st) empty
  match m.cont.st with
  | some old => if old.asOf = b.asOf then st.carry old else st
  | none => st

/-- `contNotePlan`: called after a plan was admitted, with the wall time `submit` began at. -/
def contNotePlan (env : Envelope) (now : Nat) : NetdM Unit := do
  match ← bootNow with
  | none => removeState
  | some nowBoot =>
    modifyCont fun c => { c with
      st := c.st.map fun st => { st with lastPlanBoot := nowBoot }
      dirty := c.dirty || c.st.isSome }
    match env.continuity with
    | none => return ()
    | some b =>
      let w ← get
      if b.isOff w.env.hashContinuity || !b.valid w.env.hashContinuity now then removeState
      else
        match ← currentBootID with
        | none => removeState
        | some bootID =>
          let journal := (← get).mem.cont.journal
          let pruned := pruneJournal journal now b.asOf
          modifyCont fun c => { c with journal := pruned }
          if pruned.length ≠ journal.length then
            let _ ← saveJournal
          let st := contStateOf env b (← get).mem bootID nowBoot now
          modifyCont fun c => { c with st := some st, dirty := true }
          if ← saveDue then saveState

def ContState.inScope (st : ContState) (m : Mode) : Bool :=
  m.active && st.tenantID == m.tenantID && st.siteID == m.siteID && st.applianceID == m.applianceID &&
    m.assignGen ≤ st.assignGen

/-- `contScopeOK`, and whether there is a record at all. -/
def contScopeOK : NetdM (Option ContState) := do
  let w ← get
  match w.mem.cont.st with
  | none => return none
  | some st =>
    if st.inScope w.mem.mode then return some st
    removeState
    return none

/-- The clock reading a tick begins with, before it waits for the lock. -/
def contTickRead (now : Nat) : NetdM Unit := do
  match ← bootNow with
  | none => return ()
  | some nowBoot => modify fun w => { w with tick := .read now nowBoot }

/-- The samples a future budget baseline is taken from. -/
def contSample (now : Nat) : NetdM Unit := do
  let w ← get
  if w.mem.cont.lastSample.all (fun t => contSampleEvery ≤ now - t) && w.mem.lastConverged.isSome then
    match ← countersOf (← managedBridges) with
    | none => return ()
    | some counters =>
      let sample : ContSample := ⟨now, counters, fun k => (w.mem.classes.lookup k).map (·.epoch)⟩
      modifyCont fun c => { c with samples := newest contSampleKeep (c.samples ++ [sample]), lastSample := some now }

/-- Phase 1 of `contTick`: healthy sampling, or the sessions to ask the database about. -/
def contTickBegin (now nowBoot : Nat) : NetdM Unit := do
  modify fun w => { w with tick := .idle }
  match ← contScopeOK with
  | none => return ()
  | some st =>
    if nowBoot - st.lastPlanBoot < contTakeoverAge then
      contSample now
      if (← get).mem.cont.dirty && (← saveDue) then saveState
    else
      let ids := st.sessions.entries.map (·.2.sessionID)
      modify fun w => { w with tick := .asking now nowBoot w.mem.mode.tenantID w.mem.mode.siteID ids }

def contProbeChunk : Nat := 400

/-- `NotEntitled`, chunk by chunk until one fails: what was answered before stands. -/
def probeChunks : List (List Bytes) → NetdM (List Bytes)
  | [] => return []
  | chunk :: rest => do
    let n ← call
    let w ← get
    if (w.env.outcome n 0).err then return []
    return chunk.filter (w.env.notEntitled n) ++ (← probeChunks rest)

/-- Phase 2: the database is asked without the lock. -/
def contTickProbe (now nowBoot : Nat) (tenantID siteID : Bytes) (ids : List Bytes) : NetdM Unit := do
  let out ← probeChunks (chunksOf contProbeChunk ids.length ids)
  modify fun w => { w with tick := .answered now nowBoot tenantID siteID out }

/-- Drop a session and queue its denial. -/
def dropAll (xs : List (Key × ContSess)) : NetdM (List ContSess) := do
  xs.forM fun x => dropSession x.1
  return xs.map (·.2)

/-- The sessions whose class can no longer be metered. -/
def unmetered (counters : Map Key ContCount) (x : Key × ContSess) : Bool :=
  x.2.base.isSome && !(counters x.1).any (·.epoch = x.2.epoch)

/-- 3a of `contTick`: deadline, the database's word, revocation. -/
def isOut (journal : List ContRevocation) (nowBoot : Nat) (notEntitled : List Bytes) (x : Key × ContSess) : Bool :=
  x.2.deadlineBoot ≤ nowBoot || x.2.sessionID ∈ notEntitled || revokedBy journal x.2

/-- The budget after metering: what is used never decreases. -/
def ContBudget.charge (b : ContBudget) (live : Nat) : ContBudget :=
  let used := max b.used (b.gone + live)
  { b with used, exhausted := b.exhausted || b.remaining ≤ 0 || b.remaining ≤ used }

def ContState.charge (st : ContState) (id : Bytes) (live : Nat) : ContState :=
  { st with
    budgets := match st.budgets.lookup id with
      | some b => st.budgets.insert id (b.charge live)
      | none => st.budgets }

/-- 3b of `contTick`: charge one entitlement; the sessions an exhausted one loses. -/
def chargeBudget (id : Bytes) : NetdM (List ContSess) := do
  let sessions ← contSessions
  let live := ((sessions.filter fun x => x.2.base.isSome && x.2.entitlementID == id).map (·.2.lastUsed)).sum
  modifyCont fun c => { c with st := c.st.map (·.charge id live) }
  let spent := ((← get).mem.cont.st.bind fun st => st.budgets.lookup id).any (·.exhausted)
  if spent then dropAll (sessions.filter fun x => x.2.entitlementID == id) else return []

/-- The lease 3d wants for a session, `none` when it is not renewed now. -/
def contWant (nowBoot now : Nat) (x : Key × ContSess) (ip : Ip) : NetdM (Option Nat) := do
  let want := min (x.2.deadlineBoot - nowBoot) phase3LeaseTTL
  if x.2.mac = [] then return some (wholeSeconds want)
  let ev ← if (← get).env.trim x.2.mac = [] then pure { state := .unknown } else evidence ip x.2.mac
  match ev.state with
  | .foreign =>
    dropSession x.1
    let _ ← denyAccess ⟨x.2.bridge, ip⟩
    return none
  | .unknown => return none
  | .owned => return some (wholeSeconds (ev.lapses.elim want fun t => min want (t - now)))

/-- 3d of `contTick` for one session: a lease is asked only where the element is present. -/
def contRenewal (view : GateView) (meterOK : Bool) (nowBoot now : Nat) (x : Key × ContSess) :
    NetdM (Option GateLease) := do
  match (← get).env.parseIP x.2.ip with
  | none =>
    dropSession x.1
    return none
  | some ip =>
    if x.2.base.isSome && !meterOK then return none
    match ← contWant nowBoot now x ip with
    | none => return none
    | some want =>
      if want < 1000 then return none
      match view.lookup ⟨x.2.bridge, ip⟩ with
      | some (some left) =>
        if needsRenewal left want then return some ⟨x.1, ⟨x.2.bridge, ip⟩, want⟩ else return none
      | _ => return none

/-- Drop the sessions whose class can no longer be metered, once the counters are read. -/
def dropUnmetered (counters : Option (Map Key ContCount)) : NetdM (List ContSess) := do
  match counters with
  | some counters => dropAll ((← contSessions).filter (unmetered counters))
  | none => return []

def chargeAll (meterOK : Bool) : NetdM (List ContSess) := do
  if meterOK then
    let spent ← (((← get).mem.cont.st.map fun st => st.budgets.keys).getD []).mapM chargeBudget
    return spent.flatten
  return []

/-- 3a to 3c of `contTick`: meter, drop what is out or spent and deny it; whether metering is possible. -/
def contDrop (st : ContState) (nowBoot : Nat) (notEntitled : List Bytes) : NetdM Bool := do
  let counters ← contRefreshUsage
  let meterOK := !st.hasBudgets || counters.isSome
  let lost ← dropUnmetered counters
  let journal := (← get).mem.cont.journal
  let out ← dropAll ((← contSessions).filter (isOut journal nowBoot notEntitled))
  let spent ← chargeAll meterOK
  (lost ++ out ++ spent).forM denySession
  return meterOK

/-- 3d of `contTick`: renew what is left, and save. -/
def contRenew (meterOK : Bool) (nowBoot now : Nat) : NetdM Unit := do
  let view ← snapshotGate
  let reqs ← (← contSessions).mapM (contRenewal view meterOK nowBoot now)
  let _ ← authorizeBatch reqs.reduceOption
  if (← get).mem.cont.dirty then saveState

/-- Phase 3 of `contTick`, under the lock: meter, drop, deny, renew. -/
def contTickApply (now nowBoot : Nat) (tenantID siteID : Bytes) (notEntitled : List Bytes) : NetdM Unit := do
  modify fun w => { w with tick := .idle }
  match ← contScopeOK with
  | none => return ()
  | some st =>
    let mode := (← get).mem.mode
    if mode.tenantID ≠ tenantID || mode.siteID ≠ siteID then return ()
    -- A plan may have arrived meanwhile: the plan path is back in charge.
    let fresh ← bootNow
    if fresh.all fun nb => nb - st.lastPlanBoot < contTakeoverAge then return ()
    contRenew (← contDrop st nowBoot notEntitled) nowBoot now

/-- `contRestore`: a record is kept only for the same boot, scope and assignment, and only when the
journal can be trusted. -/
def contRestore : NetdM Unit := do
  match ← query (·.disk.contJournal) with
  | none => removeState
  | some journal =>
    modifyCont fun c => { c with journal }
    match ← query (·.disk.contState) with
    | none => return ()
    | some none => return ()
    | some (some st) =>
      let bootID ← currentBootID
      let nowBoot ← bootNow
      let mode := (← get).mem.mode
      if bootID = some st.bootID && st.inScope mode && nowBoot.any (st.lastPlanBoot ≤ ·) then
        modifyCont fun c => { c with st := some st }
      else removeState

end StayConnect.Netd
