import StayConnect.Netd.Provision

/-!
# The batched pass

`phase3_batch.go` and `phase3_churn.go`: queued denials and lease writes and the points they are
flushed at, the order of work on one bridge (fail-closed work, renewals of unchanged sessions, new
sessions, the per-session path, re-proof), chunked admission and the deferred durable end records.
-/

namespace StayConnect.Netd

open Framing

/-- `phase3PassTimeout`, `phase3SoftBudget` and the reserves of the routine work. -/
def phase3PassTimeout : Nat := 120000
def phase3SoftBudget : Nat := 15000
def phase3RoutineReserve : Nat := 15000
def phase3EndBookkeepingReserve : Nat := 3000
def phase3MidPassRenewAfter : Nat := 8000
def phase3EndFailureLimit : Nat := 3

def batchChunk : Nat := 32

/-- `ctx.Err() != nil`: the budget of the pass is spent. -/
def ctxDone : NetdM Bool := do let w ← get; return w.pass.deadline ≤ w.clock

/-- Less than `reserve` of the pass budget is left. -/
def budgetBelow (reserve : Nat) : NetdM Bool := do let w ← get; return w.pass.deadline < w.clock + reserve

def pastSoftBudget : NetdM Bool := do let w ← get; return w.pass.start + phase3SoftBudget < w.clock

/-- Byte order, the order of `sort.Strings`. -/
def bytesLe : Bytes → Bytes → Bool
  | [], _ => true
  | _ :: _, [] => false
  | a :: as, b :: bs => a.toNat < b.toNat || (a.toNat == b.toNat && bytesLe as bs)

/-- `sortedKeys`: the distinct texts in byte order. -/
def sortedBytes (l : List Bytes) : List Bytes := l.dedup.insertionSort fun a b => bytesLe a b = true

/-- `abortBatch`: one tc batch and one read per device; what is not proven gone is aborted singly. -/
def abortBatch (bridge : Bytes) (items : List (PendingDeny × Nat)) : NetdM (List (Nat × Cleanup)) := do
  let nets := (← get).env.nets
  let derr ← deleteClassesBatch bridge (items.filterMap fun d => minorFor nets d.1.addr)
  let down ← readClasses bridge
  let up ← readClasses (ifbName bridge)
  items.mapM fun d => do
    let gone := !derr && match minorFor nets d.1.addr, down, up with
      | some m, some down, some up => !hasMinor down m && !hasMinor up m
      | _, _, _ => false
    if gone then return (d.2, .clean)
    return (d.2, ← abortTc d.1.addr)

/-- The report of one flushed denial. -/
def reportDeny (d : PendingDeny) (notRemoved : Bool) (tc : Cleanup) : NetdM Unit := do
  if d.quiet && !notRemoved && tc = .clean then
    modifyPass fun s => { s with res := { s.res with endedMidPass := s.res.endedMidPass + 1 } }
  else fail (.session d.session d.why notRemoved tc)

/-- Prove the denials, then tear the tc state of the aborted sessions down. -/
def carryDenials (items : List PendingDeny) : NetdM Unit := do
  let errs ← denyBatch (items.map (·.addr))
  let flushed := items.zip errs
  flushed.forM fun d => do
    if !d.1.abort && d.2 then problem (.holdNotRemoved d.1.session)
  let aborts := items.zipIdx.filter (·.1.abort)
  let cleanups ← (sortedBytes (aborts.map (·.1.addr.bridge))).mapM fun b =>
    abortBatch b (aborts.filter (·.1.addr.bridge = b))
  flushed.zipIdx.forM fun d => do
    if d.1.1.abort then reportDeny d.1.1 d.1.2 ((cleanups.flatten.lookup d.2).getD .clean)

def flushDenies : NetdM Unit := do
  let items := (← get).pass.denies
  if items = [] then return ()
  modifyPass fun s => { s with denies := [] }
  carryDenials items

/-- The outcome of one queued lease: a session whose lease cannot be written fails closed. -/
def noteRenewal (r : PendingRenew) (err : Bool) : NetdM Unit := do
  if err then failClosed r.addr r.sessionID (if r.known then .authorize else .renew)
  else modifyPass fun s => { s with renewed := Function.update s.renewed r.addr (some ()) }

def writeLeases (items : List PendingRenew) : NetdM Unit := do
  let errs ← authorizeBatch (items.map fun r => ⟨⟨r.addr.bridge, r.sessionID⟩, r.addr, r.want⟩)
  (items.zip errs).forM fun r => noteRenewal r.1 r.2

def flushRenewals : NetdM Unit := do
  let items := (← get).pass.renew.entries.map (·.2)
  if items = [] then return ()
  modifyPass fun s => { s with renew := ∅ }
  writeLeases items

/-- The sequence every urgent flush point runs. -/
def flushBoth : NetdM Unit := do
  flushRenewals
  flushDenies

/-- `proofFresh` of a session's class generation, at the boot clock read now (zero when unreadable). -/
def leaseWanted (c : Cand) (nowBoot : Nat) : NetdM Nat := do
  let m := (← get).mem
  if m.proofFresh c.key ((m.epochs c.key).getD 0) nowBoot then return c.lease
  return provisionalOrLess c.lease

/-- `steadyLease`: keep an unchanged session forwarding and remember it as renewable. -/
def steadyLease (c : Cand) (nowBoot : Nat) (view : GateView) (now : Nat) : NetdM Unit := do
  ownMinor c.s c.minor
  renewLease c (← leaseWanted c nowBoot) view now

/-- `renewAgain`: in a long pass, the second look at the leases of the unchanged sessions. -/
def renewAgain (steady : List Cand) (view : GateView) : NetdM Unit := do
  let w ← get
  let aged := w.clock - w.pass.start
  if steady = [] || aged < phase3MidPassRenewAfter then return ()
  let nowBoot := (← bootNow).getD 0
  steady.forM fun c => do
    if ((← get).pass.renewed c.addr).isNone then
      -- The lease the pass computed at its start has run down by the time the pass has taken.
      let want := (← leaseWanted c nowBoot) - aged
      if 1000 ≤ want then
        let _ ← assertLease c (wholeSeconds want) { view with aged }
  flushBoth

inductive WorkKind where
  | individual
  | fresh
  | steady
deriving DecidableEq, Repr

def classifySession (c : Cand) : NetdM WorkKind := do
  let m := (← get).mem
  let active := (m.epochs c.key).isSome
  let held := (m.classes.lookup c.key).isSome
  if (m.quarantined.lookup c.key).isSome then return .individual
  if c.s.shared then
    if !active || !held then return .individual
    if ← installedMatchesPlan c.s c.minor (← groupClassFor c.s.entitlementID) then return .steady
    return .individual
  match ← bothDevices readClassesForPass c.s.bridge with
  | none => return .individual
  | some (down, up) =>
    let d := hasMinor down c.minor
    let u := hasMinor up c.minor
    if active && held then
      if d && u then
        if ← installedMatchesPlan c.s c.minor none then return .steady
      return .individual
    if !active && !held && !d && !u then return .fresh
    return .individual

/-- Step 1 of `provisionBridgeBatched`: decide every session from memory and the DHCP evidence. -/
def precheckAll (bridge : Bytes) (now : Nat) : List (Nat × Wanted) → NetdM (List (WorkKind × Cand))
  | [] => return []
  | x :: rest => do
    if ← ctxDone then
      fail (.budgetExhausted bridge (rest.length + 1))
      return []
    match ← provisionPrecheck x.1 x.2 now with
    | none => precheckAll bridge now rest
    | some c =>
      let kind ← classifySession c
      return (kind, c) :: (← precheckAll bridge now rest)

/-- `admissionAllocs`: the generations of a chunk, then the series of previous occupants end. -/
def admissionAllocs (chunk : List Cand) : NetdM (List (Cand × Nat)) := do
  let slots ← chunk.mapM fun c => do
    match (← get).mem.pending c.key with
    | some e => return some e
    | none => allocEpoch
  let live ← (chunk.zip slots).mapM fun (c, slot) => do
    match slot with
    | none =>
      failSession c.s.sessionID .noGeneration
      return none
    | some e =>
      modifyMem fun m => { m with pending := Function.update m.pending c.key (some e) }
      endPrevious c.s c.minor
      return some (c, e)
  return live.reduceOption

/-- `admissionOrigins`: register the origins of a chunk from the counters read once for it. -/
def admissionOrigins (live : List (Cand × Nat)) : NetdM (List (Cand × Nat)) := do
  let verdicts ← live.mapM fun l => do
    if l.1.s.deviceID = [] then return Except.error Cause.originNoDevice
    return originVerdict (← registerClassOrigin)
  let reg ← (live.zip verdicts).mapM fun (l, v) => do
    match v with
    | .error why =>
      originFailed l.1 why
      return none
    | .ok () => return some l
  return reg.reduceOption

/-- The per-session path for sessions whose batch was refused. -/
def fallback (live : List (Cand × Nat)) (view : GateView) (now : Nat) : NetdM Unit :=
  live.forM fun l => provisionTail l.1 view now

/-- `prefetchActivations`: promotions asked ahead of the state machine that consumes them. -/
def prefetchActivations (asks : List (Key × Nat)) : NetdM Unit :=
  asks.forM fun a => do
    let r ← activate a.1 a.2
    modifyPass fun p => { p with activations := Function.update p.activations a.1 (some (a.2, r)) }

/-- The write-ahead records of a chunk and its provisional authorizations. -/
def authorizeStage (verified : List (Cand × Nat)) (nowBoot : Nat) : NetdM (List (Cand × Nat)) := do
  let begun ← verified.mapM fun l => do
    if ← beginAttempt l.1.key nowBoot then
      failClosed l.1.addr l.1.s.sessionID .attemptNotDurable
      return none
    return some l
  let begun := begun.reduceOption
  let errs ← authorizeBatch (begun.map fun l => ⟨l.1.key, l.1.addr, provisionalOrLess l.1.lease⟩)
  let authd ← (begun.zip errs).mapM fun (l, err) => do
    if err then
      failClosed l.1.addr l.1.s.sessionID .authorize
      return none
    return some l
  return authd.reduceOption

/-- The last part of `admitChunk`: provisional authorization, then the proof. -/
def authorizeChunk (verified : List (Cand × Nat)) (nowBoot : Nat) (view : GateView) (now : Nat) :
    NetdM Unit := do
  let authd ← authorizeStage verified nowBoot
  prefetchActivations (authd.map fun l => (l.1.key, l.2))
  authd.forM fun l => completeAdmission { l.1 with nowBoot } l.2 view now

/-- The filters of a chunk and what of it was verified as forwarding. -/
def verifyChunk (bridge : Bytes) (reg : List (Cand × Nat)) (down up : List (Nat × Class)) :
    NetdM (List (Cand × Nat)) := do
  let fw ← forwarding bridge
  let verified ← reg.mapM fun l => do
    if fw l.1.minor && hasMinor down l.1.minor && hasMinor up l.1.minor then return some l
    failClosed l.1.addr l.1.s.sessionID .postActivation
    return none
  return verified.reduceOption

/-- The classes of a chunk, in one batch. -/
def buildClasses (bridge : Bytes) (live : List (Cand × Nat)) : NetdM Bool := do
  if ← ensureBridgeInfra bridge then return true
  untilErr (fun l => addSessionClasses bridge l.1.minor l.1.s.downKbps l.1.s.upKbps none) live

/-- The classification filters of a chunk, in one batch. -/
def addFilters (bridge : Bytes) (reg : List (Cand × Nat)) : NetdM Bool :=
  untilErr (fun l => do
    if ← addFilter ⟨bridge, l.1.minor⟩ l.1.addr.ip then return true
    addFilter ⟨ifbName bridge, l.1.minor⟩ l.1.addr.ip) reg

/-- `admitChunk`: the staged admission of `provisionTail` for a chunk of new sessions at once. -/
def admitChunk (bridge : Bytes) (chunk : List Cand) (view : GateView) (now : Nat) : NetdM Unit := do
  let live ← admissionAllocs chunk
  if live = [] then return ()
  if ← buildClasses bridge live then
    fallback live view now
    return ()
  let down ← readClasses bridge
  let up ← readClasses (ifbName bridge)
  match down, up with
  | some down, some up =>
    let reg ← admissionOrigins live
    if reg = [] then return ()
    if ← addFilters bridge reg then
      fallback reg view now
      return ()
    let verified ← verifyChunk bridge reg down up
    match ← bootNow with
    | none => verified.forM fun l => failClosed l.1.addr l.1.s.sessionID .clockUnreadable
    | some nowBoot => authorizeChunk verified nowBoot view now
  | _, _ => live.forM fun l => failClosed l.1.addr l.1.s.sessionID .originUnreadable

/-- The chunks of `admitBatch`: what the soft budget leaves is first in line in the next pass. -/
def admitChunks (bridge : Bytes) (view : GateView) (now : Nat) (first : Bool) :
    List (List Cand) → NetdM Unit
  | [] => return ()
  | chunk :: rest => do
    if ← ctxDone then
      fail (.budgetExhausted bridge (chunk.length + (rest.map (·.length)).sum))
    else if !first && (← pastSoftBudget) then return ()
    else
      admitChunk bridge chunk view now
      flushBoth
      admitChunks bridge view now false rest

def chunksOf {α : Type} (n : Nat) : Nat → List α → List (List α)
  | 0, _ => []
  | _, [] => []
  | fuel + 1, l => l.take n :: chunksOf n fuel (l.drop n)

def admitBatch (bridge : Bytes) (cands : List Cand) (view : GateView) (now : Nat) : NetdM Unit :=
  admitChunks bridge view now true (chunksOf batchChunk cands.length cands)

/-- The loop of `runIndividual` over the sessions from the cursor on; it returns how many it handled. -/
def runFrom (bridge : Bytes) (view : GateView) (now : Nat) : Nat → List Cand → NetdM Nat
  | done, [] => return done
  | done, c :: rest => do
    if ← ctxDone then
      fail (.budgetExhausted bridge (rest.length + 1))
      return done
    if 0 < done && (← pastSoftBudget) then return done
    provisionTail c view now
    runFrom bridge view now (done + 1) rest

/-- `runIndividual`: it resumes where the previous pass stopped. -/
def runIndividual (bridge : Bytes) (indiv : List Cand) (view : GateView) (now : Nat) : NetdM Unit := do
  if indiv = [] then return ()
  let m := (← get).mem
  prefetchActivations <| indiv.filterMap fun c =>
    if (m.classes.lookup c.key).isSome then (m.epochs c.key).map fun e => (c.key, e) else none
  let start := (← get).mem.indivCursor bridge % indiv.length
  let done ← runFrom bridge view now 0 (indiv.rotate start)
  modifyMem fun m => { m with indivCursor := Function.update m.indivCursor bridge (start + done) }

/-- `reproveSteady`: re-read durable state for the sessions whose proof has aged. -/
def reproveSteady (steady : List Cand) (view : GateView) (now : Nat) : NetdM Unit := do
  if ← pastSoftBudget then return ()
  match ← bootNow with
  | none => return ()
  | some nowBoot =>
    let m := (← get).mem
    let due := steady.filter fun c => !m.recentlyProven c.key ((m.epochs c.key).getD 0) nowBoot
    let answers ← due.mapM fun _ => confirm
    (due.zip answers).forM fun (c, answer) => do
      if answer = some true then
        noteAnswered c.key (((← get).mem.epochs c.key).getD 0) nowBoot
      else provisionTail c view now

/-- `provisionBridgeBatched`: step 3 of the pass for one bridge, in priority order. -/
def provisionBridgeBatched (bridge : Bytes) (byMinor : List (Nat × Wanted)) (view : GateView) (now : Nat) :
    NetdM Unit := do
  let work ← precheckAll bridge now byMinor
  let pick (k : WorkKind) : List Cand := (work.filter (·.1 = k)).map (·.2)
  flushDenies
  let nowBoot := (← bootNow).getD 0
  (pick .steady).forM fun c => steadyLease c nowBoot view now
  flushBoth
  admitBatch bridge (pick .fresh) view now
  runIndividual bridge (pick .individual) view now
  renewAgain (pick .steady) view
  flushBoth
  if pick .steady = [] then return ()
  if (← ctxDone) || (← budgetBelow phase3RoutineReserve) then return ()
  reproveSteady (pick .steady) view now
  flushBoth

/-- `queueEnd`: whether the end record is already written. -/
def queueEnd (k : Key) : NetdM Bool := do
  if (← get).pass.batched then
    modifyPass fun s => { s with ends := s.ends ++ [⟨k, k.session⟩] }
    return false
  else markEnded

/-- The records of `finishEnds`, given up after `phase3EndFailureLimit` failures. -/
def recordEnds : Nat → List PendingEnd → NetdM Unit
  | _, [] => return ()
  | failures, e :: rest => do
    if phase3EndFailureLimit ≤ failures then return ()
    if ← markEnded then
      modifyMem fun m => { m with endedTorn := Function.update m.endedTorn e.key (some ()) }
      recordEnds failures rest
    else recordEnds (failures + 1) rest

def finishEnds : NetdM Unit := do
  let items := (← get).pass.ends
  modifyPass fun s => { s with ends := [] }
  if (← ctxDone) || (← pastSoftBudget) || (← budgetBelow phase3EndBookkeepingReserve) then return ()
  recordEnds 0 items

end StayConnect.Netd
