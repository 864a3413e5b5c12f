import StayConnect.Iam.Usage
import Mathlib.Data.Prod.Lex

/-!
# The accounting writers

`register_class_origin` and `ingest_absolute_counters` turn absolute class counters into samples; sessions
open, move and close the bindings that attribute them; the roll-up and the purge condense them; and
`p6_advance_data_crossing` keeps the crossing checkpoints. Where a statement takes an unordered `LIMIT` or
stops on a time budget, the rows it picked are an argument, and a pick the statement could not make is
refused.
-/

namespace StayConnect.Iam
open Keyed

/-- The order of the instants, by an instance that computes. -/
local instance preorderInt : Preorder Int := Int.instLinearOrder.toPreorder

/-- The arguments of `register_class_origin` and `ingest_absolute_counters`; an absent one is `NULL`. -/
structure Observation where
  scope : Scope
  session : Nat
  sourceDevice : Option Nat
  bridge : Option String
  classMinor : Option Int
  epoch : Option Int
  up : Option Int
  down : Option Int
  time : Option Int

/-- The unique key of a checkpoint: the session and the source of its counters. -/
structure Series where
  session : Nat
  device : Nat
  bridge : String
  minor : Int
  deriving DecidableEq, Repr

def Checkpoint.series (c : Checkpoint) : Series := ⟨c.session, c.sourceDevice, c.bridge, c.classMinor⟩

/-- What `register_class_origin` returns. -/
inductive OriginResult where
  | originRegistered
  | originUnchanged
  | originReset

/-- What `ingest_absolute_counters` returns; `replay` carries the persisted classification. -/
inductive IngestResult where
  | baselined
  | resetBaselined
  | replay (delayed : Bool)
  | duplicate
  | accepted
  | delayed

/-- `p_abs_up IS NULL OR p_abs_down IS NULL OR p_abs_up < 0 OR p_abs_down < 0`. -/
def nonNegative : Option Int → Option Int → IamM (Nat × Nat)
  | some up, some down => if 0 ≤ up ∧ 0 ≤ down then pure (up.toNat, down.toNat) else throw .invalid
  | _, _ => throw .invalid

def sessionInScope (scope : Scope) (session : Nat) : IamM Session := do
  let db ← get
  match db.sessions.find? fun s => s.id = session ∧ s.scope = scope with
  | some s => pure s
  | none => throw .sessionOutOfScope

def Checkpoint.opened (scope : Scope) (k : Series) (epoch : Int) (up down : Nat) (time : Int) : Checkpoint :=
  { scope, session := k.session, sourceDevice := k.device, bridge := k.bridge, classMinor := k.minor,
    sourceEpoch := epoch, prevBytesUp := up, prevBytesDown := down, prevSampledAt := time, lastRecord := none,
    lastClassification := .baselined, lastSampleSeq := 0 }

/-- A replaced class: its counters restart from the given ones. -/
def Checkpoint.rebased (c : Checkpoint) (epoch : Int) (up down : Nat) (time : Int) : Checkpoint :=
  { c with sourceEpoch := epoch, prevBytesUp := up, prevBytesDown := down, prevSampledAt := time,
           lastClassification := .resetBaselined }

namespace Db

variable (db : Db)

def checkpoint (k : Series) : Option Checkpoint := lookup Checkpoint.series k db.checkpoints

/-- `UPDATE accounting_checkpoints .. WHERE id = cp.id`. -/
def setCheckpoint (k : Series) (f : Checkpoint → Checkpoint) : Db :=
  { db with checkpoints := db.checkpoints.map fun c => if c.series = k then f c else c }

/-- The next `sample_seq`: above every raw sample and every sequence a checkpoint remembers. -/
def nextSampleSeq (session : Nat) : Nat :=
  max (((db.samples.filter (·.session == session)).map (·.sampleSeq)).max?.getD 0)
    (((db.checkpoints.filter (·.session == session)).map (·.lastSampleSeq)).max?.getD 0) + 1

/-- `p3_detect_delayed_accounting`: the earliest watermark of the entitlement at or after the instant. -/
def frozenBy (e : Nat) (t : Int) : Option BoundaryWatermark :=
  (db.watermarks.filter fun w => w.entitlement == e && decide (t ≤ w.boundaryAt)).argmin (·.boundaryAt)

/-- The rows an accepted delta writes: the sample, the frozen-period note, the totals of the session and of
the entitlement, and the checkpoint. -/
def recordDelta (k : Series) (r : Sample) (e : Nat) (up down : Nat) : Db :=
  let frozen := db.frozenBy e r.sampledAt
  { db with
    samples := db.samples ++ [r]
    delayed := frozen.elim db.delayed fun w =>
      db.delayed ++ [⟨r.id, r.session, e, w.id, r.sampledAt, r.bytesUp, r.bytesDown⟩]
    sessions := db.sessions.map fun s => if s.id = r.session then
      { s with bytesUp := s.bytesUp + r.bytesUp, bytesDown := s.bytesDown + r.bytesDown } else s
    entitlements := db.entitlements.map fun x => if x.id = e then
      { x with consumedDataBytes := x.consumedDataBytes + r.bytes, usageVersion := x.usageVersion + 1 } else x
    checkpoints := db.checkpoints.map fun c => if c.series = k then
      { c with prevBytesUp := up, prevBytesDown := down, prevSampledAt := r.sampledAt, lastRecord := some r.id,
               lastClassification := if frozen.isSome then .delayed else .accepted,
               lastSampleSeq := r.sampleSeq } else c }

end Db

def registerClassOrigin (o : Observation) : IamM OriginResult := do
  let (up, down) ← nonNegative o.up o.down
  match o.epoch, o.time with
  | some epoch, some time =>
    require (1 ≤ epoch) .invalid
    let s ← sessionInScope o.scope o.session
    require (s.ended = none) .sessionOutOfScope
    let db ← get
    require (o.sourceDevice = some s.device ∧ s.ingressInterface = o.bridge ∧
      db.p3ExpectedClassMinor s.ip = o.classMinor) .sourceMismatch
    match o.bridge, o.classMinor with
    | some bridge, some minor =>
      let k : Series := ⟨s.id, s.device, bridge, minor⟩
      match db.checkpoint k with
      | none =>
        modify fun db => { db with checkpoints := db.checkpoints ++ [.opened o.scope k epoch up down time] }
        return .originRegistered
      | some cp =>
        require (cp.sourceEpoch ≤ epoch) .staleEpoch
        if epoch = cp.sourceEpoch then
          return .originUnchanged
        else
          modify fun db => db.setCheckpoint k (·.rebased epoch up down time)
          return .originReset
    -- a checkpoint without a bridge or a class is refused by its column
    | _, _ => throw (.constraint "accounting_checkpoints_not_null")
  | _, _ => throw .invalid

/-- The delta of an observation whose counters grew, attributed at sample time. -/
def acceptDelta (o : Observation) (s : Session) (k : Series) (cp : Checkpoint) (up down : Nat) (time : Int) :
    IamM IngestResult := do
  let db ← get
  match db.p3EntitlementAt s.id time with
  | none => throw .noBinding
  | some e =>
    let id ← genRandomUuid
    let r : Sample :=
      { id, scope := o.scope, session := s.id, sampleSeq := db.nextSampleSeq s.id, bytesUp := up - cp.prevBytesUp,
        bytesDown := down - cp.prevBytesDown, sampledAt := time, ingestedAt := db.now }
    require (∀ r' ∈ db.samples, r'.id ≠ id) (.constraint "accounting_records_pkey")
    requireBigint (s.bytesUp + r.bytesUp)
    requireBigint (s.bytesDown + r.bytesDown)
    require (∀ x ∈ db.entitlements, x.id = e → (x.consumedDataBytes + r.bytes : Int) ≤ bigintMax) .outOfRange
    modify fun db => db.recordDelta k r e up down
    return if (db.frozenBy e time).isSome then .delayed else .accepted

/-- The part of `ingest_absolute_counters` under the checkpoint lock. -/
def ingestAgainst (o : Observation) (s : Session) (k : Series) (cp : Checkpoint) (epoch : Int) (up down : Nat)
    (time : Int) : IamM IngestResult := do
  require (cp.sourceEpoch ≤ epoch) .staleEpoch
  if cp.sourceEpoch < epoch then
    modify fun db => db.setCheckpoint k (·.rebased epoch up down time)
    return .resetBaselined
  else
    require (cp.prevSampledAt ≤ time) .staleSample
    if up = cp.prevBytesUp ∧ down = cp.prevBytesDown then
      return match cp.lastClassification with
        | .accepted => .replay false
        | .delayed => .replay true
        | _ => .duplicate
    else
      require (cp.prevBytesUp ≤ up ∧ cp.prevBytesDown ≤ down) .counterRegression
      acceptDelta o s k cp up down time

def ingestAbsoluteCounters (o : Observation) : IamM IngestResult := do
  let (up, down) ← nonNegative o.up o.down
  match o.time, o.bridge, o.classMinor, o.epoch with
  | some time, some bridge, some minor, some epoch =>
    require (bridge ≠ "") .invalid
    let s ← sessionInScope o.scope o.session
    let db ← get
    require (o.sourceDevice = some s.device) .sourceMismatch
    require (s.ingressInterface = some bridge) .sourceMismatch
    require (s.ip.isSome) .sourceMismatch
    require (db.p3ExpectedClassMinor s.ip = some minor) .sourceMismatch
    require (s.started ≤ time) .invalid
    require (s.ended = none) .sessionOutOfScope
    let k : Series := ⟨s.id, s.device, bridge, minor⟩
    match db.checkpoint k with
    | none =>
      modify fun db => { db with checkpoints := db.checkpoints ++ [.opened o.scope k epoch up down time] }
      return .baselined
    | some cp => ingestAgainst o s k cp epoch up down time
  | _, _, _, _ => throw .invalid

def Db.opened (db : Db) (s : Session) (id : Nat) : Db :=
  { db with
    sessions := db.sessions ++ [{ s with ended := none, bytesUp := 0, bytesDown := 0 }]
    bindings := db.bindings ++ [⟨id, s.id, s.entitlement, 1, s.started, none⟩] }

/-- Inserting a session opens its first binding (`p3_session_open_binding`). -/
def openSession (s : Session) : IamM Unit := do
  let db ← get
  require (∀ s' ∈ db.sessions, s'.id ≠ s.id) (.constraint "sessions_pkey")
  let id ← genRandomUuid
  require (∀ b ∈ db.bindings, b.id ≠ id) (.constraint "session_entitlement_bindings_pkey")
  require (∀ b ∈ db.bindings, b.session ≠ s.id) (.constraint "p3_seb_insert_guard")
  modify fun db => db.opened s id

/-- A binding of the session that is still open closes at the instant, never before it opened. -/
def Binding.closed (b : Binding) (session : Nat) (t : Int) : Binding :=
  if b.session = session ∧ b.boundUntil = none then { b with boundUntil := some (max t b.boundFrom) } else b

/-- Ending a session closes its open binding at the same instant (`p3_session_close_binding`). -/
def Db.endSession (db : Db) (session : Nat) (t : Int) (reason : String) : Db :=
  { db with
    sessions := db.sessions.map fun s => if s.id = session then
      { s with state := .ended, ended := some t, endReason := some reason } else s
    bindings := if db.sessions.any fun s => s.id == session && s.ended.isNone
      then db.bindings.map (·.closed session t) else db.bindings }

/-- The bytes of the hour tier from the hour of `t` on that are no longer raw. -/
def Db.foldedGap (db : Db) (scope : Scope) (session : Nat) (t : Int) : Nat × Nat :=
  let hours := db.hours.filter fun h => h.session == session && decide (truncHour t ≤ h.bucket)
  let raw := db.samples.filter fun r => r.session == session && decide (truncHour t ≤ r.sampledAt) &&
    (db.rolledUpTo scope).any (r.ingestedAt < ·)
  (total (fun h => h.bytesUp + h.bytesDown) hours - total Sample.bytes raw, total (·.samples) hours - raw.length)

def FoldedUsage.key (a : FoldedUsage) : Nat × Int × Arm := (a.entitlement, a.bucket, a.arm)

/-- The conservative charge of a binding written into folded history. -/
def Db.chargeGap (db : Db) (scope : Scope) (e : Nat) (t : Int) (gap records : Nat) : Db :=
  { db with
    folded := upsert (fun a => a.key = (e, truncHour t, .interval))
      ⟨scope, e, .interval, truncHour t, 0, gap, records, t, false⟩
      (fun a => { a with bytesDown := a.bytesDown + gap, records := a.records + records,
                         latestSampledAt := max a.latestSampledAt t, exact := false }) db.folded }

def Db.examined (db : Db) (b : Binding) : Nat :=
  (db.progressOf b).elim 0 fun p => total Sample.bytes ((db.covered b).filter fun r => r.sampleSeq ≤ p.examinedSeq)

def Db.progressRows (db : Db) (e : Nat) : List CrossingProgress := db.progress.filter (·.entitlement == e)

/-- The checkpoint row that carries what belongs to no single binding. -/
def Db.firstCheckpoint (db : Db) (e : Nat) : Option Nat :=
  ((db.progressRows e).map (·.binding)).min?

/-- What a checkpoint must include: the folded bytes and the raw ones already examined. -/
def Db.due (db : Db) (e : Nat) : Nat :=
  total FoldedUsage.bytes (db.foldedOf e .interval) + total db.examined (db.bindingsOf e)

/-- The checkpoint lifted by what it lacks, on the row of the given binding. -/
def Db.lift (db : Db) (e : Nat) (b : Binding) (lack : Nat) : Db :=
  { db with
    progress := upsert (fun p => p.binding = b.id) ⟨b.id, e, b.session, 0, lack, false⟩
      (fun p => { p with countedBytes := p.countedBytes + lack }) db.progress }

def Db.lack (db : Db) (e : Nat) : Nat := db.due e - total (·.countedBytes) (db.progressRows e)

/-- `p6_reconcile_crossing_checkpoint`: the bytes it added. -/
def reconcileCrossingCheckpoint (e : Nat) : IamM Nat := do
  let db ← get
  if db.entitlements.any (·.id == e) ∧ 0 < db.lack e then
    match (db.firstCheckpoint e).or (((db.bindingsOf e).argmin fun b => toLex (b.boundFrom, b.id)).map (·.id)) with
    | none => return 0
    | some first =>
      match lookup Binding.id first db.bindings with
      | none => throw (.constraint "data_crossing_progress_not_null")
      | some b =>
        modify fun db => db.lift e b (db.lack e)
        return db.lack e
  else
    return 0

def Db.headBinding (db : Db) (session : Nat) : Option Binding :=
  (db.bindings.filter (·.session == session)).argmax (·.seq)

def Db.moved (db : Db) (session e : Nat) (t : Int) (id : Nat) : Db :=
  { db with
    bindings := db.bindings.map (·.closed session t) ++
      [⟨id, session, e, (db.headBinding session).elim 0 (·.seq) + 1, t, none⟩]
    sessions := db.sessions.map fun s => if s.id = session then { s with entitlement := e } else s }

/-- The binding part of `rebind_session_entitlement`. -/
def moveBinding (session e : Nat) (t : Int) : IamM (Session × Nat) := do
  let db ← get
  match lookup Session.id session db.sessions with
  | none => throw .notFound
  | some s =>
    require (db.entitlements.any fun x => x.id == e && decide (x.scope = s.scope)) .notFound
    require (∀ b ∈ db.bindings, b.session = session → b.boundUntil = none → b.boundFrom ≤ t)
      .bindingPrecedesOpenInterval
    -- `p3_seb_insert_guard`: the next interval does not begin before the last one closed
    require ((db.headBinding session).all fun b => b.boundUntil.all (· ≤ t)) (.constraint "p3_seb_insert_guard")
    let id ← genRandomUuid
    require (∀ b ∈ db.bindings, b.id ≠ id) (.constraint "session_entitlement_bindings_pkey")
    -- `p6_session_requires_authorized_binding`
    require (s.state = .ended ∨
      db.devices.any fun d => d.entitlement == e && d.device == s.device && decide (d.status = .authorized))
      (.constraint "p6_session_requires_authorized_binding")
    modify fun db => db.moved session e t id
    return (s, id)

/-- The retention part of `rebind_session_entitlement`: an interval that begins before the raw retention is
charged with the folded bytes it may take over. -/
def chargeFoldedHistory (s : Session) (e : Nat) (t : Int) : IamM Unit := do
  let db ← get
  if t < db.now - day ∧ t < db.now - (db.rollupSettings s.scope).rawRetentionDays * day then
    if 0 < (db.foldedGap s.scope s.id t).1 then
      modify fun db => db.chargeGap s.scope e t (db.foldedGap s.scope s.id t).1 (db.foldedGap s.scope s.id t).2
      let _ ← reconcileCrossingCheckpoint e

/-- `rebind_session_entitlement`: the id of the new binding. -/
def rebindSessionEntitlement (session e : Nat) (t : Int) : IamM Nat := do
  let (s, id) ← moveBinding session e t
  chargeFoldedHistory s e t
  return id

def addToHour (hours : List TierUsage) (r : Sample) : List TierUsage :=
  upsert (fun h => (h.session, h.bucket) = (r.session, truncHour (truncMinute r.sampledAt)))
    ⟨r.scope, r.session, truncHour (truncMinute r.sampledAt), r.bytesUp, r.bytesDown, 1⟩
    (fun h => { h with bytesUp := h.bytesUp + r.bytesUp, bytesDown := h.bytesDown + r.bytesDown,
                       samples := h.samples + 1 }) hours

/-- `rollup_accounting_usage`: one window of samples, by ingestion time, into the hour tier. -/
def rollupAccountingUsage (scope : Scope) (window : Int) : IamM Nat := do
  require (60 * second ≤ window ∧ window ≤ 7 * day) .windowRequired
  let db ← get
  let mine := db.samples.filter fun r => decide (r.scope = scope)
  match (db.rolledUpTo scope).or (mine.map (·.ingestedAt)).min? with
  | none => return 0
  | some start =>
    let cap := db.now - 60 * second
    if cap ≤ start then return 0
    match ((mine.filter fun r => start ≤ r.ingestedAt ∧ r.ingestedAt < cap).map (·.ingestedAt)).min? with
    | none =>
      modify fun db => { db with rolledUpTo := Function.update db.rolledUpTo scope (some cap) }
      return 0
    | some next =>
      let stop := min cap (next + window)
      let src := mine.filter fun r => next ≤ r.ingestedAt ∧ r.ingestedAt < stop
      modify fun db => { db with
        hours := src.foldl addToHour db.hours
        rolledUpTo := Function.update db.rolledUpTo scope (some stop) }
      return src.length

def foldInto (scope : Scope) (r : Sample) (folded : List FoldedUsage) (owner : Nat × Arm) : List FoldedUsage :=
  upsert (fun a => a.key = (owner.1, truncHour r.sampledAt, owner.2))
    ⟨scope, owner.1, owner.2, truncHour r.sampledAt, r.bytesUp, r.bytesDown, 1, r.sampledAt, true⟩
    (fun a => { a with bytesUp := a.bytesUp + r.bytesUp, bytesDown := a.bytesDown + r.bytesDown,
                       records := a.records + 1, latestSampledAt := max a.latestSampledAt r.sampledAt }) folded

/-- The entitlements and arms a deleted sample is folded into. -/
def Db.attribution (db : Db) (r : Sample) : List (Nat × Arm) :=
  let mine := db.bindings.filter (·.session == r.session)
  (mine.filter (·.covers r.sampledAt)).map (fun b => (b.entitlement, Arm.interval)) ++
    (if db.bound r.session r.sampledAt then []
      else (mine.filter (·.closesAt r.sampledAt)).map fun b => (b.entitlement, Arm.closingInstant)) ++
    (if mine.isEmpty then
      (db.sessions.filter (·.id == r.session)).map fun s => (s.entitlement, Arm.noBinding) else [])

/-- A sample leaves the raw table and enters the accumulator. -/
def Db.foldSample (scope : Scope) (db : Db) (r : Sample) : Db :=
  { db with
    samples := db.samples.erase r
    folded := (db.attribution r).foldl (foldInto scope r) db.folded }

/-- What an unordered `LIMIT batch` may pick from the eligible rows. -/
def picks {α : Type} [DecidableEq α] (batch : Nat) (eligible picked : List α) : Prop :=
  picked.Nodup ∧ (∀ x ∈ picked, x ∈ eligible) ∧ picked.length = min batch eligible.length

instance {α : Type} [DecidableEq α] (batch : Nat) (eligible picked : List α) :
    Decidable (picks batch eligible picked) := by
  unfold picks
  infer_instance

/-- A delete loop: it goes on while its batches are full and stops for the budget after any batch. -/
def deleteLoop {α : Type} (batch : Nat) (delete : List α → IamM Unit) : List (List α) → IamM Unit
  | [] => pure ()
  | [last] => delete last
  | picked :: rest => do
    delete picked
    require (picked.length = batch) (.constraint "exit when v_n < p_batch")
    deleteLoop batch delete rest

/-- One tier-1 statement: the picked samples are deleted and folded. -/
def purgeRawBatch (scope : Scope) (cut : Int) (batch : Nat) (picked : List Sample) : IamM Unit := do
  let db ← get
  require (picks batch (db.samples.filter fun r => decide (r.scope = scope) && decide (r.ingestedAt < cut)) picked)
    (.constraint "limit p_batch")
  modify fun db => picked.foldl (Db.foldSample scope) db

/-- The hour rows tier 3 may delete. -/
def Db.finishedHours (db : Db) (scope : Scope) (cut : Int) : List TierUsage :=
  db.hours.filter fun h => decide (h.scope = scope) && decide (h.bucket < cut) &&
    (lookup Session.id h.session db.sessions).any fun s => s.ended.any (· < cut) &&
      (lookup Entitlement.id s.entitlement db.entitlements).any fun e => decide (e.status = .terminated) &&
        db.bindings.all fun b => b.session != h.session ||
          (lookup Entitlement.id b.entitlement db.entitlements).all fun be => decide (be.status = .terminated)

/-- The accumulator rows tier 3 may delete: of a terminated entitlement, all of whose sessions, by binding
or by current pointer, ended before the cut-off. -/
def Db.finishedFolded (db : Db) (scope : Scope) (cut : Int) : List FoldedUsage :=
  db.folded.filter fun a => decide (a.scope = scope) && decide (a.bucket < cut) &&
    (lookup Entitlement.id a.entitlement db.entitlements).any (fun e => decide (e.status = .terminated)) &&
    (db.bindings.all fun b => b.entitlement != a.entitlement ||
      (lookup Session.id b.session db.sessions).all fun s => s.ended.any (· < cut)) &&
    db.sessions.all fun s => s.entitlement != a.entitlement || s.ended.any (· < cut)

def purgeHourBatch (scope : Scope) (cut : Int) (batch : Nat) (picked : List TierUsage) : IamM Unit := do
  let db ← get
  require (picks batch (db.finishedHours scope cut) picked) (.constraint "limit p_batch")
  modify fun db => { db with hours := db.hours.filter fun h => !decide (h ∈ picked) }

def purgeFoldedBatch (scope : Scope) (cut : Int) (batch : Nat) (picked : List FoldedUsage) : IamM Unit := do
  let db ← get
  require (picks batch (db.finishedFolded scope cut) picked) (.constraint "limit p_batch")
  modify fun db => { db with folded := db.folded.filter fun a => !decide (a ∈ picked) }

/-- The rows one purge run deletes; a loop the budget skips has no batch. -/
structure PurgePicks where
  raw : List (List Sample)
  hours : List (List TierUsage)
  folded : List (List FoldedUsage)

/-- Tier 1: raw samples that have been rolled up. -/
def purgeRaw (scope : Scope) (batch : Nat) (picked : List (List Sample)) : IamM Unit := do
  let db ← get
  match db.rolledUpTo scope with
  | none => require (picked = []) (.constraint "v_wm is null")
  | some watermark =>
    deleteLoop batch
      (purgeRawBatch scope (min (db.now - (db.rollupSettings scope).rawRetentionDays * day) watermark) batch) picked

/-- Tier 3: hour rows and accumulator rows past the usage-detail retention. -/
def purgeFinished (scope : Scope) (batch : Nat) (hours : List (List TierUsage)) (folded : List (List FoldedUsage)) :
    IamM Unit := do
  let db ← get
  match db.detailRetentionDays scope with
  | none => require (hours = [] ∧ folded = []) (.constraint "v_days is null")
  | some days =>
    deleteLoop batch (purgeHourBatch scope (db.now - days * day) batch) hours
    deleteLoop batch (purgeFoldedBatch scope (db.now - days * day) batch) folded

/-- `purge_accounting_detail`, without the minute tier: the number of rows it deleted. -/
def purgeAccountingDetail (scope : Scope) (batch : Nat) (picked : PurgePicks) : IamM Nat := do
  require (1 ≤ batch ∧ batch ≤ 100000) .batchRequired
  purgeRaw scope batch picked.raw
  purgeFinished scope batch picked.hours picked.folded
  return picked.raw.flatten.length + picked.hours.flatten.length + picked.folded.flatten.length

def Db.examinedSeq (db : Db) (b : Binding) : Nat := (db.progressOf b).elim 0 (·.examinedSeq)

def Db.later (db : Db) (b : Binding) : List Sample :=
  db.samples.filter fun r => r.session == b.session && decide (db.examinedSeq b < r.sampleSeq)

def Db.examine (db : Db) (e : Nat) (b : Binding) (final : Bool) : Db :=
  let new := total Sample.bytes ((db.later b).filter fun r => b.covers r.sampledAt)
  let reached := ((db.later b).map (·.sampleSeq)).max?.getD (db.examinedSeq b)
  { db with
    progress := upsert (fun p => p.binding = b.id) ⟨b.id, e, b.session, reached, new, final⟩
      (fun p => { p with examinedSeq := max p.examinedSeq reached, countedBytes := p.countedBytes + new, final })
      db.progress }

/-- One binding of `p6_advance_data_crossing`; a final checkpoint is not read again. -/
def examineBinding (e : Nat) (b : Binding) : IamM Unit := do
  let db ← get
  match lookup Session.id b.session db.sessions with
  | none => pure ()
  | some s =>
    if (db.progressOf b).any (·.final) then
      pure ()
    else
      modify fun db => db.examine e b (s.ended.any (· < db.now - 300 * second))

def Db.recounted (db : Db) (p : CrossingProgress) : Nat :=
  total Sample.bytes (db.samples.filter fun r => r.session == p.session && decide (r.sampleSeq ≤ p.examinedSeq) &&
    (lookup Binding.id p.binding db.bindings).any fun b => b.covers r.sampledAt)

/-- The folded bytes, carried by the first checkpoint row. -/
def Db.carried (db : Db) (e : Nat) (p : CrossingProgress) : Nat :=
  if db.firstCheckpoint e = some p.binding then total FoldedUsage.bytes (db.foldedOf e .interval) else 0

/-- The exact recount of an overstated checkpoint. -/
def Db.recount (db : Db) (e : Nat) : Db :=
  { db with
    progress := db.progress.map fun p => if p.entitlement = e then
      { p with countedBytes := db.recounted p + db.carried e p } else p }

/-- `data_crossing_state` of the entitlement. -/
def Db.setCrossing (db : Db) (e : Nat) (q : Int) (t : Option Int) : Db :=
  { db with
    crossings := upsert (fun s => s.entitlement = e) ⟨e, q, t⟩
      (fun s => { s with quotaBytes := q, crossedAt := t }) db.crossings }

/-- One entitlement of `p6_advance_data_crossing`. -/
def advanceEntitlement (e : Nat) (q : Int) : IamM Unit := do
  let db ← get
  (db.bindingsOf e).forM (examineBinding e)
  modify fun db =>
    if q ≤ total (·.countedBytes) (db.progressRows e) then
      match db.p6DataCrossingFull e with
      | none => (db.recount e).setCrossing e q none
      | some t => db.setCrossing e q (some t)
    else db

/-- The live quota-bearing entitlements of the site without an established crossing. -/
def Db.uncrossed (db : Db) (scope : Scope) : List (Nat × Int) :=
  db.entitlements.filterMap fun x =>
    if x.scope = scope ∧ x.status ≠ .terminated then
      (db.quotaOf x).bind fun q =>
        if db.crossings.any fun s => s.entitlement == x.id && s.crossedAt.isSome && decide (s.quotaBytes = q)
        then none else some (x.id, q)
    else none

/-- `p6_advance_data_crossing`: the number of entitlements it examined. -/
def p6AdvanceDataCrossing (scope : Scope) : IamM Nat := do
  let db ← get
  (db.uncrossed scope).forM fun x => advanceEntitlement x.1 x.2
  return (db.uncrossed scope).length

end StayConnect.Iam
